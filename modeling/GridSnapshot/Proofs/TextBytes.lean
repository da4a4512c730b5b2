import GridSnapshot.RunRecipe
import GridSnapshot.Proofs.Outcome

namespace GridSnapshot.TextBytes

theorem toList_loop (bs : ByteArray) (i : Nat) (r : List UInt8) :
    ByteArray.toList.loop bs i r = r.reverse ++ bs.data.toList.drop i := by
  by_cases h : i < bs.size
  · have hget : bs.data.toList.drop i = bs.get! i :: bs.data.toList.drop (i + 1) := by
      have hlt : i < bs.data.toList.length := h
      have hi : bs.get! i = bs.data.toList[i] := getElem!_pos bs.data i h
      rw [hi]
      exact List.drop_eq_getElem_cons hlt
    rw [ByteArray.toList.loop, if_pos h, toList_loop bs (i + 1), hget]
    simp
  · have hle : bs.data.toList.length ≤ i := Nat.le_of_not_lt h
    rw [ByteArray.toList.loop, if_neg h, List.drop_eq_nil_of_le hle, List.append_nil]
  termination_by bs.size - i

theorem toList_eq (bs : ByteArray) : bs.toList = bs.data.toList :=
  toList_loop bs 0 []

theorem toByteArray_toList (bs : ByteArray) : bs.toList.toByteArray = bs := by
  rw [toList_eq]
  exact ByteArray.ext (by simp)

theorem fromUTF8?_textBytes (s : String) :
    String.fromUTF8? (RunRecipe.textBytes s).toByteArray = some s := by
  have hbytes : (RunRecipe.textBytes s).toByteArray = s.toByteArray := toByteArray_toList s.toUTF8
  rw [hbytes, String.fromUTF8?, dif_pos s.isValidUTF8]
  rfl

/-- A file with the bytes of a text is read as the text. -/
theorem readText_eq {t : FileTree} {p : Path} {text : String}
    (h : t.read p = .ok (RunRecipe.textBytes text)) : t.readText p = .ok text := by
  unfold FileTree.readText
  refine Outcome.bind_eq_ok_iff.mpr ⟨_, h, ?_⟩
  simp only [fromUTF8?_textBytes]

end GridSnapshot.TextBytes
