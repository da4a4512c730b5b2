import GridSnapshot.Proofs.DecodedBlock

namespace GridSnapshot

open Outcome

namespace Word

variable {β : Type} {k : Nat} {words : List β} {encode : β → Bytes}

theorem readMany_flatMap {α : Type} (f : Bytes → α) (hlen : ∀ x ∈ words, (encode x).length = k)
    (out : Array α) :
    readMany k f words.length (words.flatMap encode) out =
      out ++ (words.map fun x => f (encode x)).toArray := by
  induction words generalizing out with
  | nil => simp [readMany]
  | cons x xs ih =>
    obtain ⟨hx, hxs⟩ := List.forall_mem_cons.mp hlen
    rw [List.flatMap_cons, List.length_cons, readMany, List.drop_left' hx, List.take_left' hx,
      ih hxs]
    simp

theorem length_flatMap (hlen : ∀ x ∈ words, (encode x).length = k) :
    (words.flatMap encode).length = k * words.length := by
  induction words with
  | nil => simp
  | cons x xs ih =>
    obtain ⟨hx, hxs⟩ := List.forall_mem_cons.mp hlen
    rw [List.flatMap_cons, List.length_append, hx, ih hxs, List.length_cons, Nat.mul_succ,
      Nat.add_comm]

end Word

namespace Record

variable {α : Type} [Narrowing Float α] {p : Precision}

/-- A word counts the reals of a record that is short enough for its markers. -/
theorem lt_count_of_bytes_mul_lt {n : Nat} (h : p.bytes * n < Word.count 4) :
    n < Word.count 8 :=
  calc
    n ≤ p.bytes * n := Nat.le_mul_of_pos_left n p.bytes_pos
    _ < Word.count 4 := h
    _ < Word.count 8 := by decide

theorem length_encodeReals (xs : List Binary64) :
    (encodeReals p xs).length = p.bytes * xs.length :=
  Word.length_flatMap fun x _ => p.length_encode x

theorem reals_encodeReals (xs : List Binary64) :
    reals p (encodeReals p xs) = .ok (xs.map fun x => (narrow (p.round x) : α)).toArray := by
  have hcount : (encodeReals p xs).length / p.bytes = xs.length := by
    rw [length_encodeReals, Nat.mul_div_cancel_left _ p.bytes_pos]
  unfold reals
  rw [if_neg (by rw [length_encodeReals, Nat.mul_mod_right]; exact not_not_intro rfl), hcount,
    encodeReals, Word.readMany_flatMap _ fun x _ => p.length_encode x]
  simp [Precision.round]

/-- The integers that four bytes hold. -/
def IsWord (i : Int) : Prop := -2147483648 ≤ i ∧ i < 2147483648

instance (i : Int) : Decidable (IsWord i) := inferInstanceAs (Decidable (_ ∧ _))

theorem length_encodeInt (k : Nat) (i : Int) : (encodeInt k i).length = k := by
  rw [encodeInt, Word.length_encode]

theorem signed_encodeInt {i : Int} (h : IsWord i) : signed (encodeInt 4 i) = i := by
  have hcount : (Word.count 4 : Int) = 4294967296 := by decide
  have hmod : 0 ≤ i % (Word.count 4 : Int) := Int.emod_nonneg _ (by rw [hcount]; decide)
  have hlt : (i % (Word.count 4 : Int)).toNat < Word.count 4 := by
    have := Int.emod_lt_of_pos i (b := (Word.count 4 : Int)) (by rw [hcount]; decide)
    omega
  rw [signed, encodeInt, Word.length_encode, Word.decode_encode hlt, Int.toNat_of_nonneg hmod]
  unfold IsWord at h
  rw [Int.emod_bmod]
  apply Int.bmod_eq_of_le
  · rw [hcount]; omega
  · rw [hcount]; omega

theorem ints_encodeInts {is : List Int} (h : ∀ i ∈ is, IsWord i) :
    ints (encodeInts is) = .ok is := by
  have hlen : (encodeInts is).length = 4 * is.length :=
    Word.length_flatMap fun i _ => length_encodeInt 4 i
  have hcount : (encodeInts is).length / 4 = is.length := by
    rw [hlen, Nat.mul_div_cancel_left _ (by decide)]
  unfold ints
  rw [if_neg (by rw [hlen, Nat.mul_mod_right]; exact not_not_intro rfl), hcount, encodeInts,
    Word.readMany_flatMap _ fun i _ => length_encodeInt 4 i]
  have hmap : (is.map fun i => signed (encodeInt 4 i)) = is :=
    (List.map_congr_left fun i hi => signed_encodeInt (h i hi)).trans (List.map_id is)
  rw [hmap, Array.empty_append]

theorem idNumber_encodeInt {id : Int} (h : IsWord id) : idNumber (encodeInt 4 id) = .ok id := by
  have hlen := length_encodeInt 4 id
  unfold idNumber
  rw [if_neg (by omega), if_pos (by omega), List.take_of_length_le (by omega), signed_encodeInt h]

end Record

namespace Reading

variable {payload rest : Bytes} {n : Nat}

theorem next_frame (h : payload.length < Word.count 4) :
    RecordStream.next ⟨Record.frame payload ++ rest, n⟩ = (.ok (some payload), ⟨rest, n + 1⟩) := by
  have hframe : Record.frame payload ++ rest =
      Word.encode 4 payload.length ++ (payload ++ (Word.encode 4 payload.length ++ rest)) := by
    simp [Record.frame]
  have hlen : (Word.encode 4 payload.length).length = 4 := Word.length_encode 4 _
  unfold RecordStream.next
  simp only [hframe, List.take_left' hlen, List.drop_left' hlen, hlen, Word.decode_encode h,
    List.take_left, List.drop_left]
  simp

theorem run_next (s : RecordStream) : next.run.run s = s.next := rfl

theorem yields_next_frame (h : payload.length < Word.count 4) :
    Yields next ⟨Record.frame payload ++ rest, n⟩ (some payload) ⟨rest, n + 1⟩ := by
  rw [Yields, run_next, next_frame h]

theorem yields_payload_frame (what : String) (h : payload.length < Word.count 4) :
    Yields (Reading.payload what) ⟨Record.frame payload ++ rest, n⟩ payload ⟨rest, n + 1⟩ :=
  yields_bind_iff.mpr ⟨some payload, _, yields_next_frame h, rfl⟩

theorem yields_reals_frame {α : Type} [Narrowing Float α] (what : String) (p : Precision)
    {xs : List Binary64} (h : p.bytes * xs.length < Word.count 4) :
    Yields (Reading.reals what p) ⟨Record.frame (Record.encodeReals p xs) ++ rest, n⟩
      (xs.map fun x => (narrow (p.round x) : α)).toArray ⟨rest, n + 1⟩ := by
  rw [← Record.length_encodeReals] at h
  exact yields_bind_iff.mpr ⟨_, _, yields_payload_frame what h,
    yields_check_iff.mpr ⟨Record.reals_encodeReals xs, rfl⟩⟩

end Reading

end GridSnapshot
