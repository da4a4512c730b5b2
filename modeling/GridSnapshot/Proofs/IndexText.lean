import GridSnapshot.RunRecipe
import GridSnapshot.Proofs.Tables
import GridSnapshot.Proofs.TextLines
import Mathlib.Data.List.Basic

namespace GridSnapshot

namespace IndexFile

/-- A name that a line of an index file can hold. -/
structure IsFieldName (name : String) : Prop where
  equals_not_mem : '=' ∉ name.toList
  feed_not_mem : '\n' ∉ name.toList
  isBare : Text.IsBare name.toList

instance (name : String) : Decidable (IsFieldName name) :=
  decidable_of_iff ('=' ∉ name.toList ∧ '\n' ∉ name.toList ∧ Text.IsBare name.toList)
    ⟨fun h => ⟨h.1, h.2.1, h.2.2⟩, fun h => ⟨h.1, h.2, h.3⟩⟩

/-- The line of a name and its slot. -/
def entryLine (e : String × Nat) : List Char := 'i' :: (e.1.toList ++ '=' :: Nat.toDigits 10 e.2)

variable {e : String × Nat}

theorem isBare_key {name : List Char} (h : Text.IsBare name) : Text.IsBare ('i' :: name) where
  head_ok c hc := by
    cases hc
    decide
  last_ok c hc := by
    cases name with
    | nil =>
      cases hc
      decide
    | cons d ds =>
      rw [List.getLast?_cons_cons] at hc
      exact h.last_ok c hc

theorem parseLine_entryLine (hname : IsFieldName e.1) (hslot : e.2 < Word.count 8) :
    parseLine (entryLine e) = some e := by
  have hequals : '=' ∉ 'i' :: e.1.toList := by
    rw [List.mem_cons]
    exact not_or.mpr ⟨by decide, hname.equals_not_mem⟩
  have hcut : Text.splitOnce '=' (entryLine e) = some ('i' :: e.1.toList, Nat.toDigits 10 e.2) :=
    Text.splitOnce_append hequals _
  have hparse : Decimal.parseSize? (Nat.toDigits 10 e.2) = some e.2 := by
    rw [Decimal.parseSize?, Decimal.parseSize_toDigits hslot]
    rfl
  unfold parseLine
  simp only [hcut, (isBare_key hname.isBare).trim_eq, (Decimal.isBare_toDigits e.2).trim_eq, hparse,
    Option.map_some, String.ofList_toList]

theorem line_ok (hname : IsFieldName e.1) :
    '\n' ∉ entryLine e ∧ Text.dropReturn (entryLine e) = entryLine e := by
  have hdigit : ∀ c ∈ Nat.toDigits 10 e.2, c.isDigit = true := fun c hc =>
    Nat.isDigit_of_mem_toDigits (by decide) (by decide) hc
  constructor
  · intro hmem
    have hfeed := hname.feed_not_mem
    simp only [entryLine, List.mem_cons, List.mem_append] at hmem
    rcases hmem with h | h | h | h
    · cases h
    · exact hfeed h
    · cases h
    · exact absurd (hdigit _ h) (by decide)
  · -- The line ends in a digit.
    refine if_neg fun hlast => ?_
    have hend : (entryLine e).getLast? = (Nat.toDigits 10 e.2).getLast? := by
      obtain ⟨d, ds, hd⟩ := List.exists_cons_of_ne_nil (Nat.toDigits_ne_nil (n := e.2) (b := 10))
      simp [entryLine, hd, List.getLast?_cons]
    rw [hend] at hlast
    exact absurd (hdigit _ (List.mem_of_getLast? hlast)) (by decide)

theorem toList_render (entries : List (String × Nat)) :
    (render entries).toList = (entries.map entryLine).flatMap (· ++ ['\n']) := by
  have hline (e : String × Nat) : (s!"i{e.1}={e.2}\n").toList = entryLine e ++ ['\n'] := by
    have htext (s : String) : toString s = s := rfl
    simp [entryLine, htext]
  rw [render, String.toList_join, List.flatMap_map, List.flatMap_map]
  exact congrArg (entries.flatMap ·) (funext hline)

/-- An index file is read as the index that it was made from. -/
theorem parse_render {index : SlotIndex}
    (h : ∀ e ∈ index.entries, IsFieldName e.1 ∧ e.2 < Word.count 8) :
    parse (render index.entries) = index := by
  have hlines : ∀ l ∈ index.entries.map entryLine, '\n' ∉ l ∧ Text.dropReturn l = l := by
    intro l hl
    obtain ⟨e, he, rfl⟩ := List.mem_map.mp hl
    exact line_ok (h e he).1
  have hparsed : (index.entries.map entryLine).filterMap parseLine = index.entries := by
    rw [List.filterMap_map]
    refine (List.filterMap_congr fun e he => ?_).trans List.filterMap_some
    exact parseLine_entryLine (h e he).1 (h e he).2
  rw [parse, toList_render, Text.lines_flatMap hlines, hparsed, Table.ofList_entries]

end IndexFile

namespace RunRecipe

variable {r : RunRecipe}

/-- The entries of the index are fields of the run in one of its slots. -/
theorem mem_index {e : String × Nat} (h : e ∈ r.index.entries) :
    e.1 ∈ r.evolved ++ r.auxiliary ∧ e.2 ≤ r.evolved.length + r.auxiliary.length := by
  obtain ⟨i, hi, heq⟩ := List.mem_mapIdx.mp (Table.mem_of_mem_ofList h)
  obtain ⟨hname, hslot⟩ := Prod.mk.inj heq
  rw [← hname, ← hslot]
  refine ⟨List.getElem_mem hi, ?_⟩
  rw [List.length_append] at hi
  exact hi

/-- The index file of a run is read as its index, also if names come again. -/
theorem index_indexFile (hnames : ∀ name ∈ r.evolved ++ r.auxiliary, IndexFile.IsFieldName name)
    (hslots : r.evolved.length + r.auxiliary.length < Word.count 8) :
    IndexFile.parse (IndexFile.render r.index.entries) = r.index := by
  refine IndexFile.parse_render fun e he => ?_
  obtain ⟨hname, hslot⟩ := mem_index he
  exact ⟨hnames e.1 hname, Nat.lt_of_le_of_lt hslot hslots⟩

end RunRecipe

end GridSnapshot
