import Mathlib.Order.Compare
import GridSnapshot.Proofs.NumberedNames
import GridSnapshot.Proofs.TextBytes

namespace GridSnapshot.NaturalOrder

section Total

theorem compareLists_eq {α : Type} (cmp : α → α → Ordering) :
    compareLists cmp = List.compareLex cmp := by
  funext as bs
  induction as generalizing bs with
  | nil =>
    cases bs with
    | nil => rfl
    | cons b bs => rfl
  | cons a as ih =>
    cases bs with
    | nil => rfl
    | cons b bs => rw [compareLists, List.compareLex_cons_cons, ih]

theorem compareChars_eq : compareChars = List.compareLex (compareOn Char.toNat) :=
  compareLists_eq _

instance : Std.TransCmp compareChars := by
  rw [compareChars_eq]
  infer_instance

theorem compareChars_eq_eq_iff {cs ds : List Char} : compareChars cs ds = .eq ↔ cs = ds := by
  have hchar : Std.LawfulEqCmp (compareOn Char.toNat) :=
    ⟨fun h => Char.toNat_inj.mp (Nat.compare_eq_eq.mp h)⟩
  rw [compareChars_eq]
  exact Std.LawfulEqCmp.compare_eq_iff_eq

namespace Chunk

/-- Numbers come before texts. -/
def kind : Chunk → Nat
  | number _ => 0
  | text _ => 1

/-- What decides between two numbers before their digits do. -/
def places : Chunk → Nat
  | number digits => digits.length
  | text _ => 0

def chars : Chunk → List Char
  | number digits => digits
  | text chars => chars

end Chunk

/-- The order of chunks is that of their kinds, places and characters in turn. -/
theorem compareChunks_eq : compareChunks = compareLex (compareOn Chunk.kind)
    (compareLex (compareOn Chunk.places) fun a b => compareChars a.chars b.chars) := by
  funext a b
  cases a with
  | number digits =>
    cases b with
    | number digits' => rfl
    | text chars => rfl
  | text chars =>
    cases b with
    | number digits => rfl
    | text chars' => rfl

theorem transCmp_comap {α β : Type} (cmp : β → β → Ordering) [Std.TransCmp cmp] (f : α → β) :
    Std.TransCmp fun a b => cmp (f a) (f b) where
  eq_swap := Std.OrientedCmp.eq_swap
  isLE_trans := Std.TransCmp.isLE_trans

instance : Std.TransCmp compareChunks := by
  have hchars := transCmp_comap compareChars Chunk.chars
  rw [compareChunks_eq]
  infer_instance

theorem compareNames_eq : compareNames =
    compareLex (fun a b => List.compareLex compareChunks (chunks a.toList) (chunks b.toList))
      fun a b => compareChars a.toList b.toList := by
  funext a b
  rw [compareNames, compareLists_eq]
  rfl

instance : Std.TransCmp compareNames := by
  have hchunks := transCmp_comap (List.compareLex compareChunks) fun a : String => chunks a.toList
  have hchars := transCmp_comap compareChars String.toList
  rw [compareNames_eq]
  infer_instance

/-- A comparison that tells all things apart and puts them in one line. -/
structure IsTotal {α : Type} (cmp : α → α → Ordering) : Prop where
  refl : ∀ a, cmp a a = .eq
  eq_of_eq : ∀ a b, cmp a b = .eq → a = b
  swap_eq : ∀ a b, (cmp a b).swap = cmp b a
  total : ∀ a b, (cmp a b).isLE ∨ (cmp b a).isLE
  trans : ∀ a b c, (cmp a b).isLE → (cmp b c).isLE → (cmp a c).isLE

theorem isTotal_compareNames : IsTotal compareNames where
  refl a := Std.ReflCmp.compare_self
  eq_of_eq a b h := by
    have hchars := (Ordering.then_eq_eq.mp h).2
    exact String.toList_inj.mp (compareChars_eq_eq_iff.mp hchars)
  swap_eq a b := Std.OrientedCmp.eq_swap.symm
  total a b := by
    have hswap : compareNames b a = (compareNames a b).swap := Std.OrientedCmp.eq_swap
    rw [hswap]
    cases compareNames a b with
    | lt => exact .inl rfl
    | eq => exact .inl rfl
    | gt => exact .inr rfl
  trans a b c := Std.TransCmp.isLE_trans

theorem pairwise_sort (names : List String) :
    (sort names).Pairwise fun a b => (compareNames a b).isLE := by
  refine List.pairwise_mergeSort isTotal_compareNames.trans (fun a b => ?_) names
  rw [Bool.or_eq_true]
  exact isTotal_compareNames.total a b

/-- Names have one sorted order. -/
theorem sort_eq_of_perm {xs ys : List String} (h : xs.Perm ys) : sort xs = sort ys := by
  refine List.Perm.eq_of_pairwise ?_ (pairwise_sort xs) (pairwise_sort ys) ?_
  · intro a b _ _ hab hba
    cases hcompare : compareNames a b with
    | eq => exact isTotal_compareNames.eq_of_eq a b hcompare
    | lt =>
      rw [← isTotal_compareNames.swap_eq, hcompare] at hba
      cases hba
    | gt =>
      rw [hcompare] at hab
      cases hab
  · exact (List.mergeSort_perm _ _).trans (h.trans (List.mergeSort_perm _ _).symm)

end Total

section Runs

/-- Characters of one run: digits, or others. -/
def sameKind (c d : Char) : Bool := c.isDigit == d.isDigit

/-- The runs of a name, from which its chunks are made. -/
def runs (name : List Char) : List (List Char) := name.splitBy sameKind

def IsDigits (cs : List Char) : Prop := cs ≠ [] ∧ ∀ c ∈ cs, c.isDigit

variable {p r r' s : List Char}

theorem chunks_eq (name : List Char) : chunks name = (runs name).map Chunk.ofRun := rfl

theorem runs_append {cs ds : List Char}
    (h : ∀ c ∈ cs.getLast?, ∀ d ∈ ds.head?, c.isDigit ≠ d.isDigit) :
    runs (cs ++ ds) = runs cs ++ runs ds :=
  List.splitBy_append fun c hc d hd => beq_false_of_ne (h c hc d hd)

/-- Digits between other characters are a chunk of their own. -/
theorem chunks_append_digits_append (hp : ∀ c ∈ p.getLast?, ¬ c.isDigit) (hr : IsDigits r)
    (hs : ∀ c ∈ s.head?, ¬ c.isDigit) :
    chunks (p ++ r ++ s) = chunks p ++ Chunk.ofRun r :: chunks s := by
  have hcut : ∀ c ∈ (p ++ r).getLast?, ∀ d ∈ s.head?, c.isDigit ≠ d.isDigit := by
    intro c hc d hd heq
    rw [List.getLast?_append_of_ne_nil _ hr.1] at hc
    rw [hr.2 c (List.mem_of_getLast? hc)] at heq
    exact hs d hd heq.symm
  rw [chunks_eq, runs_append hcut, List.map_append, ← chunks_eq, ← chunks_eq,
    chunks_append_digits hp hr.1 hr.2, List.append_assoc, List.singleton_append]

/-- Names that differ in one number are ordered by its value. -/
theorem compareNames_run {p r r' s : String} (hp : ∀ c ∈ p.toList.getLast?, ¬ c.isDigit)
    (hs : ∀ c ∈ s.toList.head?, ¬ c.isDigit) (hr : IsDigits r.toList) (hr' : IsDigits r'.toList)
    (hne : value r.toList ≠ value r'.toList) :
    compareNames (p ++ r ++ s) (p ++ r' ++ s) = compare (value r.toList) (value r'.toList) := by
  have hcompare : compare (value r.toList) (value r'.toList) ≠ .eq :=
    fun heq => hne (Nat.compare_eq_eq.mp heq)
  unfold compareNames
  simp only [String.toList_append]
  rw [chunks_append_digits_append hp hr hs, chunks_append_digits_append hp hr' hs,
    compareLists_append compareChunks_self, compareLists, compareChunks_ofRun hr.2 hr'.2]
  cases hvalue : compare (value r.toList) (value r'.toList) with
  | eq => exact absurd hvalue hcompare
  | lt => rfl
  | gt => rfl

end Runs

section Bytes

open RunRecipe (textBytes)

def isDigitByte (b : UInt8) : Bool := 48 ≤ b.toNat && b.toNat ≤ 57

def sameByteKind (b b' : UInt8) : Bool := isDigitByte b == isDigitByte b'

theorem textBytes_eq (s : String) : textBytes s = s.toList.flatMap String.utf8EncodeChar := by
  have hbytes : textBytes s = s.toByteArray.toList := rfl
  rw [hbytes, TextBytes.toList_eq, ← String.utf8Encode_toList, List.utf8Encode,
    List.toList_data_toByteArray]

/-- A character is its own byte, or none of its bytes is that of a character. -/
theorem toNat_of_mem_utf8EncodeChar {c : Char} {b : UInt8} (h : b ∈ String.utf8EncodeChar c) :
    b.toNat = c.toNat ∨ 128 ≤ b.toNat ∧ 128 ≤ c.toNat := by
  have hval : c.val.toNat = c.toNat := rfl
  rw [String.utf8EncodeChar, hval] at h
  split at h
  · obtain rfl := List.mem_singleton.mp h
    rw [UInt8.toNat_ofNat']
    omega
  · right
    split at h
    · simp only [List.mem_cons, List.not_mem_nil, or_false] at h
      rcases h with rfl | rfl <;> rw [UInt8.toNat_ofNat'] <;> omega
    · split at h
      · simp only [List.mem_cons, List.not_mem_nil, or_false] at h
        rcases h with rfl | rfl | rfl <;> rw [UInt8.toNat_ofNat'] <;> omega
      · simp only [List.mem_cons, List.not_mem_nil, or_false] at h
        rcases h with rfl | rfl | rfl | rfl <;> rw [UInt8.toNat_ofNat'] <;> omega

theorem isDigit_iff {c : Char} : c.isDigit ↔ 48 ≤ c.toNat ∧ c.toNat ≤ 57 := by
  rw [Char.isDigit, Bool.and_eq_true, decide_eq_true_eq, decide_eq_true_eq]
  exact Iff.rfl

/-- The bytes of a digit are digits, and no byte of another character is one. -/
theorem isDigitByte_of_mem {c : Char} {b : UInt8} (h : b ∈ String.utf8EncodeChar c) :
    isDigitByte b = c.isDigit := by
  rw [Bool.eq_iff_iff, isDigit_iff, isDigitByte, Bool.and_eq_true, decide_eq_true_eq,
    decide_eq_true_eq]
  rcases toNat_of_mem_utf8EncodeChar h with hsame | ⟨hb, hc⟩
  · rw [hsame]
  · omega

/-- The characters of a run are of one kind. -/
theorem isDigit_eq_of_mem_runs {name run : List Char} (hrun : run ∈ runs name) {c d : Char}
    (hc : c ∈ run) (hd : d ∈ run) : c.isDigit = d.isDigit := by
  have hchain : (run.map Char.isDigit).IsChain (· = ·) := by
    rw [List.isChain_map]
    exact (List.isChain_of_mem_splitBy hrun).imp fun _ _ hsame => beq_iff_eq.mp hsame
  exact hchain.pairwise.forall_of_forall (fun _ _ => rfl) (List.mem_map_of_mem hc)
    (List.mem_map_of_mem hd)

theorem textBytes_run (run : List Char) :
    textBytes (String.ofList run) = run.flatMap String.utf8EncodeChar := by
  rw [textBytes_eq, String.toList_ofList]

theorem utf8EncodeChar_ne_nil (c : Char) : String.utf8EncodeChar c ≠ [] := by
  rw [String.utf8EncodeChar]
  split_ifs <;> exact List.cons_ne_nil _ _

/-- The bytes of a name are cut where its characters are: each run of bytes is the text of a run of
characters. -/
theorem runs_textBytes (name : String) : (textBytes name).splitBy sameByteKind =
    (runs name.toList).map fun run => textBytes (String.ofList run) := by
  have hbyte {run : List Char} (hrun : run ∈ runs name.toList) {c : Char} (hc : c ∈ run)
      {b : UInt8} (hb : b ∈ run.flatMap String.utf8EncodeChar) : isDigitByte b = c.isDigit := by
    obtain ⟨d, hd, hb⟩ := List.mem_flatMap.mp hb
    rw [isDigitByte_of_mem hb, isDigit_eq_of_mem_runs hrun hd hc]
  have hne {run : List Char} (hrun : run ∈ runs name.toList) :
      run.flatMap String.utf8EncodeChar ≠ [] := by
    obtain ⟨c, hc⟩ := List.exists_mem_of_ne_nil _ (List.ne_nil_of_mem_splitBy hrun)
    exact fun hnil => utf8EncodeChar_ne_nil c (List.flatMap_eq_nil_iff.mp hnil c hc)
  simp only [textBytes_run]
  rw [List.splitBy_eq_iff, textBytes_eq]
  refine ⟨?_, ?_, ?_, ?_⟩
  · have hflatten : (runs name.toList).flatten = name.toList := List.flatten_splitBy _ _
    conv_lhs => rw [← hflatten, List.flatten_eq_flatMap, List.flatMap_assoc, List.flatMap_def]
    rfl
  · intro hnil
    obtain ⟨run, hrun, hnil⟩ := List.mem_map.mp hnil
    exact hne hrun hnil
  · intro bytes hbytes
    obtain ⟨run, hrun, rfl⟩ := List.mem_map.mp hbytes
    obtain ⟨c, hc⟩ := List.exists_mem_of_ne_nil _ (List.ne_nil_of_mem_splitBy hrun)
    refine (List.pairwise_of_forall_mem_list fun b hb b' hb' => ?_).isChain
    rw [sameByteKind, hbyte hrun hc hb, hbyte hrun hc hb', beq_self_eq_true]
  · rw [List.isChain_map]
    refine (List.isChain_getLast_head_splitBy sameKind name.toList).imp_of_mem_imp ?_
    rintro run run' hrun hrun' ⟨hlast, hhead, hcut⟩
    refine ⟨hne hrun, hne hrun', ?_⟩
    rw [sameByteKind, hbyte hrun (List.getLast_mem hlast) (List.getLast_mem _),
      hbyte hrun' (List.head_mem hhead) (List.head_mem _)]
    exact hcut

end Bytes

end GridSnapshot.NaturalOrder
