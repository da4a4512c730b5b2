import GridSnapshot.Metadata.Files
import GridSnapshot.NaturalOrder
import Mathlib.Algebra.Group.Nat.Defs
import Mathlib.Data.List.SplitBy

namespace GridSnapshot.NaturalOrder

abbrev value (digits : List Char) : Nat := Nat.ofDigitChars 10 digits 0

section Digits

variable {c : Char} {cs ds : List Char}

theorem value_cons (c : Char) (cs : List Char) :
    value (c :: cs) = 10 ^ cs.length * (c.toNat - 48) + value cs := by
  rw [value, Nat.ofDigitChars_cons, Nat.ofDigitChars_eq_ofDigitChars_zero, Nat.mul_zero,
    Nat.zero_add]
  rfl

theorem toNat_of_isDigit (h : c.isDigit) : 48 ≤ c.toNat ∧ c.toNat ≤ 57 := by
  simp only [Char.isDigit, Bool.and_eq_true, decide_eq_true_eq] at h
  exact h

theorem value_lt (h : ∀ c ∈ cs, c.isDigit) : value cs < 10 ^ cs.length := by
  induction cs with
  | nil => exact Nat.one_pos
  | cons c cs ih =>
    obtain ⟨hc, hcs⟩ := List.forall_mem_cons.mp h
    have hle := toNat_of_isDigit hc
    have hlt := ih hcs
    have hmul : 10 ^ cs.length * (c.toNat - 48) ≤ 10 ^ cs.length * 9 :=
      Nat.mul_le_mul_left _ (by omega)
    rw [value_cons, List.length_cons, Nat.pow_succ]
    omega

theorem value_dropZeros (cs : List Char) : value (cs.dropWhile (· = '0')) = value cs := by
  induction cs with
  | nil => rfl
  | cons c cs ih =>
    by_cases hc : c = '0'
    · subst hc
      rw [List.dropWhile_cons_of_pos (by simp), ih, value_cons]
      simp
    · rw [List.dropWhile_cons_of_neg (by simpa using hc)]

theorem compare_mul_add {b m n v w : Nat} (hv : v < b) (hw : w < b) :
    compare (b * m + v) (b * n + w) = (compare m n).then (compare v w) := by
  rcases Nat.lt_trichotomy m n with h | h | h
  · have hmul : b * (m + 1) ≤ b * n := Nat.mul_le_mul_left _ h
    rw [Nat.mul_add, Nat.mul_one] at hmul
    rw [Nat.compare_eq_lt.mpr h, Nat.compare_eq_lt.mpr (by omega), Ordering.lt_then]
  · subst h
    rw [Nat.compare_eq_eq.mpr rfl, Ordering.eq_then]
    rcases Nat.lt_trichotomy v w with hvw | hvw | hvw
    · rw [Nat.compare_eq_lt.mpr hvw, Nat.compare_eq_lt.mpr (by omega)]
    · rw [hvw, Nat.compare_eq_eq.mpr rfl, Nat.compare_eq_eq.mpr rfl]
    · rw [Nat.compare_eq_gt.mpr hvw, Nat.compare_eq_gt.mpr (by omega)]
  · have hmul : b * (n + 1) ≤ b * m := Nat.mul_le_mul_left _ h
    rw [Nat.mul_add, Nat.mul_one] at hmul
    rw [Nat.compare_eq_gt.mpr h, Nat.compare_eq_gt.mpr (by omega), Ordering.gt_then]

/-- Digits of one length compare character by character as their values do. -/
theorem compareChars_eq_compare_value (hlen : cs.length = ds.length) (hcs : ∀ c ∈ cs, c.isDigit)
    (hds : ∀ d ∈ ds, d.isDigit) : compareChars cs ds = compare (value cs) (value ds) := by
  induction cs generalizing ds with
  | nil =>
    rw [List.eq_nil_of_length_eq_zero hlen.symm]
    rfl
  | cons c cs ih =>
    cases ds with
    | nil => simp at hlen
    | cons d ds =>
      rw [List.length_cons, List.length_cons, Nat.add_right_cancel_iff] at hlen
      obtain ⟨hc, hcs⟩ := List.forall_mem_cons.mp hcs
      obtain ⟨hd, hds⟩ := List.forall_mem_cons.mp hds
      have hcle := toNat_of_isDigit hc
      have hdle := toNat_of_isDigit hd
      have hhead : compare c.toNat d.toNat = compare (c.toNat - 48) (d.toNat - 48) := by
        simp only [Nat.compare_eq_ite_lt]
        split_ifs <;> first | rfl | omega
      have hstep : compareChars (c :: cs) (d :: ds) =
          (compare c.toNat d.toNat).then (compareChars cs ds) := rfl
      rw [hstep, ih hlen hcs hds, value_cons, value_cons, hlen, hhead,
        compare_mul_add (hlen ▸ value_lt hcs) (value_lt hds)]

/-- Digits without a leading zero stand for a number with as many places. -/
theorem pow_le_value (hc : c ≠ '0') (hdigit : c.isDigit) : 10 ^ cs.length ≤ value (c :: cs) := by
  have hle := toNat_of_isDigit hdigit
  have hne : c.toNat ≠ 48 := fun h => hc (Char.toNat_inj.mp h)
  have hmul : 10 ^ cs.length * 1 ≤ 10 ^ cs.length * (c.toNat - 48) :=
    Nat.mul_le_mul_left _ (by omega)
  rw [value_cons]
  omega

/-- Of two numbers without leading zeros the longer one is greater. -/
theorem value_lt_value (hlen : cs.length < ds.length) (hcs : ∀ c ∈ cs, c.isDigit)
    (hds : ∀ d ∈ ds, d.isDigit) (hzero : ∀ d ∈ ds.head?, d ≠ '0') : value cs < value ds := by
  cases ds with
  | nil => simp at hlen
  | cons d ds =>
    have hge : 10 ^ ds.length ≤ value (d :: ds) :=
      pow_le_value (hzero d rfl) (hds d List.mem_cons_self)
    have hpow : 10 ^ cs.length ≤ 10 ^ ds.length :=
      Nat.pow_le_pow_right (by decide) (Nat.le_of_lt_succ hlen)
    exact Nat.lt_of_lt_of_le (value_lt hcs) (hpow.trans hge)

theorem head?_dropZeros (cs : List Char) : ∀ c ∈ (cs.dropWhile (· = '0')).head?, c ≠ '0' := by
  intro c hc
  have h := List.head?_dropWhile_not (fun c => decide (c = '0')) cs
  rw [Option.mem_def.mp hc] at h
  simpa using h

theorem isDigit_dropZeros (h : ∀ c ∈ cs, c.isDigit) :
    ∀ c ∈ cs.dropWhile (· = '0'), c.isDigit :=
  fun c hc => h c ((List.dropWhile_sublist _).subset hc)

/-- Runs of digits compare by value, whatever their leading zeros. -/
theorem compareChunks_ofRun (hcs : ∀ c ∈ cs, c.isDigit) (hds : ∀ d ∈ ds, d.isDigit) :
    compareChunks (.ofRun cs) (.ofRun ds) = compare (value cs) (value ds) := by
  have hcs' := isDigit_dropZeros hcs
  have hds' := isDigit_dropZeros hds
  rw [Chunk.ofRun, Chunk.ofRun, if_pos (List.all_eq_true.mpr hcs),
    if_pos (List.all_eq_true.mpr hds), compareChunks, ← value_dropZeros cs, ← value_dropZeros ds]
  -- Lengths decide first. They decide rightly, since no zeros lead.
  rcases Nat.lt_trichotomy (cs.dropWhile (· = '0')).length (ds.dropWhile (· = '0')).length
    with h | h | h
  · have hlt := value_lt_value h hcs' hds' (head?_dropZeros ds)
    rw [Nat.compare_eq_lt.mpr h, Nat.compare_eq_lt.mpr hlt, Ordering.lt_then]
  · rw [h, Nat.compare_eq_eq.mpr rfl, Ordering.eq_then, compareChars_eq_compare_value h hcs' hds']
  · have hlt := value_lt_value h hds' hcs' (head?_dropZeros cs)
    rw [Nat.compare_eq_gt.mpr h, Nat.compare_eq_gt.mpr hlt, Ordering.gt_then]

end Digits

section Chunks

variable {p ds : List Char}

theorem splitBy_digits (hne : ds ≠ []) (hds : ∀ d ∈ ds, d.isDigit) :
    ds.splitBy (fun a b => a.isDigit == b.isDigit) = [ds] := by
  refine List.splitBy_of_isChain hne (List.Pairwise.isChain ?_)
  refine List.pairwise_of_forall_mem_list fun a ha b hb => ?_
  rw [hds a ha, hds b hb]
  rfl

/-- Digits at the end of a name are a chunk of their own. -/
theorem chunks_append_digits (hp : ∀ c ∈ p.getLast?, ¬ c.isDigit) (hne : ds ≠ [])
    (hds : ∀ d ∈ ds, d.isDigit) : chunks (p ++ ds) = chunks p ++ [Chunk.ofRun ds] := by
  have hsplit : (p ++ ds).splitBy (fun a b => a.isDigit == b.isDigit) =
      p.splitBy (fun a b => a.isDigit == b.isDigit) ++ [ds] := by
    rw [← splitBy_digits hne hds]
    apply List.splitBy_append
    intro c hc d hd
    rw [hds d (List.mem_of_mem_head? hd), Bool.eq_false_iff.mpr (hp c hc)]
    rfl
  rw [chunks, hsplit, List.map_append, chunks, List.map_singleton]

theorem compareLists_append {α : Type} {cmp : α → α → Ordering} (h : ∀ a, cmp a a = .eq)
    (xs as bs : List α) : compareLists cmp (xs ++ as) (xs ++ bs) = compareLists cmp as bs := by
  induction xs with
  | nil => rfl
  | cons x xs ih => simp only [List.cons_append, compareLists, h, Ordering.eq_then, ih]

theorem compareLists_self {α : Type} {cmp : α → α → Ordering} (h : ∀ a, cmp a a = .eq)
    (as : List α) : compareLists cmp as as = .eq := by
  simpa [compareLists] using compareLists_append h as [] []

theorem compareChars_self (cs : List Char) : compareChars cs cs = .eq :=
  compareLists_self (fun _ : Char => Nat.compare_eq_eq.mpr rfl) cs

theorem compareChunks_self (c : Chunk) : compareChunks c c = .eq := by
  cases c with
  | number digits =>
    rw [compareChunks, Nat.compare_eq_eq.mpr rfl, Ordering.eq_then, compareChars_self]
  | text chars => exact compareChars_self chars

end Chunks

section Numbered

variable {stem : String}

theorem isDigit_toDigits (n : Nat) : ∀ c ∈ Nat.toDigits 10 n, c.isDigit := fun _ hc =>
  Nat.isDigit_of_mem_toDigits (by decide) (by decide) hc

/-- Names with one stem in front of a decimal number have the order of their numbers. -/
theorem compareNames_numbered (hstem : ∀ c ∈ stem.toList.getLast?, ¬ c.isDigit) (m n : Nat) :
    compareNames (stem ++ toString m) (stem ++ toString n) = compare m n := by
  have hlist (k : Nat) : (stem ++ toString k).toList = stem.toList ++ Nat.toDigits 10 k := by
    rw [String.toList_append, Nat.toString_eq_repr, Nat.toList_repr]
  have hchunk (k : Nat) : chunks (stem.toList ++ Nat.toDigits 10 k) =
      chunks stem.toList ++ [Chunk.ofRun (Nat.toDigits 10 k)] :=
    chunks_append_digits hstem Nat.toDigits_ne_nil (isDigit_toDigits k)
  rw [compareNames, hlist, hlist, hchunk, hchunk, compareLists_append compareChunks_self,
    compareLists, compareLists, compareChunks_ofRun (isDigit_toDigits m) (isDigit_toDigits n)]
  simp only [value, Nat.ofDigitChars_ten_toDigits, Ordering.then_eq]
  -- Names with equal chunks compare by their characters, which only equal numbers come to.
  by_cases h : m = n
  · subst h
    rw [compareChars_self, Nat.compare_eq_eq.mpr rfl, Ordering.eq_then]
  · have hne : compare m n ≠ .eq := fun heq => h (Nat.compare_eq_eq.mp heq)
    cases hc : compare m n with
    | eq => exact absurd hc hne
    | lt => rfl
    | gt => rfl

/-- Names with one stem are sorted by their numbers. -/
theorem sort_numbered (hstem : ∀ c ∈ stem.toList.getLast?, ¬ c.isDigit) (ns : List Nat) :
    sort (ns.map fun n => stem ++ toString n) =
      (ns.mergeSort (· ≤ ·)).map fun n => stem ++ toString n := by
  rw [sort]
  symm
  apply List.map_mergeSort
  intro m _ n _
  rw [compareNames_numbered hstem, Bool.eq_iff_iff, Nat.isLE_compare, decide_eq_true_eq]

theorem not_isDigit_of_eq_some {o : Option Char} {c : Char} (h : o = some c) (hc : ¬ c.isDigit) :
    ∀ d ∈ o, ¬ d.isDigit := by
  intro d hd
  rw [h] at hd
  cases hd
  exact hc

/-- The directories of processors are sorted by the processor numbers. -/
theorem sort_processorDirs (ns : List Nat) :
    sort (ns.map MetadataFiles.processorDir) =
      (ns.mergeSort (· ≤ ·)).map MetadataFiles.processorDir :=
  sort_numbered (not_isDigit_of_eq_some (c := 'c') rfl (by decide)) ns

end Numbered

end GridSnapshot.NaturalOrder
