import GridSnapshot.Metadata.DimFile
import GridSnapshot.Proofs.TextLines

namespace GridSnapshot.DimFile

open Text

/-- The characters of numbers with single spaces between them. -/
def numberLine : List Nat → List Char
  | [] => []
  | [n] => Nat.toDigits 10 n
  | n :: ns => Nat.toDigits 10 n ++ ' ' :: numberLine ns

section Numbers

variable {n : Nat} {ns : List Nat} {c : Char}

theorem toList_integerLine (ns : List Nat) : (integerLine ns).toList = numberLine ns := by
  unfold integerLine
  rw [String.toList_intercalate]
  induction ns with
  | nil => rfl
  | cons n ns ih =>
    have hdigits : (toString n).toList = Nat.toDigits 10 n := Nat.toList_repr
    cases ns with
    | nil => simp [numberLine]
    | cons m ms =>
      have hline : numberLine (n :: m :: ms) =
          Nat.toDigits 10 n ++ ' ' :: numberLine (m :: ms) := rfl
      simp only [List.map_cons] at ih ⊢
      rw [List.intercalate_cons_cons, ih, hdigits, hline, List.append_assoc]
      rfl

theorem digit_or_space (h : c ∈ numberLine ns) : c.isDigit = true ∨ c = ' ' := by
  induction ns with
  | nil => cases h
  | cons n ns ih =>
    have hdigits (h : c ∈ Nat.toDigits 10 n) : c.isDigit = true :=
      Nat.isDigit_of_mem_toDigits (by decide) (by decide) h
    cases ns with
    | nil => exact .inl (hdigits h)
    | cons m ms =>
      rcases List.mem_append.mp h with h | h
      · exact .inl (hdigits h)
      · rcases List.mem_cons.mp h with h | h
        · exact .inr h
        · exact ih h

theorem not_mem_numberLine (hdigit : c.isDigit = false) (hspace : c ≠ ' ') : c ∉ numberLine ns := by
  intro h
  rcases digit_or_space h with h | h
  · rw [hdigit] at h
    cases h
  · exact hspace h

theorem words_numberLine (ns : List Nat) : words (numberLine ns) = ns.map (Nat.toDigits 10) := by
  induction ns with
  | nil => rfl
  | cons n ns ih =>
    have hblank : ∀ c ∈ Nat.toDigits 10 n, isBlank c = false :=
      fun c => Decimal.isBlank_of_mem_toDigits
    cases ns with
    | nil => exact words_eq Nat.toDigits_ne_nil hblank
    | cons m ms =>
      have hline : numberLine (n :: m :: ms) =
          Nat.toDigits 10 n ++ ' ' :: numberLine (m :: ms) := rfl
      rw [hline, words_append Nat.toDigits_ne_nil hblank, ih]
      rfl

theorem numberLine_ne_nil (hne : ns ≠ []) : numberLine ns ≠ [] := by
  match ns with
  | [] => exact absurd rfl hne
  | [n] => exact Nat.toDigits_ne_nil
  | n :: m :: ms => exact List.append_ne_nil_of_right_ne_nil _ (List.cons_ne_nil _ _)

theorem isBlank_head_numberLine (h : c ∈ (numberLine ns).head?) : isBlank c = false := by
  match ns with
  | [] => cases h
  | [n] => exact Decimal.isBlank_of_mem_toDigits (List.mem_of_mem_head? h)
  | n :: m :: ms =>
    have hline : numberLine (n :: m :: ms) =
        Nat.toDigits 10 n ++ ' ' :: numberLine (m :: ms) := rfl
    rw [hline, List.head?_append, Option.mem_def, Option.or_eq_some_iff] at h
    rcases h with h | ⟨h, -⟩
    · exact Decimal.isBlank_of_mem_toDigits (List.mem_of_mem_head? h)
    · exact absurd (List.head?_eq_none_iff.mp h) Nat.toDigits_ne_nil

theorem isBlank_last_numberLine (h : c ∈ (numberLine ns).getLast?) : isBlank c = false := by
  induction ns with
  | nil => cases h
  | cons n ns ih =>
    cases ns with
    | nil => exact Decimal.isBlank_of_mem_toDigits (List.mem_of_getLast? h)
    | cons m ms =>
      have hline : numberLine (n :: m :: ms) =
          (Nat.toDigits 10 n ++ [' ']) ++ numberLine (m :: ms) := by
        rw [List.append_assoc]
        rfl
      rw [hline, List.getLast?_append, Option.mem_def, Option.or_eq_some_iff] at h
      rcases h with h | ⟨h, -⟩
      · exact ih h
      · exact absurd (List.getLast?_eq_none_iff.mp h) (numberLine_ne_nil (List.cons_ne_nil _ _))

theorem trim_numberLine (ns : List Nat) : trim (numberLine ns) = numberLine ns :=
  trim_eq (fun _ => isBlank_head_numberLine) fun _ => isBlank_last_numberLine

theorem mapM_parseSize (h : ∀ n ∈ ns, n < Word.count 8) :
    (ns.map (Nat.toDigits 10)).mapM Decimal.parseSize = .ok ns := by
  induction ns with
  | nil => rfl
  | cons n ns ih =>
    obtain ⟨hn, hns⟩ := List.forall_mem_cons.mp h
    rw [List.map_cons, List.mapM_cons, Decimal.parseSize_toDigits hn, ih hns]
    rfl

theorem integers_numberLine {wanted : Nat} (h : ∀ n ∈ ns, n < Word.count 8)
    (hwanted : wanted ≤ ns.length) : integers wanted (numberLine ns) = .ok ns := by
  unfold integers
  rw [words_numberLine, mapM_parseSize h]
  exact if_neg (Nat.not_lt.mpr hwanted)

theorem contentLine_numberLine {rest : List Char} :
    (lines (numberLine ns ++ '\n' :: rest)).map trim =
      numberLine ns :: (lines rest).map trim := by
  have hfeed : '\n' ∉ numberLine ns := not_mem_numberLine (by decide) (by decide)
  have hreturn : '\r' ∉ numberLine ns := not_mem_numberLine (by decide) (by decide)
  rw [lines_append hfeed, dropReturn_eq hreturn, List.map_cons, trim_numberLine]

end Numbers

variable {d : Dimensions} {last : PerAxis Nat}

theorem toList_render (d : Dimensions) (last : PerAxis Nat) :
    (render d last).toList =
      numberLine [d.extents.x, d.extents.y, d.extents.z, d.evolved, d.auxiliary, 0] ++ '\n' ::
        ([d.precision.tag] ++ '\n' ::
          (numberLine d.ghosts.toList ++ '\n' :: (numberLine last.toList ++ '\n' :: []))) := by
  unfold render
  simp only [String.toList_append, toList_integerLine]
  have htag : d.precision.tag.toString.toList = [d.precision.tag] := by
    cases d.precision <;> rfl
  rw [htag]
  simp

theorem contentLines_render (d : Dimensions) (last : PerAxis Nat) :
    contentLines (render d last) =
      [numberLine [d.extents.x, d.extents.y, d.extents.z, d.evolved, d.auxiliary, 0],
        [d.precision.tag], numberLine d.ghosts.toList, numberLine last.toList] := by
  have htag : (lines ([d.precision.tag] ++ '\n' ::
      (numberLine d.ghosts.toList ++ '\n' :: (numberLine last.toList ++ '\n' :: [])))).map trim =
        [d.precision.tag] ::
          (lines (numberLine d.ghosts.toList ++ '\n' ::
            (numberLine last.toList ++ '\n' :: []))).map trim := by
    have hblank : ∀ c ∈ [d.precision.tag], isBlank c = false :=
      List.forall_mem_singleton.mpr (by cases d.precision <;> rfl)
    rw [lines_append (by cases d.precision <;> decide),
      dropReturn_eq (by cases d.precision <;> decide), List.map_cons,
      (isBare_of_forall hblank).trim_eq]
  unfold contentLines
  rw [toList_render, contentLine_numberLine, htag, contentLine_numberLine, contentLine_numberLine,
    lines_nil, List.map_nil]
  have hne (n : Nat) (ns : List Nat) : numberLine (n :: ns) ≠ [] :=
    numberLine_ne_nil (List.cons_ne_nil _ _)
  simp [hne, PerAxis.toList]

/-- The numbers of a dimension file fit into words. -/
structure Fits (d : Dimensions) (last : PerAxis Nat) : Prop where
  extents_lt : ∀ a, d.extents.get a < Word.count 8
  ghosts_lt : ∀ a, d.ghosts.get a < Word.count 8
  evolved_lt : d.evolved < Word.count 8
  auxiliary_lt : d.auxiliary < Word.count 8
  last_lt : ∀ a, last.get a < Word.count 8

theorem triple_numberLine {v : PerAxis Nat} (h : ∀ a, v.get a < Word.count 8) :
    triple (numberLine v.toList) = .ok v := by
  have hintegers : integers 3 (numberLine v.toList) = .ok v.toList := by
    refine integers_numberLine ?_ (Nat.le_refl 3)
    intro n hn
    simp only [PerAxis.toList, List.mem_cons, List.not_mem_nil, or_false] at hn
    rcases hn with rfl | rfl | rfl
    · exact h .x
    · exact h .y
    · exact h .z
  unfold triple
  rw [hintegers]
  rfl

theorem parse_render (h : Fits d last) :
    parse (render d last) =
      .ok (⟨d.extents, d.ghosts, d.evolved, d.auxiliary, d.precision, .uniform 1, .uniform 0⟩,
        last) := by
  have hfirst : integers 5
      (numberLine [d.extents.x, d.extents.y, d.extents.z, d.evolved, d.auxiliary, 0]) =
        .ok [d.extents.x, d.extents.y, d.extents.z, d.evolved, d.auxiliary, 0] := by
    refine integers_numberLine ?_ (Nat.le_succ 5)
    intro n hn
    simp only [List.mem_cons, List.not_mem_nil, or_false] at hn
    rcases hn with rfl | rfl | rfl | rfl | rfl | rfl
    · exact h.extents_lt .x
    · exact h.extents_lt .y
    · exact h.extents_lt .z
    · exact h.evolved_lt
    · exact h.auxiliary_lt
    · decide
  have htag : precision [d.precision.tag] = .ok d.precision := by
    cases d.precision <;> rfl
  unfold parse
  rw [contentLines_render]
  simp only [hfirst, htag, triple_numberLine h.ghosts_lt, triple_numberLine h.last_lt]
  rfl

end GridSnapshot.DimFile
