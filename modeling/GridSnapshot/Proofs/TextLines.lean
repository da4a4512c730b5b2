import GridSnapshot.Decimal.Integer
import GridSnapshot.Text.Lines
import GridSnapshot.Text.Blank

namespace GridSnapshot

namespace Text

section Lines

variable {l rest : List Char}

theorem feedSplit_ne_nil (cs : List Char) : feedSplit cs ≠ [] := by
  cases cs with
  | nil => exact List.cons_ne_nil _ _
  | cons c cs =>
    unfold feedSplit
    split
    · exact List.cons_ne_nil _ _
    · split <;> exact List.cons_ne_nil _ _

theorem feedSplit_append (h : '\n' ∉ l) : feedSplit (l ++ '\n' :: rest) = l :: feedSplit rest := by
  induction l with
  | nil => rw [List.nil_append, feedSplit, if_pos rfl]
  | cons c cs ih =>
    obtain ⟨hc, hcs⟩ := not_or.mp (mt List.mem_cons.mpr h)
    rw [List.cons_append, feedSplit, if_neg (Ne.symm hc), ih hcs]

/-- A line that is ended comes first, without a carriage return at its end. -/
theorem lines_append (h : '\n' ∉ l) : lines (l ++ '\n' :: rest) = dropReturn l :: lines rest := by
  unfold lines
  rw [feedSplit_append h]
  cases hrest : feedSplit rest with
  | nil => exact absurd hrest (feedSplit_ne_nil rest)
  | cons l' ls => rfl

theorem dropReturn_eq (h : '\r' ∉ l) : dropReturn l = l := by
  unfold dropReturn
  rw [if_neg fun hlast => h (List.mem_of_getLast? hlast)]

@[simp] theorem lines_nil : lines [] = [] := rfl

theorem lines_flatMap_eq_map {ls : List (List Char)} (h : ∀ l ∈ ls, '\n' ∉ l) :
    lines (ls.flatMap (· ++ ['\n'])) = ls.map dropReturn := by
  induction ls with
  | nil => rfl
  | cons l ls ih =>
    obtain ⟨hl, hls⟩ := List.forall_mem_cons.mp h
    rw [List.flatMap_cons, List.append_assoc, List.singleton_append, lines_append hl, ih hls,
      List.map_cons]

theorem lines_flatMap {ls : List (List Char)} (h : ∀ l ∈ ls, '\n' ∉ l ∧ dropReturn l = l) :
    lines (ls.flatMap (· ++ ['\n'])) = ls := by
  rw [lines_flatMap_eq_map fun l hl => (h l hl).1, List.map_congr_left fun l hl => (h l hl).2,
    List.map_id']

end Lines

section Cuts

variable {sep : Char} {l : List Char}

theorem splitOnce_append (h : sep ∉ l) (rest : List Char) :
    splitOnce sep (l ++ sep :: rest) = some (l, rest) := by
  induction l with
  | nil => exact if_pos rfl
  | cons c cs ih =>
    obtain ⟨hc, hcs⟩ := not_or.mp (mt List.mem_cons.mpr h)
    rw [List.cons_append, splitOnce, if_neg (Ne.symm hc), ih hcs]
    rfl

theorem splitOnce_eq_none (h : sep ∉ l) : splitOnce sep l = none := by
  induction l with
  | nil => rfl
  | cons c cs ih =>
    obtain ⟨hc, hcs⟩ := not_or.mp (mt List.mem_cons.mpr h)
    rw [splitOnce, if_neg (Ne.symm hc), ih hcs]
    rfl

theorem eq_append_of_splitOnce {p : List Char × List Char} (h : splitOnce sep l = some p) :
    l = p.1 ++ sep :: p.2 := by
  induction l generalizing p with
  | nil => cases h
  | cons c cs ih =>
    rw [splitOnce] at h
    split at h
    · rename_i hc
      cases h
      rw [hc]
      rfl
    · obtain ⟨p', hp', rfl⟩ := Option.map_eq_some_iff.mp h
      rw [ih hp']
      rfl

theorem takeWhile_ne_append (h : sep ∉ l) (rest : List Char) :
    (l ++ sep :: rest).takeWhile (· ≠ sep) = l := by
  have hall : ∀ c ∈ l, decide (c ≠ sep) = true := by
    intro c hc
    exact decide_eq_true fun heq => h (heq ▸ hc)
  rw [List.takeWhile_append_of_pos hall, List.takeWhile_cons_of_neg (by simp), List.append_nil]

end Cuts

section Blanks

variable {w rest : List Char}

theorem trim_eq (hhead : ∀ c ∈ w.head?, isBlank c = false)
    (hlast : ∀ c ∈ w.getLast?, isBlank c = false) : trim w = w := by
  have hfront : w.dropWhile isBlank = w := by
    cases w with
    | nil => rfl
    | cons c cs => rw [List.dropWhile_cons_of_neg (by simp [hhead c rfl])]
  have hback : w.reverse.dropWhile isBlank = w.reverse := by
    cases hr : w.reverse with
    | nil => rfl
    | cons c cs =>
      have hc : w.getLast? = some c := by rw [List.getLast?_eq_head?_reverse, hr]; rfl
      rw [List.dropWhile_cons_of_neg (by simp [hlast c hc])]
  rw [trim, trimWhile, hfront, dropRightWhile, hback, List.reverse_reverse]

/-- No blank stands at either end. -/
structure IsBare (w : List Char) : Prop where
  head_ok : ∀ c ∈ w.head?, isBlank c = false
  last_ok : ∀ c ∈ w.getLast?, isBlank c = false

theorem isBare_iff :
    IsBare w ↔ w.head?.all (!isBlank ·) = true ∧ w.getLast?.all (!isBlank ·) = true := by
  simp only [Option.all_eq_true, Bool.not_eq_true']
  exact ⟨fun h => ⟨h.head_ok, h.last_ok⟩, fun h => ⟨h.1, h.2⟩⟩

instance (w : List Char) : Decidable (IsBare w) := decidable_of_iff _ isBare_iff.symm

theorem IsBare.trim_eq (h : IsBare w) : trim w = w := Text.trim_eq h.head_ok h.last_ok

theorem isBare_of_forall (h : ∀ c ∈ w, isBlank c = false) : IsBare w where
  head_ok c hc := h c (List.mem_of_mem_head? hc)
  last_ok c hc := h c (List.mem_of_getLast? hc)

theorem IsBare.append {v : List Char} (hv : IsBare v) (hw : IsBare w) : IsBare (v ++ w) where
  head_ok c hc := by
    rw [List.head?_append] at hc
    cases hhead : v.head? with
    | some d =>
      rw [hhead] at hc
      exact hv.head_ok c (hhead ▸ hc)
    | none =>
      rw [hhead] at hc
      exact hw.head_ok c hc
  last_ok c hc := by
    rw [List.getLast?_append] at hc
    cases hlast : w.getLast? with
    | some d =>
      rw [hlast] at hc
      exact hw.last_ok c (hlast ▸ hc)
    | none =>
      rw [hlast] at hc
      exact hv.last_ok c hc

/-- A line without blanks at its ends does not end in a carriage return. -/
theorem IsBare.dropReturn_eq (h : IsBare w) : dropReturn w = w := by
  have hlast : ¬ w.getLast? = some '\r' := fun hlast => absurd (h.last_ok _ hlast) (by decide)
  rw [dropReturn, if_neg hlast]

/-- Only blanks are trimmed. -/
theorem count_trim {c : Char} (hc : isBlank c = false) (l : List Char) :
    (trim l).count c = l.count c := by
  have hdrop (l : List Char) : (l.dropWhile isBlank).count c = l.count c := by
    induction l with
    | nil => rfl
    | cons d l ih =>
      cases hd : isBlank d with
      | false => rw [List.dropWhile_cons_of_neg (by simp [hd])]
      | true =>
        have hne : d ≠ c := by
          rintro rfl
          rw [hc] at hd
          cases hd
        rw [List.dropWhile_cons_of_pos hd, ih, List.count_cons_of_ne hne]
  rw [trim, trimWhile, dropRightWhile, List.count_reverse, hdrop, List.count_reverse, hdrop]

theorem mem_trim_iff {c : Char} (hc : isBlank c = false) {l : List Char} :
    c ∈ trim l ↔ c ∈ l := by
  rw [← List.count_pos_iff, count_trim hc, List.count_pos_iff]

theorem words_eq (hne : w ≠ []) (h : ∀ c ∈ w, isBlank c = false) : words w = [w] := by
  induction w with
  | nil => exact absurd rfl hne
  | cons c cs ih =>
    obtain ⟨hc, hcs⟩ := List.forall_mem_cons.mp h
    cases cs with
    | nil => simp [words, hc]
    | cons d ds =>
      have hd := hcs d List.mem_cons_self
      simp [words, hc, hd, ih (List.cons_ne_nil _ _) hcs]

/-- A word that is ended by a space comes first. -/
theorem words_append (hne : w ≠ []) (h : ∀ c ∈ w, isBlank c = false) :
    words (w ++ ' ' :: rest) = w :: words rest := by
  have hspace : isBlank ' ' = true := by decide
  induction w with
  | nil => exact absurd rfl hne
  | cons c cs ih =>
    obtain ⟨hc, hcs⟩ := List.forall_mem_cons.mp h
    cases cs with
    | nil =>
      have hskip : words (' ' :: rest) = words rest := by
        cases rest with
        | nil => simp [words, hspace]
        | cons d ds => simp [words, hspace]
      simp [words, hc, hspace, hskip]
    | cons d ds =>
      have hd := hcs d List.mem_cons_self
      have hrest := ih (List.cons_ne_nil _ _) hcs
      simp only [List.cons_append] at hrest
      simp [words, hc, hd, hrest]

end Blanks

end Text

namespace Decimal

variable {c : Char} {cs : List Char} {bound n : Nat}

theorem le_ofDigitChars (cs : List Char) (n : Nat) : n ≤ Nat.ofDigitChars 10 cs n := by
  induction cs generalizing n with
  | nil => exact Nat.le_refl n
  | cons c cs ih =>
    have hle := ih (10 * n + (c.toNat - '0'.toNat))
    rw [Nat.ofDigitChars_cons]
    omega

theorem readDigits_eq_ok (hcs : ∀ c ∈ cs, c.isDigit)
    (hlt : Nat.ofDigitChars 10 cs n < bound) :
    readDigits bound n cs = .ok (Nat.ofDigitChars 10 cs n) := by
  induction cs generalizing n with
  | nil => rfl
  | cons c cs ih =>
    obtain ⟨hc, hcs⟩ := List.forall_mem_cons.mp hcs
    rw [Nat.ofDigitChars_cons] at hlt ⊢
    have hle := le_ofDigitChars cs (10 * n + (c.toNat - '0'.toNat))
    have hdigit : digit? c = some (c.toNat - '0'.toNat) := if_pos hc
    simp only [readDigits, hdigit]
    rw [if_neg (by omega), ih hcs hlt]

/-- A character that is no digit fails the reading, unless the number was too large before. -/
theorem exists_readDigits_eq_error (bound n : Nat) (h : ∃ c ∈ cs, c.isDigit = false) :
    ∃ e, readDigits bound n cs = .error e := by
  induction cs generalizing n with
  | nil =>
    obtain ⟨c, hc, -⟩ := h
    cases hc
  | cons c cs ih =>
    rw [readDigits]
    cases hdigit : c.isDigit with
    | false =>
      have hnone : digit? c = none := if_neg (by simp [hdigit])
      exact ⟨.invalidDigit, by rw [hnone]⟩
    | true =>
      have hsome : digit? c = some (c.toNat - '0'.toNat) := if_pos hdigit
      simp only [hsome]
      by_cases hbound : bound ≤ 10 * n + (c.toNat - '0'.toNat)
      · exact ⟨.tooLarge, if_pos hbound⟩
      · obtain ⟨d, hd, hother⟩ := h
        rw [if_neg hbound]
        rcases List.mem_cons.mp hd with rfl | hd
        · rw [hdigit] at hother
          cases hother
        · exact ih _ ⟨d, hd, hother⟩

/-- A number that reaches the bound fails the reading. -/
theorem exists_readDigits_eq_error_of_le (hcs : ∀ c ∈ cs, c.isDigit) (hn : n < bound)
    (hle : bound ≤ Nat.ofDigitChars 10 cs n) : ∃ e, readDigits bound n cs = .error e := by
  induction cs generalizing n with
  | nil => exact absurd hle (Nat.not_le_of_lt hn)
  | cons c cs ih =>
    obtain ⟨hc, hcs⟩ := List.forall_mem_cons.mp hcs
    have hdigit : digit? c = some (c.toNat - '0'.toNat) := if_pos hc
    rw [Nat.ofDigitChars_cons] at hle
    rw [readDigits]
    simp only [hdigit]
    by_cases hbound : bound ≤ 10 * n + (c.toNat - '0'.toNat)
    · exact ⟨.tooLarge, if_pos hbound⟩
    · rw [if_neg hbound]
      exact ih hcs (by omega) hle

/-- Without a sign the digits are read as they stand. -/
theorem parseBelow_cons (h : c ≠ '+') (cs : List Char) :
    parseBelow bound (c :: cs) = readDigits bound 0 (c :: cs) := by
  unfold parseBelow
  split
  · rename_i heq; cases heq
  · rename_i heq; cases heq; exact absurd rfl h
  · rename_i heq; cases heq; exact absurd rfl h
  · rfl

theorem ne_plus_of_isDigit (h : c.isDigit = true) : c ≠ '+' := by
  rintro rfl
  exact absurd h (by decide)

theorem parseBelow_toDigits (h : n < bound) : parseBelow bound (Nat.toDigits 10 n) = .ok n := by
  have hdigits : ∀ c ∈ Nat.toDigits 10 n, c.isDigit :=
    fun c hc => Nat.isDigit_of_mem_toDigits (by decide) (by decide) hc
  have hvalue : Nat.ofDigitChars 10 (Nat.toDigits 10 n) 0 = n := Nat.ofDigitChars_ten_toDigits
  have hread : readDigits bound 0 (Nat.toDigits 10 n) = .ok n := by
    rw [readDigits_eq_ok hdigits (by rw [hvalue]; exact h), hvalue]
  cases hcs : Nat.toDigits 10 n with
  | nil => exact absurd hcs Nat.toDigits_ne_nil
  | cons c cs =>
    rw [hcs] at hread hdigits
    rw [parseBelow_cons (ne_plus_of_isDigit (hdigits c List.mem_cons_self)), hread]

theorem parseSize_toDigits (h : n < Word.count 8) : parseSize (Nat.toDigits 10 n) = .ok n :=
  parseBelow_toDigits h

theorem isSome_parseSize?_iff (hne : cs ≠ []) (hcs : ∀ c ∈ cs, c.isDigit) :
    (parseSize? cs).isSome = true ↔ Nat.ofDigitChars 10 cs 0 < Word.count 8 := by
  cases cs with
  | nil => exact absurd rfl hne
  | cons c cs =>
    rw [parseSize?, parseSize, parseBelow_cons (ne_plus_of_isDigit (hcs c List.mem_cons_self))]
    by_cases hlt : Nat.ofDigitChars 10 (c :: cs) 0 < Word.count 8
    · rw [readDigits_eq_ok hcs hlt]
      exact ⟨fun _ => hlt, fun _ => rfl⟩
    · obtain ⟨e, he⟩ := exists_readDigits_eq_error_of_le hcs (by decide) (Nat.le_of_not_lt hlt)
      rw [he]
      exact ⟨(nomatch ·), (absurd · hlt)⟩

/-- All characters of a number are digits, but for a sign. -/
theorem isDigit_of_parseSize? (h : (parseSize? cs).isSome = true) (hc : c ∈ cs) (hplus : c ≠ '+') :
    c.isDigit = true := by
  refine Decidable.byContradiction fun hdigit => ?_
  have herror {cs' : List Char} (hmem : c ∈ cs') :
      ∃ e, readDigits (Word.count 8) 0 cs' = .error e :=
    exists_readDigits_eq_error _ _ ⟨c, hmem, Bool.eq_false_iff.mpr hdigit⟩
  rw [parseSize?, parseSize] at h
  unfold parseBelow at h
  split at h
  · cases h
  · cases h
  · obtain ⟨e, he⟩ := herror ((List.mem_cons.mp hc).resolve_left hplus)
    rw [he] at h
    cases h
  · obtain ⟨e, he⟩ := herror hc
    rw [he] at h
    cases h

theorem isBlank_of_isDigit (h : c.isDigit = true) : Text.isBlank c = false := by
  simp only [Char.isDigit, Bool.and_eq_true, decide_eq_true_eq] at h
  obtain ⟨hlow, hhigh⟩ := h
  have hlow : 48 ≤ c.toNat := hlow
  have hhigh : c.toNat ≤ 57 := hhigh
  simp [Text.isBlank]
  omega

theorem isBlank_of_mem_toDigits (hc : c ∈ Nat.toDigits 10 n) : Text.isBlank c = false :=
  isBlank_of_isDigit (Nat.isDigit_of_mem_toDigits (by decide) (by decide) hc)

theorem isBare_toDigits (n : Nat) : Text.IsBare (Nat.toDigits 10 n) :=
  Text.isBare_of_forall fun _ => isBlank_of_mem_toDigits

end Decimal

end GridSnapshot
