import GridSnapshot.Decimal.Shortest
import GridSnapshot.Metadata.Namelist
import GridSnapshot.Proofs.TextLines
import GridSnapshot.Proofs.Tables

namespace GridSnapshot

namespace Namelist

def keyLine (key value : List Char) : List Char := ' ' :: (key ++ '=' :: (value ++ [',']))

/-- A key that a line can start with. -/
structure IsKey (key : List Char) : Prop where
  upper_eq : Text.asciiUpper (Text.trim key) = key
  not_mem : '=' ∉ key
  head_ok : ∃ c cs, key = c :: cs ∧ Text.isBlank c = false ∧ c ≠ '&' ∧ c ≠ '/'

section Lines

variable {key value : List Char}

theorem trim_keyLine (h : IsKey key) (value : List Char) :
    Text.trim (keyLine key value) = key ++ '=' :: (value ++ [',']) := by
  obtain ⟨c, cs, rfl, hc, -, -⟩ := h.head_ok
  have hspace : Text.isBlank ' ' = true := by decide
  have hcomma : Text.isBlank ',' = false := by decide
  have hskip (l : List Char) : Text.trim (' ' :: l) = Text.trim l := by
    rw [Text.trim, Text.trimWhile, List.dropWhile_cons_of_pos hspace]
    rfl
  rw [keyLine, hskip]
  apply Text.trim_eq
  · intro c' hc'
    cases hc'
    exact hc
  · intro c' hc'
    have hlast : ((c :: cs) ++ '=' :: (value ++ [','])).getLast? = some ',' := by
      simp [List.getLast?_cons]
    rw [hlast] at hc'
    cases hc'
    exact hcomma

theorem scanLine_of_trim {line : List Char} (htrim : Text.trim line = key ++ '=' :: value)
    (hkey : '=' ∉ key) (hhead : ∀ c ∈ key.head?, c ≠ '&' ∧ c ≠ '/') :
    scanLine line =
      some (String.ofList (Text.asciiUpper (Text.trim key)), firstValue value) := by
  have hcut := Text.splitOnce_append hkey value
  unfold scanLine
  rw [htrim]
  cases key with
  | nil => simp [Text.splitOnce, Text.trim, Text.trimWhile, Text.dropRightWhile]
  | cons c cs =>
    obtain ⟨hamp, hslash⟩ := hhead c rfl
    split
    · rename_i heq; cases heq
    · rename_i heq; cases heq; exact absurd rfl hamp
    · rename_i heq; cases heq; exact absurd rfl hslash
    · rw [hcut]
      rfl

theorem scanLine_keyLine (h : IsKey key) :
    scanLine (keyLine key value) = some (String.ofList key, firstValue (value ++ [','])) := by
  obtain ⟨c, cs, hkey, -, hamp, hslash⟩ := h.head_ok
  have hhead : ∀ d ∈ key.head?, d ≠ '&' ∧ d ≠ '/' := by
    intro d hd
    rw [hkey] at hd
    cases hd
    exact ⟨hamp, hslash⟩
  rw [scanLine_of_trim (trim_keyLine h value) h.not_mem hhead, h.upper_eq]

end Lines

section Values

variable {text value : List Char}

/-- Without a quote in front the first element ends at a comma. -/
theorem firstElement_eq_trim (hbare : Text.IsBare value)
    (hquote : ∀ c ∈ value.head?, isQuote c = false) :
    firstElement value = Text.trim (value.takeWhile (· ≠ ',')) := by
  unfold firstElement
  rw [hbare.trim_eq]
  cases value with
  | nil => rfl
  | cons c cs =>
    simp only [hquote c rfl]
    rfl

theorem firstElement_unquoted {rest : List Char} (hbare : Text.IsBare (value ++ rest))
    (hquote : ∀ c ∈ (value ++ rest).head?, isQuote c = false) (hcomma : ',' ∉ value)
    (hrest : ∀ c ∈ rest.head?, c = ',') : firstElement (value ++ rest) = Text.trim value := by
  have hcut : (value ++ rest).takeWhile (· ≠ ',') = value := by
    cases rest with
    | nil =>
      have hall : ∀ c ∈ value, decide (c ≠ ',') = true :=
        fun c hc => decide_eq_true fun heq => hcomma (heq ▸ hc)
      rw [List.takeWhile_append_of_pos hall, List.takeWhile_nil, List.append_nil]
    | cons c cs =>
      obtain rfl := hrest c rfl
      exact Text.takeWhile_ne_append hcomma cs
  rw [firstElement_eq_trim hbare hquote, hcut]

theorem firstElement_quoted {quote : Char} {content rest : List Char}
    (hquote : isQuote quote = true) (hcontent : quote ∉ content)
    (hbare : Text.IsBare (quote :: (content ++ quote :: rest))) :
    firstElement (quote :: (content ++ quote :: rest)) = content := by
  unfold firstElement
  rw [hbare.trim_eq]
  exact (if_pos hquote).trans (Text.takeWhile_ne_append hcontent rest)

theorem dropRepeat_eq (hstar : '*' ∉ text) (hbare : Text.IsBare text) : dropRepeat text = text := by
  rw [dropRepeat, Text.splitOnce_eq_none hstar]
  exact hbare.trim_eq

/-- A text that keeps its characters between double quotes. -/
structure IsQuotable (text : List Char) : Prop where
  quote_not_mem : '"' ∉ text
  feed_not_mem : '\n' ∉ text
  star_not_mem : '*' ∉ text
  isBare : Text.IsBare text

instance (text : List Char) : Decidable (IsQuotable text) :=
  decidable_of_iff ('"' ∉ text ∧ '\n' ∉ text ∧ '*' ∉ text ∧ Text.IsBare text)
    ⟨fun h => ⟨h.1, h.2.1, h.2.2.1, h.2.2.2⟩, fun h => ⟨h.1, h.2, h.3, h.4⟩⟩

theorem firstValue_quoted (h : IsQuotable text) :
    firstValue (['"'] ++ text ++ ['"'] ++ [',']) = String.ofList text := by
  have hvalue : ['"'] ++ text ++ ['"'] ++ [','] = '"' :: (text ++ '"' :: [',']) := by simp
  have hbare : Text.IsBare ('"' :: (text ++ '"' :: [','])) := by
    refine ⟨fun c hc => ?_, fun c hc => ?_⟩
    · cases hc
      decide
    · have hlast : ('"' :: (text ++ '"' :: [','])).getLast? = some ',' := by
        simp [List.getLast?_cons]
      rw [hlast] at hc
      cases hc
      decide
  rw [hvalue, firstValue, firstElement_quoted (by decide) h.quote_not_mem hbare,
    dropRepeat_eq h.star_not_mem h.isBare]

/-- A value that needs no quotes. -/
structure IsPlain (value : List Char) : Prop where
  comma_not_mem : ',' ∉ value
  star_not_mem : '*' ∉ value
  isQuote_eq : ∀ c ∈ value, isQuote c = false
  isBlank_eq : ∀ c ∈ value, Text.isBlank c = false

theorem isPlain_iff : IsPlain value ↔ ',' ∉ value ∧ '*' ∉ value ∧
    value.all (!isQuote ·) = true ∧ value.all (!Text.isBlank ·) = true := by
  simp only [List.all_eq_true, Bool.not_eq_true']
  exact ⟨fun h => ⟨h.1, h.2, h.3, h.4⟩, fun h => ⟨h.1, h.2.1, h.2.2.1, h.2.2.2⟩⟩

instance (value : List Char) : Decidable (IsPlain value) := decidable_of_iff _ isPlain_iff.symm

theorem IsPlain.isBare (h : IsPlain value) : Text.IsBare value :=
  Text.isBare_of_forall h.isBlank_eq

theorem IsPlain.firstElement_append {rest : List Char} (h : IsPlain value)
    (hbare : Text.IsBare rest) (hrest : ∀ c ∈ rest.head?, c = ',') :
    firstElement (value ++ rest) = value := by
  have hquote : ∀ c ∈ (value ++ rest).head?, isQuote c = false := by
    intro c hc
    cases value with
    | nil =>
      obtain rfl := hrest c hc
      decide
    | cons d ds =>
      cases hc
      exact h.isQuote_eq c List.mem_cons_self
  rw [firstElement_unquoted (h.isBare.append hbare) hquote h.comma_not_mem hrest, h.isBare.trim_eq]

theorem firstValue_plain (h : IsPlain value) :
    firstValue (value ++ [',']) = String.ofList value := by
  have hcomma : Text.IsBare [','] := by decide
  rw [firstValue, h.firstElement_append hcomma (by simp), dropRepeat_eq h.star_not_mem h.isBare]

end Values

/-- Of a key that comes again the first line counts. -/
theorem get?_foldl_addFirst (es : List (String × String)) (entries : Entries) (key : String) :
    (es.foldl addFirst entries).get? key = (entries.get? key).or (es.lookup key) := by
  induction es generalizing entries with
  | nil => rw [List.foldl_nil, List.lookup_nil, Option.or_none]
  | cons e es ih =>
    obtain ⟨k, v⟩ := e
    rw [List.foldl_cons, ih]
    unfold addFirst Table.contains
    by_cases hkey : key = k
    · subst hkey
      cases hget : entries.get? key with
      | some v' => simp [hget]
      | none => simp
    · rw [Table.lookup_cons_of_ne hkey]
      split
      · rfl
      · rw [Table.get?_insert_of_ne hkey]

/-- The line of a key and its value. -/
def entryLine (e : String × List Char) : List Char := keyLine e.1.toList e.2

/-- A key and a value that can be read back. -/
structure IsEntry (e : String × List Char) : Prop where
  isKey : IsKey e.1.toList
  key_line : '\n' ∉ e.1.toList
  value_line : '\n' ∉ e.2

theorem IsEntry.line_ok {e : String × List Char} (h : IsEntry e) :
    '\n' ∉ entryLine e ∧ Text.dropReturn (entryLine e) = entryLine e := by
  constructor
  · have hkey := h.key_line
    have hvalue := h.value_line
    simp [entryLine, keyLine, hkey, hvalue]
  · have hlast : (entryLine e).getLast? = some ',' := by
      simp [entryLine, keyLine, List.getLast?_cons]
    rw [Text.dropReturn, hlast]
    rfl

/-- What a line of a namelist is scanned to. -/
def scanned (e : String × List Char) : String × String := (e.1, firstValue (e.2 ++ [',']))

theorem filterMap_scanLine {es : List (String × List Char)} (h : ∀ e ∈ es, IsEntry e) :
    (es.map entryLine).filterMap scanLine = es.map scanned := by
  rw [List.filterMap_map]
  induction es with
  | nil => rfl
  | cons e es ih =>
    obtain ⟨he, hes⟩ := List.forall_mem_cons.mp h
    rw [List.filterMap_cons, Function.comp_apply, entryLine, scanLine_keyLine he.isKey,
      String.ofList_toList, List.map_cons, ih hes]
    rfl

end Namelist

namespace Decimal

theorem not_mem_toDigits {c : Char} (hc : c.isDigit = false) (n : Nat) :
    c ∉ Nat.toDigits 10 n := by
  intro h
  have hdigit := Nat.isDigit_of_mem_toDigits (by decide) (by decide) h
  rw [hc] at hdigit
  cases hdigit

theorem not_mem_int {c : Char} (hc : c.isDigit = false) (hminus : c ≠ '-') (i : Int) :
    c ∉ (toString i).toList := by
  cases i with
  | ofNat n =>
    have hlist : (toString (Int.ofNat n)).toList = Nat.toDigits 10 n := Nat.toList_repr
    rw [hlist]
    exact not_mem_toDigits hc n
  | negSucc n =>
    have hlist : (toString (Int.negSucc n)).toList = '-' :: Nat.toDigits 10 (n + 1) := by
      have htext : toString (Int.negSucc n) = "-" ++ Nat.repr (n + 1) := rfl
      rw [htext, String.toList_append, Nat.toList_repr]
      rfl
    rw [hlist, List.mem_cons]
    exact not_or.mpr ⟨hminus, not_mem_toDigits hc _⟩

/-- The characters of a decimal, other than digits. -/
def isMark (c : Char) : Bool := c = '-' ∨ c = '.' ∨ c = 'e'

theorem not_mem_layOut {c : Char} (hc : c.isDigit = false) (hmark : isMark c = false) (d : Scaled) :
    c ∉ (layOut d).toList := by
  simp only [isMark, decide_eq_false_iff_not, not_or] at hmark
  obtain ⟨hminus, hpoint, he⟩ := hmark
  have hzero : c ≠ '0' := by
    intro heq
    subst heq
    exact absurd hc (by decide)
  have hdigits : c ∉ ((Nat.toDigits 10 d.digits).reverse.dropWhile (· == '0')).reverse := by
    intro h
    have h := (List.dropWhile_sublist _).subset (List.mem_reverse.mp h)
    exact not_mem_toDigits hc _ (List.mem_reverse.mp h)
  have hexponent := not_mem_int hc hminus ((Nat.toDigits 10 d.digits).length + d.exponent - 1)
  simp only [layOut]
  generalize ((Nat.toDigits 10 d.digits).reverse.dropWhile (· == '0')).reverse = digits at hdigits ⊢
  split
  · split
    · simp_all
    · simp_all
    · simp_all
  · split
    · simp_all
    · have hwhole (n : Nat) : c ∉ digits.take n :=
        fun h => hdigits ((List.take_sublist _ _).subset h)
      have hfraction (n : Nat) : c ∉ digits.drop n :=
        fun h => hdigits ((List.drop_sublist _ _).subset h)
      split <;> simp_all

/-- A decimal consists of digits and marks, or of the letters of a word. -/
theorem not_mem_shortestText {c : Char} (hc : c.isDigit = false) (hmark : isMark c = false)
    (hnan : c ∉ "NaN".toList) (hinf : c ∉ "inf".toList) (x : Float) :
    c ∉ (shortestText x).toList := by
  have hsign (p : Prop) [Decidable p] : c ∉ (if p then "-" else "").toList := by
    simp only [isMark, decide_eq_false_iff_not, not_or] at hmark
    split
    · exact fun h => hmark.1 (by simpa using h)
    · exact List.not_mem_nil
  have hzero : c ∉ "0.0".toList := by
    simp only [isMark, decide_eq_false_iff_not, not_or] at hmark
    intro h
    obtain rfl | rfl | rfl : c = '0' ∨ c = '.' ∨ c = '0' := by simpa using h
    · exact absurd hc (by decide)
    · exact hmark.2.1 rfl
    · exact absurd hc (by decide)
  simp only [shortestText]
  cases classify x.toBits with
  | nan => exact hnan
  | infinite =>
    rw [String.toList_append, List.mem_append]
    exact not_or.mpr ⟨hsign _, hinf⟩
  | zero =>
    rw [String.toList_append, List.mem_append]
    exact not_or.mpr ⟨hsign _, hzero⟩
  | finite b =>
    rw [String.toList_append, List.mem_append]
    exact not_or.mpr ⟨hsign _, not_mem_layOut hc hmark _⟩

theorem char_of_mem_shortestText {c : Char} {x : Float} (h : c ∈ (shortestText x).toList) :
    c.isDigit = true ∨ c ∈ "-.eNainf".toList := by
  cases hdigit : c.isDigit with
  | true => exact .inl rfl
  | false =>
    right
    by_cases hword : c ∈ "-.eNainf".toList
    · exact hword
    · have hmem : c ∉ ['-', '.', 'e', 'N', 'a', 'i', 'n', 'f'] := hword
      simp only [List.mem_cons, List.not_mem_nil, or_false, not_or] at hmem
      obtain ⟨hminus, hpoint, he, hN, ha, hi, hn, hf⟩ := hmem
      exact absurd h (not_mem_shortestText hdigit (by simp [isMark, hminus, hpoint, he])
        (by simp [hN, ha]) (by simp [hi, hn, hf]) x)

/-- A decimal stands in a namelist as it is. -/
theorem isPlain_shortestText (x : Float) : Namelist.IsPlain (shortestText x).toList where
  comma_not_mem h := by
    rcases char_of_mem_shortestText h with h | h <;> exact absurd h (by decide)
  star_not_mem h := by
    rcases char_of_mem_shortestText h with h | h <;> exact absurd h (by decide)
  isQuote_eq c h := by
    rcases char_of_mem_shortestText h with h | h
    · simp only [Namelist.isQuote, Bool.or_eq_false_iff, decide_eq_false_iff_not]
      constructor <;> intro heq <;> subst heq <;> exact absurd h (by decide)
    · have hall : "-.eNainf".toList.all (!Namelist.isQuote ·) = true := by decide
      exact (Bool.not_eq_true' _).mp (List.all_eq_true.mp hall c h)
  isBlank_eq c h := by
    rcases char_of_mem_shortestText h with h | h
    · exact isBlank_of_isDigit h
    · have hall : "-.eNainf".toList.all (!Text.isBlank ·) = true := by decide
      exact (Bool.not_eq_true' _).mp (List.all_eq_true.mp hall c h)

/-- There is no other exponent letter in a decimal, so it is read as it was printed. -/
theorem real?_firstValue (x : Float) :
    Namelist.real? (Namelist.firstValue ((shortestText x).toList ++ [','])) =
      parseReal? (shortestText x).toList := by
  have hplain := isPlain_shortestText x
  have hletter : ∀ c ∈ (shortestText x).toList, (if c = 'D' ∨ c = 'd' then 'E' else c) = c := by
    intro c hc
    refine if_neg fun heq => ?_
    rcases heq with rfl | rfl
    · rcases char_of_mem_shortestText hc with h | h <;> exact absurd h (by decide)
    · rcases char_of_mem_shortestText hc with h | h <;> exact absurd h (by decide)
  rw [Namelist.firstValue_plain hplain, Namelist.real?, String.toList_ofList,
    (Text.isBare_of_forall hplain.isBlank_eq).trim_eq, List.map_congr_left hletter, List.map_id']

end Decimal

end GridSnapshot
