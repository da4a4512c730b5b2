import GridSnapshot.Proofs.NamelistText

namespace GridSnapshot.Namelist

/-- A text between quotes. -/
structure QuotedText where
  quote : Char
  content : List Char
  isQuote_quote : isQuote quote = true
  quote_not_mem : quote ∉ content
  feed_not_mem : '\n' ∉ content

inductive Literal where
  | plain (text : List Char) (h : IsPlain text)
  | quoted (text : QuotedText)

/-- How often an element is repeated, in digits. -/
structure RepeatCount where
  digits : List Char
  ne_nil : digits ≠ []
  isDigit : ∀ c ∈ digits, c.isDigit = true

structure Element where
  count : Option RepeatCount
  literal : Literal

/-- A list of elements that is not empty. -/
structure ElementList where
  first : Element
  others : List Element

/-- Letters, digits, underscores and whatever else is neither blank nor a mark of a line. -/
def isKeyChar (c : Char) : Bool := !Text.isBlank c && c ≠ '=' && c ≠ '&' && c ≠ '/'

structure Key where
  chars : List Char
  isKeyChar : ∀ c ∈ chars, isKeyChar c = true

inductive Line where
  | group (mark : Char) (rest : List Char) (hmark : mark = '&' ∨ mark = '/') (hrest : '\n' ∉ rest)
  | entry (key : Key) (value : ElementList)

def QuotedText.text (t : QuotedText) : List Char := t.quote :: (t.content ++ [t.quote])

def Literal.text : Literal → List Char
  | plain text _ => text
  | quoted t => t.text

def Element.text (e : Element) : List Char :=
  match e.count with
  | none => e.literal.text
  | some n => n.digits ++ '*' :: e.literal.text

def othersText (es : List Element) : List Char := es.flatMap fun e => ',' :: e.text

def ElementList.text (v : ElementList) : List Char := v.first.text ++ othersText v.others

def Line.text : Line → List Char
  | group mark rest _ _ => mark :: rest
  | entry key value => key.chars ++ '=' :: value.text

def render (ls : List Line) : String := String.ofList ((ls.map Line.text).flatMap (· ++ ['\n']))

/-- An element without quotes and repeat count. -/
def Literal.bare : Literal → String
  | plain text _ => String.ofList text
  | quoted t => String.ofList (Text.trim t.content)

def Key.name (k : Key) : String := String.ofList (Text.asciiUpper k.chars)

def Line.entry? : Line → Option (String × ElementList)
  | group _ _ _ _ => none
  | entry key value => some (key.name, value)

def entries (ls : List Line) : List (String × ElementList) := ls.filterMap Line.entry?

/-- A repeat count that the scanner can read. -/
def RepeatCount.Fits (n : RepeatCount) : Prop := Nat.ofDigitChars 10 n.digits 0 < Word.count 8

/-- A text in front of whose first asterisk stands a number. -/
def OpensWithCount (content : List Char) : Prop :=
  ∃ count rest, content = count ++ '*' :: rest ∧
    (Decimal.parseSize? (Text.trim count)).isSome = true

/-- The elements that are scanned to what they mean. -/
def Element.Reads (e : Element) : Prop :=
  match e.count, e.literal with
  | none, .plain _ _ => True
  | none, .quoted t => ¬ OpensWithCount t.content
  | some n, .plain _ _ => n.Fits
  | some _, .quoted _ => False

section Blanks

variable {c : Char}

theorem eq_of_isQuote (h : isQuote c = true) : c = '\'' ∨ c = '"' := by
  simpa only [isQuote, Bool.or_eq_true, decide_eq_true_eq] using h

theorem isBlank_of_isQuote (h : isQuote c = true) : Text.isBlank c = false := by
  rcases eq_of_isQuote h with rfl | rfl <;> decide

theorem RepeatCount.not_mem (n : RepeatCount) (hc : c.isDigit = false) : c ∉ n.digits := by
  intro hmem
  rw [n.isDigit c hmem] at hc
  cases hc

theorem RepeatCount.isBare (n : RepeatCount) : Text.IsBare n.digits :=
  Text.isBare_of_forall fun c hc => Decimal.isBlank_of_isDigit (n.isDigit c hc)

theorem Key.isBare (k : Key) : Text.IsBare k.chars := by
  refine Text.isBare_of_forall fun c hc => ?_
  have hkey := k.isKeyChar c hc
  simp only [Namelist.isKeyChar, Bool.and_eq_true, Bool.not_eq_true'] at hkey
  exact hkey.1.1.1

theorem isBare_singleton (h : Text.isBlank c = false) : Text.IsBare [c] :=
  Text.isBare_of_forall (List.forall_mem_singleton.mpr h)

theorem isBare_between (h : Text.isBlank c = false) (cs : List Char) :
    Text.IsBare (c :: (cs ++ [c])) where
  head_ok d hd := by
    cases hd
    exact h
  last_ok d hd := by
    rw [← List.cons_append, List.getLast?_append] at hd
    cases hd
    exact h

theorem Literal.isBare (l : Literal) : Text.IsBare l.text := by
  cases l with
  | plain text h => exact h.isBare
  | quoted t => exact isBare_between (isBlank_of_isQuote t.isQuote_quote) t.content

theorem Element.isBare (e : Element) : Text.IsBare e.text := by
  obtain ⟨count, literal⟩ := e
  cases count with
  | none => exact literal.isBare
  | some n => exact n.isBare.append ((isBare_singleton (by decide)).append literal.isBare)

theorem isBare_othersText (es : List Element) : Text.IsBare (othersText es) := by
  induction es with
  | nil => exact Text.isBare_of_forall fun _ hc => nomatch hc
  | cons e es ih =>
    rw [othersText, List.flatMap_cons]
    exact ((isBare_singleton (by decide)).append e.isBare).append ih

end Blanks

section Counts

variable {c : Char} {content count rest : List Char}

theorem not_mem_of_parseSize? (h : (Decimal.parseSize? (Text.trim count)).isSome = true)
    (hblank : Text.isBlank c = false) (hdigit : c.isDigit = false) (hplus : c ≠ '+') :
    c ∉ count := by
  intro hmem
  have hc := Decimal.isDigit_of_parseSize? h ((Text.mem_trim_iff hblank).mpr hmem) hplus
  rw [hdigit] at hc
  cases hc

theorem dropRepeat_of_count (h : (Decimal.parseSize? (Text.trim count)).isSome = true) :
    dropRepeat (count ++ '*' :: rest) = Text.trim rest := by
  have hstar : '*' ∉ count := not_mem_of_parseSize? h (by decide) (by decide) (by decide)
  rw [dropRepeat, Text.splitOnce_append hstar]
  exact if_pos h

theorem dropRepeat_eq_trim (h : ¬ OpensWithCount content) :
    dropRepeat content = Text.trim content := by
  unfold dropRepeat
  cases hcut : Text.splitOnce '*' content with
  | none => rfl
  | some p => exact if_neg fun hp => h ⟨p.1, p.2, Text.eq_append_of_splitOnce hcut, hp⟩

/-- A count that is taken away is missed, for its asterisk is. -/
theorem dropRepeat_eq_trim_iff : dropRepeat content = Text.trim content ↔
    ¬ OpensWithCount content := by
  refine ⟨fun heq hcount => ?_, dropRepeat_eq_trim⟩
  obtain ⟨count, rest, rfl, hparse⟩ := hcount
  have hblank : Text.isBlank '*' = false := by decide
  have hstars := congrArg (List.count '*') heq
  rw [dropRepeat_of_count hparse, Text.count_trim hblank, Text.count_trim hblank,
    List.count_append, List.count_cons_self] at hstars
  omega

instance (content : List Char) : Decidable (OpensWithCount content) :=
  decidable_of_iff (¬ dropRepeat content = Text.trim content)
    ((not_congr dropRepeat_eq_trim_iff).trans Classical.not_not)

instance (n : RepeatCount) : Decidable n.Fits :=
  inferInstanceAs (Decidable (Nat.ofDigitChars 10 n.digits 0 < Word.count 8))

instance : (e : Element) → Decidable e.Reads
  | ⟨none, .plain _ _⟩ => inferInstanceAs (Decidable True)
  | ⟨none, .quoted t⟩ => inferInstanceAs (Decidable (¬ OpensWithCount t.content))
  | ⟨some n, .plain _ _⟩ => inferInstanceAs (Decidable n.Fits)
  | ⟨some _, .quoted _⟩ => inferInstanceAs (Decidable False)

/-- Quotes are never taken away with a count. -/
theorem mem_dropRepeat (hc : isQuote c = true) (hmem : c ∈ content) : c ∈ dropRepeat content := by
  have hblank := isBlank_of_isQuote hc
  by_cases hcount : OpensWithCount content
  · obtain ⟨count, rest, rfl, hparse⟩ := hcount
    have hmark : c.isDigit = false ∧ c ≠ '+' ∧ c ≠ '*' := by
      rcases eq_of_isQuote hc with rfl | rfl <;> decide
    obtain ⟨hdigit, hplus, hstar⟩ := hmark
    have hrest : c ∈ rest := by
      have hbehind := (List.mem_append.mp hmem).resolve_left
        (not_mem_of_parseSize? hparse hblank hdigit hplus)
      exact (List.mem_cons.mp hbehind).resolve_left hstar
    rw [dropRepeat_of_count hparse]
    exact (Text.mem_trim_iff hblank).mpr hrest
  · rw [dropRepeat_eq_trim hcount]
    exact (Text.mem_trim_iff hblank).mpr hmem

theorem RepeatCount.isSome_parse_iff (n : RepeatCount) :
    (Decimal.parseSize? (Text.trim n.digits)).isSome = true ↔ n.Fits := by
  rw [n.isBare.trim_eq]
  exact Decimal.isSome_parseSize?_iff n.ne_nil n.isDigit

theorem RepeatCount.fits_of_opensWithCount {n : RepeatCount}
    (h : OpensWithCount (n.digits ++ '*' :: rest)) : n.Fits := by
  obtain ⟨count, rest', heq, hcount⟩ := h
  have hstar : '*' ∉ count := not_mem_of_parseSize? hcount (by decide) (by decide) (by decide)
  have hcut := Text.splitOnce_append hstar rest'
  rw [← heq, Text.splitOnce_append (n.not_mem (by decide))] at hcut
  cases hcut
  exact n.isSome_parse_iff.mp hcount

end Counts

section FirstValue

theorem head?_othersText (es : List Element) : ∀ c ∈ (othersText es).head?, c = ',' := by
  intro c hc
  cases es with
  | nil => cases hc
  | cons e es =>
    cases hc
    rfl

theorem isQuote_head_digits (n : RepeatCount) (text rest : List Char) :
    ∀ c ∈ (n.digits ++ '*' :: text ++ rest).head?, isQuote c = false := by
  intro c hc
  obtain ⟨d, ds, hdigits⟩ := List.exists_cons_of_ne_nil n.ne_nil
  have hdigit := n.isDigit d (hdigits ▸ List.mem_cons_self)
  rw [hdigits] at hc
  cases hc
  cases hquote : isQuote c with
  | false => rfl
  | true => rcases eq_of_isQuote hquote with rfl | rfl <;> exact absurd hdigit (by decide)

theorem firstElement_plain {text : List Char} (h : IsPlain text) (others : List Element) :
    firstElement (text ++ othersText others) = text :=
  h.firstElement_append (isBare_othersText others) (head?_othersText others)

theorem firstElement_quotedText (t : QuotedText) (others : List Element) :
    firstElement (t.text ++ othersText others) = t.content := by
  have htext : t.text ++ othersText others =
      t.quote :: (t.content ++ t.quote :: othersText others) := by
    rw [QuotedText.text, List.cons_append, List.append_assoc, List.singleton_append]
  have hbare := (Literal.isBare (.quoted t)).append (isBare_othersText others)
  rw [Literal.text, htext] at hbare
  rw [htext, firstElement_quoted t.isQuote_quote t.quote_not_mem hbare]

theorem firstElement_repeatedPlain (n : RepeatCount) {text : List Char} (h : IsPlain text)
    (others : List Element) : firstElement (n.digits ++ '*' :: text ++ othersText others) =
      n.digits ++ '*' :: text := by
  have helement : Text.IsBare (n.digits ++ '*' :: text) := Element.isBare ⟨some n, .plain text h⟩
  have hcomma : ',' ∉ n.digits ++ '*' :: text := by
    have hdigits := n.not_mem (c := ',') (by decide)
    have htext := h.comma_not_mem
    simp [hdigits, htext]
  rw [firstElement_unquoted (helement.append (isBare_othersText others))
    (isQuote_head_digits n _ _) hcomma (head?_othersText others), helement.trim_eq]

/-- Behind a count the cut at the first comma does not look at quotes, but it keeps the first. -/
theorem quote_mem_firstElement (n : RepeatCount) (t : QuotedText) (others : List Element) :
    t.quote ∈ firstElement (n.digits ++ '*' :: t.text ++ othersText others) := by
  have hbare : Text.IsBare (n.digits ++ '*' :: t.text ++ othersText others) :=
    (Element.isBare ⟨some n, .quoted t⟩).append (isBare_othersText others)
  have htext : n.digits ++ '*' :: t.text ++ othersText others =
      (n.digits ++ ['*', t.quote]) ++ (t.content ++ [t.quote] ++ othersText others) := by
    simp [QuotedText.text]
  have hquote : ',' ≠ t.quote := by
    rcases eq_of_isQuote t.isQuote_quote with heq | heq <;> rw [heq] <;> decide
  have hcomma : ',' ∉ n.digits ++ ['*', t.quote] := by
    have hdigits := n.not_mem (c := ',') (by decide)
    simp [hdigits, hquote]
  have hfront : ∀ c ∈ n.digits ++ ['*', t.quote], decide (c ≠ ',') = true :=
    fun c hc => decide_eq_true fun heq => hcomma (heq ▸ hc)
  rw [firstElement_eq_trim hbare (isQuote_head_digits n _ _),
    Text.mem_trim_iff (isBlank_of_isQuote t.isQuote_quote), htext,
    List.takeWhile_append_of_pos hfront]
  exact List.mem_append_left _ (by simp)

theorem dropRepeat_repeated_iff (n : RepeatCount) {text : List Char} (h : IsPlain text) :
    dropRepeat (n.digits ++ '*' :: text) = text ↔ n.Fits := by
  constructor
  · intro heq
    refine Classical.byContradiction fun hfits => ?_
    have helement : Text.IsBare (n.digits ++ '*' :: text) :=
      Element.isBare ⟨some n, .plain text h⟩
    rw [dropRepeat_eq_trim (mt RepeatCount.fits_of_opensWithCount hfits), helement.trim_eq] at heq
    have hlength := congrArg List.length heq
    rw [List.length_append, List.length_cons] at hlength
    omega
  · intro hfits
    rw [dropRepeat_of_count (n.isSome_parse_iff.mpr hfits), h.isBare.trim_eq]

/-- A list of elements is scanned to the bare first one if and only if that one reads. -/
theorem firstValue_eq_bare_iff (v : ElementList) :
    firstValue v.text = v.first.literal.bare ↔ v.first.Reads := by
  obtain ⟨⟨count, literal⟩, others⟩ := v
  unfold firstValue ElementList.text Element.text Element.Reads
  cases count with
  | none =>
    cases literal with
    | plain text h =>
      simp only [Literal.text, Literal.bare, firstElement_plain h others,
        dropRepeat_eq h.star_not_mem h.isBare]
    | quoted t =>
      simp only [Literal.text, Literal.bare, firstElement_quotedText, String.ofList_inj,
        dropRepeat_eq_trim_iff]
  | some n =>
    cases literal with
    | plain text h =>
      simp only [Literal.text, Literal.bare, firstElement_repeatedPlain n h others,
        String.ofList_inj, dropRepeat_repeated_iff n h]
    | quoted t =>
      simp only [Literal.text, Literal.bare, String.ofList_inj, iff_false]
      intro heq
      have hquote := mem_dropRepeat t.isQuote_quote (quote_mem_firstElement n t others)
      rw [heq, Text.mem_trim_iff (isBlank_of_isQuote t.isQuote_quote)] at hquote
      exact t.quote_not_mem hquote

end FirstValue

section Lines

theorem feed_not_mem_literal (l : Literal) : '\n' ∉ l.text := by
  cases l with
  | plain text h => exact fun hmem => absurd (h.isBlank_eq _ hmem) (by decide)
  | quoted t =>
    have hquote : '\n' ≠ t.quote := by
      rcases eq_of_isQuote t.isQuote_quote with heq | heq <;> rw [heq] <;> decide
    simp [Literal.text, QuotedText.text, hquote, t.feed_not_mem]

theorem feed_not_mem_element (e : Element) : '\n' ∉ e.text := by
  obtain ⟨count, literal⟩ := e
  have hliteral := feed_not_mem_literal literal
  cases count with
  | none => exact hliteral
  | some n =>
    have hdigits := n.not_mem (c := '\n') (by decide)
    simp [Element.text, hdigits, hliteral]

theorem feed_not_mem_line (l : Line) : '\n' ∉ l.text := by
  cases l with
  | group mark rest hmark hrest =>
    have hmark : '\n' ≠ mark := by rcases hmark with rfl | rfl <;> decide
    simp [Line.text, hmark, hrest]
  | entry key value =>
    have hkey : '\n' ∉ key.chars := fun hmem => absurd (key.isKeyChar _ hmem) (by decide)
    have hfirst := feed_not_mem_element value.first
    have hothers : '\n' ∉ othersText value.others := by
      simp [othersText, feed_not_mem_element]
    simp [Line.text, ElementList.text, hkey, hfirst, hothers]

/-- A line without blanks in front keeps its first character. -/
theorem exists_trim_cons {c : Char} (hc : Text.isBlank c = false) (cs : List Char) :
    ∃ rest, Text.trim (c :: cs) = c :: rest := by
  have hfront : (c :: cs).dropWhile Text.isBlank = c :: cs :=
    List.dropWhile_cons_of_neg (by simp [hc])
  rw [Text.trim, Text.trimWhile, hfront, Text.dropRightWhile, List.reverse_cons,
    List.dropWhile_append]
  split
  · rw [List.dropWhile_cons_of_neg (by simp [hc])]
    exact ⟨[], rfl⟩
  · rw [List.reverse_append]
    exact ⟨_, rfl⟩

theorem scanLine_group {mark : Char} (hmark : mark = '&' ∨ mark = '/') (rest : List Char) :
    scanLine (Text.dropReturn (mark :: rest)) = none := by
  have hreturn : ∃ rest', Text.dropReturn (mark :: rest) = mark :: rest' := by
    unfold Text.dropReturn
    split
    · cases rest with
      | nil =>
        rename_i hlast
        obtain rfl : mark = '\r' := Option.some.inj hlast
        rcases hmark with heq | heq <;> exact absurd heq (by decide)
      | cons c cs => exact ⟨_, rfl⟩
    · exact ⟨rest, rfl⟩
  obtain ⟨rest', hrest'⟩ := hreturn
  have hblank : Text.isBlank mark = false := by rcases hmark with rfl | rfl <;> decide
  obtain ⟨rest'', htrim⟩ := exists_trim_cons hblank rest'
  rw [hrest', scanLine, htrim]
  rcases hmark with rfl | rfl <;> rfl

theorem scanLine_entry (key : Key) (value : ElementList) :
    scanLine (Text.dropReturn (key.chars ++ '=' :: value.text)) =
      some (key.name, firstValue value.text) := by
  have hvalue : Text.IsBare value.text := value.first.isBare.append (isBare_othersText value.others)
  have hline : Text.IsBare (key.chars ++ '=' :: value.text) :=
    key.isBare.append ((isBare_singleton (by decide)).append hvalue)
  have hequals : '=' ∉ key.chars := fun hmem => absurd (key.isKeyChar _ hmem) (by decide)
  have hhead : ∀ c ∈ key.chars.head?, c ≠ '&' ∧ c ≠ '/' := by
    intro c hc
    have hkey := key.isKeyChar c (List.mem_of_mem_head? hc)
    simp only [Namelist.isKeyChar, Bool.and_eq_true, decide_eq_true_eq] at hkey
    exact ⟨hkey.1.2, hkey.2⟩
  rw [hline.dropReturn_eq, scanLine_of_trim hline.trim_eq hequals hhead, key.isBare.trim_eq]
  rfl

theorem scannedLines_render (ls : List Line) :
    (Text.lines (render ls).toList).filterMap scanLine =
      (entries ls).map fun e => (e.1, firstValue e.2.text) := by
  have hfeeds : ∀ l ∈ ls.map Line.text, '\n' ∉ l :=
    List.forall_mem_map.mpr fun l _ => feed_not_mem_line l
  rw [render, String.toList_ofList, Text.lines_flatMap_eq_map hfeeds, entries]
  clear hfeeds
  induction ls with
  | nil => rfl
  | cons l ls ih =>
    rw [List.map_cons, List.map_cons, List.filterMap_cons, List.filterMap_cons, ih]
    cases l with
    | group mark rest hmark _ =>
      simp only [Line.text, Line.entry?, scanLine_group hmark]
    | entry key value =>
      simp only [Line.text, Line.entry?, scanLine_entry, List.map_cons]

end Lines

/-- Keys come in the order of their first lines. -/
theorem keys_foldl_addFirst (es : List (String × String)) (table : Entries) :
    (es.foldl addFirst table).keys = (table.insertMany es).keys := by
  have hkeys (table : Entries) (e : String × String) :
      (addFirst table e).keys = (table.insert e.1 e.2).keys := by
    rw [addFirst, Table.keys_insert]
    split
    · rename_i h
      rw [if_pos (Table.contains_iff.mp h)]
    · rename_i h
      rw [Table.keys_insert, if_neg (mt Table.contains_iff.mpr h)]
  induction es generalizing table with
  | nil => rfl
  | cons e es ih =>
    rw [List.foldl_cons, ih, Table.insertMany_cons, Table.keys_insertMany, Table.keys_insertMany,
      hkeys]

/-- A rendered namelist is scanned to its upper-case keys, each once and in the order of their first
lines, and a key has the bare first element of its first line if and only if that one reads. -/
theorem scan_render (ls : List Line) :
    (scan (render ls)).keys = ((entries ls).map Prod.fst).eraseDups ∧
      ∀ name value, (entries ls).lookup name = some value →
        ((scan (render ls)).get? name = some value.first.literal.bare ↔ value.first.Reads) := by
  rw [scan, scannedLines_render]
  constructor
  · rw [keys_foldl_addFirst, ← Table.ofList, Table.keys_ofList, List.map_map]
    rfl
  · intro name value hvalue
    have hlookup : ((entries ls).map fun e => (e.1, firstValue e.2.text)).lookup name =
        some (firstValue value.text) :=
      (Table.lookup_map_values (fun v : ElementList => firstValue v.text) _ _).trans
        (congrArg _ hvalue)
    rw [get?_foldl_addFirst, hlookup, Table.get?_empty, Option.none_or, Option.some_inj,
      firstValue_eq_bare_iff]

/-- A group with a quoted string, a repeated number and a second line of a key. -/
def quotedLines : List Line := [
  .group '&' "INIT_PARS".toList (.inl rfl) (by decide),
  .entry ⟨"Name".toList, List.all_eq_true.mp (by decide)⟩ ⟨⟨none, .quoted
    ⟨'"', " it's, ".toList, by decide, by decide, by decide⟩⟩, []⟩,
  .entry ⟨"XYZ0".toList, List.all_eq_true.mp (by decide)⟩
    ⟨⟨some ⟨['3'], by decide, List.all_eq_true.mp (by decide)⟩,
      .plain "-3.14D0".toList (by decide)⟩, [⟨none, .plain ['0'] (by decide)⟩]⟩,
  .entry ⟨"NAME".toList, List.all_eq_true.mp (by decide)⟩
    ⟨⟨none, .plain ['x'] (by decide)⟩, []⟩,
  .group '/' [] (.inr rfl) (by decide)]

theorem scan_render_quotedLines :
    (scan (render quotedLines)).keys = ["NAME", "XYZ0"] ∧
      (scan (render quotedLines)).get? "NAME" = some "it's," ∧
      (scan (render quotedLines)).get? "XYZ0" = some "-3.14D0" := by
  obtain ⟨hkeys, hvalues⟩ := scan_render quotedLines
  refine ⟨hkeys.trans (by decide +kernel), ?_, ?_⟩
  · exact (hvalues "NAME" _ rfl).mpr (by decide)
  · exact (hvalues "XYZ0" _ rfl).mpr (by decide)

/-- Asterisks beside and between quotes. -/
def starredLines : List Line := [
  .entry ⟨"NAME".toList, List.all_eq_true.mp (by decide)⟩ ⟨⟨none, .quoted
    ⟨'\'', "3*ab".toList, by decide, by decide, by decide⟩⟩, []⟩,
  .entry ⟨"TAG".toList, List.all_eq_true.mp (by decide)⟩
    ⟨⟨some ⟨['2'], by decide, List.all_eq_true.mp (by decide)⟩, .quoted
      ⟨'\'', "dist".toList, by decide, by decide, by decide⟩⟩, []⟩]

/-- A string loses its front to a repeat count that is none, and another one keeps its quotes. -/
theorem scan_starredLines :
    (entries starredLines).map (fun e => (e.1, e.2.first.literal.bare)) =
        [("NAME", "3*ab"), ("TAG", "dist")] ∧
      (scan (render starredLines)).entries = [("NAME", "ab"), ("TAG", "'dist'")] := by
  decide +kernel

end GridSnapshot.Namelist
