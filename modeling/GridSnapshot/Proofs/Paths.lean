import GridSnapshot.FileTree

namespace GridSnapshot.Path

section Slashes

variable {u v : List Char}

theorem splitSlash_ne_nil (cs : List Char) : splitSlash cs ≠ [] := by
  cases cs with
  | nil => exact List.cons_ne_nil _ _
  | cons c cs =>
    unfold splitSlash
    split
    · exact List.cons_ne_nil _ _
    · split <;> exact List.cons_ne_nil _ _

theorem splitSlash_of_not_mem (h : '/' ∉ u) : splitSlash u = [u] := by
  induction u with
  | nil => rfl
  | cons c cs ih =>
    obtain ⟨hc, hcs⟩ := not_or.mp (mt List.mem_cons.mpr h)
    rw [splitSlash, if_neg (Ne.symm hc), ih hcs]

/-- A slash ends a piece. -/
theorem splitSlash_append (u v : List Char) :
    splitSlash (u ++ '/' :: v) = splitSlash u ++ splitSlash v := by
  induction u with
  | nil => rfl
  | cons c cs ih =>
    by_cases hc : c = '/'
    · rw [List.cons_append, splitSlash, if_pos hc, splitSlash, if_pos hc, ih, List.cons_append]
    · rw [List.cons_append, splitSlash, if_neg hc, splitSlash, if_neg hc, ih]
      cases hcs : splitSlash cs with
      | nil => exact absurd hcs (splitSlash_ne_nil cs)
      | cons p ps => rfl

theorem slash_not_mem_splitSlash {p : List Char} (h : p ∈ splitSlash u) : '/' ∉ p := by
  induction u generalizing p with
  | nil =>
    obtain rfl := List.mem_singleton.mp h
    exact List.not_mem_nil
  | cons c cs ih =>
    unfold splitSlash at h
    split at h
    · rcases List.mem_cons.mp h with rfl | h
      · exact List.not_mem_nil
      · exact ih h
    · rename_i hc
      cases hcs : splitSlash cs with
      | nil => exact absurd hcs (splitSlash_ne_nil cs)
      | cons q qs =>
        simp only [hcs] at h ih
        rcases List.mem_cons.mp h with rfl | h
        · exact fun hmem => (List.mem_cons.mp hmem).elim (fun heq => hc heq.symm)
            (ih List.mem_cons_self)
        · exact ih (List.mem_cons_of_mem _ h)

end Slashes

/-- A name that stands for an entry of a directory. -/
structure IsName (name : String) : Prop where
  ne_empty : name ≠ ""
  ne_dot : name ≠ "."
  ne_dots : name ≠ ".."
  slash_not_mem : '/' ∉ name.toList

variable {p : Path} {name : String}

theorem IsName.head?_ne (h : IsName name) : name.toList.head? ≠ some '/' :=
  fun hhead => h.slash_not_mem (List.mem_of_mem_head? hhead)

/-- The segments without an empty one after a slash at the end. -/
def stem (p : Path) : List String :=
  if p.text.toList.getLast? = some '/' then p.segments.dropLast else p.segments

theorem splitSlash_of_last (h : p.text.toList.getLast? = some '/') :
    p.segments = p.segments.dropLast ++ [""] := by
  obtain ⟨u, hu⟩ := List.getLast?_eq_some_iff.mp h
  have hsplit : p.segments = (splitSlash u).map String.ofList ++ [""] := by
    rw [segments, hu, splitSlash_append, List.map_append]
    rfl
  rw [hsplit, List.dropLast_concat]

/-- Up to a slash at its end a path has the segments of its stem. -/
theorem segments_eq_stem (p : Path) : p.segments = p.stem ∨ p.segments = p.stem ++ [""] := by
  unfold stem
  split
  · rename_i h
    exact .inr (splitSlash_of_last h)
  · exact .inl rfl

theorem text_join (hname : name.toList.head? ≠ some '/') (hp : p.text ≠ "") :
    (p.join name).text.toList =
      if p.text.toList.getLast? = some '/' then p.text.toList ++ name.toList
      else p.text.toList ++ '/' :: name.toList := by
  unfold join
  rw [if_neg (not_or.mpr ⟨hname, hp⟩)]
  split
  · rw [String.toList_append]
  · simp [String.toList_append]

/-- A path to which a name was appended ends in the name. -/
theorem exists_text_join (name : String) (p : Path) :
    ∃ pre, (p.join name).text.toList = pre ++ name.toList := by
  unfold join
  split
  · exact ⟨[], rfl⟩
  · split
    · exact ⟨p.text.toList, String.toList_append⟩
    · exact ⟨p.text.toList ++ ['/'], by simp [String.toList_append]⟩

theorem segments_join (hname : IsName name) (hp : p.text ≠ "") :
    (p.join name).segments = p.stem ++ [name] := by
  have hlist := text_join hname.head?_ne hp
  have hpiece : (splitSlash name.toList).map String.ofList = [name] := by
    rw [splitSlash_of_not_mem hname.slash_not_mem, List.map_singleton, String.ofList_toList]
  unfold segments stem
  split at hlist
  · rename_i h
    obtain ⟨u, hu⟩ := List.getLast?_eq_some_iff.mp h
    have hdrop : p.segments.dropLast = (splitSlash u).map String.ofList := by
      rw [segments, hu, splitSlash_append, List.map_append]
      exact List.dropLast_concat
    rw [if_pos h, hdrop, hlist, hu, List.append_assoc, List.singleton_append, splitSlash_append,
      List.map_append, hpiece]
  · rename_i h
    rw [if_neg h, hlist, splitSlash_append, List.map_append, hpiece, segments]

theorem isAbsolute_join (hname : IsName name) (hp : p.text ≠ "") :
    (p.join name).isAbsolute = p.isAbsolute := by
  have hne : p.text.toList ≠ [] := fun h => hp (String.toList_eq_nil_iff.mp h)
  obtain ⟨c, cs, hcs⟩ := List.exists_cons_of_ne_nil hne
  unfold isAbsolute
  rw [text_join hname.head?_ne hp, hcs]
  split <;> rfl

theorem splitSlash_intercalate {ps : List (List Char)} (hne : ps ≠ []) (h : ∀ p ∈ ps, '/' ∉ p) :
    splitSlash (['/'].intercalate ps) = ps := by
  induction ps with
  | nil => exact absurd rfl hne
  | cons p ps ih =>
    obtain ⟨hp, hps⟩ := List.forall_mem_cons.mp h
    cases ps with
    | nil => rw [List.intercalate_singleton, splitSlash_of_not_mem hp]
    | cons q qs =>
      rw [List.intercalate_cons_cons, List.append_assoc, List.singleton_append, splitSlash_append,
        splitSlash_of_not_mem hp, ih (List.cons_ne_nil _ _) hps, List.singleton_append]

/-- The parent has some of the first segments, or a single empty one. -/
theorem exists_segments_parent (p : Path) :
    ∃ init, init <+: p.segments ∧ (p.parent.segments = init ∨ p.parent.segments = [""]) := by
  have hprefix : ∀ (blank : String → Bool),
      (((p.segments.reverse.dropWhile blank).drop 1).dropWhile blank).reverse <+: p.segments := by
    intro blank
    have hsuffix : ((p.segments.reverse.dropWhile blank).drop 1).dropWhile blank <:+
        p.segments.reverse :=
      (List.dropWhile_suffix _).trans ((List.drop_suffix _ _).trans (List.dropWhile_suffix _))
    have hreverse := List.reverse_prefix.mpr hsuffix
    rwa [List.reverse_reverse] at hreverse
  obtain ⟨init, hsegments, hparent⟩ :
      ∃ init, init <+: p.segments ∧ p.parent = ⟨"/".intercalate init⟩ := ⟨_, hprefix _, rfl⟩
  refine ⟨init, hsegments, ?_⟩
  rw [hparent]
  cases init with
  | nil => exact .inr rfl
  | cons s ss =>
    left
    have hslash : ∀ q ∈ (s :: ss).map String.toList, '/' ∉ q := by
      intro q hq
      obtain ⟨seg, hseg, rfl⟩ := List.mem_map.mp hq
      obtain ⟨piece, hpiece, rfl⟩ := List.mem_map.mp (hsegments.subset hseg)
      rw [String.toList_ofList]
      exact slash_not_mem_splitSlash hpiece
    have hlist : ("/".intercalate (s :: ss)).toList =
        ['/'].intercalate ((s :: ss).map String.toList) := String.toList_intercalate
    rw [segments, hlist, splitSlash_intercalate (by simp) hslash, List.map_map]
    exact List.map_id'' (fun s => String.ofList_toList) _

end GridSnapshot.Path
