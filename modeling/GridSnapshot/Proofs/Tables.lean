import GridSnapshot.Table

namespace GridSnapshot.Table

variable {κ ν : Type} [DecidableEq κ] {t : Table κ ν} {k k' : κ} {v : ν} {es : List (κ × ν)}

@[simp] theorem get?_empty : (empty : Table κ ν).get? k = none := rfl

theorem lookup_cons_of_ne (h : k' ≠ k) : List.lookup k' ((k, v) :: es) = es.lookup k' := by
  rw [List.lookup_cons, beq_false_of_ne h]

theorem lookup_insertEntry (k : κ) (v : ν) (es : List (κ × ν)) (k' : κ) :
    (insertEntry k v es).lookup k' = if k' = k then some v else es.lookup k' := by
  induction es with
  | nil =>
    by_cases h : k' = k
    · simp [insertEntry, h]
    · simp [insertEntry, lookup_cons_of_ne h, h]
  | cons e es ih =>
    obtain ⟨a, b⟩ := e
    by_cases ha : a = k
    · subst ha
      by_cases h : k' = a
      · simp [insertEntry, h]
      · simp [insertEntry, lookup_cons_of_ne h, h]
    · by_cases h : k' = a
      · subst h
        simp [insertEntry, ha]
      · simp [insertEntry, ha, lookup_cons_of_ne h, ih]

theorem get?_insert : (t.insert k v).get? k' = if k' = k then some v else t.get? k' :=
  lookup_insertEntry k v t.entries k'

@[simp] theorem get?_insert_self : (t.insert k v).get? k = some v := by
  rw [get?_insert, if_pos rfl]

theorem get?_insert_of_ne (h : k' ≠ k) : (t.insert k v).get? k' = t.get? k' := by
  rw [get?_insert, if_neg h]

theorem keys_insert (t : Table κ ν) (k : κ) (v : ν) :
    (t.insert k v).keys = if k ∈ t.keys then t.keys else t.keys ++ [k] :=
  keys_insertEntry k v t.entries

theorem mem_keys_iff : k ∈ t.keys ↔ ∃ v, t.get? k = some v := by
  unfold keys get?
  induction t.entries with
  | nil => simp
  | cons e es ih =>
    obtain ⟨a, b⟩ := e
    by_cases h : k = a
    · subst h
      simp
    · have ha : ¬ a = k := fun h' => h h'.symm
      simp only [List.map_cons, List.mem_cons, h, false_or, lookup_cons_of_ne h]
      exact ih

theorem get?_eq_none_iff : t.get? k = none ↔ k ∉ t.keys := by
  rw [mem_keys_iff]
  cases t.get? k <;> simp

theorem contains_iff {k : κ} : t.contains k = true ↔ k ∈ t.keys := by
  rw [contains, Option.isSome_iff_exists, mem_keys_iff]

theorem contains_insert_iff :
    (t.insert k v).contains k' = true ↔ k' = k ∨ t.contains k' = true := by
  rw [contains, contains, get?_insert]
  by_cases h : k' = k <;> simp [h]

@[simp] theorem insertMany_cons (t : Table κ ν) (e : κ × ν) (es : List (κ × ν)) :
    t.insertMany (e :: es) = (t.insert e.1 e.2).insertMany es := rfl

theorem lookup_eq_none_of_not_mem (h : k ∉ es.map Prod.fst) : es.lookup k = none := by
  induction es with
  | nil => rfl
  | cons e es ih =>
    obtain ⟨hne, hes⟩ := not_or.mp (mt List.mem_cons.mpr h)
    rw [lookup_cons_of_ne hne, ih hes]

theorem get?_insertMany (hnodup : (es.map Prod.fst).Nodup) :
    (t.insertMany es).get? k = (es.lookup k).or (t.get? k) := by
  induction es generalizing t with
  | nil => rfl
  | cons e es ih =>
    obtain ⟨k', v⟩ := e
    rw [List.map_cons, List.nodup_cons] at hnodup
    rw [insertMany_cons, ih hnodup.2]
    by_cases h : k = k'
    · subst h
      rw [lookup_eq_none_of_not_mem hnodup.1, Option.none_or, get?_insert_self, List.lookup_cons,
        beq_self_eq_true]
      rfl
    · rw [lookup_cons_of_ne h, get?_insert_of_ne h]

/-- All that one table has, written into another. -/
theorem get?_insertMany_entries (t t' : Table κ ν) :
    (t.insertMany t'.entries).get? k = (t'.get? k).or (t.get? k) :=
  get?_insertMany t'.nodup

theorem lookup_of_mem (hnodup : (es.map Prod.fst).Nodup) (h : (k, v) ∈ es) :
    es.lookup k = some v := by
  induction es with
  | nil => cases h
  | cons e es ih =>
    rw [List.map_cons, List.nodup_cons] at hnodup
    rcases List.mem_cons.mp h with rfl | h
    · rw [List.lookup_cons, beq_self_eq_true]
    · have hne : k ≠ e.1 := by
        intro heq
        subst heq
        exact hnodup.1 (List.mem_map.mpr ⟨_, h, rfl⟩)
      rw [lookup_cons_of_ne hne, ih hnodup.2 h]

/-- What is found was written, or it was there before. -/
theorem mem_of_get?_insertMany (h : (t.insertMany es).get? k = some v) :
    (k, v) ∈ es ∨ t.get? k = some v := by
  induction es generalizing t with
  | nil => exact .inr h
  | cons e es ih =>
    obtain ⟨k', v'⟩ := e
    rw [insertMany_cons] at h
    rcases ih h with hmem | hget
    · exact .inl (List.mem_cons_of_mem _ hmem)
    · rw [get?_insert] at hget
      split at hget
      · rename_i heq
        cases hget
        exact .inl (heq ▸ List.mem_cons_self)
      · exact .inr hget

theorem insertEntry_of_not_mem (k : κ) (v : ν) {es : List (κ × ν)} (h : k ∉ es.map Prod.fst) :
    insertEntry k v es = es ++ [(k, v)] := by
  induction es with
  | nil => rfl
  | cons e es ih =>
    obtain ⟨hne, hes⟩ := not_or.mp (mt List.mem_cons.mpr h)
    rw [insertEntry, if_neg (Ne.symm hne), ih hes, List.cons_append]

/-- New entries come after those that are there. -/
theorem entries_insertMany (hnodup : (es.map Prod.fst).Nodup)
    (hnew : ∀ k ∈ es.map Prod.fst, k ∉ t.keys) :
    (t.insertMany es).entries = t.entries ++ es := by
  induction es generalizing t with
  | nil => exact (List.append_nil _).symm
  | cons e es ih =>
    rw [List.map_cons, List.nodup_cons] at hnodup
    rw [List.map_cons, List.forall_mem_cons] at hnew
    have hfirst : (t.insert e.1 e.2).entries = t.entries ++ [e] :=
      insertEntry_of_not_mem e.1 e.2 hnew.1
    have hrest : ∀ k ∈ es.map Prod.fst, k ∉ (t.insert e.1 e.2).keys := by
      intro k hk hmem
      rw [keys, hfirst, List.map_append, List.mem_append, List.map_singleton,
        List.mem_singleton] at hmem
      rcases hmem with hmem | rfl
      · exact hnew.2 k hk hmem
      · exact hnodup.1 hk
    rw [insertMany_cons, ih hnodup.2 hrest, hfirst, List.append_assoc, List.singleton_append]

/-- The entries of a table make the table again. -/
theorem ofList_entries (t : Table κ ν) : ofList t.entries = t := by
  have hentries : (ofList t.entries).entries = t.entries :=
    entries_insertMany t.nodup fun _ _ hmem => nomatch hmem
  generalize ofList t.entries = made at hentries
  cases made
  cases hentries
  rfl

/-- Keys come in the order in which they were first written. -/
theorem keys_insertMany (t : Table κ ν) (es : List (κ × ν)) :
    (t.insertMany es).keys = t.keys ++ ((es.map Prod.fst).removeAll t.keys).eraseDups := by
  induction es generalizing t with
  | nil => exact (List.append_nil _).symm
  | cons e es ih =>
    rw [insertMany_cons, ih, keys_insert]
    by_cases h : e.1 ∈ t.keys
    · have hold : ((e :: es).map Prod.fst).removeAll t.keys =
          (es.map Prod.fst).removeAll t.keys := by
        simp [List.removeAll, h]
      rw [if_pos h, hold]
    · have hnew : ((e :: es).map Prod.fst).removeAll t.keys =
          e.1 :: (es.map Prod.fst).removeAll t.keys := by
        simp [List.removeAll, h]
      have hrest : (es.map Prod.fst).removeAll (t.keys ++ [e.1]) =
          ((es.map Prod.fst).removeAll t.keys).filter fun k => !k == e.1 := by
        unfold List.removeAll
        rw [List.filter_filter]
        refine List.filter_congr fun k _ => ?_
        by_cases hk : k = e.1
        · simp [hk]
        · simp [hk]
      rw [if_neg h, hnew, hrest, List.eraseDups_cons, List.append_assoc, List.singleton_append]

omit [DecidableEq κ] in
theorem eraseDups_of_nodup [BEq κ] [LawfulBEq κ] {ks : List κ} (h : ks.Nodup) :
    ks.eraseDups = ks := by
  induction ks with
  | nil => rfl
  | cons k ks ih =>
    rw [List.nodup_cons] at h
    have hall : (ks.filter fun b => !b == k) = ks := by
      refine List.filter_eq_self.mpr fun b hb => ?_
      have hne : b ≠ k := fun heq => h.1 (heq ▸ hb)
      rw [beq_false_of_ne hne, Bool.not_false]
    rw [List.eraseDups_cons, hall, ih h.2]

/-- The keys of a table that is written into another come behind those that are there. -/
theorem keys_insertMany_entries (t t' : Table κ ν) :
    (t.insertMany t'.entries).keys = t.keys ++ t'.keys.filter fun k => decide (k ∉ t.keys) := by
  have hnew : (t'.entries.map Prod.fst).removeAll t.keys =
      t'.keys.filter fun k => decide (k ∉ t.keys) := by
    rw [List.removeAll, keys]
    exact List.filter_congr fun k _ => by simp
  have hnodup : (t'.keys.filter fun k => decide (k ∉ t.keys)).Nodup := t'.nodup.filter _
  rw [keys_insertMany, hnew, eraseDups_of_nodup hnodup]

theorem mem_keys_insertMany_iff {t : Table κ ν} {es : List (κ × ν)} :
    k ∈ (t.insertMany es).keys ↔ k ∈ t.keys ∨ k ∈ es.map Prod.fst := by
  rw [keys_insertMany, List.mem_append, List.mem_eraseDups, List.removeAll, List.mem_filter]
  by_cases h : k ∈ t.keys <;> simp [h]

/-- The last value written under a key is found, or what was there before. -/
theorem get?_insertMany_reverse (t : Table κ ν) (es : List (κ × ν)) :
    (t.insertMany es).get? k = (es.reverse.lookup k).or (t.get? k) := by
  induction es generalizing t with
  | nil => rfl
  | cons e es ih =>
    obtain ⟨k', v⟩ := e
    rw [insertMany_cons, ih, get?_insert, List.reverse_cons, List.lookup_append, Option.or_assoc]
    by_cases h : k = k'
    · rw [if_pos h, h, List.lookup_cons, beq_self_eq_true]
      rfl
    · rw [if_neg h, lookup_cons_of_ne h]
      rfl

theorem keys_ofList (es : List (κ × ν)) : (ofList es).keys = (es.map Prod.fst).eraseDups := by
  have hall : (es.map Prod.fst).removeAll [] = es.map Prod.fst := by simp [List.removeAll]
  have hkeys := keys_insertMany empty es
  exact hkeys.trans (congrArg List.eraseDups hall)

theorem get?_ofList (es : List (κ × ν)) (k : κ) : (ofList es).get? k = es.reverse.lookup k := by
  have hget := get?_insertMany_reverse (k := k) empty es
  rw [get?_empty, Option.or_none] at hget
  exact hget

theorem mem_of_mem_ofList (h : (k, v) ∈ (ofList es).entries) : (k, v) ∈ es := by
  have hget : (ofList es).get? k = some v := lookup_of_mem (ofList es).nodup h
  rcases mem_of_get?_insertMany hget with hmem | hnone
  · exact hmem
  · cases hnone

theorem ext_get? {t t' : Table κ ν} (hkeys : t.keys = t'.keys) (h : ∀ k, t.get? k = t'.get? k) :
    t = t' := by
  obtain ⟨es, hes⟩ := t
  obtain ⟨es', hes'⟩ := t'
  congr 1
  have hlength : es.length = es'.length := by simpa [keys] using congrArg List.length hkeys
  refine List.ext_getElem hlength fun i hi hi' => ?_
  have hfst : es[i].1 = es'[i].1 := by
    have hget := congrArg (·[i]?) hkeys
    simpa [keys, hi, hi'] using hget
  have hlookup : es.lookup es[i].1 = some es[i].2 := lookup_of_mem hes (List.getElem_mem hi)
  have hlookup' : es'.lookup es'[i].1 = some es'[i].2 := lookup_of_mem hes' (List.getElem_mem hi')
  rw [← hfst] at hlookup'
  have hsnd := hlookup.symm.trans ((h _).trans hlookup')
  exact Prod.ext hfst (Option.some.inj hsnd)

theorem lookup_map_values {μ : Type} (f : ν → μ) (es : List (κ × ν)) (k : κ) :
    (es.map fun e => (e.1, f e.2)).lookup k = (es.lookup k).map f := by
  induction es with
  | nil => rfl
  | cons e es ih =>
    obtain ⟨a, b⟩ := e
    by_cases h : k = a
    · subst h
      simp
    · rw [List.map_cons, lookup_cons_of_ne h, lookup_cons_of_ne h, ih]

theorem get?_mapValues {μ : Type} (f : ν → μ) (t : Table κ ν) (k : κ) :
    (t.mapValues f).get? k = (t.get? k).map f :=
  lookup_map_values f t.entries k

omit [DecidableEq κ] in
theorem keys_mapValues {μ : Type} (f : ν → μ) (t : Table κ ν) :
    (t.mapValues f).keys = t.keys := by
  rw [keys, mapValues, List.map_map]
  rfl

/-- A table in which each value is written anew. -/
theorem insertMany_mapValues (t : Table κ ν) (f : ν → ν) :
    t.insertMany (t.mapValues f).entries = t.mapValues f := by
  refine ext_get? ?_ fun k => ?_
  · have hnone : (t.keys.filter fun k => decide (k ∉ t.keys)) = [] :=
      List.filter_eq_nil_iff.mpr fun k hk => by simp [hk]
    rw [keys_insertMany_entries, keys_mapValues, hnone, List.append_nil]
  · rw [get?_insertMany_entries, get?_mapValues]
    cases t.get? k <;> rfl

theorem lookup_filter (p : κ → Bool) (es : List (κ × ν)) (k : κ) :
    (es.filter fun e => p e.1).lookup k = if p k then es.lookup k else none := by
  induction es with
  | nil => simp
  | cons e es ih =>
    obtain ⟨a, b⟩ := e
    by_cases h : k = a
    · subst h
      cases hp : p k <;> simp [hp, ih]
    · cases hp : p a <;> simp [hp, lookup_cons_of_ne h, ih]

theorem get?_filter (p : κ → Bool) (t : Table κ ν) (k : κ) :
    (t.filter p).get? k = if p k then t.get? k else none :=
  lookup_filter p t.entries k

omit [DecidableEq κ] in
theorem size_filter_ne_iff (p : κ → Bool) (t : Table κ ν) :
    (t.filter p).size ≠ t.size ↔ ∃ k ∈ t.keys, p k = false := by
  unfold filter size keys
  rw [ne_eq, List.length_filter_eq_length_iff]
  simp

end GridSnapshot.Table
