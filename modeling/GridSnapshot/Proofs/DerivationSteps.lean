import GridSnapshot.Proofs.DerivationOrder
import GridSnapshot.Proofs.SoundSnapshots
import Mathlib.Data.List.Nodup
import Std.Data.String.ToNat

namespace GridSnapshot

namespace DerivedQuantity

variable {index : SlotIndex} {q q' : DerivedQuantity} {name : String}

/-- The names that a field is stored under. -/
def outputs (index : SlotIndex) : DerivedQuantity → List String
  | bbtest => (index.numberedGroups "aatest").map fun g => Derivation.magneticName g.name
  | q => [q.tag]

theorem outputs_of_ne (h : q ≠ .bbtest) : q.outputs index = [q.tag] := by
  cases q with
  | bbtest => exact absurd rfl h
  | _ => rfl

theorem magneticName_numbered (n : Nat) :
    Derivation.magneticName ("aatest" ++ toString n) = "bbtest" ++ toString n := by
  have hdrop : ("aatest" ++ toString n).toList.drop 2 = "test".toList ++ (toString n).toList := by
    rw [String.toList_append]
    rfl
  rw [Derivation.magneticName, hdrop, String.ofList_append, String.ofList_toList,
    String.ofList_toList, ← String.append_assoc]
  rfl

theorem outputs_bbtest (index : SlotIndex) : bbtest.outputs index =
    (List.range ((index.stemSlots "aatest").length / 3)).map fun j =>
      "bbtest" ++ toString ((j + 1) % ((index.stemSlots "aatest").length / 3)) := by
  simp only [outputs, SlotIndex.numberedGroups, List.map_map, Function.comp_def,
    magneticName_numbered]

/-- The numbered names are longer than all tags. -/
theorem not_mem_outputs_bbtest (hlength : name.toList.length ≤ 6) :
    name ∉ bbtest.outputs index := by
  rw [outputs_bbtest]
  intro hmem
  obtain ⟨j, -, rfl⟩ := List.mem_map.mp hmem
  have hdigits : 0 < (Nat.toDigits 10
      ((j + 1) % ((index.stemSlots "aatest").length / 3))).length :=
    List.length_pos_iff.mpr Nat.toDigits_ne_nil
  rw [String.toList_append, List.length_append, Nat.toString_eq_repr, Nat.toList_repr] at hlength
  have hstem : "bbtest".toList.length = 6 := rfl
  omega

theorem not_mem_outputs (hlength : name.toList.length ≤ 6) (h : name ≠ q.tag) :
    name ∉ q.outputs index := by
  by_cases hq : q = .bbtest
  · subst hq
    exact not_mem_outputs_bbtest hlength
  · rw [outputs_of_ne hq, List.mem_singleton]
    exact h

theorem length_tag_le (q : DerivedQuantity) : q.tag.toList.length ≤ 6 := by
  cases q <;> decide

theorem eq_of_tag_mem_outputs (h : q'.tag ∈ q.outputs index) : q' = q := by
  by_contra hne
  exact not_mem_outputs (length_tag_le q') (fun htag => hne (Derivation.tag_injective htag)) h

theorem nodup_outputs (q : DerivedQuantity) (index : SlotIndex) : (q.outputs index).Nodup := by
  by_cases hq : q = .bbtest
  · subst hq
    rw [outputs_bbtest]
    have hnodup := SlotIndex.nodup_map_append
      (SlotIndex.nodup_groupNumbers ((index.stemSlots "aatest").length / 3)) "bbtest"
    rwa [← SlotIndex.map_range_mod, List.map_map] at hnodup
  · rw [outputs_of_ne hq]
    exact List.nodup_singleton _

end DerivedQuantity

namespace CurlScheme

/-- The results have the shapes of the vectors that they are made of. -/
structure KeepsShapes {ω α : Type} (op : CurlScheme ω α) : Prop where
  curl : ∀ g v w, op.curl g v = .ok w → w.shape = v.shape
  doubleCurl : ∀ g v w, op.doubleCurl g v = .ok w → w.shape = v.shape

end CurlScheme

namespace CentralDifference

variable {ω α : Type} [FieldOps ω] [RingOps α] [Narrowing ω α]

theorem keepsShapes_scheme : (scheme : CurlScheme ω α).KeepsShapes where
  curl g v w h := by
    obtain ⟨⟨-, hshape⟩, rfl⟩ := curl_eq_ok_iff.mp h
    exact hshape.symm
  doubleCurl g v w h := by
    obtain ⟨⟨-, hshape⟩, rfl⟩ := doubleCurl_eq_ok_iff.mp h
    exact hshape.symm

end CentralDifference

namespace Snapshot

variable {ω α : Type} {s : Snapshot ω α} {name : String} {t : Tensor α}
  {arrays : List (String × Tensor α)}

/-- The last axes of each derived array are those of the tensor. -/
def Fitted (s : Snapshot ω α) : Prop :=
  ∀ name t, s.derived.get? name = some t → s.cellShape <:+ t.shape

theorem suffix_view [Zero α] (s : Snapshot ω α) (slots : Span) :
    s.cellShape <:+ (s.view slots).shape := by
  unfold view
  split
  · exact List.suffix_refl _
  · rw [Tensor.shape_sliceFirst]
    exact List.suffix_cons _ _

theorem suffix_field? [Zero α] (h : s.field? name = some t) : s.cellShape <:+ t.shape := by
  obtain ⟨slots, -, rfl⟩ := Option.map_eq_some_iff.mp h
  exact suffix_view s slots

theorem Fitted.suffix_lookup? [Zero α] (hs : s.Fitted) (h : s.lookup? name = some t) :
    s.cellShape <:+ t.shape := by
  unfold lookup? at h
  cases hfield : s.field? name with
  | some x =>
    rw [hfield] at h
    cases h
    exact suffix_field? hfield
  | none =>
    rw [hfield] at h
    exact hs name t h

/-- Stores arrays, whatever their shapes, and forgets that they failed before. -/
def addAll (s : Snapshot ω α) (arrays : List (String × Tensor α)) : Snapshot ω α :=
  { s with
    derived := s.derived.insertMany arrays
    failures := s.failures.filter fun name => name ∉ arrays.map Prod.fst }

theorem addAll_nil (s : Snapshot ω α) : s.addAll [] = s := by
  simp [addAll, Table.insertMany, Table.filter]

theorem addAll_cons (s : Snapshot ω α) (e : String × Tensor α) (arrays : List (String × Tensor α)) :
    s.addAll (e :: arrays) = Snapshot.addAll { s with
      derived := s.derived.insert e.1 e.2, failures := s.failures.erase e.1 } arrays := by
  have hfailures : (s.failures.erase e.1).filter (fun n => n ∉ arrays.map Prod.fst) =
      s.failures.filter fun n => n ∉ (e :: arrays).map Prod.fst := by
    simp only [Table.filter, Table.erase, List.filter_filter, List.map_cons, List.mem_cons,
      not_or, Table.mk.injEq]
    congr 1
    funext x
    rw [Bool.eq_iff_iff]
    simp [and_comm]
  rw [addAll, addAll, ← hfailures]
  rfl

theorem has_eq_false_iff : s.has name = false ↔
    s.views.contains name = false ∧ name ∉ s.derived.keys := by
  rw [has, Bool.or_eq_false_iff, ← Table.contains_iff, Bool.not_eq_true]

theorem has_of_mem_derived (h : name ∈ s.derived.keys) : s.has name = true := by
  rw [has, Table.contains_iff.mpr h, Bool.or_true]

/-- Arrays under new names come after those that are there. -/
theorem derived_addAll (hnodup : (arrays.map Prod.fst).Nodup)
    (hnew : ∀ name ∈ arrays.map Prod.fst, s.has name = false) :
    (s.addAll arrays).derived.entries = s.derived.entries ++ arrays :=
  Table.entries_insertMany hnodup fun name hname => (has_eq_false_iff.mp (hnew name hname)).2

theorem Fitted.addAll (hs : s.Fitted) (h : ∀ e ∈ arrays, s.cellShape <:+ e.2.shape) :
    (s.addAll arrays).Fitted := by
  intro name t ht
  rcases Table.mem_of_get?_insertMany ht with hmem | ht
  · exact h _ hmem
  · exact hs name t ht

end Snapshot

namespace Derivation

open Thermodynamics

section Vectors

variable {ω α : Type} [RealOps α] {op : CurlScheme ω α} {s : Snapshot ω α} {q : DerivedQuantity}
  {name : String} {arrays : List (String × Tensor α)}

theorem source_eq_ok_iff {wanted : String} {t : Tensor α} :
    source q s name wanted = .ok t ↔ s.field? name = some t := by
  unfold source
  cases s.field? name <;> simp

/-- An array made of one vector of the tensor. -/
theorem eq_singleton_of_vector {wanted : String} {f : Tensor α → Except DerivationFault (Tensor α)}
    (hf : ∀ v w, f v = .ok w → w.shape = v.shape)
    (h : (source q s name wanted >>= fun v =>
      (fun t => [(q.tag, t)]) <$> (f v).mapError (retag q)) = .ok arrays) :
    ∃ w, arrays = [(q.tag, w)] ∧ s.cellShape <:+ w.shape := by
  obtain ⟨v, hv, hw⟩ := Outcome.bind_eq_ok_iff.mp h
  cases hfv : f v with
  | error e =>
    rw [hfv] at hw
    cases hw
  | ok w =>
    rw [hfv] at hw
    cases hw
    refine ⟨w, rfl, ?_⟩
    rw [hf v w hfv]
    exact Snapshot.suffix_field? (source_eq_ok_iff.mp hv)

theorem names_magneticFields {g : StencilGrid ω} {groups : List VectorSlots}
    (h : magneticFields op s g groups = .ok arrays) :
    arrays.map Prod.fst = (groups.map fun group => magneticName group.name).filter
      fun name => !s.has name := by
  induction groups generalizing arrays with
  | nil =>
    cases h
    rfl
  | cons group groups ih =>
    rw [magneticFields] at h
    split at h
    · rename_i hhas
      rw [List.map_cons, List.filter_cons_of_neg (by simp [hhas]), ih h]
    · rename_i hhas
      obtain ⟨a, ha, h⟩ := Outcome.bind_eq_ok_iff.mp h
      obtain ⟨b, hb, h⟩ := Outcome.bind_eq_ok_iff.mp h
      obtain ⟨rest, hrest, h⟩ := Outcome.bind_eq_ok_iff.mp h
      cases h
      rw [List.map_cons, List.map_cons, List.filter_cons_of_pos (by simp [hhas]), ih hrest]

theorem suffix_magneticFields (hop : op.KeepsShapes) {g : StencilGrid ω}
    {groups : List VectorSlots} (h : magneticFields op s g groups = .ok arrays) :
    ∀ e ∈ arrays, s.cellShape <:+ e.2.shape := by
  induction groups generalizing arrays with
  | nil =>
    cases h
    exact fun e he => absurd he List.not_mem_nil
  | cons group groups ih =>
    rw [magneticFields] at h
    split at h
    · exact ih h
    · obtain ⟨a, ha, h⟩ := Outcome.bind_eq_ok_iff.mp h
      obtain ⟨b, hb, h⟩ := Outcome.bind_eq_ok_iff.mp h
      obtain ⟨rest, hrest, h⟩ := Outcome.bind_eq_ok_iff.mp h
      cases h
      refine List.forall_mem_cons.mpr ⟨?_, ih hrest⟩
      rw [hop.curl _ _ _ (Outcome.mapError_eq_ok_iff.mp hb)]
      exact Snapshot.suffix_field? (source_eq_ok_iff.mp ha)

omit [RealOps α] in
/-- Arrays that fit are all stored. -/
theorem store_eq (h : ∀ e ∈ arrays, s.cellShape <:+ e.2.shape) :
    store s arrays = (s.addAll arrays, none) := by
  induction arrays generalizing s with
  | nil => rw [store, Snapshot.addAll_nil]
  | cons e arrays ih =>
    obtain ⟨name, t⟩ := e
    obtain ⟨hfirst, hrest⟩ := List.forall_mem_cons.mp h
    have hadd : s.addDerived name t = .ok { s with
        derived := s.derived.insert name t, failures := s.failures.erase name } :=
      Snapshot.addDerived_eq_ok_iff.mpr ⟨hfirst, rfl⟩
    rw [store]
    simp only [hadd]
    rw [Snapshot.addAll_cons]
    exact ih hrest

end Vectors

variable {ω α : Type} [RealOps ω] [RealOps α] [Narrowing ω α] {op : CurlScheme ω α}
  {s : Snapshot ω α} {q : DerivedQuantity} {arrays : List (String × Tensor α)}
  {e : DerivationFault}

theorem compute_of_attempt (h : attempt op s q = .ok arrays) : compute op s q = .ok arrays := by
  unfold attempt at h
  split at h
  · cases h
  · exact h

/-- A field other than the numbered ones gives one array under its tag. -/
theorem eq_singleton_of_attempt (hop : op.KeepsShapes) (hs : s.Fitted) (hq : q ≠ .bbtest)
    (h : attempt op s q = .ok arrays) :
    ∃ w, arrays = [(q.tag, w)] ∧ s.cellShape <:+ w.shape := by
  by_cases hkind : q.kind = .thermodynamic
  · rw [attempt_eq_value hkind] at h
    cases hvalue : value s q with
    | error e =>
      rw [hvalue] at h
      cases h
    | ok w =>
      rw [hvalue] at h
      cases h
      obtain ⟨name, -, x, hx, hshape⟩ := exists_shape_value hvalue
      refine ⟨w, rfl, ?_⟩
      rw [hshape]
      exact hs.suffix_lookup? hx
  · have hcompute := compute_of_attempt h
    cases q with
    | bb => exact eq_singleton_of_vector (hop.curl _) hcompute
    | jj => exact eq_singleton_of_vector (hop.doubleCurl _) hcompute
    | vort => exact eq_singleton_of_vector (hop.curl _) hcompute
    | bbtest => exact absurd rfl hq
    | rho | tt | ss | pp => exact absurd rfl hkind

/-- The numbered fields are derived before the margins are dropped, if there are any. -/
def HasGroups (s : Snapshot ω α) : Prop :=
  s.trimmed = false ∧ s.metadata.index.numberedGroups "aatest" ≠ []

omit [RealOps ω] [RealOps α] [Narrowing ω α] in
theorem outputs_eq_map : DerivedQuantity.bbtest.outputs s.metadata.index =
    (s.metadata.index.numberedGroups "aatest").map fun group => magneticName group.name := rfl

theorem attempt_bbtest (hgroups : HasGroups s) : attempt op s .bbtest =
    magneticFields op s (.ofSnapshot s) (s.metadata.index.numberedGroups "aatest") := by
  obtain ⟨htrimmed, hne⟩ := hgroups
  unfold attempt
  rw [if_neg (by simp [htrimmed])]
  unfold compute
  simp only

theorem hasGroups_of_attempt (h : attempt op s .bbtest = .ok arrays) : HasGroups s := by
  have hcompute := compute_of_attempt h
  constructor
  · by_contra htrimmed
    rw [attempt, if_pos ⟨rfl, by simpa using htrimmed⟩] at h
    cases h
  · intro hnil
    unfold compute at hcompute
    simp only [hnil] at hcompute
    cases hcompute

/-- An attempt gives all arrays that are missing. -/
theorem attempt_eq_ok (hop : op.KeepsShapes) (hs : s.Fitted)
    (hnew : q ≠ .bbtest → s.has q.tag = false) (h : attempt op s q = .ok arrays) :
    (arrays.map Prod.fst = (q.outputs s.metadata.index).filter fun name => !s.has name) ∧
      ∀ e ∈ arrays, s.cellShape <:+ e.2.shape := by
  by_cases hq : q = .bbtest
  · subst hq
    rw [attempt_bbtest (hasGroups_of_attempt h)] at h
    rw [outputs_eq_map]
    exact ⟨names_magneticFields h, suffix_magneticFields hop h⟩
  · obtain ⟨w, rfl, hshape⟩ := eq_singleton_of_attempt hop hs hq h
    rw [DerivedQuantity.outputs_of_ne hq, List.filter_cons_of_pos (by simp [hnew hq])]
    exact ⟨rfl, List.forall_mem_singleton.mpr hshape⟩

/-- All that a field is stored under is there. -/
def Settled (s : Snapshot ω α) (q : DerivedQuantity) : Prop :=
  (q = .bbtest → HasGroups s) ∧ ∀ name ∈ q.outputs s.metadata.index, s.has name = true

/-- A field that is missing cannot be derived. -/
def Failing (op : CurlScheme ω α) (s : Snapshot ω α) (q : DerivedQuantity)
    (e : DerivationFault) : Prop :=
  attempt op s q = .error e ∧ (q ≠ .bbtest → s.has q.tag = false)

/-- What is missing of a field can be derived and fits. -/
structure Computing (op : CurlScheme ω α) (s : Snapshot ω α) (q : DerivedQuantity)
    (arrays : List (String × Tensor α)) : Prop where
  attempt_eq : attempt op s q = .ok arrays
  ne_nil : arrays ≠ []
  names_eq : arrays.map Prod.fst = (q.outputs s.metadata.index).filter fun name => !s.has name
  suffix : ∀ e ∈ arrays, s.cellShape <:+ e.2.shape

/-- What one request makes of a snapshot, and its outcome. -/
inductive Turn (op : CurlScheme ω α) (s : Snapshot ω α) (q : DerivedQuantity) :
    Snapshot ω α × Outcome → Prop where
  | present : Settled s q → Turn op s q (s, .alreadyPresent)
  | computed {arrays : List (String × Tensor α)} : Computing op s q arrays →
      Turn op s q (s.addAll arrays, .computed (arrays.map Prod.fst))
  | failed {e : DerivationFault} : Failing op s q e → Turn op s q (s.noteFailure q.tag e, .failed e)

theorem derive_of_settled (h : Settled s q) : derive op s q = (s, .alreadyPresent) := by
  obtain ⟨hgroups, hall⟩ := h
  by_cases hq : q = .bbtest
  · subst hq
    have hfields : magneticFields op s (.ofSnapshot s)
        (s.metadata.index.numberedGroups "aatest") = .ok [] := by
      rw [outputs_eq_map, List.forall_mem_map] at hall
      generalize s.metadata.index.numberedGroups "aatest" = groups at hall
      induction groups with
      | nil => rfl
      | cons group groups ih =>
        obtain ⟨hfirst, hrest⟩ := List.forall_mem_cons.mp hall
        rw [magneticFields]
        simp only [if_pos hfirst]
        exact ih hrest
    rw [derive, if_neg (by simp), attempt_bbtest (hgroups rfl), hfields]
  · rw [DerivedQuantity.outputs_of_ne hq, List.forall_mem_singleton] at hall
    rw [derive, if_pos ⟨hq, hall⟩]

theorem derive_of_failing (h : Failing op s q e) :
    derive op s q = (s.noteFailure q.tag e, .failed e) := by
  obtain ⟨herror, hnew⟩ := h
  have hmissing : ¬ (q ≠ .bbtest ∧ s.has q.tag = true) := by
    intro hpresent
    obtain ⟨hq, hhas⟩ := hpresent
    rw [hnew hq] at hhas
    cases hhas
  rw [derive, if_neg hmissing, herror]
  rfl

namespace Computing

theorem has_eq_false (h : Computing op s q arrays) {name : String}
    (hname : name ∈ arrays.map Prod.fst) : s.has name = false := by
  rw [h.names_eq, List.mem_filter] at hname
  simpa using hname.2

theorem mem_outputs (h : Computing op s q arrays) {name : String}
    (hname : name ∈ arrays.map Prod.fst) : name ∈ q.outputs s.metadata.index := by
  rw [h.names_eq, List.mem_filter] at hname
  exact hname.1

theorem nodup (h : Computing op s q arrays) : (arrays.map Prod.fst).Nodup := by
  rw [h.names_eq]
  exact (DerivedQuantity.nodup_outputs q _).filter _

theorem derived_addAll (h : Computing op s q arrays) :
    (s.addAll arrays).derived.entries = s.derived.entries ++ arrays :=
  Snapshot.derived_addAll h.nodup fun _ hname => h.has_eq_false hname

theorem has_tag (h : Computing op s q arrays) (hq : q ≠ .bbtest) : s.has q.tag = false := by
  obtain ⟨name, hname⟩ := List.exists_mem_of_ne_nil _ (mt List.map_eq_nil_iff.mp h.ne_nil)
  have hmem := h.mem_outputs hname
  rw [DerivedQuantity.outputs_of_ne hq, List.mem_singleton] at hmem
  rw [← hmem]
  exact h.has_eq_false hname

theorem derive_eq (h : Computing op s q arrays) :
    derive op s q = (s.addAll arrays, .computed (arrays.map Prod.fst)) := by
  have hmissing : ¬ (q ≠ .bbtest ∧ s.has q.tag = true) := by
    intro hpresent
    obtain ⟨hq, hhas⟩ := hpresent
    rw [h.has_tag hq] at hhas
    cases hhas
  rw [derive, if_neg hmissing, h.attempt_eq]
  cases arrays with
  | nil => exact absurd rfl h.ne_nil
  | cons array arrays => simp only [store_eq h.suffix]

end Computing

theorem turn_derive (hop : op.KeepsShapes) (hs : s.Fitted) (q : DerivedQuantity) :
    Turn op s q (derive op s q) := by
  by_cases hhas : q ≠ .bbtest ∧ s.has q.tag = true
  · have hsettled : Settled s q := by
      refine ⟨fun hq => absurd hq hhas.1, ?_⟩
      rw [DerivedQuantity.outputs_of_ne hhas.1, List.forall_mem_singleton]
      exact hhas.2
    rw [derive_of_settled hsettled]
    exact .present hsettled
  · have hnew (hq : q ≠ .bbtest) : s.has q.tag = false := by
      simpa [hq] using hhas
    cases hattempt : attempt op s q with
    | error e =>
      have hfailing : Failing op s q e := ⟨hattempt, hnew⟩
      rw [derive_of_failing hfailing]
      exact .failed hfailing
    | ok arrays =>
      obtain ⟨hnames, hshapes⟩ := attempt_eq_ok hop hs hnew hattempt
      by_cases hnil : arrays = []
      · subst hnil
        have hsettled : Settled s q := by
          constructor
          · intro hq
            subst hq
            exact hasGroups_of_attempt hattempt
          · intro name hname
            simpa using List.filter_eq_nil_iff.mp hnames.symm name hname
        rw [derive_of_settled hsettled]
        exact .present hsettled
      · have hcomputing : Computing op s q arrays := ⟨hattempt, hnil, hnames, hshapes⟩
        rw [hcomputing.derive_eq]
        exact .computed hcomputing

end Derivation

end GridSnapshot
