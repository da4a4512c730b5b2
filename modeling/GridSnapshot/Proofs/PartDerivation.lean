import GridSnapshot.Derivation
import GridSnapshot.Proofs.InteriorBox
import GridSnapshot.Proofs.TableMatching

namespace GridSnapshot

open Outcome (Together bind_eq_ok_iff mapError_eq_ok_iff)
open CentralDifference (SameVector VectorsAgree)

namespace DerivedQuantity

/-- The names of the vectors that a field is made of. -/
def vectors (index : SlotIndex) : DerivedQuantity → List String
  | bb | jj => ["aa"]
  | vort => ["uu"]
  | bbtest => (index.numberedGroups "aatest").map VectorSlots.name
  | rho | tt | ss | pp => []

/-- There are vectors to make the field of, and each of them has three slots. -/
structure HasVectors (q : DerivedQuantity) (index : SlotIndex) (views : Table String Span) :
    Prop where
  ne_nil : q.vectors index ≠ []
  exists_slots : ∀ name ∈ q.vectors index, ∃ slots, views.get? name = some slots ∧ slots.length = 3

end DerivedQuantity

/-- The same outcome, up to the reason of a failure. -/
inductive Outcome.Alike : Outcome → Outcome → Prop
  | computed (names : List String) : Alike (.computed names) (.computed names)
  | alreadyPresent : Alike .alreadyPresent .alreadyPresent
  | failed (e e' : DerivationFault) : Alike (.failed e) (.failed e')

/-- The snapshot of a processor's part and that of the whole run, both with their margins. -/
structure PartSnapshot {ω α : Type} [FieldOps ω] [Zero α] [Narrowing ω α] (P : ProcessorGrid)
    (d : Dimensions) (m : RunMetadata ω) (views : Table String Span) (s s' : Snapshot ω α) :
    Prop where
  grids : PartGrid P d (.ofSnapshot s) (.ofSnapshot s')
  metadata_one : s.metadata = m
  metadata_all : s'.metadata = m
  views_one : s.views = views
  views_all : s'.views = views
  layout_one : s.layout = .ofOutput m.params.twoDimensional m.dims
  vars_eq : s.f.shape.headD 0 = s'.f.shape.headD 0
  shape_one : s.cellShape = (StencilGrid.ofSnapshot s).cellShape
  shape_all : s'.cellShape = (StencilGrid.ofSnapshot s').cellShape
  cell_eq : ∀ slot, ∀ j : PerAxis Nat, (∀ a ∈ s.layout.axes, j.get a < d.extent a) →
    s.f.cell (slot :: s.layout.axes.map j.get) =
      s'.f.cell (slot :: s.layout.axes.map (d.outward j).get)
  bounds_one : ∀ a, s.bounds.get a = (StencilGrid.ofSnapshot s).interior a
  bounds_all : ∀ a, s'.bounds.get a = (StencilGrid.ofSnapshot s').interior a
  untrimmed_one : s.trimmed = false
  untrimmed_all : s'.trimmed = false
  derived_eq : Table.Matching
    (VectorsAgree d (StencilGrid.ofSnapshot s) (StencilGrid.ofSnapshot s')) s.derived.entries
    s'.derived.entries

namespace PartSnapshot

section Views

variable {ω α : Type} [FieldOps ω] [Zero α] [Narrowing ω α] {P : ProcessorGrid} {d : Dimensions}
  {m : RunMetadata ω} {views : Table String Span} {s s' : Snapshot ω α}

abbrev ArraysAgree (d : Dimensions) (s s' : Snapshot ω α)
    (arrays arrays' : List (String × Tensor α)) : Prop :=
  Table.Matching (VectorsAgree d (.ofSnapshot s) (.ofSnapshot s')) arrays arrays'

theorem has_eq (h : PartSnapshot P d m views s s') (name : String) : s.has name = s'.has name := by
  unfold Snapshot.has
  rw [h.views_one, h.views_all, h.derived_eq.contains_eq]

/-- A single field has no axis for components, so it fits neither grid. -/
theorem sameVector_row (h : PartSnapshot P d m views s s') (i : Nat) :
    SameVector d (.ofSnapshot s) (.ofSnapshot s') (s.f.row i) (s'.f.row i) := by
  have hone : (s.f.row i).shape ≠ 3 :: (StencilGrid.ofSnapshot s).cellShape := by
    rw [← h.shape_one]
    exact (List.cons_ne_self _ _).symm
  have hall : (s'.f.row i).shape ≠ 3 :: (StencilGrid.ofSnapshot s').cellShape := by
    rw [← h.shape_all]
    exact (List.cons_ne_self _ _).symm
  exact ⟨⟨fun hshape => absurd hshape hone, fun hshape => absurd hshape hall⟩,
    fun hshape => absurd hshape hone⟩

theorem sameVector_sliceFirst (h : PartSnapshot P d m views s s') (slots : Span) :
    SameVector d (.ofSnapshot s) (.ofSnapshot s') (s.f.sliceFirst slots)
      (s'.f.sliceFirst slots) := by
  have hone : (s.f.sliceFirst slots).shape =
      slots.length :: (StencilGrid.ofSnapshot s).cellShape := by
    rw [Tensor.shape_sliceFirst, ← h.shape_one]
    rfl
  have hall : (s'.f.sliceFirst slots).shape =
      slots.length :: (StencilGrid.ofSnapshot s').cellShape := by
    rw [Tensor.shape_sliceFirst, ← h.shape_all]
    rfl
  constructor
  · rw [hone, hall]
    simp only [List.cons.injEq, and_true]
  · intro hshape c hc j hj
    rw [hone, List.cons.injEq] at hshape
    rw [← hshape.1] at hc
    have hin : Cell.Inside s.f.shape.tail (s.layout.axes.map j.get) := by
      have hinside := h.grids.inside_part hj
      rw [← h.shape_one] at hinside
      exact hinside
    have hin' : Cell.Inside s'.f.shape.tail (s.layout.axes.map (d.outward j).get) := by
      have hinside := h.grids.inside_whole hj
      rw [← h.shape_all] at hinside
      exact hinside
    calc (s.f.sliceFirst slots).cell (c :: s.layout.axes.map j.get)
      _ = s.f.cell ((slots.start + c) :: s.layout.axes.map j.get) := Tensor.cell_sliceFirst hc hin
      _ = s'.f.cell ((slots.start + c) :: s.layout.axes.map (d.outward j).get) :=
        h.cell_eq (slots.start + c) j hj
      _ = (s'.f.sliceFirst slots).cell (c :: s.layout.axes.map (d.outward j).get) :=
        (Tensor.cell_sliceFirst hc hin').symm

theorem sameVector_view (h : PartSnapshot P d m views s s') (slots : Span) :
    SameVector d (.ofSnapshot s) (.ofSnapshot s') (s.view slots) (s'.view slots) := by
  unfold Snapshot.view
  split
  · exact h.sameVector_row slots.start
  · rw [← h.vars_eq]
    exact h.sameVector_sliceFirst _

/-- The arrays that fit the grid are stored on both. -/
theorem exists_store {arrays arrays' : List (String × Tensor α)} (h : PartSnapshot P d m views s s')
    (harrays : ArraysAgree d s s' arrays arrays') :
    ∃ u u', Derivation.store s arrays = (u, none) ∧ Derivation.store s' arrays' = (u', none) ∧
      PartSnapshot P d m views u u' := by
  induction arrays generalizing s s' arrays' with
  | nil =>
    obtain rfl := List.forall₂_nil_left_iff.mp harrays
    exact ⟨s, s', rfl, rfl, h⟩
  | cons e arrays ih =>
    obtain ⟨e', rest, ⟨hname, ht⟩, hrest, rfl⟩ := List.forall₂_cons_left_iff.mp harrays
    obtain ⟨name, t⟩ := e
    obtain ⟨name', t'⟩ := e'
    obtain rfl : name = name' := hname
    have hone : s.cellShape.isSuffixOf t.shape = true := by
      rw [List.isSuffixOf_iff_suffix, ht.shape_one, h.shape_one]
      exact List.suffix_cons _ _
    have hall : s'.cellShape.isSuffixOf t'.shape = true := by
      rw [List.isSuffixOf_iff_suffix, ht.shape_all, h.shape_all]
      exact List.suffix_cons _ _
    simp only [Derivation.store, Snapshot.addDerived, if_pos hone, if_pos hall]
    exact ih { h with derived_eq := h.derived_eq.insertEntry name ht } hrest

theorem noteFailure (h : PartSnapshot P d m views s s') (name : String) (e e' : DerivationFault) :
    PartSnapshot P d m views (s.noteFailure name e) (s'.noteFailure name e') := { h with }

end Views

section Requests

open GridSnapshot.Derivation

variable {ω α : Type} [RealOps ω] [RealOps α] [Narrowing ω α] {P : ProcessorGrid} {d : Dimensions}
  {m : RunMetadata ω} {views : Table String Span} {s s' : Snapshot ω α} {field : DerivedQuantity}

theorem together_source (h : PartSnapshot P d m views s s') (field : DerivedQuantity)
    (name wanted : String) :
    Together (SameVector d (.ofSnapshot s) (.ofSnapshot s')) (source field s name wanted)
      (source field s' name wanted) := by
  unfold source Snapshot.field?
  rw [h.views_one, h.views_all]
  cases views.get? name with
  | none => exact .error
  | some slots => exact .ok (h.sameVector_view slots)

theorem together_magneticFields (h : PartSnapshot P d m views s s') (groups : List VectorSlots) :
    Together (ArraysAgree d s s')
      (magneticFields CentralDifference.scheme s (.ofSnapshot s) groups)
      (magneticFields CentralDifference.scheme s' (.ofSnapshot s') groups) := by
  induction groups with
  | nil => exact .ok .nil
  | cons group groups ih =>
    rw [magneticFields, magneticFields, h.has_eq]
    split
    · exact ih
    · refine (h.together_source .bbtest group.name "aatest").bind fun a a' ha => ?_
      have hcurl := CentralDifference.together_curl h.grids ha
      refine (hcurl.mapError (f := retag .bbtest)).bind fun b b' hb => ?_
      exact ih.bind fun rest rest' hrest => .ok (.cons ⟨rfl, hb⟩ hrest)

/-- A field that is made of one vector by an operator that keeps vectors alike. -/
theorem together_array (h : PartSnapshot P d m views s s') (field : DerivedQuantity)
    (name : String) {op op' : Tensor α → Except DerivationFault (Tensor α)}
    (hop : ∀ v v', SameVector d (.ofSnapshot s) (.ofSnapshot s') v v' →
      Together (VectorsAgree d (.ofSnapshot s) (.ofSnapshot s')) (op v) (op' v')) :
    Together (ArraysAgree d s s')
      (source field s name name >>= fun v =>
        (fun t => [(field.tag, t)]) <$> (op v).mapError (retag field))
      (source field s' name name >>= fun v =>
        (fun t => [(field.tag, t)]) <$> (op' v).mapError (retag field)) := by
  refine (h.together_source field name name).bind fun v v' hv => ?_
  exact (hop v v' hv).mapError.map fun t t' ht => .cons ⟨rfl, ht⟩ .nil

theorem together_compute (h : PartSnapshot P d m views s s')
    (hfield : field.kind = .vectorCalculus) :
    Together (ArraysAgree d s s') (compute CentralDifference.scheme s field)
      (compute CentralDifference.scheme s' field) := by
  cases field with
  | bb =>
    exact h.together_array .bb "aa" fun _ _ hv => CentralDifference.together_curl h.grids hv
  | jj =>
    exact h.together_array .jj "aa" fun _ _ hv => CentralDifference.together_doubleCurl h.grids hv
  | vort =>
    exact h.together_array .vort "uu" fun _ _ hv => CentralDifference.together_curl h.grids hv
  | bbtest =>
    unfold compute
    rw [h.metadata_one, h.metadata_all]
    simp only
    split
    · exact .error
    · exact h.together_magneticFields _
  | rho | tt | ss | pp => cases hfield

theorem together_attempt (h : PartSnapshot P d m views s s')
    (hfield : field.kind = .vectorCalculus) :
    Together (ArraysAgree d s s') (attempt CentralDifference.scheme s field)
      (attempt CentralDifference.scheme s' field) := by
  unfold attempt
  rw [h.untrimmed_one, h.untrimmed_all]
  simp only [Bool.false_eq_true, and_false, if_false]
  exact h.together_compute hfield

theorem derive (h : PartSnapshot P d m views s s') (hfield : field.kind = .vectorCalculus) :
    PartSnapshot P d m views (Derivation.derive CentralDifference.scheme s field).1
        (Derivation.derive CentralDifference.scheme s' field).1 ∧
      Outcome.Alike (Derivation.derive CentralDifference.scheme s field).2
        (Derivation.derive CentralDifference.scheme s' field).2 := by
  unfold Derivation.derive
  rw [h.has_eq]
  split
  · exact ⟨h, .alreadyPresent⟩
  · have hattempt := h.together_attempt hfield
    generalize attempt CentralDifference.scheme s field = x at hattempt
    generalize attempt CentralDifference.scheme s' field = x' at hattempt
    cases hattempt with
    | error => exact ⟨h.noteFailure .., .failed ..⟩
    | ok harrays =>
      cases harrays with
      | nil => exact ⟨h, .alreadyPresent⟩
      | cons he hrest =>
        obtain ⟨u, u', hu, hu', hp⟩ := h.exists_store (.cons he hrest)
        have hnames := Table.Matching.map_fst_eq (List.Forall₂.cons he hrest)
        simp only [hu, hu', hnames]
        exact ⟨hp, .computed _⟩

theorem deriveAll {fields : List DerivedQuantity} {log log' : DerivationLog}
    (h : PartSnapshot P d m views s s') (hfields : ∀ field ∈ fields, field.kind = .vectorCalculus)
    (hlog : Table.Matching Outcome.Alike log log') :
    PartSnapshot P d m views (Derivation.deriveAll CentralDifference.scheme fields s log).1
        (Derivation.deriveAll CentralDifference.scheme fields s' log').1 ∧
      Table.Matching Outcome.Alike
        (Derivation.deriveAll CentralDifference.scheme fields s log).2
        (Derivation.deriveAll CentralDifference.scheme fields s' log').2 := by
  induction fields generalizing s s' log log' with
  | nil => exact ⟨h, hlog⟩
  | cons field fields ih =>
    have hrest : ∀ field ∈ fields, field.kind = .vectorCalculus :=
      fun field hmem => hfields field (List.mem_cons_of_mem _ hmem)
    obtain ⟨hstep, houtcome⟩ := h.derive (hfields field List.mem_cons_self)
    rw [Derivation.deriveAll, Derivation.deriveAll, hlog.map_fst_eq]
    split
    · exact ih h hrest hlog
    · exact ih hstep hrest (List.rel_append hlog (.cons ⟨rfl, houtcome⟩ .nil))

theorem coordinates_eq (h : PartSnapshot P d m views s s') :
    (StencilGrid.ofSnapshot s).coordinates = m.params.coordinates :=
  congrArg (fun m : RunMetadata ω => m.params.coordinates) h.metadata_one

theorem exists_source (h : PartSnapshot P d m views s s') (field : DerivedQuantity)
    {name wanted : String}
    (hslots : ∃ slots, views.get? name = some slots ∧ slots.length = 3) :
    ∃ v, source field s name wanted = .ok v ∧
      v.shape = 3 :: (StencilGrid.ofSnapshot s).cellShape := by
  obtain ⟨slots, hget, hlength⟩ := hslots
  refine ⟨s.f.sliceFirst slots, ?_, ?_⟩
  · have hforward : slots.start ≤ slots.stop := by
      rw [Span.length] at hlength
      omega
    have hvector : Snapshot.isScalar slots = false := by
      rw [Snapshot.isScalar, hlength]
      rfl
    unfold source Snapshot.field? Snapshot.view
    rw [h.views_one, hget]
    simp only [Option.map_some, hvector, Bool.false_eq_true, if_false,
      Snapshot.onAxis_of_le hforward]
  · rw [Tensor.shape_sliceFirst, hlength, ← h.shape_one]
    rfl

theorem exists_magneticFields (h : PartSnapshot P d m views s s')
    (hcartesian : m.params.coordinates = .cartesian) {groups : List VectorSlots}
    (hgroups : ∀ name ∈ groups.map VectorSlots.name,
      ∃ slots, views.get? name = some slots ∧ slots.length = 3) :
    ∃ arrays, magneticFields CentralDifference.scheme s (.ofSnapshot s) groups = .ok arrays := by
  induction groups with
  | nil => exact ⟨[], rfl⟩
  | cons group groups ih =>
    rw [List.map_cons, List.forall_mem_cons] at hgroups
    obtain ⟨rest, hrest⟩ := ih hgroups.2
    rw [magneticFields]
    split
    · exact ⟨rest, hrest⟩
    · obtain ⟨v, hsource, hshape⟩ := h.exists_source .bbtest hgroups.1
      obtain ⟨b, hcurl⟩ := CentralDifference.exists_curl (h.coordinates_eq.trans hcartesian) hshape
      have hfirst := mapError_eq_ok_iff (f := retag .bbtest).mpr hcurl
      exact ⟨_, bind_eq_ok_iff.mpr ⟨v, hsource, bind_eq_ok_iff.mpr ⟨b, hfirst,
        bind_eq_ok_iff.mpr ⟨rest, hrest, rfl⟩⟩⟩⟩

/-- A field of one vector is made if the operator takes vectors that fit the grid. -/
theorem exists_array (h : PartSnapshot P d m views s s') (field : DerivedQuantity) {name : String}
    (hslots : ∃ slots, views.get? name = some slots ∧ slots.length = 3)
    {op : Tensor α → Except DerivationFault (Tensor α)}
    (hop : ∀ v, v.shape = 3 :: (StencilGrid.ofSnapshot s).cellShape → ∃ t, op v = .ok t) :
    ∃ arrays, (source field s name name >>= fun v =>
      (fun t => [(field.tag, t)]) <$> (op v).mapError (retag field)) = .ok arrays := by
  obtain ⟨v, hsource, hshape⟩ := h.exists_source field hslots
  obtain ⟨t, ht⟩ := hop v hshape
  have hfield := mapError_eq_ok_iff (f := retag field).mpr ht
  exact ⟨_, bind_eq_ok_iff.mpr ⟨v, hsource, congrArg (Functor.map _) hfield⟩⟩

theorem exists_compute (h : PartSnapshot P d m views s s')
    (hcartesian : m.params.coordinates = .cartesian) (hvectors : field.HasVectors m.index views) :
    ∃ arrays, compute CentralDifference.scheme s field = .ok arrays := by
  have hgrid := h.coordinates_eq.trans hcartesian
  have hslots := hvectors.exists_slots
  cases field with
  | bb =>
    exact h.exists_array .bb (hslots "aa" List.mem_cons_self) fun _ hshape =>
      CentralDifference.exists_curl hgrid hshape
  | jj =>
    exact h.exists_array .jj (hslots "aa" List.mem_cons_self) fun _ hshape =>
      CentralDifference.exists_doubleCurl hgrid hshape
  | vort =>
    exact h.exists_array .vort (hslots "uu" List.mem_cons_self) fun _ hshape =>
      CentralDifference.exists_curl hgrid hshape
  | bbtest =>
    have hne := hvectors.ne_nil
    unfold DerivedQuantity.vectors at hslots hne
    unfold compute
    rw [h.metadata_one]
    simp only
    split
    · rename_i hnil
      rw [hnil] at hne
      exact absurd rfl hne
    · exact h.exists_magneticFields hcartesian hslots
  | rho | tt | ss | pp => exact absurd rfl hvectors.ne_nil

/-- A field whose vectors are there does not fail. -/
theorem outcome_ne_failed (h : PartSnapshot P d m views s s')
    (hcartesian : m.params.coordinates = .cartesian) (hfield : field.kind = .vectorCalculus)
    (hvectors : field.HasVectors m.index views) (e : DerivationFault) :
    (Derivation.derive CentralDifference.scheme s field).2 ≠ .failed e := by
  obtain ⟨arrays, hcompute⟩ := h.exists_compute hcartesian hvectors
  have hattempt := h.together_attempt hfield
  have hone : attempt CentralDifference.scheme s field = .ok arrays := by
    rw [attempt, h.untrimmed_one]
    simp only [Bool.false_eq_true, and_false, if_false]
    exact hcompute
  rw [hone] at hattempt
  obtain ⟨arrays', -, harrays⟩ := hattempt.exists_right
  obtain ⟨u, -, hu, -, -⟩ := h.exists_store harrays
  unfold Derivation.derive
  rw [hone]
  split
  · exact Outcome.noConfusion
  · cases arrays with
    | nil => exact Outcome.noConfusion
    | cons first rest =>
      simp only [hu]
      exact Outcome.noConfusion

theorem not_hasVectors_of_failed {fields : List DerivedQuantity} {log : DerivationLog}
    (h : PartSnapshot P d m views s s') (hcartesian : m.params.coordinates = .cartesian)
    (hfields : ∀ field ∈ fields, field.kind = .vectorCalculus)
    (hlog : ∀ q e, (q, Outcome.failed e) ∈ log → ¬ q.HasVectors m.index views)
    {q : DerivedQuantity} {e : DerivationFault}
    (hfailed : (q, .failed e) ∈
      (Derivation.deriveAll CentralDifference.scheme fields s log).2) :
    ¬ q.HasVectors m.index views := by
  induction fields generalizing s s' log with
  | nil => exact hlog q e hfailed
  | cons field fields ih =>
    have hfield := hfields field List.mem_cons_self
    have hrest : ∀ field ∈ fields, field.kind = .vectorCalculus :=
      fun field hmem => hfields field (List.mem_cons_of_mem _ hmem)
    rw [Derivation.deriveAll] at hfailed
    split at hfailed
    · exact ih h hrest hlog hfailed
    · refine ih (h.derive hfield).1 hrest (fun q e hmem => ?_) hfailed
      rcases List.mem_append.mp hmem with hmem | hmem
      · exact hlog q e hmem
      · intro hvectors
        obtain ⟨rfl, houtcome⟩ := Prod.mk.inj (List.mem_singleton.mp hmem)
        exact h.outcome_ne_failed hcartesian hfield hvectors e houtcome.symm

theorem mem_log_deriveAll {op : CurlScheme ω α} {fields : List DerivedQuantity}
    {log : DerivationLog} {q : DerivedQuantity} (hq : q ∈ fields ∨ q ∈ log.map Prod.fst) :
    q ∈ (Derivation.deriveAll op fields s log).2.map Prod.fst := by
  induction fields generalizing s log with
  | nil =>
    rcases hq with hq | hq
    · cases hq
    · exact hq
  | cons field fields ih =>
    rw [Derivation.deriveAll]
    rw [List.mem_cons] at hq
    split
    · rename_i hmem
      apply ih
      rcases hq with (rfl | hq) | hq
      · exact .inr hmem
      · exact .inl hq
      · exact .inr hq
    · apply ih
      rw [List.map_append, List.mem_append]
      rcases hq with (rfl | hq) | hq
      · exact .inr (.inr List.mem_cons_self)
      · exact .inl hq
      · exact .inr (.inl hq)

/-- A requested field whose vectors are there has an outcome, which is no failure. -/
theorem exists_outcome {fields : List DerivedQuantity} (h : PartSnapshot P d m views s s')
    (hcartesian : m.params.coordinates = .cartesian)
    (hfields : ∀ field ∈ fields, field.kind = .vectorCalculus) {q : DerivedQuantity}
    (hq : q ∈ fields) (hvectors : q.HasVectors m.index views) :
    ∃ outcome, (q, outcome) ∈ (s.derive CentralDifference.scheme fields).2 ∧
      ∀ e, outcome ≠ .failed e := by
  have hlog : q ∈ (s.derive CentralDifference.scheme fields).2.map Prod.fst :=
    mem_log_deriveAll (.inl hq)
  obtain ⟨⟨q', outcome⟩, hmem, rfl⟩ := List.mem_map.mp hlog
  refine ⟨outcome, hmem, fun e hfailed => ?_⟩
  subst hfailed
  have hempty : ∀ q e, (q, Outcome.failed e) ∈ ([] : DerivationLog) →
      ¬ q.HasVectors m.index views := fun _ _ hmem => absurd hmem List.not_mem_nil
  exact h.not_hasVectors_of_failed hcartesian hfields hempty hmem hvectors

end Requests

section Trim

variable {ω α : Type} [FieldOps ω] [Zero α] [Narrowing ω α] {P : ProcessorGrid} {d : Dimensions}
  {m : RunMetadata ω} {views : Table String Span} {s s' : Snapshot ω α}

omit [Zero α] in
/-- The bounds of a snapshot that has its margins lie inside. -/
theorem trimFault_eq_none (hshape : s.cellShape = (StencilGrid.ofSnapshot s).cellShape)
    (hbounds : ∀ a, s.bounds.get a = (StencilGrid.ofSnapshot s).interior a)
    (huntrimmed : s.trimmed = false) : s.trimFault = none := by
  have hstop (a : Axis) : (s.bounds.get a).stop ≤ (s.coords.get a).length := by
    have hextent : (StencilGrid.ofSnapshot s).extents.get a = (s.coords.get a).length :=
      PerAxis.get_map ..
    rw [hbounds, StencilGrid.interior, hextent]
    simp only [Span.inner]
    omega
  have hextents : ∀ e ∈ s.trimExtents, e.2 = (s.coords.get e.1).length := by
    intro e he
    have hcells : s.cellShape = s.layout.axes.map fun a => (s.coords.get a).length := by
      rw [hshape]
      exact List.map_congr_left fun a _ => PerAxis.get_map ..
    rw [Snapshot.trimExtents, hcells, ← List.map_prod_left_eq_zip] at he
    rcases List.mem_append.mp he with he | he
    · obtain ⟨a, -, rfl⟩ := List.mem_map.mp he
      rfl
    · obtain ⟨a, -, rfl⟩ := List.mem_map.mp he
      rfl
  rw [Snapshot.trimFault, huntrimmed, if_neg Bool.false_ne_true, List.findSome?_eq_none_iff]
  intro e he
  rw [Snapshot.boundFault_eq_none_iff, hextents e he]
  exact hstop e.1

/-- Both can be trimmed, and then each derived array of the part is a box of that of the whole. -/
theorem exists_trim (h : PartSnapshot P d m views s s') :
    ∃ t t', s.trim = .ok t ∧ s'.trim = .ok t' ∧
      t.derived = t'.derived.mapValues fun x =>
        x.sliceLast (s.layout.axes.map (P.interiorSpan d.position)) := by
  have hone := trimFault_eq_none h.shape_one h.bounds_one h.untrimmed_one
  have hall := trimFault_eq_none h.shape_all h.bounds_all h.untrimmed_all
  unfold Snapshot.trim
  rw [hone, hall]
  refine ⟨_, _, rfl, rfl, ?_⟩
  have hspans : s.layout.axes.map s.bounds.get =
      s.layout.axes.map (StencilGrid.ofSnapshot s).interior :=
    List.map_congr_left fun a _ => h.bounds_one a
  have hspans' : s'.layout.axes.map s'.bounds.get =
      s.layout.axes.map (StencilGrid.ofSnapshot s').interior := by
    have hlayout : s.layout = s'.layout := h.grids.layout_eq
    rw [hlayout]
    exact List.map_congr_left fun a _ => h.bounds_all a
  simp only [Table.mapValues_mapValues]
  refine h.derived_eq.mapValues_eq fun t t' ht => ?_
  rw [hspans, hspans']
  exact h.grids.sliceLast_interior ht

end Trim

end PartSnapshot

end GridSnapshot
