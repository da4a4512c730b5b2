import GridSnapshot.Derivation
import GridSnapshot.Proofs.NumberedGroups
import GridSnapshot.Proofs.Trimming

namespace GridSnapshot

/-- What a snapshot can be made of: a tensor with one axis more than are stored, and bounds that do
not cross. -/
structure SnapshotContent.WellFormed {ω α : Type} (c : SnapshotContent ω α) : Prop where
  rank_eq : c.f.shape.length = c.layout.axes.length + 1
  bounds_le : ∀ a, (c.bounds.get a).start ≤ (c.bounds.get a).stop

namespace SlotIndex

variable {index : SlotIndex} {g : VectorSlots}

theorem HasRoom.start_lt_stop (h : index.HasRoom)
    (hg : g ∈ index.fixedGroups ++ stems.flatMap index.numberedGroups) :
    g.slots.start < g.slots.stop := by
  have hstop : g.slots.stop = g.slots.start + 3 := by
    rcases List.mem_append.mp hg with hg | hg
    · exact h.stop_eq_of_mem_fixedGroups hg
    · obtain ⟨stem, hstem, hg⟩ := List.mem_flatMap.mp hg
      exact (h.numbered stem hstem).stop_eq hg
  omega

end SlotIndex

namespace Snapshot

variable {ω α : Type} {s s' : Snapshot ω α} {name : String} {slots : Span} {t : Tensor α}

/-- The span is not empty and lies inside the first axis of the tensor. -/
def HasSlots (s : Snapshot ω α) (slots : Span) : Prop :=
  slots.start < slots.stop ∧ slots.stop ≤ s.f.shape.headD 0

instance (s : Snapshot ω α) (slots : Span) : Decidable (s.HasSlots slots) :=
  inferInstanceAs (Decidable (_ ∧ _))

/-- What holds of a snapshot at any time. -/
structure Sound (s : Snapshot ω α) : Prop where
  rank_eq : s.f.shape.length = s.layout.axes.length + 1
  bounds_le : ∀ a, (s.bounds.get a).start ≤ (s.bounds.get a).stop
  suffix : ∀ name t, s.derived.get? name = some t → s.cellShape <:+ t.shape
  hasSlots : s.metadata.index.HasRoom → ∀ name slots, s.views.get? name = some slots →
    s.HasSlots slots

theorem shape_eq_cons (hrank : s.f.shape.length = s.layout.axes.length + 1) :
    s.f.shape = s.f.shape.headD 0 :: s.cellShape := by
  rw [cellShape]
  cases hshape : s.f.shape with
  | nil =>
    rw [hshape] at hrank
    exact absurd hrank (Nat.succ_ne_zero _).symm
  | cons n shape => rfl

theorem addDerived_eq_ok_iff : s.addDerived name t = .ok s' ↔ s.cellShape <:+ t.shape ∧
    s' = { s with derived := s.derived.insert name t, failures := s.failures.erase name } := by
  rw [addDerived, ← List.isSuffixOf_iff_suffix]
  split
  · rename_i hsuffix
    simp only [Except.ok.injEq, hsuffix, true_and]
    exact eq_comm
  · rename_i hsuffix
    simp only [reduceCtorEq, hsuffix, false_and]

theorem exists_addDerived_eq_error_iff :
    (∃ e, s.addDerived name t = .error e) ↔ ¬ s.cellShape <:+ t.shape := by
  simp only [Outcome.exists_error_iff, addDerived_eq_ok_iff, exists_and_left, exists_eq, and_true]

theorem sound_ofContent {c : SnapshotContent ω α} (h : c.WellFormed) : (ofContent c).Sound where
  rank_eq := h.rank_eq
  bounds_le := h.bounds_le
  suffix _ _ ht := nomatch ht
  hasSlots hroom name slots hslots := by
    rcases exists_of_get?_views c hslots with ⟨g, hg, hstop, -, rfl⟩ | ⟨e, he, hstop, -, rfl⟩
    · exact ⟨hroom.start_lt_stop hg, hstop⟩
    · exact ⟨Nat.sub_lt (SlotIndex.mem_scalars_iff.mp he).2.1 Nat.one_pos, hstop⟩

namespace Sound

theorem addDerived (h : s.Sound) (hs' : s.addDerived name t = .ok s') : s'.Sound := by
  obtain ⟨hsuffix, rfl⟩ := addDerived_eq_ok_iff.mp hs'
  refine ⟨h.rank_eq, h.bounds_le, fun name' t' ht' => ?_, h.hasSlots⟩
  rw [Table.get?_insert] at ht'
  split at ht'
  · cases ht'
    exact hsuffix
  · exact h.suffix name' t' ht'

theorem noteFailure (h : s.Sound) (name : String) (e : DerivationFault) :
    (s.noteFailure name e).Sound :=
  ⟨h.rank_eq, h.bounds_le, h.suffix, h.hasSlots⟩

theorem mapField (h : s.Sound) {g : Nat → α → α} (hs' : s.mapField? name g = some s') :
    s'.Sound := by
  obtain ⟨slots, -, rfl⟩ := Option.map_eq_some_iff.mp hs'
  exact ⟨h.rank_eq, h.bounds_le, h.suffix, h.hasSlots⟩

theorem trim [Zero α] (h : s.Sound) (hs' : s.trim = .ok s') : s'.Sound := by
  have htrim := isTrimOf_of_trim h.rank_eq h.bounds_le h.suffix hs'
  have hlayout : s'.layout = s.layout := by rw [htrim.rest_eq]
  have hbounds : s'.bounds = s.bounds := by rw [htrim.rest_eq]
  have hviews : s'.views = s.views := by rw [htrim.rest_eq]
  have hmetadata : s'.metadata = s.metadata := by rw [htrim.rest_eq]
  have hfirst : s.f.shape.take 1 = [s.f.shape.headD 0] :=
    congrArg (List.take 1) (shape_eq_cons h.rank_eq)
  have hshape : s'.f.shape = s.f.shape.headD 0 :: s.trimSpans.map Span.length := by
    rw [htrim.isCut_f.shape_eq, hfirst]
    rfl
  refine ⟨?_, fun a => ?_, fun name t' ht' => ?_, fun hroom name slots hslots => ?_⟩
  · rw [hshape, hlayout, List.length_cons, List.length_map, trimSpans, List.length_map]
  · rw [hbounds]
    exact h.bounds_le a
  · obtain ⟨t, ht⟩ : ∃ t, s.derived.get? name = some t := by
      rw [← Table.mem_keys_iff, ← htrim.keys_derived, Table.mem_keys_iff]
      exact ⟨t', ht'⟩
    obtain ⟨t'', lead, -, ht'', hcut⟩ := htrim.isCut_derived name t ht
    cases ht'.symm.trans ht''
    rw [cellShape, hshape, hcut.shape_eq]
    exact List.suffix_append _ _
  · rw [hviews] at hslots
    rw [hmetadata] at hroom
    have hold := h.hasSlots hroom name slots hslots
    rw [HasSlots, hshape]
    exact hold

end Sound

end Snapshot

namespace Derivation

variable {ω α : Type} [RealOps ω] [RealOps α] [Narrowing ω α] {P : Snapshot ω α → Prop}

omit [RealOps ω] [RealOps α] [Narrowing ω α] in
theorem store_preserves
    (hadd : ∀ s name t s', P s → s.addDerived name t = .ok s' → P s') {s : Snapshot ω α}
    (h : P s) (arrays : List (String × Tensor α)) : P (store s arrays).1 := by
  induction arrays generalizing s with
  | nil => exact h
  | cons array arrays ih =>
    rw [store]
    split
    · rename_i s' hs'
      exact ih (hadd _ _ _ _ h hs')
    · exact h

theorem derive_preserves (op : CurlScheme ω α)
    (hadd : ∀ s name t s', P s → s.addDerived name t = .ok s' → P s')
    (hnote : ∀ s name e, P s → P (s.noteFailure name e)) {s : Snapshot ω α} (h : P s)
    (field : DerivedQuantity) : P (derive op s field).1 := by
  rw [derive]
  split
  · exact h
  · split
    · exact hnote _ _ _ h
    · exact h
    · rename_i arrays _ _
      have hstore := store_preserves hadd h arrays
      split
      · rename_i s' hs'
        rw [hs'] at hstore
        exact hstore
      · rename_i s' e hs'
        rw [hs'] at hstore
        exact hnote _ _ _ hstore

theorem deriveAll_preserves (op : CurlScheme ω α)
    (hadd : ∀ s name t s', P s → s.addDerived name t = .ok s' → P s')
    (hnote : ∀ s name e, P s → P (s.noteFailure name e)) {s : Snapshot ω α} (h : P s)
    (fields : List DerivedQuantity) (log : DerivationLog) : P (deriveAll op fields s log).1 := by
  induction fields generalizing s log with
  | nil => exact h
  | cons field fields ih =>
    rw [deriveAll]
    split
    · exact ih h log
    · exact ih (derive_preserves op hadd hnote h field) _

end Derivation

namespace Snapshot

variable {ω α : Type} {s s' : Snapshot ω α} {name : String} {slots : Span}

section Views

variable [Zero α]

/-- The shape of a field: the variable axis is left out for a single slot. -/
def viewShape (s : Snapshot ω α) (slots : Span) : List Nat :=
  if isScalar slots then s.cellShape else slots.length :: s.cellShape

/-- The index of a cell in a field, from its slot in the field and its place. -/
def viewIndex (slots : Span) (c : Nat) (idx : List Nat) : List Nat :=
  if isScalar slots then idx else c :: idx

/-- The cells of a view are those of its slots. -/
theorem view_spec (h : s.Sound) (hslots : s.HasSlots slots) :
    (s.view slots).shape = s.viewShape slots ∧
    ∀ c < slots.length, ∀ idx, Cell.Inside s.cellShape idx →
      ∃ x, s.f.get? ((slots.start + c) :: idx) = some x ∧
        (s.view slots).get? (viewIndex slots c idx) = some x := by
  obtain ⟨hlt, hle⟩ := hslots
  have hshape := shape_eq_cons h.rank_eq
  have hinside {c : Nat} {idx : List Nat} (hc : c < slots.length)
      (hidx : Cell.Inside s.cellShape idx) :
      Cell.Inside s.f.shape ((slots.start + c) :: idx) := by
    rw [hshape]
    have hlength : slots.length = slots.stop - slots.start := rfl
    exact ⟨by omega, hidx⟩
  unfold view viewShape viewIndex
  by_cases hscalar : isScalar slots = true
  · simp only [hscalar, if_true]
    refine ⟨rfl, fun c hc idx hidx => ?_⟩
    have hone : slots.length = 1 := of_decide_eq_true hscalar
    obtain rfl : c = 0 := by omega
    refine ⟨_, Tensor.get?_eq_some (hinside hc hidx), ?_⟩
    rw [Tensor.row, Tensor.get?_ofFn]
    exact if_pos hidx
  · simp only [hscalar, onAxis_of_le (Nat.le_of_lt hlt)]
    have hfirst := Tensor.shape_sliceFirst s.f slots
    refine ⟨hfirst, fun c hc idx hidx => ?_⟩
    refine ⟨_, Tensor.get?_eq_some (hinside hc hidx), ?_⟩
    have hview : Cell.Inside (s.f.sliceFirst slots).shape (c :: idx) := by
      rw [hfirst]
      exact ⟨hc, hidx⟩
    exact (Tensor.get?_eq_some hview).trans (congrArg some (Tensor.cell_sliceFirst hc hidx))

/-- A field that has a view is found. -/
theorem field?_eq_some (h : s.views.get? name = some slots) :
    s.field? name = some (s.view slots) := by
  rw [field?, h, Option.map_some]

theorem lookup?_eq_some (h : s.views.get? name = some slots) :
    s.lookup? name = some (s.view slots) := by
  rw [lookup?, field?_eq_some h]

end Views

/-- A write changes the cells of its field and nothing else. -/
theorem mapField?_spec (h : s.Sound) (hview : s.views.get? name = some slots)
    (hslots : s.HasSlots slots) (g : Nat → α → α) :
    ∃ s', s.mapField? name g = some s' ∧ s' = { s with f := s'.f } ∧ s'.f.shape = s.f.shape ∧
      ∀ i idx x, s.f.get? (i :: idx) = some x → s'.f.get? (i :: idx) =
        some (if slots.Contains i then
          g ((i - slots.start) * volume s.cellShape + Cell.offset s.cellShape idx) x else x) := by
  refine ⟨_, Option.map_eq_some_iff.mpr ⟨slots, hview, rfl⟩, rfl, rfl, fun i idx x hx => ?_⟩
  have hin := Tensor.inside_of_get? hx
  have hshape := shape_eq_cons h.rank_eq
  have hoffset : Cell.offset s.f.shape (i :: idx) =
      i * volume s.cellShape + Cell.offset s.cellShape idx := by
    rw [hshape, Cell.offset]
  rw [hshape] at hin
  have hplace := Cell.place_mem_iff (i := i) (Cell.offset_lt hin.2) slots
  simp only [Tensor.get?_mapPlaces, hx, Option.map_some, hoffset,
    onAxis_of_le (Nat.le_of_lt hslots.1), hplace]
  split
  · rename_i hcontains
    have hle : slots.start * volume s.cellShape ≤ i * volume s.cellShape :=
      Nat.mul_le_mul_right _ hcontains.1
    rw [Nat.sub_mul, Nat.sub_add_comm hle]
  · rfl

end Snapshot

end GridSnapshot
