import GridSnapshot.Proofs.InteriorBox
import GridSnapshot.Proofs.Tables
import Mathlib.Data.List.Forall2

namespace GridSnapshot

namespace Cell

/-- The places of an index inside spans, counted from the start of the axes. -/
def place (spans : List Span) (idx : List Nat) : List Nat :=
  List.zipWith (fun s i => s.start + i) spans idx

/-- The spans end before the extents do. -/
abbrev Within (spans : List Span) (extents : List Nat) : Prop :=
  List.Forall₂ (fun s n => s.stop ≤ n) spans extents

theorem inside_append {shape shape' idx idx' : List Nat} (h : Inside shape idx)
    (h' : Inside shape' idx') : Inside (shape ++ shape') (idx ++ idx') := by
  induction shape generalizing idx with
  | nil =>
    cases idx with
    | nil => exact h'
    | cons i idx => exact h.elim
  | cons n shape ih =>
    cases idx with
    | nil => exact h.elim
    | cons i idx => exact ⟨h.1, ih h.2⟩

theorem inside_place {spans : List Span} {extents idx : List Nat} (h : Within spans extents)
    (hidx : Inside (spans.map Span.length) idx) : Inside extents (place spans idx) := by
  induction h generalizing idx with
  | nil =>
    cases idx with
    | nil => trivial
    | cons i idx => exact hidx.elim
  | @cons s n spans extents hstop _ ih =>
    cases idx with
    | nil => exact hidx.elim
    | cons i idx =>
      refine ⟨?_, ih hidx.2⟩
      have hi : i < s.stop - s.start := hidx.1
      show s.start + i < n
      omega

end Cell

namespace Tensor

variable {α : Type} [Zero α] {t : Tensor α} {spans : List Span} {lead extents : List Nat}

/-- A tensor holds the cells of another one inside spans of its last axes. The axes in front of them
are whole. -/
structure IsCut (t' t : Tensor α) (spans : List Span) (lead : List Nat) : Prop where
  shape_eq : t'.shape = lead ++ spans.map Span.length
  get?_eq : ∀ i j, Cell.Inside lead i → Cell.Inside (spans.map Span.length) j →
    ∃ x, t.get? (i ++ Cell.place spans j) = some x ∧ t'.get? (i ++ j) = some x

theorem isCut_sliceLast (hshape : t.shape = lead ++ extents) (h : Cell.Within spans extents) :
    (t.sliceLast spans).IsCut t spans lead := by
  have hlead : t.shape.take (t.shape.length - spans.length) = lead := by
    rw [hshape, List.length_append, h.length_eq, Nat.add_sub_cancel, List.take_left]
  have hslice : t.sliceLast spans = t.slice (wholeSpans lead ++ spans) := by
    rw [sliceLast, hlead]
  have hlengths : (wholeSpans lead ++ spans).map Span.length = lead ++ spans.map Span.length := by
    rw [List.map_append, map_length_wholeSpans]
  constructor
  · rw [hslice, slice, shape_ofFn, hlengths]
  · intro i j hi hj
    have hold : Cell.Inside t.shape (i ++ Cell.place spans j) := by
      rw [hshape]
      exact Cell.inside_append hi (Cell.inside_place h hj)
    have hwhole : (wholeSpans lead).length = i.length := by
      rw [wholeSpans, List.length_map, Cell.length_of_inside hi]
    refine ⟨t.cell (i ++ Cell.place spans j), get?_eq_some hold, ?_⟩
    rw [hslice, slice, hlengths, get?_ofFn, if_pos (Cell.inside_append hi hj),
      List.zipWith_append hwhole, zipWith_wholeSpans hi]
    rfl

end Tensor

namespace Snapshot

variable {ω α : Type} {s s' : Snapshot ω α}

/-- The spans of the stored axes that trimming leaves. -/
def trimSpans (s : Snapshot ω α) : List Span := s.layout.axes.map s.bounds.get

/-- Some bound lies outside the tensor along its axis, or outside the coordinates. -/
def BoundExceeds (s : Snapshot ω α) : Prop :=
  (∃ k a n, s.layout.axes[k]? = some a ∧ s.f.shape[k + 1]? = some n ∧ n < (s.bounds.get a).stop) ∨
    ∃ a, (s.coords.get a).length < (s.bounds.get a).stop

theorem exists_mem_trimExtents_iff :
    (∃ e ∈ s.trimExtents, e.2 < (s.bounds.get e.1).stop) ↔ s.BoundExceeds := by
  have hall (a : Axis) : a ∈ Axis.all := by cases a <;> decide
  have hzip (a : Axis) (n : Nat) : (a, n) ∈ List.zip s.layout.axes s.cellShape ↔
      ∃ k, s.layout.axes[k]? = some a ∧ s.f.shape[k + 1]? = some n := by
    simp only [List.mem_iff_getElem?, List.getElem?_zip_eq_some, cellShape, List.getElem?_tail]
  constructor
  · rintro ⟨⟨a, n⟩, he, hlt⟩
    rcases List.mem_append.mp he with he | he
    · obtain ⟨k, ha, hn⟩ := (hzip a n).mp he
      exact .inl ⟨k, a, n, ha, hn, hlt⟩
    · obtain ⟨b, -, hb⟩ := List.mem_map.mp he
      cases hb
      exact .inr ⟨a, hlt⟩
  · rintro (⟨k, a, n, ha, hn, hlt⟩ | ⟨a, hlt⟩)
    · exact ⟨(a, n), List.mem_append_left _ ((hzip a n).mpr ⟨k, ha, hn⟩), hlt⟩
    · exact ⟨_, List.mem_append_right _ (List.mem_map.mpr ⟨a, hall a, rfl⟩), hlt⟩

theorem trimFault_eq_none_iff : s.trimFault = none ↔ s.trimmed = false ∧ ¬ s.BoundExceeds := by
  rw [← exists_mem_trimExtents_iff, trimFault]
  cases s.trimmed with
  | true => simp
  | false => simp [boundFault_eq_none_iff]

/-- The bounds lie inside the cells, if they do along each stored axis. -/
theorem within_trimSpans (hrank : s.f.shape.length = s.layout.axes.length + 1)
    (h : ¬ s.BoundExceeds) : Cell.Within s.trimSpans s.cellShape := by
  refine List.forall₂_map_left_iff.mpr (List.forall₂_iff_zip.mpr ⟨?_, fun {a n} hmem => ?_⟩)
  · rw [cellShape, List.length_tail, hrank, Nat.add_sub_cancel]
  · refine Nat.le_of_not_lt fun hlt => h (exists_mem_trimExtents_iff.mp ⟨(a, n), ?_, hlt⟩)
    exact List.mem_append_left _ hmem

theorem in_trimSpans (hrank : s.f.shape.length = s.layout.axes.length + 1)
    (hbounds : ∀ a, (s.bounds.get a).start ≤ (s.bounds.get a).stop) (h : ¬ s.BoundExceeds) :
    List.Forall₂ Span.In s.trimSpans s.cellShape := by
  refine (List.forall₂_and_left _ _).mpr ⟨fun span hspan => ?_, within_trimSpans hrank h⟩
  obtain ⟨a, -, rfl⟩ := List.mem_map.mp hspan
  exact hbounds a

variable [Zero α]

theorem trim_eq_ok_iff : s.trim = .ok s' ↔ (s.trimmed = false ∧ ¬ s.BoundExceeds) ∧
    s' = { s with
      f := s.f.sliceLast s.trimSpans
      derived := s.derived.mapValues fun t => t.sliceLast s.trimSpans
      coords := .ofFn fun a => (s.bounds.get a).slice (s.coords.get a)
      trimmed := true } := by
  rw [← trimFault_eq_none_iff, trim]
  cases s.trimFault with
  | some e => simp
  | none =>
    simp only [Except.ok.injEq, true_and]
    exact eq_comm

theorem exists_trim_eq_error_iff :
    (∃ e, s.trim = .error e) ↔ s.trimmed = true ∨ s.BoundExceeds := by
  simp only [Outcome.exists_error_iff, trim_eq_ok_iff, exists_and_left, exists_eq, and_true]
  rw [not_and_not_right]
  cases s.trimmed <;> simp

/-- What trimming leaves of a snapshot. -/
structure IsTrimOf (s' s : Snapshot ω α) : Prop where
  rest_eq : s' = { s with
    f := s'.f, derived := s'.derived, coords := s'.coords, trimmed := true }
  isCut_f : s'.f.IsCut s.f s.trimSpans (s.f.shape.take 1)
  keys_derived : s'.derived.keys = s.derived.keys
  isCut_derived : ∀ name t, s.derived.get? name = some t → ∃ t' lead,
    t.shape = lead ++ s.cellShape ∧ s'.derived.get? name = some t' ∧
      t'.IsCut t s.trimSpans lead
  length_coords : ∀ a,
    (s.bounds.get a).start + (s'.coords.get a).length = (s.bounds.get a).stop
  getElem?_coords : ∀ a, ∀ k < (s'.coords.get a).length,
    (s'.coords.get a)[k]? = (s.coords.get a)[(s.bounds.get a).start + k]?

theorem isTrimOf_of_trim (hrank : s.f.shape.length = s.layout.axes.length + 1)
    (hbounds : ∀ a, (s.bounds.get a).start ≤ (s.bounds.get a).stop)
    (hderived : ∀ name t, s.derived.get? name = some t → s.cellShape <:+ t.shape)
    (h : s.trim = .ok s') : s'.IsTrimOf s := by
  obtain ⟨⟨-, hinside⟩, rfl⟩ := trim_eq_ok_iff.mp h
  have hwithin := within_trimSpans hrank hinside
  have hstop (a : Axis) : (s.bounds.get a).stop ≤ (s.coords.get a).length :=
    Nat.le_of_not_lt fun hlt => hinside (.inr ⟨a, hlt⟩)
  have hshape : s.f.shape = s.f.shape.take 1 ++ s.cellShape := by
    rw [cellShape, ← List.drop_one, List.take_append_drop]
  refine ⟨rfl, Tensor.isCut_sliceLast hshape hwithin, Table.keys_mapValues _ _, ?_, ?_, ?_⟩
  · intro name t ht
    obtain ⟨lead, hlead⟩ := hderived name t ht
    refine ⟨t.sliceLast s.trimSpans, lead, hlead.symm, ?_,
      Tensor.isCut_sliceLast hlead.symm hwithin⟩
    exact (Table.get?_mapValues ..).trans (congrArg _ ht)
  · intro a
    have hle := hstop a
    have hcross := hbounds a
    simp only [PerAxis.get_ofFn, Span.slice, Span.length, List.length_take, List.length_drop]
    omega
  · intro a k hk
    rw [PerAxis.get_ofFn, Span.slice, List.length_take] at hk
    rw [PerAxis.get_ofFn, Span.slice, List.getElem?_take_of_lt (Nat.lt_min.mp hk).1,
      List.getElem?_drop]

end Snapshot

end GridSnapshot
