import GridSnapshot.Proofs.ThermodynamicRequest
import GridSnapshot.Proofs.Trimming

namespace GridSnapshot

namespace Cell

/-- An index of a box with more axes is one of the leading axes followed by one of the last. -/
theorem exists_append_of_inside {shape shape' idx : List Nat} (h : Inside (shape ++ shape') idx) :
    ∃ i j, idx = i ++ j ∧ Inside shape i ∧ Inside shape' j := by
  induction shape generalizing idx with
  | nil => exact ⟨[], idx, rfl, trivial, h⟩
  | cons n shape ih =>
    cases idx with
    | nil => exact h.elim
    | cons k idx =>
      obtain ⟨i, j, rfl, hi, hj⟩ := ih h.2
      exact ⟨k :: i, j, rfl, ⟨h.1, hi⟩, hj⟩

end Cell

namespace Tensor

variable {α : Type} [Zero α] {t u : Tensor α} {spans : List Span} {n : Nat}
  {lead extents : List Nat}

theorem shape_cut (hshape : t.shape = lead ++ extents) (h : Cell.Within spans extents) :
    (t.sliceLast spans).shape = lead ++ spans.map Span.length :=
  (isCut_sliceLast hshape h).shape_eq

theorem shape_cut_cons (hshape : t.shape = n :: (lead ++ extents))
    (h : Cell.Within spans extents) :
    (t.sliceLast spans).shape = n :: (lead ++ spans.map Span.length) := by
  have hwhole : t.shape = (n :: lead) ++ extents := hshape
  exact shape_cut hwhole h

theorem get?_cut (hshape : t.shape = lead ++ extents) (h : Cell.Within spans extents)
    {i j : List Nat} (hi : Cell.Inside lead i) (hj : Cell.Inside (spans.map Span.length) j) :
    (t.sliceLast spans).get? (i ++ j) = t.get? (i ++ Cell.place spans j) := by
  obtain ⟨x, hx, hx'⟩ := (isCut_sliceLast hshape h).get?_eq i j hi hj
  rw [hx, hx']

/-- What has the shape and the cells of a cut is the cut. -/
theorem eq_cut (hshape : t.shape = lead ++ extents) (h : Cell.Within spans extents)
    (hu : u.shape = lead ++ spans.map Span.length)
    (hget : ∀ i j, Cell.Inside lead i → Cell.Inside (spans.map Span.length) j →
      u.get? (i ++ j) = t.get? (i ++ Cell.place spans j)) : u = t.sliceLast spans := by
  refine ext_get? (hu.trans (shape_cut hshape h).symm) fun idx hidx => ?_
  rw [hu] at hidx
  obtain ⟨i, j, rfl, hi, hj⟩ := Cell.exists_append_of_inside hidx
  rw [hget i j hi hj, get?_cut hshape h hi hj]

/-- Cells of the cut and of the whole array, both zero where there is none. -/
theorem cell_cut {c : Nat} (hshape : t.shape = n :: (lead ++ extents))
    (h : Cell.Within spans extents) {i j : List Nat} (hi : Cell.Inside lead i)
    (hj : Cell.Inside (spans.map Span.length) j) :
    (t.sliceLast spans).cell (c :: (i ++ j)) = t.cell (c :: (i ++ Cell.place spans j)) := by
  by_cases hc : c < n
  · have hwhole : t.shape = (n :: lead) ++ extents := hshape
    have hin : Cell.Inside (n :: lead) (c :: i) := ⟨hc, hi⟩
    exact congrArg (Option.getD · 0) (get?_cut hwhole h hin hj)
  · rw [cell_eq_zero_of_not_inside, cell_eq_zero_of_not_inside]
    · rw [hshape]
      exact fun hin => hc hin.1
    · rw [shape_cut_cons hshape h]
      exact fun hin => hc hin.1

theorem row_cut (hshape : t.shape = n :: (lead ++ extents))
    (h : Cell.Within spans extents) (c : Nat) :
    (t.sliceLast spans).row c = (t.row c).sliceLast spans := by
  have hcut := shape_cut_cons hshape h
  have htail : (t.row c).shape = lead ++ extents := congrArg List.tail hshape
  refine eq_cut htail h (congrArg List.tail hcut) fun i j hi hj => ?_
  have hwhole := Cell.inside_append hi (Cell.inside_place h hj)
  rw [row, row, get?_ofFn, get?_ofFn, hcut, hshape, List.tail_cons, List.tail_cons,
    if_pos (Cell.inside_append hi hj), if_pos hwhole, cell_cut hshape h hi hj]

theorem sliceFirst_cut (hshape : t.shape = n :: (lead ++ extents))
    (h : Cell.Within spans extents) (slots : Span) :
    (t.sliceLast spans).sliceFirst slots = (t.sliceFirst slots).sliceLast spans := by
  have hcut := shape_cut_cons hshape h
  have hfirst : (t.sliceFirst slots).shape = (slots.length :: lead) ++ extents := by
    rw [shape_sliceFirst, hshape]
    rfl
  have hslots : ((t.sliceLast spans).sliceFirst slots).shape =
      (slots.length :: lead) ++ spans.map Span.length := by
    rw [shape_sliceFirst, hcut]
    rfl
  refine eq_cut hfirst h hslots fun i j hi hj => ?_
  have hleft := Cell.inside_append hi hj
  have hright := Cell.inside_append hi (Cell.inside_place h hj)
  rw [← hslots] at hleft
  rw [← hfirst] at hright
  rw [get?_eq_some hleft, get?_eq_some hright]
  cases i with
  | nil => exact hi.elim
  | cons c i =>
    have htail : Cell.Inside (t.sliceLast spans).shape.tail (i ++ j) := by
      rw [hcut]
      exact Cell.inside_append hi.2 hj
    have htail' : Cell.Inside t.shape.tail (i ++ Cell.place spans j) := by
      rw [hshape]
      exact Cell.inside_append hi.2 (Cell.inside_place h hj)
    rw [List.cons_append, List.cons_append, cell_sliceFirst hi.1 htail, cell_sliceFirst hi.1 htail',
      cell_cut hshape h hi.2 hj]

theorem map_cut (hshape : t.shape = lead ++ extents) (h : Cell.Within spans extents)
    (f : α → α) : (t.sliceLast spans).map f = (t.map f).sliceLast spans := by
  have hmap : (t.map f).shape = lead ++ extents := hshape
  refine eq_cut hmap h (shape_cut hshape h) fun i j hi hj => ?_
  rw [get?_map, get?_map, get?_cut hshape h hi hj]

end Tensor

namespace Thermodynamics

variable {α : Type} [Zero α] {x y v : Tensor α} {spans : List Span} {extents : List Nat}
  {g : α → α → α}

theorem shape_eq_cut_iff (hx : extents <:+ x.shape) (hy : extents <:+ y.shape)
    (h : Cell.Within spans extents) :
    (x.sliceLast spans).shape = (y.sliceLast spans).shape ↔ x.shape = y.shape := by
  obtain ⟨lead, hx⟩ := hx
  obtain ⟨lead', hy⟩ := hy
  rw [Tensor.shape_cut hx.symm h, Tensor.shape_cut hy.symm h, ← hx, ← hy,
    List.append_cancel_right_eq, List.append_cancel_right_eq]

theorem combine_cut (hx : extents <:+ x.shape) (hy : extents <:+ y.shape)
    (h : Cell.Within spans extents) (hv : combine g x y = .ok v) :
    combine g (x.sliceLast spans) (y.sliceLast spans) = .ok (v.sliceLast spans) := by
  have hshape := shape_eq_of_combine hv
  obtain ⟨w, hw⟩ := exists_combine g ((shape_eq_cut_iff hx hy h).mpr hshape)
  rw [hw]
  obtain ⟨lead, hlead⟩ := hx
  have hlead' : y.shape = lead ++ extents := by rw [← hshape, hlead]
  have hvshape : v.shape = lead ++ extents := (shape_combine hv).trans hlead.symm
  congr 1
  refine Tensor.eq_cut hvshape h ((shape_combine hw).trans (Tensor.shape_cut hlead.symm h))
    fun i j hi hj => ?_
  rw [get?_combine hw, get?_combine hv, Tensor.get?_cut hlead.symm h hi hj,
    Tensor.get?_cut hlead' h hi hj]

end Thermodynamics

end GridSnapshot
