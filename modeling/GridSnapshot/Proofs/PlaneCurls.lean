import GridSnapshot.Proofs.CellDifferences

namespace GridSnapshot

namespace Tensor

variable {α : Type} [Zero α]

/-- The cells at one index of an axis. -/
def plane (t : Tensor α) (axis i : Nat) : Tensor α :=
  ofFn (t.shape.eraseIdx axis) fun idx => t.cell (idx.insertIdx axis i)

end Tensor

namespace StencilGrid

variable {ω : Type} {g : StencilGrid ω} {l : StoredAxes} {d a : Axis} {j : PerAxis Nat}

/-- The grid without an axis. -/
def reduce (g : StencilGrid ω) (l : StoredAxes) : StencilGrid ω := { g with layout := l }

/-- All axes are stored, and the one that the layout drops has one interior cell. -/
structure IsFlat (g : StencilGrid ω) (l : StoredAxes) (d : Axis) : Prop where
  layout_eq : g.layout = .full
  dropped_eq : l.dropped = some d
  extent_eq : g.extents.get d = 2 * g.ghosts.get d + 1

/-- Where the axis of a plane stands among the axes of a vector with all axes. -/
def vectorAxis (d : Axis) : Nat := StoredAxes.full.axes.idxOf d + 1

/-- The interior plane of a vector. -/
def interiorPlane {α : Type} [Zero α] (g : StencilGrid ω) (d : Axis) (v : Tensor α) : Tensor α :=
  v.plane (vectorAxis d) (g.ghosts.get d)

namespace IsFlat

theorem mem_full (h : g.IsFlat l d) (a : Axis) : a ∈ g.layout.axes := by
  rw [h.layout_eq, StoredAxes.mem_axes_iff]
  simp [StoredAxes.dropped]

theorem mem_reduced_iff (h : g.IsFlat l d) : a ∈ l.axes ↔ a ≠ d := by
  rw [StoredAxes.mem_axes_iff, h.dropped_eq]
  simp [eq_comm]

theorem length_interior (h : g.IsFlat l d) : (g.interior d).length = 1 := by
  have hextent := h.extent_eq
  rw [interior, Span.length_inner]
  omega

theorem not_isActive (h : g.IsFlat l d) : g.isActive d = false := by
  have hlength := h.length_interior
  unfold isActive
  simp [hlength]

theorem isActive_reduce (h : g.IsFlat l d) (a : Axis) : (g.reduce l).isActive a = g.isActive a := by
  by_cases had : a = d
  · subst had
    have hstored : a ∉ l.axes := fun hmem => h.mem_reduced_iff.mp hmem rfl
    rw [h.not_isActive]
    simp [isActive, reduce, hstored]
  · have hfull := h.mem_full a
    have hreduced : a ∈ l.axes := h.mem_reduced_iff.mpr had
    have hinterior : (g.reduce l).interior a = g.interior a := rfl
    unfold isActive
    rw [hinterior]
    simp [reduce, hfull, hreduced]

theorem hasPlace_reduce_iff (h : g.IsFlat l d) (hj : j.get d = g.ghosts.get d) :
    (g.reduce l).HasPlace j ↔ g.HasPlace j := by
  have hextent := h.extent_eq
  constructor
  · intro hplace a _
    by_cases had : a = d
    · subst had
      omega
    · exact hplace a (h.mem_reduced_iff.mpr had)
  · intro hplace a _
    exact hplace a (h.mem_full a)

theorem isInterior_reduce_iff (h : g.IsFlat l d) (hj : j.get d = g.ghosts.get d) :
    (g.reduce l).IsInterior j ↔ g.IsInterior j := by
  have hextent := h.extent_eq
  constructor
  · intro hin a _
    by_cases had : a = d
    · subst had
      rw [contains_interior_iff]
      omega
    · exact hin a (h.mem_reduced_iff.mpr had)
  · intro hin a _
    exact hin a (h.mem_full a)

/-- Each place of the plane is the place of a cell of the whole grid. -/
theorem exists_place (h : g.IsFlat l d) {idx : List Nat}
    (hidx : Cell.Inside (g.reduce l).cellShape idx) :
    ∃ j : PerAxis Nat, idx = l.axes.map j.get ∧ j.get d = g.ghosts.get d ∧
      (g.reduce l).HasPlace j := by
  have hlength := Cell.length_of_inside hidx
  rw [cellShape, List.length_map] at hlength
  obtain ⟨j, rfl⟩ := StoredAxes.exists_map_get hlength
  have hsame : ((g.reduce l).layout.axes.map (j.replace d (g.ghosts.get d)).get) =
      (g.reduce l).layout.axes.map j.get := by
    apply List.map_congr_left
    intro a ha
    exact PerAxis.get_replace_of_ne _ (h.mem_reduced_iff.mp ha) _
  refine ⟨j.replace d (g.ghosts.get d), hsame.symm, PerAxis.get_replace_self _ _ _, ?_⟩
  rw [← inside_cellShape_iff, hsame]
  exact hidx

end IsFlat

end StencilGrid

namespace StoredAxes

variable {l : StoredAxes} {d : Axis}

theorem eraseIdx_vectorAxis (h : l.dropped = some d) (c : Nat) (n : Axis → Nat) :
    (c :: full.axes.map n).eraseIdx (StencilGrid.vectorAxis d) = c :: l.axes.map n := by
  cases l <;> cases d <;> first | rfl | cases h

theorem insertIdx_vectorAxis (h : l.dropped = some d) (c : Nat) (j : PerAxis Nat) :
    (c :: l.axes.map j.get).insertIdx (StencilGrid.vectorAxis d) (j.get d) =
      c :: full.axes.map j.get := by
  cases l <;> cases d <;> first | rfl | cases h

end StoredAxes

namespace CentralDifference

section Planes

variable {ω α : Type} [RingOps α] [Narrowing ω α] {g : StencilGrid ω} {l : StoredAxes}
  {d a : Axis} {j : PerAxis Nat} {t v : Tensor α}

omit [Narrowing ω α] in
theorem shape_interiorPlane (h : g.IsFlat l d) (ht : t.shape = 3 :: g.cellShape) :
    (g.interiorPlane d t).shape = 3 :: (g.reduce l).cellShape := by
  rw [StencilGrid.interiorPlane, Tensor.plane, Tensor.shape_ofFn, ht, StencilGrid.cellShape,
    h.layout_eq]
  exact StoredAxes.eraseIdx_vectorAxis h.dropped_eq 3 _

omit [Narrowing ω α] in
/-- The plane has the components of the whole vector, zeros outside included. -/
theorem component_interiorPlane (h : g.IsFlat l d) (ht : t.shape = 3 :: g.cellShape)
    (hj : j.get d = g.ghosts.get d) (c : Axis) :
    (g.interiorPlane d t).component l c j = t.component .full c j := by
  unfold Tensor.component
  by_cases hplace : g.HasPlace j
  · have hin : Cell.Inside (g.interiorPlane d t).shape (c.component :: l.axes.map j.get) := by
      rw [shape_interiorPlane h ht]
      exact (StencilGrid.inside_vector_iff c).mpr ((h.hasPlace_reduce_iff hj).mpr hplace)
    refine (Tensor.cell_ofFn _ hin).trans ?_
    rw [← hj, StoredAxes.insertIdx_vectorAxis h.dropped_eq]
  · have hplane : ¬ Cell.Inside (g.interiorPlane d t).shape (c.component :: l.axes.map j.get) := by
      rw [shape_interiorPlane h ht]
      intro hin
      exact hplace ((h.hasPlace_reduce_iff hj).mp ((StencilGrid.inside_vector_iff c).mp hin))
    have hwhole : ¬ Cell.Inside t.shape (c.component :: StoredAxes.full.axes.map j.get) := by
      rw [ht, ← h.layout_eq]
      intro hin
      exact hplace ((StencilGrid.inside_vector_iff c).mp hin)
    rw [Tensor.cell_eq_zero_of_not_inside hplane, Tensor.cell_eq_zero_of_not_inside hwhole]

/-- Functions that have the same values on the interior plane. -/
def SameOnPlane (g : StencilGrid ω) (d : Axis) (f f' : PerAxis Nat → α) : Prop :=
  ∀ j : PerAxis Nat, j.get d = g.ghosts.get d → f' j = f j

namespace SameOnPlane

variable {f f' h h' : PerAxis Nat → α} {F F' : Axis → PerAxis Nat → α}

/-- A difference along an axis of the plane stays in the plane. -/
theorem differenceAt (hflat : g.IsFlat l d) (hf : SameOnPlane g d f f') (a : Axis)
    (sum : (Int → α) → α) (scale : ω → ω) :
    SameOnPlane g d (differenceAt g a sum scale f) (differenceAt (g.reduce l) a sum scale f') := by
  intro j hj
  have hinterior : (g.reduce l).interior a = g.interior a := rfl
  have hfactor : (factorAt (g.reduce l) a scale (j.get a) : α) = factorAt g a scale (j.get a) := rfl
  unfold CentralDifference.differenceAt
  rw [hflat.isActive_reduce, hinterior, hfactor]
  split
  · rename_i hactive
    have hne : d ≠ a := by
      intro hda
      subst hda
      rw [hflat.not_isActive] at hactive
      exact absurd hactive.1 Bool.false_ne_true
    have hvalues : (fun o => f' (j.neighbour a o)) = fun o => f (j.neighbour a o) := by
      funext o
      exact hf _ ((PerAxis.get_neighbour_of_ne hne _ _).trans hj)
    rw [hvalues]
  · rfl

variable [FieldOps ω]

theorem firstAt (hflat : g.IsFlat l d) (hf : SameOnPlane g d f f') (a : Axis) :
    SameOnPlane g d (firstAt g a f) (firstAt (g.reduce l) a f') := hf.differenceAt hflat a _ _

theorem secondAt (hflat : g.IsFlat l d) (hf : SameOnPlane g d f f') (a : Axis) :
    SameOnPlane g d (secondAt g a f) (secondAt (g.reduce l) a f') := hf.differenceAt hflat a _ _

theorem curlAt (hflat : g.IsFlat l d) (hF : ∀ c, SameOnPlane g d (F c) (F' c)) (c : Axis) :
    SameOnPlane g d (curlAt g F c) (curlAt (g.reduce l) F' c) := by
  intro j hj
  have hfirst (a b : Axis) := (hF b).firstAt hflat a j hj
  cases c <;> simp only [CentralDifference.curlAt, hfirst]

theorem crossAt (hflat : g.IsFlat l d) (hF : ∀ c, SameOnPlane g d (F c) (F' c)) (own c : Axis) :
    SameOnPlane g d (crossAt g F own c) (crossAt (g.reduce l) F' own c) := by
  unfold CentralDifference.crossAt
  split
  · exact ((hF c).firstAt hflat c).firstAt hflat own
  · exact ((hF c).firstAt hflat own).firstAt hflat c

theorem doubleCurlAt (hflat : g.IsFlat l d) (hF : ∀ c, SameOnPlane g d (F c) (F' c)) (c : Axis) :
    SameOnPlane g d (doubleCurlAt g F c) (doubleCurlAt (g.reduce l) F' c) := by
  intro j hj
  have hcross (own c : Axis) := crossAt hflat hF own c j hj
  have hsecond (a b : Axis) := (hF b).secondAt hflat a j hj
  cases c <;>
    simp only [CentralDifference.doubleCurlAt, doubleCurlPartAt, hcross, hsecond]

end SameOnPlane

omit [Narrowing ω α] in
/-- Vectors with the same components on the plane have the same interior plane. -/
theorem interiorPlane_eq {t' : Tensor α} {F F' : Axis → PerAxis Nat → α} (h : g.IsFlat l d)
    (ht : HasComponents g t F) (ht' : HasComponents (g.reduce l) t' F')
    (hF : ∀ c, SameOnPlane g d (F c) (F' c)) : g.interiorPlane d t = t' := by
  have hshape := shape_interiorPlane h ht.shape_eq
  refine Tensor.ext_get? (hshape.trans ht'.shape_eq.symm) fun idx hidx => ?_
  rw [Tensor.get?_eq_some hidx]
  rw [hshape] at hidx
  rw [Tensor.get?_eq_some (ht'.shape_eq ▸ hidx)]
  congr 1
  match idx, hidx with
  | c :: idx, hidx =>
    obtain ⟨j, rfl, hj, hplace⟩ := h.exists_place hidx.2
    have hcell (c : Axis) : (g.interiorPlane d t).component l c j = t'.component l c j := by
      rw [component_interiorPlane h ht.shape_eq hj, ← h.layout_eq,
        ht.component_eq j ((h.hasPlace_reduce_iff hj).mp hplace)]
      refine Eq.trans ?_ (ht'.component_eq j hplace c).symm
      simp only [h.isInterior_reduce_iff hj, hF c j hj]
    match c, hidx.1 with
    | 0, _ => exact hcell .x
    | 1, _ => exact hcell .y
    | 2, _ => exact hcell .z

end Planes

variable {ω α : Type} [FieldOps ω] [RingOps α] [Narrowing ω α] {g : StencilGrid ω}
  {l : StoredAxes} {d : Axis} {v : Tensor α}

omit [RingOps α] [FieldOps ω] [Narrowing ω α] in
theorem check_of_curved (h : g.coordinates ≠ .cartesian) (operator : String) :
    check operator g v = .error (.unsupportedCoordinates operator g.coordinates) := by
  rw [check, if_pos h]

/-- The curls of a vector on a grid with one interior cell along an axis, at that cell, are the
curls of the plane on the layout without the axis. -/
theorem curls_interiorPlane (h : g.IsFlat l d) (hv : v.shape = 3 :: g.cellShape) :
    (curl g v).map (g.interiorPlane d) = curl (g.reduce l) (g.interiorPlane d v) ∧
    (doubleCurl g v).map (g.interiorPlane d) = doubleCurl (g.reduce l) (g.interiorPlane d v) ∧
    (g.coordinates = .cartesian →
      (∃ t, curl g v = .ok t) ∧ ∃ t, doubleCurl g v = .ok t) := by
  have hplane := shape_interiorPlane h hv
  have hsame : ∀ c, SameOnPlane g d (v.component g.layout c)
      ((g.interiorPlane d v).component (g.reduce l).layout c) := by
    intro c j hj
    rw [h.layout_eq]
    exact component_interiorPlane h hv hj c
  by_cases hcartesian : g.coordinates = .cartesian
  · have hcurl := curl_eq_ok_iff.mpr ⟨⟨hcartesian, hv⟩, rfl⟩
    have hcurl' := curl_eq_ok_iff (g := g.reduce l).mpr ⟨⟨hcartesian, hplane⟩, rfl⟩
    have hdouble := doubleCurl_eq_ok_iff.mpr ⟨⟨hcartesian, hv⟩, rfl⟩
    have hdouble' := doubleCurl_eq_ok_iff (g := g.reduce l).mpr ⟨⟨hcartesian, hplane⟩, rfl⟩
    refine ⟨?_, ?_, fun _ => ⟨⟨_, hcurl⟩, ⟨_, hdouble⟩⟩⟩
    · rw [hcurl, hcurl']
      exact congrArg Except.ok (interiorPlane_eq h (hasComponents_of_curl hcurl)
        (hasComponents_of_curl hcurl') (SameOnPlane.curlAt h hsame))
    · rw [hdouble, hdouble']
      exact congrArg Except.ok (interiorPlane_eq h (hasComponents_of_doubleCurl hdouble)
        (hasComponents_of_doubleCurl hdouble') (SameOnPlane.doubleCurlAt h hsame))
  · have hcurved : (g.reduce l).coordinates ≠ .cartesian := hcartesian
    refine ⟨?_, ?_, fun habsurd => absurd habsurd hcartesian⟩
    · rw [curl, curl, check_of_curved hcartesian, check_of_curved hcurved]
      rfl
    · rw [doubleCurl, doubleCurl, check_of_curved hcartesian, check_of_curved hcurved]
      rfl

/-- One interior cell along y, and some along x and z. -/
def slab : StencilGrid Float := .uniform .full ⟨8, 7, 9⟩ 3 0.5

/-- The cells count up in the order in which they are stored. -/
def slabField : Tensor Float :=
  .ofFn (3 :: slab.cellShape) fun idx => .ofNat (Cell.offset (3 :: slab.cellShape) idx)

theorem isFlat_slab : slab.IsFlat .xz .y where
  layout_eq := rfl
  dropped_eq := rfl
  extent_eq := rfl

theorem curls_interiorPlane_slab :
    slab.IsFlat .xz .y ∧ slabField.shape = 3 :: slab.cellShape ∧
    ∃ b j, curl slab slabField = .ok b ∧ doubleCurl slab slabField = .ok j ∧
      curl (slab.reduce .xz) (slab.interiorPlane .y slabField) = .ok (slab.interiorPlane .y b) ∧
      doubleCurl (slab.reduce .xz) (slab.interiorPlane .y slabField) =
        .ok (slab.interiorPlane .y j) := by
  have hshape : slabField.shape = 3 :: slab.cellShape := Tensor.shape_ofFn _ _
  obtain ⟨hcurl, hdouble, hdefined⟩ := curls_interiorPlane isFlat_slab hshape
  obtain ⟨⟨b, hb⟩, j, hj⟩ := hdefined rfl
  rw [hb] at hcurl
  rw [hj] at hdouble
  exact ⟨isFlat_slab, hshape, b, j, hb, hj, hcurl.symm, hdouble.symm⟩

end CentralDifference

end GridSnapshot
