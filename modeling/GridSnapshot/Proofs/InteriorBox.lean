import GridSnapshot.Proofs.StencilAgreement

namespace GridSnapshot

open CentralDifference (VectorsAgree)

namespace Tensor

theorem map_length_wholeSpans (shape : List Nat) : (wholeSpans shape).map Span.length = shape := by
  rw [wholeSpans, List.map_map]
  exact List.map_id shape

/-- Axes that are left whole leave their indices as they are. -/
theorem zipWith_wholeSpans {shape idx : List Nat} (h : Cell.Inside shape idx) :
    List.zipWith (fun s i => s.start + i) (wholeSpans shape) idx = idx := by
  induction shape generalizing idx with
  | nil =>
    cases idx with
    | nil => rfl
    | cons i idx => exact h.elim
  | cons n shape ih =>
    cases idx with
    | nil => exact h.elim
    | cons i idx =>
      have hrest := ih h.2
      rw [wholeSpans] at hrest ⊢
      rw [List.map_cons, List.zipWith_cons_cons, hrest, Nat.zero_add]

variable {α : Type} [Zero α] {t : Tensor α}

theorem shape_sliceFirst (t : Tensor α) (span : Span) :
    (t.sliceFirst span).shape = span.length :: t.shape.tail := by
  rw [sliceFirst, slice, shape_ofFn, List.map_cons, map_length_wholeSpans]

theorem cell_sliceFirst {span : Span} {c : Nat} {idx : List Nat} (hc : c < span.length)
    (h : Cell.Inside t.shape.tail idx) :
    (t.sliceFirst span).cell (c :: idx) = t.cell ((span.start + c) :: idx) := by
  have hin : Cell.Inside ((span :: wholeSpans t.shape.tail).map Span.length) (c :: idx) := by
    rw [List.map_cons, map_length_wholeSpans]
    exact ⟨hc, h⟩
  rw [sliceFirst, slice, cell_ofFn _ hin, List.zipWith_cons_cons, zipWith_wholeSpans h]

section SliceLast

variable {ι : Type} {as : List ι} {extent : ι → Nat} {span : ι → Span} {n : Nat}

theorem sliceLast_map (h : t.shape = n :: as.map extent) :
    t.sliceLast (as.map span) = t.slice (⟨0, n⟩ :: as.map span) := by
  have hlength : (n :: as.map extent).length - (as.map span).length = 1 := by
    rw [List.length_cons, List.length_map, List.length_map, Nat.add_sub_cancel_left]
  rw [sliceLast, h, hlength]
  rfl

theorem shape_sliceLast (h : t.shape = n :: as.map extent) :
    (t.sliceLast (as.map span)).shape = n :: as.map fun a => (span a).length := by
  rw [sliceLast_map h, slice, shape_ofFn, List.map_cons, List.map_map]
  rfl

theorem cell_sliceLast (h : t.shape = n :: as.map extent) {c : Nat} {i : ι → Nat} (hc : c < n)
    (hi : ∀ a ∈ as, i a < (span a).length) :
    (t.sliceLast (as.map span)).cell (c :: as.map i) =
      t.cell (c :: as.map fun a => (span a).start + i a) := by
  have hin : Cell.Inside ((⟨0, n⟩ :: as.map span).map Span.length) (c :: as.map i) := by
    rw [List.map_cons, List.map_map]
    exact ⟨hc, (Cell.inside_map as _ i).mpr hi⟩
  rw [sliceLast_map h, slice, cell_ofFn _ hin, List.zipWith_cons_cons, Nat.zero_add,
    List.zipWith_map, List.zipWith_self]

end SliceLast

end Tensor

/-- The interior cells of a processor's part, among those of the whole array. -/
def ProcessorGrid.interiorSpan (P : ProcessorGrid) (p : PerAxis Nat) (a : Axis) : Span :=
  ⟨p.get a * P.interior.get a, (p.get a + 1) * P.interior.get a⟩

theorem ProcessorGrid.start_interiorSpan (P : ProcessorGrid) (p : PerAxis Nat) (a : Axis) :
    (P.interiorSpan p a).start = p.get a * P.interior.get a := rfl

theorem ProcessorGrid.length_interiorSpan (P : ProcessorGrid) (p : PerAxis Nat) (a : Axis) :
    (P.interiorSpan p a).length = P.interior.get a := by
  rw [interiorSpan, Span.length, Nat.add_mul, Nat.one_mul, Nat.add_sub_cancel_left]

/-- Where an interior cell of a part lies in the part. -/
def ProcessorGrid.behindMargin (P : ProcessorGrid) (j : PerAxis Nat) : PerAxis Nat :=
  .ofFn fun a => P.ghosts.get a + j.get a

theorem ProcessorGrid.get_behindMargin (P : ProcessorGrid) (j : PerAxis Nat) (a : Axis) :
    (P.behindMargin j).get a = P.ghosts.get a + j.get a := PerAxis.get_ofFn _ a

namespace PartGrid

variable {ω α : Type} [Zero α] {P : ProcessorGrid} {d : Dimensions} {one all : StencilGrid ω}
  {t t' : Tensor α} {c : Nat} {j : PerAxis Nat}

theorem cell_sliceLast_one (h : PartGrid P d one all) (hshape : t.shape = 3 :: one.cellShape)
    (hc : c < 3) (hj : ∀ a ∈ one.layout.axes, j.get a < P.interior.get a) :
    (t.sliceLast (one.layout.axes.map one.interior)).cell (c :: one.layout.axes.map j.get) =
      t.cell (c :: one.layout.axes.map (P.behindMargin j).get) := by
  have hlt : ∀ a ∈ one.layout.axes, j.get a < (one.interior a).length := by
    intro a ha
    rw [h.length_interior_one]
    exact hj a ha
  rw [Tensor.cell_sliceLast hshape hc hlt]
  congr 2
  refine List.map_congr_left fun a _ => ?_
  rw [h.start_interior_one, P.get_behindMargin]

theorem cell_sliceLast_all (h : PartGrid P d one all) (hshape : t'.shape = 3 :: all.cellShape)
    (hc : c < 3) (hj : ∀ a ∈ one.layout.axes, j.get a < P.interior.get a) :
    ((t'.sliceLast (one.layout.axes.map all.interior)).sliceLast
        (one.layout.axes.map (P.interiorSpan d.position))).cell (c :: one.layout.axes.map j.get) =
      t'.cell (c :: one.layout.axes.map (d.outward (P.behindMargin j)).get) := by
  have hshape : t'.shape = 3 :: one.layout.axes.map all.extents.get := by
    rw [h.layout_eq]
    exact hshape
  have hbox : ∀ a ∈ one.layout.axes, j.get a < (P.interiorSpan d.position a).length := by
    intro a ha
    rw [P.length_interiorSpan]
    exact hj a ha
  have hwhole : ∀ a ∈ one.layout.axes,
      (P.interiorSpan d.position a).start + j.get a < (all.interior a).length := by
    intro a ha
    have hlt := hj a ha
    have hmul : (d.position.get a + 1) * P.interior.get a ≤ P.counts.get a * P.interior.get a :=
      Nat.mul_le_mul_right _ (h.isPart.holds a)
    rw [h.length_interior_all, P.start_interiorSpan]
    rw [Nat.add_mul, Nat.one_mul] at hmul
    omega
  rw [Tensor.cell_sliceLast (Tensor.shape_sliceLast hshape) hc hbox,
    Tensor.cell_sliceLast hshape hc hwhole]
  congr 2
  refine List.map_congr_left fun a _ => ?_
  rw [h.start_interior_all, Dimensions.get_outward, P.get_behindMargin, h.isPart.base_eq,
    P.start_interiorSpan]
  omega

/-- Without its margins, the part is a box of the whole array without its margins. -/
theorem sliceLast_interior (h : PartGrid P d one all) (ht : VectorsAgree d one all t t') :
    t.sliceLast (one.layout.axes.map one.interior) =
      (t'.sliceLast (one.layout.axes.map all.interior)).sliceLast
        (one.layout.axes.map (P.interiorSpan d.position)) := by
  have hall : t'.shape = 3 :: one.layout.axes.map all.extents.get := by
    rw [h.layout_eq]
    exact ht.shape_all
  have hone : (t.sliceLast (one.layout.axes.map one.interior)).shape =
      3 :: one.layout.axes.map P.interior.get := by
    rw [Tensor.shape_sliceLast ht.shape_one]
    simp only [h.length_interior_one]
  have hbox : ((t'.sliceLast (one.layout.axes.map all.interior)).sliceLast
      (one.layout.axes.map (P.interiorSpan d.position))).shape =
        3 :: one.layout.axes.map P.interior.get := by
    rw [Tensor.shape_sliceLast (Tensor.shape_sliceLast hall)]
    simp only [P.length_interiorSpan]
  refine Tensor.ext_get? (hone.trans hbox.symm) fun idx hin => ?_
  rw [Tensor.get?_eq_some hin, Tensor.get?_eq_some (hbox ▸ hone ▸ hin), Option.some.injEq]
  rw [hone] at hin
  cases idx with
  | nil => exact hin.elim
  | cons c rest =>
    obtain ⟨hc, hrest⟩ := hin
    have hlength := Cell.length_of_inside hrest
    rw [List.length_map] at hlength
    obtain ⟨j, rfl⟩ := StoredAxes.exists_map_get hlength
    have hj := (Cell.inside_map ..).mp hrest
    rw [h.cell_sliceLast_one ht.shape_one hc hj, h.cell_sliceLast_all ht.shape_all hc hj]
    refine ht.cell_eq c hc _ fun a ha => ?_
    have hlt := hj a ha
    rw [h.contains_interior_iff, P.get_behindMargin]
    omega

end PartGrid

end GridSnapshot
