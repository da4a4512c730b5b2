import GridSnapshot.Proofs.Consistency
import GridSnapshot.Proofs.DecodedPlan
import GridSnapshot.Proofs.PartDerivation

namespace GridSnapshot

/-- The values of a run on its whole array, and the grid they lie on. -/
structure GlobalField (α : Type) where
  metadata : RunMetadata Float
  grid : ProcessorGrid
  values : List Nat → α
  spacing : PerAxis Float

namespace GlobalField

variable {α : Type}

def layout (F : GlobalField α) : StoredAxes :=
  .ofOutput F.metadata.params.twoDimensional F.metadata.dims

/-- The names of the fields in a snapshot of the run. -/
def views (F : GlobalField α) : Table String Span :=
  let vars := F.metadata.slotCount
  let index := F.metadata.index
  (Table.ofList (Snapshot.scalarViews index vars)).insertMany (Snapshot.vectorViews index vars)

/-- Cartesian coordinates, and room for the stencils: three ghost cells along each axis, and two
interior cells in each part along an axis that is shared. -/
structure FitsStencils (F : GlobalField α) : Prop where
  cartesian : F.metadata.params.coordinates = .cartesian
  isWhole : F.grid.IsWhole F.metadata.dims
  ghosts_eq : F.metadata.dims.ghosts = F.grid.ghosts
  ghosts_ge : ∀ a, 3 ≤ F.grid.ghosts.get a
  interior_ge : ∀ a, 1 < F.grid.counts.get a → 2 ≤ F.grid.interior.get a

/-- A part has the cells of the field, the spacings included. -/
structure HasPart (F : GlobalField α) (x : Part Float α) : Prop where
  restricts : x.RestrictsCells F.grid F.layout F.metadata.slotCount F.values
  spacing_eq : x.2.coords.spacing = F.spacing

/-- The plan reads files of the run, one for each processor and none with a grid. -/
structure IsReadBy (F : GlobalField α) (plan : ReadPlan Float) : Prop where
  storage_eq : plan.storage = .perProcess
  metadata_eq : plan.metadata = F.metadata
  layout_eq : plan.layout = F.layout
  grid_eq : plan.grid = none

variable [Zero α] [Narrowing Float α]

/-- The cells of the field from some place on, with nothing derived yet. -/
structure Excerpt (F : GlobalField α) (start extent : Axis → Nat)
    (c : SnapshotContent Float α) : Prop where
  layout_eq : c.layout = F.layout
  shape_eq : c.f.shape = F.metadata.slotCount :: F.layout.axes.map extent
  cell_eq : ∀ slot < F.metadata.slotCount, ∀ j : PerAxis Nat,
    (∀ a ∈ F.layout.axes, j.get a < extent a) →
    c.f.cell (F.layout.index slot j) =
      F.values (F.layout.index slot (.ofFn fun a => start a + j.get a))
  length_eq : ∀ a, (c.coords.get a).length = extent a
  spacing_eq : c.spacing = F.spacing.map narrow
  bounds_eq : ∀ a, c.bounds.get a = .inner (F.grid.ghosts.get a) (extent a)
  metadata_eq : c.metadata = F.metadata
  grid_eq : c.grid = none

namespace Excerpt

variable {F : GlobalField α} {start extent : Axis → Nat} {c c' : SnapshotContent Float α}
  {d : Dimensions}

theorem views_eq (h : F.Excerpt start extent c) : (Snapshot.ofContent c).views = F.views := by
  unfold Snapshot.ofContent views
  simp only [h.shape_eq, h.metadata_eq, List.headD_cons]

theorem cellShape_eq (h : F.Excerpt start extent c) :
    (Snapshot.ofContent c).cellShape =
      (StencilGrid.ofSnapshot (Snapshot.ofContent c)).cellShape := by
  have hextents : ∀ a ∈ F.layout.axes, extent a = (c.coords.map List.length).get a := by
    intro a _
    rw [PerAxis.get_map, h.length_eq]
  have hshape : (Snapshot.ofContent c).cellShape = F.layout.axes.map extent :=
    congrArg List.tail h.shape_eq
  have hgrid : (StencilGrid.ofSnapshot (Snapshot.ofContent c)).cellShape =
      c.layout.axes.map (c.coords.map List.length).get := rfl
  rw [hshape, hgrid, h.layout_eq]
  exact List.map_congr_left hextents

theorem ghosts_eq (h : F.Excerpt start extent c) (hF : F.FitsStencils) :
    (StencilGrid.ofSnapshot (Snapshot.ofContent c)).ghosts = F.grid.ghosts := by
  rw [← hF.ghosts_eq, ← h.metadata_eq]
  rfl

theorem extents_eq (h : F.Excerpt start extent c) (a : Axis) :
    (StencilGrid.ofSnapshot (Snapshot.ofContent c)).extents.get a = extent a := by
  rw [← h.length_eq a]
  exact PerAxis.get_map ..

theorem bounds_eq_interior (h : F.Excerpt start extent c) (hF : F.FitsStencils) (a : Axis) :
    (Snapshot.ofContent c).bounds.get a =
      (StencilGrid.ofSnapshot (Snapshot.ofContent c)).interior a := by
  rw [StencilGrid.interior, h.ghosts_eq hF, h.extents_eq, ← h.bounds_eq]
  rfl

/-- Without a grid, the spacing is the same at each cell. -/
theorem inverse_eq (h : F.Excerpt start extent c) (a : Axis) :
    (StencilGrid.ofSnapshot (Snapshot.ofContent c)).inverse.get a =
      List.replicate ((StencilGrid.ofSnapshot (Snapshot.ofContent c)).extents.get a)
        (RingOps.ofInt 1 / widen (narrow (F.spacing.get a) : α)) := by
  have hnone : StencilGrid.gridInverse? (Snapshot.ofContent c).grid
      ((Snapshot.ofContent c).coords.map List.length) = none := by
    have hgrid : (Snapshot.ofContent c).grid = none := h.grid_eq
    rw [hgrid]
    rfl
  have hspacing : (Snapshot.ofContent c).spacing.get a = narrow (F.spacing.get a) := by
    have hget := PerAxis.get_map (narrow : Float → α) F.spacing a
    rw [← h.spacing_eq] at hget
    exact hget
  simp only [StencilGrid.ofSnapshot, hnone, Option.getD_none, PerAxis.get_ofFn, hspacing]

theorem cell_eq_zero (h : F.Excerpt start extent c) {slot : Nat}
    (hslot : F.metadata.slotCount ≤ slot) (idx : List Nat) : c.f.cell (slot :: idx) = 0 := by
  apply Tensor.cell_eq_zero_of_not_inside
  rw [h.shape_eq]
  intro hin
  exact Nat.not_lt.mpr hslot hin.1

/-- Both excerpts lie on grids with the same ghost cells and spacings. -/
theorem partGrid (hF : F.FitsStencils) (hd : F.grid.IsPart d)
    (hone : F.Excerpt d.base d.extent c) (hall : F.Excerpt (fun _ => 0) F.grid.wholeExtent c') :
    PartGrid F.grid d (.ofSnapshot (Snapshot.ofContent c))
      (.ofSnapshot (Snapshot.ofContent c')) where
  isPart := hd
  layout_eq := hone.layout_eq.trans hall.layout_eq.symm
  extents_one := hone.extents_eq
  extents_all := hall.extents_eq
  ghosts_one := hone.ghosts_eq hF
  ghosts_all := hall.ghosts_eq hF
  coordinates_eq := congrArg (fun m : RunMetadata Float => m.params.coordinates)
    (hone.metadata_eq.trans hall.metadata_eq.symm)
  inverse_eq := by
    refine ⟨.ofFn fun a => RingOps.ofInt 1 / widen (narrow (F.spacing.get a) : α), fun a => ?_⟩
    rw [PerAxis.get_ofFn]
    exact ⟨hone.inverse_eq a, hall.inverse_eq a⟩
  ghosts_ge := hF.ghosts_ge
  interior_ge := hF.interior_ge

/-- A cell of the part is the cell of the whole that many cells behind its base. -/
theorem cell_eq_outward (hd : F.grid.IsPart d) (hone : F.Excerpt d.base d.extent c)
    (hall : F.Excerpt (fun _ => 0) F.grid.wholeExtent c') (slot : Nat) (j : PerAxis Nat)
    (hj : ∀ a ∈ F.layout.axes, j.get a < d.extent a) :
    c.f.cell (F.layout.index slot j) = c'.f.cell (F.layout.index slot (d.outward j)) := by
  rcases Nat.lt_or_ge slot F.metadata.slotCount with hslot | hslot
  · have hinside : ∀ a ∈ F.layout.axes, (d.outward j).get a < F.grid.wholeExtent a := by
      intro a ha
      have hlt := hj a ha
      have hle := hd.base_add_extent_le a
      rw [Dimensions.get_outward]
      omega
    have hcell := hone.cell_eq slot hslot j hj
    have hcell' := hall.cell_eq slot hslot (d.outward j) hinside
    rw [PerAxis.ofFn_zero_add] at hcell'
    exact hcell.trans hcell'.symm
  · exact (hone.cell_eq_zero hslot _).trans (hall.cell_eq_zero hslot _).symm

/-- An excerpt from the base of a part, and one of all cells. -/
theorem partSnapshot (hF : F.FitsStencils) (hd : F.grid.IsPart d)
    (hone : F.Excerpt d.base d.extent c) (hall : F.Excerpt (fun _ => 0) F.grid.wholeExtent c') :
    PartSnapshot F.grid d F.metadata F.views (Snapshot.ofContent c) (Snapshot.ofContent c') where
  grids := partGrid hF hd hone hall
  metadata_one := hone.metadata_eq
  metadata_all := hall.metadata_eq
  views_one := hone.views_eq
  views_all := hall.views_eq
  layout_one := hone.layout_eq
  vars_eq := (congrArg (List.headD · 0) hone.shape_eq).trans
    (congrArg (List.headD · 0) hall.shape_eq).symm
  shape_one := hone.cellShape_eq
  shape_all := hall.cellShape_eq
  cell_eq slot j hj := by
    have hlayout : (Snapshot.ofContent c).layout = F.layout := hone.layout_eq
    rw [hlayout] at hj ⊢
    exact cell_eq_outward hd hone hall slot j hj
  bounds_one := hone.bounds_eq_interior hF
  bounds_all := hall.bounds_eq_interior hF
  untrimmed_one := rfl
  untrimmed_all := rfl
  derived_eq := .nil

end Excerpt

variable {F : GlobalField α} {plan : ReadPlan Float} {tree : FileTree} {sub : Subdomain}
  {x : Part Float α} {parts : List (Part Float α)}

/-- One file is returned as the excerpt that it is. -/
theorem exists_single (hplan : F.IsReadBy plan) (hx : F.HasPart x)
    (hholds : plan.Holds tree sub x) :
    ∃ c, plan.single tree sub = .ok (.ofContent c) ∧ F.Excerpt x.1.base x.1.extent c := by
  have hmatches := hholds.matches
  have hfills := hx.restricts.fills
  rw [← hplan.layout_eq, ← hplan.metadata_eq] at hfills
  have hsize := hholds.size_eq_volume hfills
  obtain ⟨hdims, hdecode⟩ := hholds
  have hvars : x.2.vars = F.metadata.slotCount := hx.restricts.vars_eq
  rw [hplan.layout_eq, hplan.metadata_eq] at hsize
  have hf : Tensor.ofArray? (plan.layout.shape x.2.vars sub.dims) x.2.data =
      some ⟨F.layout.shape F.metadata.slotCount x.1, x.2.data, hsize⟩ := by
    rw [hplan.layout_eq, hvars, ← hdims]
    exact dif_pos hsize
  refine ⟨_, ReadPlan.single_eq_ok_iff.mpr ⟨x.2, _, hdecode, hf, rfl⟩, ?_⟩
  exact {
    layout_eq := hplan.layout_eq
    shape_eq := rfl
    cell_eq := fun slot hslot j hj => by
      have hin : Cell.Inside (F.layout.shape F.metadata.slotCount x.1) (F.layout.index slot j) :=
        StoredAxes.inside_index.mpr ⟨hslot, hj⟩
      have hcell := hx.restricts.cell_eq slot hslot j hj
      have hget : Tensor.get? ⟨F.layout.shape F.metadata.slotCount x.1, x.2.data, hsize⟩
          (F.layout.index slot j) = some (F.values (F.layout.index slot (x.1.outward j))) := by
        rw [← hcell, Tensor.get?, if_pos hin]
        rfl
      rw [Tensor.cell, hget, Option.getD_some]
      rfl
    length_eq := fun a => by
      have hlength := hmatches.length_eq a
      rw [PerAxis.get_map, List.length_map]
      exact hlength
    spacing_eq := by rw [← hx.spacing_eq]
    bounds_eq := fun a => by
      rw [← hdims, Dimensions.interiorBounds, PerAxis.get_ofFn, Dimensions.interiorSpan,
        hx.restricts.isPart.ghost_eq]
    metadata_eq := hplan.metadata_eq
    grid_eq := by
      rw [hplan.grid_eq]
      rfl }

/-- Several files are stitched to all cells of the field. -/
theorem exists_stitched (hF : F.FitsStencils) (hplan : F.IsReadBy plan)
    (hparts : ∀ x ∈ parts, F.HasPart x) (hcomplete : Assembly.Complete F.grid parts)
    (hholds : List.Forall₂ (plan.Holds tree) plan.subdomains parts) (hne : parts ≠ []) :
    ∃ c, plan.stitched tree = .ok (.ofContent c) ∧
      F.Excerpt (fun _ => 0) F.grid.wholeExtent c := by
  have hrestricts : ∀ x ∈ parts, x.RestrictsCells F.grid F.layout F.metadata.slotCount F.values :=
    fun x hx => (hparts x hx).restricts
  obtain ⟨asm, hrun⟩ := Assembly.exists_placeAll_cells hF.isWhole hrestricts
  have hover := Assembly.over_empty.placeAll hrun
  have hf := Assembly.f_of_complete_cells hF.isWhole hrestricts hcomplete hrun
  obtain ⟨x, hx, hscalars⟩ := Assembly.exists_scalars_placeAll Assembly.over_empty hrun hne
  rw [← hplan.layout_eq, ← hplan.metadata_eq] at hrun
  refine ⟨_, ReadPlan.stitched_eq_ok_iff.mpr ⟨parts, asm, _, hholds, hrun, hscalars, rfl⟩, ?_⟩
  have hextent : ∀ a ∈ F.layout.axes, F.metadata.dims.extent a = F.grid.wholeExtent a :=
    fun a _ => hF.isWhole a
  exact {
    layout_eq := hover.layout_eq
    shape_eq := by
      rw [hover.shape_eq, StoredAxes.shape, StoredAxes.cellShape, List.map_congr_left hextent]
    cell_eq := fun slot hslot j hj => by
      have hin : Cell.Inside (F.layout.shape F.metadata.slotCount F.metadata.dims)
          (F.layout.index slot j) :=
        StoredAxes.inside_index.mpr ⟨hslot, fun a ha => hextent a ha ▸ hj a ha⟩
      rw [hf, Tensor.cell_ofFn _ hin, PerAxis.ofFn_zero_add]
    length_eq := fun a => (hover.length_eq a).trans (hF.isWhole a)
    spacing_eq := by
      rw [← (hparts x hx).spacing_eq]
      rfl
    bounds_eq := fun a => by
      rw [hover.dims_eq, Dimensions.interiorBounds, PerAxis.get_ofFn, Dimensions.interiorSpan,
        hF.isWhole, Dimensions.ghost, hF.ghosts_eq]
    metadata_eq := hplan.metadata_eq
    grid_eq := hplan.grid_eq }

/-- All files are read to all cells of the field. -/
theorem exists_readAll (hF : F.FitsStencils) (hplan : F.IsReadBy plan)
    (hparts : ∀ x ∈ parts, F.HasPart x) (hcomplete : Assembly.Complete F.grid parts)
    (hholds : List.Forall₂ (plan.Holds tree) plan.subdomains parts) :
    ∃ c, plan.readRecords tree false = .ok (.ofContent c) ∧
      F.Excerpt (fun _ => 0) F.grid.wholeExtent c := by
  have hlength := hholds.length_eq
  match parts, hlength with
  | [], _ => exact absurd rfl hcomplete.ne_nil
  | [x], _ =>
    have hx := hparts x List.mem_cons_self
    obtain ⟨sub, rest, hsub, hrest, hsubs⟩ := List.forall₂_cons_right_iff.mp hholds
    obtain rfl := List.forall₂_nil_right_iff.mp hrest
    obtain ⟨c, hsingle, hexcerpt⟩ := exists_single hplan hx hsub
    have hcount (a : Axis) := hcomplete.counts_eq_one a
    have hbase : x.1.base = fun _ => 0 := by
      funext a
      have hlt := hx.restricts.isPart.holds a
      rw [hcount] at hlt
      exact Dimensions.base_eq_zero (Nat.lt_one_iff.mp hlt)
    have hextent : x.1.extent = F.grid.wholeExtent := by
      funext a
      rw [hx.restricts.isPart.extent_eq, ProcessorGrid.wholeExtent, hcount, Nat.one_mul]
    rw [hbase, hextent] at hexcerpt
    exact ⟨c, ReadPlan.readRecords_eq_ok_iff.mpr ⟨rfl, .inl ⟨sub, hsubs, hsingle⟩⟩, hexcerpt⟩
  | x :: y :: rest, hlength =>
    have hmany : 2 ≤ plan.subdomains.length := by
      rw [hlength, List.length_cons, List.length_cons]
      omega
    obtain ⟨c, hstitched, hexcerpt⟩ :=
      exists_stitched hF hplan hparts hcomplete hholds (List.cons_ne_nil _ _)
    exact ⟨c, ReadPlan.readRecords_eq_ok_iff.mpr ⟨rfl, .inr ⟨hmany, hstitched⟩⟩, hexcerpt⟩

/-- One file is read to its excerpt of the field. -/
theorem exists_readOne (hplan : F.IsReadBy plan) (hx : F.HasPart x)
    (hsubs : plan.subdomains = [sub]) (hholds : plan.Holds tree sub x) :
    ∃ c, plan.readRecords tree false = .ok (.ofContent c) ∧
      F.Excerpt x.1.base x.1.extent c := by
  obtain ⟨c, hsingle, hexcerpt⟩ := exists_single hplan hx hholds
  exact ⟨c, ReadPlan.readRecords_eq_ok_iff.mpr ⟨rfl, .inl ⟨sub, hsubs, hsingle⟩⟩, hexcerpt⟩

theorem read_eq_readRecords (hplan : F.IsReadBy plan) (store : Option (ContainerStore Float)) :
    plan.read tree store false = plan.readRecords (α := α) tree false := by
  unfold ReadPlan.read
  rw [hplan.storage_eq]

end GlobalField

end GridSnapshot
