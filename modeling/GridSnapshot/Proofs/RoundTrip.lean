import GridSnapshot.Proofs.PoolProgress
import GridSnapshot.Proofs.WrittenPlan

namespace GridSnapshot

open Outcome

namespace Assembly

variable {ω α : Type} [Zero α] [Narrowing ω α] {l : StoredAxes} {vars : Nat} {whole : Dimensions}
  {asm asm' : Assembly ω α} {parts : List (Part ω α)} {values : Persistence ω} {name : String}

/-- Placings of parts with the same persistent values leave those values. -/
theorem get?_persistence_placeAll (h : asm.Over l vars whole)
    (hrun : asm.placeAll parts = .ok asm') (hne : parts ≠ [])
    (hvalues : ∀ x ∈ parts, x.2.persistence = values)
    (hold : asm.persistence.get? name = none ∨ asm.persistence.get? name = values.get? name) :
    asm'.persistence.get? name = values.get? name := by
  induction parts generalizing asm with
  | nil => exact absurd rfl hne
  | cons x xs ih =>
    obtain ⟨hx, hxs⟩ := List.forall_mem_cons.mp hvalues
    obtain ⟨next, hplace, hrest⟩ := placeAll_cons_eq_ok_iff.mp hrun
    obtain ⟨-, p, t, rfl⟩ := h.exists_put_of_place hplace
    have hput : (asm.put p t x.2).persistence.get? name = values.get? name := by
      have hinsert : (asm.put p t x.2).persistence =
          asm.persistence.insertMany values.entries := by rw [← hx]; rfl
      rw [hinsert, Table.get?_insertMany_entries]
      rcases hold with hold | hold <;> rw [hold]
      · exact Option.or_none
      · exact Option.or_self
    -- From the first placing on the value is there, and the others write it again.
    cases xs with
    | nil =>
      cases hrest
      exact hput
    | cons y ys => exact ih (h.put ..) hrest (List.cons_ne_nil _ _) hxs (.inr hput)

end Assembly

namespace ReadPlan

variable {α : Type} [Zero α] [Narrowing Float α] {plan : ReadPlan Float} {tree : FileTree}
  {s : Snapshot Float α}

end ReadPlan

namespace RunRecipe

variable {α : Type} [Zero α] [Narrowing Float α] {r : RunRecipe} {t t' : FileTree} {dir : Path}
  {place : Place} {plan : ReadPlan Float} {s : Snapshot Float α}

def rounded (r : RunRecipe) (x : Binary64) : α := narrow (r.precision.round x)

/-- The snapshot is that of the whole run, as far as its precision goes. -/
structure IsReadAs (r : RunRecipe) (s : Snapshot Float α) : Prop where
  f_eq : s.f = r.wholeTensor.map fun x => r.rounded (.ofFloat x)
  coords_eq : s.coords = r.wholeCoords.map (·.map r.rounded)
  time_eq : s.time = r.rounded r.time
  spacing_eq : s.spacing = r.spacing.map r.rounded
  shearOffset_eq : s.shearOffset = r.shearOffset.map r.rounded
  bounds_eq : s.bounds = r.wholeDims.interiorBounds
  /-- Of each known id the last payload counts. -/
  persistence_eq : ∀ t ∈ Persistence.recordTypes,
    s.persistence.get? t.name = PersistentEntry.last? r.precision r.persistence t.id
  persistence_unknown : ∀ name, (∀ t ∈ Persistence.recordTypes, t.name ≠ name) →
    s.persistence.get? name = none

omit [Zero α] in
theorem get?_collected {t : Persistence.RecordType} (ht : t ∈ Persistence.recordTypes) :
    r.collected.get? t.name = PersistentEntry.last? r.precision r.persistence t.id := by
  rw [collected, Persistence.get?_foldl_collect ht, Table.get?_empty, Option.or_none]

omit [Zero α] in
theorem get?_collected_of_unknown {name : String}
    (h : ∀ t ∈ Persistence.recordTypes, t.name ≠ name) : r.collected.get? name = none := by
  rw [collected, Persistence.get?_foldl_collect_of_unknown h, Table.get?_empty]

theorem reaches_whole (r : RunRecipe) : r.Reaches r.wholeDims (.uniform 0) := by
  intro a
  rw [PerAxis.get_uniform, Nat.zero_add]

omit [Zero α] in
theorem coords_block (r : RunRecipe) :
    ((r.block r.wholeDims (.uniform 0) : Block Float α).coords.coords.map (·.map narrow)) =
      r.wholeCoords.map (·.map (r.rounded : Binary64 → α)) := by
  ext a : 1
  have hcoords : (r.coordRecord r.wholeDims (.uniform 0)).coords.get a = r.wholeCoords.get a := by
    rw [get_coordRecord r.reaches_whole, get_wholeCoords]
    simp [PerAxis.get_uniform]
  rw [PerAxis.get_map, PerAxis.get_map, block, CoordinateRecord.map, PerAxis.get_map, hcoords,
    List.map_map]
  rfl

omit [Zero α] in
/-- The numbers beside the cells are the same in all files of a run. -/
theorem ofRecord_block (r : RunRecipe) (d : Dimensions) (offset : PerAxis Nat) :
    SnapshotScalars.ofRecord (r.block d offset : Block Float α).coords =
      (⟨r.rounded r.time, r.spacing.map r.rounded, r.shearOffset.map r.rounded⟩ :
        SnapshotScalars α) := by
  have hshear : ((r.shearOffset.map r.precision.round).map narrow : Option α) =
      r.shearOffset.map r.rounded := Option.map_map ..
  rw [SnapshotScalars.ofRecord, block, CoordinateRecord.map, coordRecord, SnapshotScalars.mk.injEq]
  exact ⟨rfl, rfl, hshear⟩

omit [Zero α] in
/-- A single file with the whole run is returned as the run. -/
theorem exists_single (hplan : IsPlanOf plan r dir) {sub : Subdomain}
    (hdims : sub.dims = r.wholeDims)
    (hdecode : plan.decode t sub = .ok (r.block r.wholeDims (.uniform 0) : Block Float α)) :
    ∃ s : Snapshot Float α, plan.single t sub = .ok s ∧ r.IsReadAs s := by
  have hf : Tensor.ofArray? (plan.layout.shape r.slotCount sub.dims)
      (r.wholeTensor.map (r.stored : Float → α)).cells =
        some (r.wholeTensor.map fun x => r.rounded (.ofFloat x)) := by
    rw [hplan.layout_eq, hdims]
    exact dif_pos (Tensor.size_cells _)
  have hscalars := ofRecord_block (α := α) r r.wholeDims (.uniform 0)
  rw [SnapshotScalars.ofRecord, SnapshotScalars.mk.injEq] at hscalars
  refine ⟨_, ReadPlan.single_eq_ok_iff.mpr ⟨_, _, hdecode, hf, rfl⟩, ?_⟩
  exact {
    f_eq := rfl
    coords_eq := coords_block r
    time_eq := hscalars.1
    spacing_eq := hscalars.2.1
    shearOffset_eq := hscalars.2.2
    bounds_eq := by rw [← hdims]; rfl
    persistence_eq := fun t ht => get?_collected ht
    persistence_unknown := fun name hname => get?_collected_of_unknown hname }

omit [Zero α] in
/-- The parts of the processors restrict one function, and none is missing. -/
theorem restricts_parts (h : r.Even) :
    (∀ x ∈ (r.positions.map r.part : List (Part Float α)), x.Restricts (r.grid h) r.layout
      r.slotCount (fun idx => r.stored (r.valueAt idx))
      fun a k => r.precision.round (r.coordinateAt a k)) ∧
    Assembly.Complete (r.grid h) (r.positions.map r.part : List (Part Float α)) := by
  constructor
  · intro x hx
    obtain ⟨p, hp, rfl⟩ := List.mem_map.mp hx
    exact restricts_part h (ProcessorGrid.mem_positions.mp hp)
  · intro p hp
    have hmem : p ∈ r.positions := (ProcessorGrid.mem_positions (g := r.grid h)).mpr hp
    exact ⟨r.part p, List.mem_map_of_mem hmem, rfl⟩

theorem exists_stitched (h : r.Even) (hplan : IsPlanOf plan r dir)
    (hparts : List.Forall₂ (plan.Holds t) plan.subdomains
      (r.positions.map r.part : List (Part Float α))) :
    ∃ s : Snapshot Float α, plan.stitched t = .ok s ∧ r.IsReadAs s := by
  obtain ⟨hrestricts, hcomplete⟩ := restricts_parts (α := α) h
  have hw := isWhole h
  obtain ⟨asm, hrun⟩ := Assembly.exists_placeAll hw hrestricts
  have hover := Assembly.over_empty.placeAll hrun
  have hne' : (r.positions.map r.part : List (Part Float α)) ≠ [] := by
    simpa using positions_ne_nil h
  obtain ⟨x, hx, hscalars⟩ := Assembly.exists_scalars_placeAll Assembly.over_empty hrun hne'
  have hpersistence (name : String) :
      asm.persistence.get? name = (r.collected : Persistence Float).get? name := by
    refine Assembly.get?_persistence_placeAll Assembly.over_empty hrun hne' ?_ (.inl rfl)
    intro x hx
    obtain ⟨p, -, rfl⟩ := List.mem_map.mp hx
    rfl
  obtain ⟨p, -, rfl⟩ := List.mem_map.mp hx
  have hrecord := hscalars.trans
    (congrArg some (ofRecord_block (α := α) r (r.partDims p) (r.offset p)))
  have hf := Assembly.f_of_complete hw hrestricts hcomplete hrun
  have hcoords := Assembly.coords_of_complete hw hrestricts hcomplete hrun
  rw [← hplan.layout_eq, ← hplan.dims_eq, ← hplan.slotCount_eq] at hrun
  refine ⟨_, ReadPlan.stitched_eq_ok_iff.mpr ⟨_, asm, _, hparts, hrun, hrecord, rfl⟩, ?_⟩
  exact {
    f_eq := by
      rw [wholeTensor_eq, Tensor.map_ofFn]
      exact hf
    coords_eq := by
      refine hcoords.trans ?_
      ext a : 1
      rw [PerAxis.get_ofFn, PerAxis.get_map, get_wholeCoords, List.map_map]
      rfl
    time_eq := rfl
    spacing_eq := rfl
    shearOffset_eq := rfl
    bounds_eq := congrArg Dimensions.interiorBounds hover.dims_eq
    persistence_eq := fun t ht => (hpersistence t.name).trans (get?_collected ht)
    persistence_unknown := fun name hname =>
      (hpersistence name).trans (get?_collected_of_unknown hname) }

end RunRecipe

end GridSnapshot
