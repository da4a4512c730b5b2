import GridSnapshot.Proofs.Consistency
import GridSnapshot.Proofs.SnapshotFile

namespace GridSnapshot

namespace RunRecipe

variable {α : Type} [Narrowing Float α] {r : RunRecipe} {p : PerAxis Nat} {a : Axis}

/-- There are cells along each axis, the processors share them evenly, and the extents of the whole
are words. -/
structure Even (r : RunRecipe) : Prop where
  cells_pos : ∀ a, 0 < r.cells.get a
  processors_pos : ∀ a, 0 < r.processors.get a
  divides : ∀ a, r.processors.get a ∣ r.cells.get a
  extent_lt : ∀ a, r.wholeDims.extent a < Word.count 8

/-- Where the part of a processor starts. -/
def offset (r : RunRecipe) (p : PerAxis Nat) : PerAxis Nat :=
  .ofFn fun a => p.get a * r.partCells.get a

theorem extent_dims (cells position : PerAxis Nat) (a : Axis) :
    (r.dims cells position).extent a = cells.get a + 2 * r.ghost := by
  rw [Dimensions.extent, dims, PerAxis.get_map]

theorem ghost_dims (cells position : PerAxis Nat) (a : Axis) :
    (r.dims cells position).ghost a = r.ghost := by
  rw [Dimensions.ghost, dims, PerAxis.get_uniform]

theorem partCells_mul (h : r.Even) (a : Axis) :
    r.processors.get a * r.partCells.get a = r.cells.get a := by
  rw [partCells, PerAxis.get_ofFn, Nat.mul_div_cancel' (h.divides a)]

def grid (r : RunRecipe) (h : r.Even) : ProcessorGrid where
  counts := r.processors
  interior := r.partCells
  ghosts := .uniform r.ghost
  counts_pos := h.processors_pos
  extent_lt a := by
    have hwhole := h.extent_lt a
    rw [wholeDims, extent_dims] at hwhole
    rw [partCells_mul h, PerAxis.get_uniform]
    exact hwhole

theorem isWhole (h : r.Even) : (r.grid h).IsWhole r.wholeDims := by
  intro a
  have hmul := partCells_mul h a
  rw [wholeDims, extent_dims, ProcessorGrid.wholeExtent, ← hmul, grid, PerAxis.get_uniform]

theorem isPart (h : r.Even) (hp : (r.grid h).Holds p) : (r.grid h).IsPart (r.partDims p) where
  holds := hp
  ghost_eq a := by rw [partDims, ghost_dims, grid, PerAxis.get_uniform]
  extent_eq a := by rw [partDims, extent_dims, grid, PerAxis.get_uniform]

theorem positions_ne_nil (h : r.Even) : r.positions ≠ [] := by
  have hfirst : (⟨0, 0, 0⟩ : PerAxis Nat) ∈ (r.grid h).positions :=
    ProcessorGrid.mem_positions.mpr fun a => by cases a <;> exact h.processors_pos _
  intro hnil
  have hpositions : (r.grid h).positions = r.positions := rfl
  rw [hpositions, hnil] at hfirst
  cases hfirst

theorem base_partDims (h : r.Even) (hp : (r.grid h).Holds p) (a : Axis) :
    (r.partDims p).base a = (r.offset p).get a := by
  rw [(isPart h hp).base_eq, offset, PerAxis.get_ofFn]
  rfl

theorem reaches_part (h : r.Even) (hp : (r.grid h).Holds p) :
    r.Reaches (r.partDims p) (r.offset p) := by
  intro a
  rw [← base_partDims h hp, isWhole h a]
  exact (isPart h hp).base_add_extent_le a

/-- Where a cell of the tensor of a part lies: at its index from the part's offset, and along a
dropped axis in the first interior plane. -/
theorem get_position (offset j : PerAxis Nat) (a : Axis) :
    (r.position offset (r.layout.axes.map j.get)).get a =
      if a ∈ r.layout.axes then offset.get a + j.get a else r.ghost := by
  rw [position, PerAxis.get_ofFn]
  cases r.layout <;> cases a <;> rfl

def valueAt (r : RunRecipe) (idx : List Nat) : Float :=
  let q := r.position (.uniform 0) idx.tail
  r.values (idx.headD 0) q.x q.y q.z

def coordinateAt (r : RunRecipe) (a : Axis) (k : Nat) : Binary64 :=
  .ofFloat (Float.ofNat k - Float.ofNat r.ghost + 0.5) * r.spacing.get a

theorem wholeTensor_eq (r : RunRecipe) :
    r.wholeTensor = .ofFn (r.layout.shape r.slotCount r.wholeDims) r.valueAt := rfl

theorem get_wholeCoords (r : RunRecipe) (a : Axis) :
    r.wholeCoords.get a = (List.range (r.wholeDims.extent a)).map (r.coordinateAt a) :=
  PerAxis.get_ofFn _ a

/-- The cells of a part have the values of the whole run. -/
theorem get?_tensor {d : Dimensions} (offset : PerAxis Nat) {j : PerAxis Nat} {slot : Nat}
    (hs : slot < r.slotCount) (hj : ∀ a ∈ r.layout.axes, j.get a < d.extent a) :
    (r.tensor d offset).get? (r.layout.index slot j) =
      some (r.valueAt (r.layout.index slot (.ofFn fun a => offset.get a + j.get a))) := by
  rw [tensor, Tensor.get?_ofFn, if_pos (StoredAxes.inside_index.mpr ⟨hs, hj⟩), Option.some.injEq]
  have hposition : r.position offset (r.layout.axes.map j.get) =
      r.position (.uniform 0)
        (r.layout.axes.map (PerAxis.ofFn fun a => offset.get a + j.get a).get) := by
    ext a
    rw [get_position, get_position, PerAxis.get_ofFn, PerAxis.get_uniform, Nat.zero_add]
  simp only [valueAt, StoredAxes.index, List.tail_cons, List.headD_cons, hposition]

theorem take_drop_range {n start length : Nat} (h : start + length ≤ n) :
    ((List.range n).drop start).take length = (List.range length).map fun k => start + k := by
  apply List.ext_getElem
  · simp only [List.length_take, List.length_drop, List.length_range, List.length_map]
    omega
  · intro k hk hk'
    simp

theorem get_coordRecord {d : Dimensions} {offset : PerAxis Nat} (h : r.Reaches d offset)
    (a : Axis) :
    (r.coordRecord d offset).coords.get a =
      (List.range (d.extent a)).map fun k => r.coordinateAt a (offset.get a + k) := by
  rw [coordRecord, PerAxis.get_ofFn, get_wholeCoords, ← List.map_drop, ← List.map_take,
    take_drop_range (h a), List.map_map]
  rfl

theorem at?_block {d : Dimensions} (offset : PerAxis Nat) {j : PerAxis Nat} {slot : Nat}
    (hs : slot < r.slotCount) (hj : ∀ a ∈ r.layout.axes, j.get a < d.extent a) :
    (r.block d offset : Block Float α).at? (r.layout.shape r.slotCount d) (r.layout.index slot j) =
      some (r.stored
        (r.valueAt (r.layout.index slot (.ofFn fun a => offset.get a + j.get a)))) := by
  have hin : Cell.Inside (r.layout.shape r.slotCount d) (r.layout.index slot j) :=
    StoredAxes.inside_index.mpr ⟨hs, hj⟩
  have hcell := get?_tensor offset hs hj
  have hshape : (r.tensor d offset).shape = r.layout.shape r.slotCount d := rfl
  rw [Tensor.get?, hshape, if_pos hin] at hcell
  rw [Block.at?, block, Array.getElem?_map, hcell, Option.map_some]

def part (r : RunRecipe) (p : PerAxis Nat) : Part Float α :=
  (r.partDims p, r.block (r.partDims p) (r.offset p))

/-- The files of the processors restrict one function of the whole run. -/
theorem restricts_part (h : r.Even) (hp : (r.grid h).Holds p) :
    (r.part p : Part Float α).Restricts (r.grid h) r.layout r.slotCount
      (fun idx => r.stored (r.valueAt idx))
      fun a k => r.precision.round (r.coordinateAt a k) where
  isPart := isPart h hp
  vars_eq := rfl
  cell_eq slot hs j hj := by
    have houtward : (r.partDims p).outward j = .ofFn fun a => (r.offset p).get a + j.get a := by
      ext a
      rw [Dimensions.outward, PerAxis.get_ofFn, PerAxis.get_ofFn, base_partDims h hp]
    have hcell := at?_block (α := α) (r := r) (d := r.partDims p) (r.offset p) hs hj
    rw [← houtward] at hcell
    exact hcell
  coord_eq a := by
    rw [part, block, CoordinateRecord.map, PerAxis.get_map, get_coordRecord (reaches_part h hp),
      List.map_map, base_partDims h hp]
    rfl

end RunRecipe

end GridSnapshot
