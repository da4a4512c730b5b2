import GridSnapshot.Proofs.PersistentRecords

namespace GridSnapshot

open Outcome

namespace CoordinateRecord

variable {ω ω' : Type}

def map (f : ω → ω') (c : CoordinateRecord ω) : CoordinateRecord ω' where
  time := f c.time
  coords := c.coords.map (·.map f)
  spacing := c.spacing.map f
  shearOffset := c.shearOffset.map f

theorem toValues_map (f : ω → ω') (c : CoordinateRecord ω) :
    (c.map f).toValues = c.toValues.map f := by
  cases h : c.shearOffset <;> simp [toValues, map, PerAxis.map, PerAxis.toList, h]

variable {m : PerAxis Nat} {c : CoordinateRecord ω}

theorem length_toValues (hlen : ∀ a, (c.coords.get a).length = m.get a) :
    c.toValues.length = total m c.shearOffset.isSome := by
  have hx : c.coords.x.length = m.x := hlen .x
  have hy : c.coords.y.length = m.y := hlen .y
  have hz : c.coords.z.length = m.z := hlen .z
  cases h : c.shearOffset <;> simp [toValues, PerAxis.toList, total, hx, hy, hz, h] <;> omega

theorem split?_toValues (hlen : ∀ a, (c.coords.get a).length = m.get a) :
    split? m c.shearOffset.isSome c.toValues = some c := by
  have hx : c.coords.x.length = m.x := hlen .x
  have hy : c.coords.y.length = m.y := hlen .y
  have hz : c.coords.z.length = m.z := hlen .z
  obtain ⟨time, ⟨x, y, z⟩, ⟨dx, dy, dz⟩, shearOffset⟩ := c
  simp only at hx hy hz
  cases shearOffset <;>
    simp [split?, toValues, PerAxis.toList, List.append_assoc, List.take_left' hx,
      List.drop_left' hx, List.take_left' hy, List.drop_left' hy, List.take_left' hz,
      List.drop_left' hz]

theorem ofValues_toValues (hlen : ∀ a, (c.coords.get a).length = m.get a)
    (h : total m c.shearOffset.isSome < Word.count 8) :
    ofValues m c.shearOffset.isSome c.toValues = .ok c := by
  rw [ofValues_eq_ok_iff_split?, length_toValues hlen, count, Word.wrap_eq h]
  exact ⟨rfl, split?_toValues hlen⟩

end CoordinateRecord

namespace RunRecipe

variable {α : Type} [Narrowing Float α] {r : RunRecipe} {d : Dimensions} {offset : PerAxis Nat}

def stored (r : RunRecipe) (x : Float) : α := narrow (r.precision.round (.ofFloat x))

/-- The persistent values as they are read back. -/
def collected (r : RunRecipe) : Persistence Float :=
  r.persistence.foldl (fun values e => PersistentEntry.collect r.precision values e) .empty

/-- The contents of a snapshot file. -/
def block (r : RunRecipe) (d : Dimensions) (offset : PerAxis Nat) : Block Float α where
  data := (r.tensor d offset).cells.map r.stored
  vars := r.slotCount
  coords := (r.coordRecord d offset).map r.precision.round
  persistence := r.collected

def form (r : RunRecipe) (d : Dimensions) : BlockForm where
  precision := r.precision
  extents := d.extents
  cells := Word.wrap (r.layout.cells d)
  vars := r.slotCount
  shear := r.shearOffset.isSome
  readsPersistence := true

/-- A word counts the cells of a part, its records are short enough for their markers, and the
persistent values can be stored. -/
structure Writable (r : RunRecipe) (d : Dimensions) : Prop where
  cells_lt : r.layout.cells d < Word.count 8
  fields_lt : r.precision.bytes * (r.slotCount * r.layout.cells d) < Word.count 4
  coords_lt : r.precision.bytes * CoordinateRecord.total d.extents r.shearOffset.isSome <
    Word.count 4
  storable : ∀ e ∈ r.persistence, PersistentEntry.Storable e r.precision
  count_lt : r.persistence.length < Persistence.pairLimit

theorem Writable.values_lt (h : r.Writable d) : r.slotCount * r.layout.cells d < Word.count 8 :=
  Record.lt_count_of_bytes_mul_lt h.fields_lt

theorem Writable.total_lt (h : r.Writable d) :
    CoordinateRecord.total d.extents r.shearOffset.isSome < Word.count 8 :=
  Record.lt_count_of_bytes_mul_lt h.coords_lt

def Reaches (r : RunRecipe) (d : Dimensions) (offset : PerAxis Nat) : Prop :=
  ∀ a, offset.get a + d.extent a ≤ r.wholeDims.extent a

theorem length_coordRecord (h : r.Reaches d offset) (a : Axis) :
    (((r.coordRecord d offset).coords).get a).length = d.extents.get a := by
  have hle := h a
  simp only [coordRecord, wholeCoords, PerAxis.get_ofFn, List.length_take, List.length_drop,
    List.length_map, List.length_range]
  unfold Dimensions.extent at hle ⊢
  omega

theorem size_tensor (r : RunRecipe) (d : Dimensions) (offset : PerAxis Nat) :
    (r.tensor d offset).cells.size = r.slotCount * r.layout.cells d :=
  (r.tensor d offset).size_cells

theorem ofValues_coordRecord (h : r.Reaches d offset)
    (ht : CoordinateRecord.total d.extents r.shearOffset.isSome < Word.count 8) :
    CoordinateRecord.ofValues d.extents r.shearOffset.isSome
      ((r.coordRecord d offset).toValues.map r.precision.round) =
        .ok ((r.coordRecord d offset).map r.precision.round) := by
  have hlen (a : Axis) :
      ((((r.coordRecord d offset).map r.precision.round).coords).get a).length =
        d.extents.get a := by
    rw [CoordinateRecord.map, PerAxis.get_map, List.length_map, length_coordRecord h]
  have hshear : ((r.coordRecord d offset).map r.precision.round).shearOffset.isSome =
      r.shearOffset.isSome := Option.isSome_map
  have hvalues := CoordinateRecord.ofValues_toValues hlen (by rw [hshear]; exact ht)
  rw [CoordinateRecord.toValues_map, hshear] at hvalues
  exact hvalues

/-- A written snapshot file is decoded to the rounded values of its part. -/
theorem decode_snapshotFile (hw : r.Writable d) (hr : r.Reaches d offset)
    (hcells : r.layout.cells d ≠ 0) :
    (Block.read (r.form d)).decode (r.snapshotFile d offset) =
      .ok (r.block d offset : Block Float α) := by
  have hdata : r.precision.bytes *
      ((r.tensor d offset).cells.toList.map Binary64.ofFloat).length < Word.count 4 := by
    rw [List.length_map, Array.length_toList, r.size_tensor]
    exact hw.fields_lt
  have hcoords : r.precision.bytes * (r.coordRecord d offset).toValues.length < Word.count 4 := by
    rw [CoordinateRecord.length_toValues (length_coordRecord hr)]
    exact hw.coords_lt
  obtain ⟨s, hpersistence⟩ := Persistence.yields_read (n := 2) hw.storable hw.count_lt
  refine Reading.decode_eq_ok_iff.mpr ⟨s, Block.yields_read_iff.mpr ?_⟩
  rw [snapshotFile, Block.encode, List.append_assoc]
  refine ⟨_, _, _, _, _, _, Reading.yields_reals_frame _ _ hdata, ?_,
    Reading.yields_reals_frame _ _ hcoords, ofValues_coordRecord hr hw.total_lt, hpersistence, ?_⟩
  · have hform : (r.form d).cells = r.layout.cells d := Word.wrap_eq hw.cells_lt
    rw [Block.checkCount_eq_ok_iff_of_lt (by rw [hform]; exact hw.values_lt), hform]
    refine ⟨hcells, ?_⟩
    simp [form, r.size_tensor]
  · have hcells : (r.tensor d offset).cells.map r.stored =
        ((((r.tensor d offset).cells.toList.map Binary64.ofFloat).map fun x =>
          (narrow (r.precision.round x) : α)).toArray) := by
      apply Array.toList_inj.mp
      rw [Array.toList_map, List.map_map]
      rfl
    rw [block, hcells]
    rfl

end RunRecipe

end GridSnapshot
