import GridSnapshot.Proofs.Cells
import GridSnapshot.Proofs.PlacedRun
import GridSnapshot.Proofs.RecordDefects

namespace GridSnapshot

open Outcome

namespace Tensor

variable {α β : Type} {f : α → β}

theorem cells_map (f : α → β) (t : Tensor α) : (t.map f).cells = t.cells.map f := rfl

theorem map_id_of {f : α → α} (hf : ∀ x, f x = x) (t : Tensor α) : t.map f = t := by
  have hid : f = id := funext hf
  obtain ⟨shape, cells, h⟩ := t
  simp [map, hid]

theorem map_fill (shape : List Nat) (x : α) : (fill shape x).map f = fill shape (f x) := by
  simp [map, fill]

theorem ofArray?_map (shape : List Nat) (cells : Array α) :
    ofArray? shape (cells.map f) = (ofArray? shape cells).map (map f) := by
  unfold ofArray?
  by_cases h : cells.size = volume shape
  · have hmap : (cells.map f).size = volume shape := by rw [Array.size_map, h]
    rw [dif_pos h, dif_pos hmap]
    rfl
  · have hmap : ¬ (cells.map f).size = volume shape := by rwa [Array.size_map]
    rw [dif_neg h, dif_neg hmap]
    rfl

theorem map_mapPlaces (t : Tensor α) {g : Nat → α → α} {g' : Nat → β → β}
    (h : ∀ i x, g' i (f x) = f (g i x)) : (t.map f).mapPlaces g' = (t.mapPlaces g).map f := by
  refine ext_get? rfl fun idx _ => ?_
  rw [get?_mapPlaces, get?_map, get?_map, get?_mapPlaces, Option.map_map, Option.map_map]
  exact Option.map_congr fun x _ => h _ x

variable [Zero α] [Zero β]

theorem cell_map (hf : f 0 = 0) (t : Tensor α) (idx : List Nat) :
    (t.map f).cell idx = f (t.cell idx) := by
  rw [cell, cell, get?_map, ← hf, Option.getD_map]

theorem map_writeBox (hf : f 0 = 0) (t source : Tensor α) (target spans : List Span) :
    (t.map f).writeBox target (source.map f) spans = (t.writeBox target source spans).map f := by
  unfold writeBox
  rw [map_ofFn]
  have hcell (idx : List Nat) :
      (if Cell.InBox target idx then (source.map f).cell (Cell.shift target spans idx)
        else (t.map f).cell idx) =
      f (if Cell.InBox target idx then source.cell (Cell.shift target spans idx)
        else t.cell idx) := by
    split
    · exact cell_map hf source _
    · exact cell_map hf t idx
  simp only [hcell]
  rfl

end Tensor

namespace Word

theorem map_readMany {α β : Type} (f : α → β) (k : Nat) (g : Bytes → α) (n : Nat) (bs : Bytes) :
    (readMany k g n bs #[]).map f = readMany k (fun word => f (g word)) n bs #[] := by
  rw [readMany_eq, readMany_eq]
  simp [Function.comp_def]

end Word

variable {α : Type} [Narrowing Float α]

theorem Record.reals_eq_map (p : Precision) (payload : Bytes) :
    (reals p payload : Except RecordFault (Array α)) =
      (reals p payload : Except RecordFault (Array Float)).map (Array.map narrow) := by
  unfold reals
  split
  · rfl
  · exact congrArg Except.ok (Word.map_readMany _ _ _ _ _).symm

theorem Reading.check_map {β γ : Type} (f : β → γ) (x : Except RecordFault β) :
    check (x.map f) = f <$> check x := by
  cases x with
  | error e => rfl
  | ok b => rfl

theorem Reading.reals_eq_map (what : String) (p : Precision) :
    (reals what p : Reading (Array α)) =
      Array.map narrow <$> (reals what p : Reading (Array Float)) := by
  unfold reals
  rw [map_bind]
  refine bind_congr fun payload => ?_
  rw [Record.reals_eq_map, check_map]

theorem Reading.decode_map {β γ : Type} (f : β → γ) (step : Reading β) (bytes : Bytes) :
    decode (f <$> step) bytes = (decode step bytes).map f := by
  unfold decode
  simp only [ExceptT.run_map, StateT.run_map]
  rfl

/-- The block with its elements cast. -/
def Block.map {ω β γ : Type} (f : β → γ) (b : Block ω β) : Block ω γ :=
  ⟨b.data.map f, b.vars, b.coords, b.persistence⟩

namespace Block

theorem checkCount_map {β γ : Type} (f : β → γ) (spec : BlockForm) (data : Array β) :
    checkCount spec (data.map f) = checkCount spec data := by
  rw [checkCount, checkCount, Array.size_map]

theorem read_eq_map (spec : BlockForm) : (read spec : Reading (Block Float α)) =
    map narrow <$> (read spec : Reading (Block Float Float)) := by
  unfold read
  rw [Reading.reals_eq_map, bind_map_left, map_bind]
  refine bind_congr fun data => ?_
  rw [checkCount_map, map_bind]
  refine bind_congr fun _ => ?_
  rw [map_bind]
  refine bind_congr fun values => ?_
  rw [map_bind]
  refine bind_congr fun coords => ?_
  split
  · rw [map_bind]
    rfl
  · rfl

end Block

namespace SnapshotScalars

def map {β γ : Type} (f : β → γ) (c : SnapshotScalars β) : SnapshotScalars γ :=
  ⟨f c.time, c.spacing.map f, c.shearOffset.map f⟩

theorem ofRecord_eq_map (c : CoordinateRecord Float) :
    (ofRecord c : SnapshotScalars α) = (ofRecord c : SnapshotScalars Float).map narrow := by
  unfold ofRecord map
  rw [Option.map_map]
  rfl

end SnapshotScalars

namespace Assembly

/-- The assembly with its elements cast. -/
def map {ω β γ : Type} (f : β → γ) (asm : Assembly ω β) : Assembly ω γ where
  layout := asm.layout
  dims := asm.dims
  vars := asm.vars
  f := asm.f.map f
  coords := asm.coords.map (·.map f)
  scalars := asm.scalars.map (·.map f)
  persistence := asm.persistence
  placed := asm.placed

theorem partTensor_map {β γ : Type} (f : β → γ) (shape : List Nat) (data : Array β) :
    partTensor shape (data.map f) = (partTensor shape data).map (·.map f) := by
  have htake : (data.map f).take (volume shape) = (data.take (volume shape)).map f := by
    rw [Array.take_eq_extract, Array.take_eq_extract, Array.map_extract]
  unfold partTensor
  rw [htake, Tensor.ofArray?_map, Array.size_map]
  cases Tensor.ofArray? shape (data.take (volume shape)) with
  | none => rfl
  | some t => rfl

/-- Entries that are written are cast, and so are those that were there. -/
theorem writeSpan_map (xs : List Float) (p : Placement) (source : List Float) :
    writeSpan (xs.map narrow) p source = (writeSpan xs p source).map (narrow : Float → α) := by
  unfold writeSpan
  apply List.ext_getElem?
  intro i
  simp only [List.getElem?_mapIdx, List.getElem?_map, Option.map_map]
  refine Option.map_congr fun x _ => ?_
  simp only [Function.comp_apply]
  split
  · split
    · rfl
    · rfl
  · rfl

theorem empty_map {ω β γ : Type} [Zero β] [Zero γ] {f : β → γ} (hf : f 0 = 0) (layout : StoredAxes)
    (dims : Dimensions) (vars : Nat) :
    (empty layout dims vars : Assembly ω β).map f = empty layout dims vars := by
  unfold empty map
  simp only [mk.injEq, true_and, and_true, Option.map_none]
  refine ⟨by rw [Tensor.map_fill, hf], ?_⟩
  refine PerAxis.ext_get fun a => ?_
  simp only [PerAxis.get_map, List.map_replicate, hf]

variable [Zero α]

/-- Placing a part and casting can be done in either order. -/
theorem place_map (hzero : (narrow (Zero.zero : Float) : α) = 0) (asm : Assembly Float Float)
    (part : Dimensions) (block : Block Float Float) :
    (asm.map narrow).place part (block.map narrow) =
      (asm.place part block).map (map (narrow : Float → α)) := by
  unfold place
  rw [bind_map]
  refine bind_congr fun p => ?_
  by_cases hvars : block.vars = asm.vars
  · simp only [map, Block.map, hvars, ne_eq, not_true_eq_false, if_false]
    refine bind_eq_map (partTensor_map narrow _ _) fun t => ?_
    split
    · refine congrArg Except.ok ?_
      simp only [map, mk.injEq, true_and]
      refine ⟨Tensor.map_writeBox hzero _ _ _ _, ?_, ?_, trivial⟩
      · refine PerAxis.ext_get fun a => ?_
        simp only [PerAxis.get_map, PerAxis.get_ofFn]
        exact writeSpan_map _ _ _
      · rw [SnapshotScalars.ofRecord_eq_map]
        rfl
    · rfl
  · simp only [map, Block.map, ne_eq, hvars, not_false_eq_true, if_true]
    rfl

end Assembly

namespace SnapshotContent

/-- The content of a snapshot with its elements cast. -/
def map {ω β γ : Type} (f : β → γ) (c : SnapshotContent ω β) : SnapshotContent ω γ where
  f := c.f.map f
  layout := c.layout
  coords := c.coords.map (·.map f)
  time := f c.time
  spacing := c.spacing.map f
  shearOffset := c.shearOffset.map f
  bounds := c.bounds
  metadata := c.metadata
  persistence := c.persistence
  grid := c.grid

end SnapshotContent

namespace Snapshot

/-- The snapshot with its elements cast: each element of the tensor, of the coordinates and of the
derived fields, the time, the spacings and the shear offset. All else stays. -/
def map {ω β γ : Type} (f : β → γ) (s : Snapshot ω β) : Snapshot ω γ where
  toSnapshotContent := s.toSnapshotContent.map f
  trimmed := s.trimmed
  views := s.views
  derived := s.derived.mapValues (·.map f)
  failures := s.failures

theorem ofContent_map {ω β γ : Type} (f : β → γ) (c : SnapshotContent ω β) :
    ofContent (c.map f) = (ofContent c).map f := rfl

end Snapshot

end GridSnapshot
