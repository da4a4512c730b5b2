import GridSnapshot.Block
import GridSnapshot.Placement
import GridSnapshot.ReadFault
import GridSnapshot.Snapshot

namespace GridSnapshot

/-- The numbers of a snapshot that have no cells; the last part decides them. -/
structure SnapshotScalars (α : Type) where
  time : α
  spacing : PerAxis α
  shearOffset : Option α

def SnapshotScalars.ofRecord {ω α : Type} [Narrowing ω α] (c : CoordinateRecord ω) :
    SnapshotScalars α :=
  ⟨narrow c.time, c.spacing.map narrow, c.shearOffset.map narrow⟩

/-- A whole tensor that parts are placed in. -/
structure Assembly (ω α : Type) where
  layout : StoredAxes
  dims : Dimensions
  vars : Nat
  f : Tensor α
  coords : PerAxis (List α)
  scalars : Option (SnapshotScalars α)
  persistence : Persistence ω
  placed : Nat

namespace Assembly

variable {ω α : Type}

def empty [Zero α] (layout : StoredAxes) (dims : Dimensions) (vars : Nat) : Assembly ω α where
  layout := layout
  dims := dims
  vars := vars
  f := .fill (layout.shape vars dims) 0
  coords := dims.extents.map fun n => List.replicate n 0
  scalars := none
  persistence := .empty
  placed := 0

/-- Where a part with the given dimensions goes along an axis. -/
def placeAlong (whole part : Dimensions) (a : Axis) : Except LayoutFault Placement :=
  match Placement.along? (part.position.get a) (part.ghost a) (part.extent a) with
  | none => .error (.margins (part.extent a) a)
  | some p =>
    if whole.extent a < p.whole.stop then
      .error (.beyondGlobal (part.position.get a) a p.whole.stop (whole.extent a))
    else .ok p

def placements (whole part : Dimensions) : Except LayoutFault (PerAxis Placement) := do
  let x ← placeAlong whole part .x
  let y ← placeAlong whole part .y
  let z ← placeAlong whole part .z
  .ok ⟨x, y, z⟩

/-- The tensor of a part; values beyond its last cell are left out. -/
def partTensor (shape : List Nat) (data : Array α) : Except LayoutFault (Tensor α) :=
  match Tensor.ofArray? shape (data.take (volume shape)) with
  | some t => .ok t
  | none => .error (.blockShape shape data.size)

/-- Overwrites the entries of a list inside one span with those of another list inside another. -/
def writeSpan [Narrowing ω α] (xs : List α) (p : Placement) (source : List ω) : List α :=
  xs.mapIdx fun i x =>
    if p.whole.Contains i then
      match source[i - p.whole.start + p.part.start]? with
      | some v => narrow v
      | none => x
    else x

/-- Writes a part where its placement says, over what earlier parts left there. -/
def place [Zero α] [Narrowing ω α] (asm : Assembly ω α) (part : Dimensions) (block : Block ω α) :
    Except LayoutFault (Assembly ω α) := do
  let p ← placements asm.dims part
  if block.vars ≠ asm.vars then .error (.variableCount block.vars asm.vars)
  else
    let t ← partTensor (asm.layout.shape asm.vars part) block.data
    -- the coordinates are cut along every axis, stored or not
    if ∀ a ∈ Axis.all, (p.get a).Forward then
      let slots : Span := ⟨0, asm.vars⟩
      let target := slots :: asm.layout.axes.map fun a => (p.get a).whole
      let source := slots :: asm.layout.axes.map fun a => (p.get a).part
      .ok { asm with
        f := asm.f.writeBox target t source
        coords := .ofFn fun a => writeSpan (asm.coords.get a) (p.get a) (block.coords.coords.get a)
        scalars := some (.ofRecord block.coords)
        persistence := asm.persistence.insertMany block.persistence.entries
        placed := asm.placed + 1 }
    else .error .outOfRange

def snapshot (asm : Assembly ω α) (metadata : RunMetadata ω) (grid : Option (Grid ω)) :
    Except LayoutFault (Snapshot ω α) :=
  match asm.scalars with
  | none => .error .nothingPlaced
  | some c => .ok (.ofContent {
      f := asm.f
      layout := asm.layout
      coords := asm.coords
      time := c.time
      spacing := c.spacing
      shearOffset := c.shearOffset
      bounds := asm.dims.interiorBounds
      metadata := metadata
      persistence := asm.persistence
      grid := grid })

end Assembly

end GridSnapshot
