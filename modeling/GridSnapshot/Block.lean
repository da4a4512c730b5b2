import GridSnapshot.Persistence

namespace GridSnapshot

/-- Time, coordinates and spacings of a snapshot, and the shear offset of a sheared one. -/
structure CoordinateRecord (ω : Type) where
  time : ω
  coords : PerAxis (List ω)
  spacing : PerAxis ω
  shearOffset : Option ω

namespace CoordinateRecord

variable {ω : Type}

/-- How many reals the record has for the given extents. -/
def total (m : PerAxis Nat) (shear : Bool) : Nat := m.x + m.y + m.z + 4 + shear.toNat

/-- How many reals a reader expects, who adds words. -/
def count (m : PerAxis Nat) (shear : Bool) : Nat := Word.wrap (total m shear)

/-- Cuts the reals into the time, three coordinate lists, three spacings and the shear offset. -/
def split? (m : PerAxis Nat) (shear : Bool) (values : List ω) : Option (CoordinateRecord ω) :=
  match values with
  | [] => none
  | time :: rest =>
    let x := rest.take m.x
    let rest := rest.drop m.x
    let y := rest.take m.y
    let rest := rest.drop m.y
    let z := rest.take m.z
    match rest.drop m.z, shear with
    | [dx, dy, dz], false => some ⟨time, ⟨x, y, z⟩, ⟨dx, dy, dz⟩, none⟩
    | [dx, dy, dz, offset], true => some ⟨time, ⟨x, y, z⟩, ⟨dx, dy, dz⟩, some offset⟩
    | _, _ => none

def ofValues (m : PerAxis Nat) (shear : Bool) (values : List ω) :
    Except RecordFault (CoordinateRecord ω) :=
  if values.length ≠ count m shear then
    .error (.coordinateCount values.length (count m shear) m shear)
  else match split? m shear values with
    | some c => .ok c
    | none => .error .outOfRange

def toValues (c : CoordinateRecord ω) : List ω :=
  c.time :: (c.coords.x ++ c.coords.y ++ c.coords.z ++ c.spacing.toList ++ c.shearOffset.toList)

end CoordinateRecord

/-- What has to be known of a snapshot file to read it. -/
structure BlockForm where
  precision : Precision
  extents : PerAxis Nat
  /-- Cells of one variable slot. -/
  cells : Nat
  vars : Nat
  shear : Bool
  readsPersistence : Bool

/-- The contents of a snapshot file. The variables are cast to the element type of the tensor; time
and coordinates stay wide. -/
structure Block (ω α : Type) where
  data : Array α
  vars : Nat
  coords : CoordinateRecord ω
  persistence : Persistence ω

namespace Block

variable {α : Type} [Narrowing Float α]

def checkCount (spec : BlockForm) (data : Array α) : Except RecordFault Unit :=
  if spec.cells = 0 ∨ data.size % spec.cells ≠ 0 ∨
      data.size ≠ Word.wrap (spec.vars * spec.cells) then
    .error (.tensorCount data.size spec.vars spec.cells)
  else .ok ()

/-- One record with the variables of all cells, one with the time, the coordinates and the spacings,
and on demand the persistent values. -/
def read (spec : BlockForm) : Reading (Block Float α) := do
  let data : Array α ← Reading.reals "field tensor" spec.precision
  Reading.check (checkCount spec data)
  let values : Array Float ← Reading.reals "coordinates" spec.precision
  let coords ← Reading.check (CoordinateRecord.ofValues spec.extents spec.shear values.toList)
  let persistence ← if spec.readsPersistence then Persistence.read spec.precision else pure .empty
  pure ⟨data, spec.vars, coords, persistence⟩

/-- The written form of a snapshot file without persistent values. -/
def encode (p : Precision) (data : List Binary64) (coords : CoordinateRecord Binary64) : Bytes :=
  Record.frame (Record.encodeReals p data) ++ Record.frame (Record.encodeReals p coords.toValues)

end Block

end GridSnapshot
