import GridSnapshot.DerivationFault
import GridSnapshot.Persistence
import GridSnapshot.RunMetadata
import GridSnapshot.StoredAxes

namespace GridSnapshot

/-- What a snapshot is made of before its fields are named. -/
structure SnapshotContent (ω α : Type) where
  f : Tensor α
  layout : StoredAxes
  coords : PerAxis (List α)
  time : α
  spacing : PerAxis α
  shearOffset : Option α
  /-- The indices between the ghost margins. -/
  bounds : PerAxis Span
  metadata : RunMetadata ω
  persistence : Persistence ω
  grid : Option (Grid ω)

/-- One tensor with the variable slots along its first axis, names for spans of slots, and derived
fields beside it. -/
structure Snapshot (ω α : Type) extends SnapshotContent ω α where
  trimmed : Bool
  /-- Names of fields and the slots they take. -/
  views : Table String Span
  derived : Table String (Tensor α)
  failures : Table String DerivationFault

inductive TrimFault where
  | alreadyTrimmed
  | boundsExceedExtent (axis : Axis) (bound extent : Nat)
  deriving DecidableEq, Repr

def TrimFault.message : TrimFault → String
  | alreadyTrimmed => "snapshot is already trimmed"
  | boundsExceedExtent axis bound extent =>
    s!"interior bound {bound} along {axis.name} exceeds extent {extent}"

namespace Snapshot

variable {ω α : Type}

/-- The views of single fields, those with a slot in the tensor. -/
def scalarViews (index : SlotIndex) (vars : Nat) : List (String × Span) :=
  (index.scalars.filter fun e => e.2 ≤ vars).map fun e => (e.1, ⟨e.2 - 1, e.2⟩)

/-- The views of vectors, those with all their slots in the tensor. -/
def vectorViews (index : SlotIndex) (vars : Nat) : List (String × Span) :=
  let groups := index.fixedGroups ++ SlotIndex.stems.flatMap index.numberedGroups
  (groups.filter fun g => g.slots.stop ≤ vars).map fun g => (g.name, g.slots)

/-- Names the fields of a snapshot; a vector takes the name of a single field from it. -/
def ofContent (c : SnapshotContent ω α) : Snapshot ω α :=
  let vars := c.f.shape.headD 0
  let index := c.metadata.index
  { c with
    trimmed := false
    views := (Table.ofList (scalarViews index vars)).insertMany (vectorViews index vars)
    derived := .empty
    failures := .empty }

/-- The shape of one variable slot. -/
def cellShape (s : Snapshot ω α) : List Nat := s.f.shape.tail

/-- Whether a view is a single field, which has no variable axis. -/
def isScalar (slots : Span) : Bool := slots.length = 1

/-- The slots of a view on an axis of variables. A span that wrapped ends before it starts, and its
start counts from the end of the axis. -/
def onAxis (vars : Nat) (slots : Span) : Span :=
  if slots.stop < slots.start then ⟨Word.wrap (slots.start + vars), slots.stop⟩ else slots

theorem onAxis_of_le {vars : Nat} {slots : Span} (h : slots.start ≤ slots.stop) :
    onAxis vars slots = slots := if_neg (Nat.not_lt.mpr h)

def view [Zero α] (s : Snapshot ω α) (slots : Span) : Tensor α :=
  if isScalar slots then s.f.row slots.start
  else s.f.sliceFirst (onAxis (s.f.shape.headD 0) slots)

/-- Whether a view starts outside the variable axis, so that the program stops where it is cut. -/
def isCutOutside (s : Snapshot ω α) (slots : Span) : Bool :=
  s.f.shape.headD 0 < (onAxis (s.f.shape.headD 0) slots).start

/-- A field that the tensor holds. -/
def field? [Zero α] (s : Snapshot ω α) (name : String) : Option (Tensor α) :=
  (s.views.get? name).map s.view

/-- A field that the tensor holds, or else a derived one. -/
def lookup? [Zero α] (s : Snapshot ω α) (name : String) : Option (Tensor α) :=
  match s.field? name with
  | some t => some t
  | none => s.derived.get? name

def has (s : Snapshot ω α) (name : String) : Bool :=
  s.views.contains name || s.derived.contains name

/-- Changes the cells of a field, each by a function of its place in the field. -/
def mapField? (s : Snapshot ω α) (name : String) (g : Nat → α → α) : Option (Snapshot ω α) :=
  (s.views.get? name).map fun slots =>
    let cells := volume s.cellShape
    let span := onAxis (s.f.shape.headD 0) slots
    let low := span.start * cells
    let high := span.stop * cells
    { s with f := s.f.mapPlaces fun i x => if low ≤ i ∧ i < high then g (i - low) x else x }

/-- Stores a derived field, whose last axes have to be those of the tensor, and forgets that it
failed before. -/
def addDerived (s : Snapshot ω α) (name : String) (t : Tensor α) :
    Except DerivationFault (Snapshot ω α) :=
  if s.cellShape.isSuffixOf t.shape then
    .ok { s with derived := s.derived.insert name t, failures := s.failures.erase name }
  else .error (.shapeMismatch (.derived name t.shape s.cellShape))

def noteFailure (s : Snapshot ω α) (name : String) (e : DerivationFault) : Snapshot ω α :=
  { s with failures := s.failures.insert name e }

/-- The stored axes with the extents that the tensor has along them, then all axes with the lengths
of their coordinates. -/
def trimExtents (s : Snapshot ω α) : List (Axis × Nat) :=
  List.zip s.layout.axes s.cellShape ++ Axis.all.map fun a => (a, (s.coords.get a).length)

def boundFault (s : Snapshot ω α) (a : Axis) (extent : Nat) : Option TrimFault :=
  let bound := (s.bounds.get a).stop
  if extent < bound then some (.boundsExceedExtent a bound extent) else none

theorem boundFault_eq_none_iff {s : Snapshot ω α} {a : Axis} {n : Nat} :
    s.boundFault a n = none ↔ (s.bounds.get a).stop ≤ n := by
  simp only [boundFault, ite_eq_right_iff, reduceCtorEq, imp_false, Nat.not_lt]

/-- The first bound that lies outside. -/
def trimFault (s : Snapshot ω α) : Option TrimFault :=
  if s.trimmed then some .alreadyTrimmed
  else s.trimExtents.findSome? fun (axis, extent) => s.boundFault axis extent

/-- Drops the ghost cells of the tensor, the derived fields and the coordinates, once. -/
def trim [Zero α] (s : Snapshot ω α) : Except TrimFault (Snapshot ω α) :=
  match s.trimFault with
  | some e => .error e
  | none =>
    let spans := s.layout.axes.map s.bounds.get
    .ok { s with
      f := s.f.sliceLast spans
      derived := s.derived.mapValues fun t => t.sliceLast spans
      coords := .ofFn fun a => (s.bounds.get a).slice (s.coords.get a)
      trimmed := true }

end Snapshot

end GridSnapshot
