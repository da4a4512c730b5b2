import GridSnapshot.Proofs.Calls
import GridSnapshot.Proofs.Consistency
import GridSnapshot.Proofs.Tables

namespace GridSnapshot

open Outcome Call

/-- The index in the part that goes to an index of the whole array. -/
def Placement.source (p : Placement) (i : Nat) : Nat := i - p.whole.start + p.part.start

namespace Assembly

variable {ω α : Type}

/-- The assembly with other coordinates along one axis. -/
def withCoords (asm : Assembly ω α) (a : Axis) (xs : List α) : Assembly ω α :=
  { asm with coords := .ofFn fun b => if b = a then xs else asm.coords.get b }

/-- Cuts a box out of the tensor and assigns it a box of another one. -/
def assignBox [Zero α] (target : List Span) (t : Tensor α) (source : List Span) :
    Call LayoutFault (Assembly ω α) Unit := do
  let asm ← get
  need (List.Forall₂ Span.In target asm.f.shape)
  need (List.Forall₂ Span.In source t.shape)
  need (target.map Span.length = source.map Span.length)
  modify fun asm => { asm with f := asm.f.writeBox target t source }

/-- Cuts a range out of the coordinates along an axis and assigns it a range of a list. -/
def assignCoords [Narrowing ω α] (a : Axis) (p : Placement) (source : List ω) :
    Call LayoutFault (Assembly ω α) Unit := do
  let asm ← get
  need (p.whole.In (asm.coords.get a).length)
  need (p.part.In source.length)
  need (p.whole.length = p.part.length)
  modify fun asm => asm.withCoords a (writeSpan (asm.coords.get a) p source)

/-- Places a part step by step in the order of the checks and the writes. -/
def placing [Zero α] [Narrowing ω α] (part : Dimensions) (block : Block ω α) :
    Call LayoutFault (Assembly ω α) Unit := do
  let asm ← get
  let p ← settle (placements asm.dims part)
  settle (if block.vars ≠ asm.vars then .error (.variableCount block.vars asm.vars) else .ok ())
  let t ← settle (partTensor (asm.layout.shape asm.vars part) block.data)
  let slots : Span := ⟨0, asm.vars⟩
  assignBox (slots :: asm.layout.axes.map fun a => (p.get a).whole) t
    (slots :: asm.layout.axes.map fun a => (p.get a).part)
  assignCoords .x (p.get .x) (block.coords.coords.get .x)
  assignCoords .y (p.get .y) (block.coords.coords.get .y)
  assignCoords .z (p.get .z) (block.coords.coords.get .z)
  modify fun asm => { asm with
    scalars := some (.ofRecord block.coords)
    persistence := asm.persistence.insertMany block.persistence.entries
    placed := asm.placed + 1 }

section Steps

variable {asm : Assembly ω α}

end Steps

section Kept

variable {l : StoredAxes} {vars : Nat} {whole : Dimensions}

/-- What calls make of an empty assembly, whether they come to their end or not. -/
inductive Reachable [Zero α] [Narrowing ω α] (l : StoredAxes) (vars : Nat) (whole : Dimensions) :
    Assembly ω α → Prop where
  | empty : Reachable l vars whole (empty l whole vars)
  | call {asm : Assembly ω α} (h : Reachable l vars whole asm) (part : Dimensions)
      (block : Block ω α) : Reachable l vars whole ((placing part block).run.run asm).2

end Kept

section Agreement

variable {l : StoredAxes} {vars : Nat} {whole part : Dimensions} {asm asm' : Assembly ω α}
  {block : Block ω α}

/-- Why a part is not placed. -/
inductive Refuses (vars : Nat) (whole part : Dimensions) (block : Block ω α) : Prop where
  | margins (a : Axis) (h : part.extent a < 2 * part.ghost a)
  | beyond (a : Axis) (h : whole.extent a < (part.owned a).stop)
  | variables (h : block.vars ≠ vars)

variable [Zero α] [Narrowing ω α]

section Put

variable {t : Tensor α} {slot : Nat} {i : PerAxis Nat} {a : Axis} {k : Nat}

end Put

end Agreement

/-- A row of zeros along x, as a part or as a whole array. -/
def row (extent ghost position : Nat) : Dimensions × Block Float Float :=
  (⟨⟨extent, 1, 1⟩, ⟨ghost, 0, 0⟩, 1, 0, .double, .uniform 1, ⟨position, 0, 0⟩⟩,
    ⟨Array.replicate extent 0, 1, ⟨0, ⟨List.replicate extent 0, [0], [0]⟩, .uniform 1, none⟩,
      .empty⟩)

end Assembly

end GridSnapshot
