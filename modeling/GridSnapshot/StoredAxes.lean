import GridSnapshot.Dimensions
import GridSnapshot.Tensor

namespace GridSnapshot

/-- Which axes a tensor stores. Two-dimensional output drops the axis that has one interior cell. -/
inductive StoredAxes where
  | full
  | xz
  | xy
  deriving DecidableEq, Repr

namespace StoredAxes

/-- The stored axes, slowest first. -/
def axes : StoredAxes → List Axis
  | full => [.z, .y, .x]
  | xz => [.z, .x]
  | xy => [.y, .x]

def dropped : StoredAxes → Option Axis
  | full => none
  | xz => some .y
  | xy => some .z

def name : StoredAxes → String
  | full => "Full"
  | xz => "ReducedXz"
  | xy => "ReducedXy"

def ofName? (name : String) : Option StoredAxes := [full, xz, xy].find? fun l => l.name = name

theorem mem_axes_iff (l : StoredAxes) (a : Axis) : a ∈ l.axes ↔ l.dropped ≠ some a := by
  cases l <;> cases a <;> decide

/-- A run with two-dimensional output drops y if y has one interior cell, else z. -/
def ofOutput (twoDimensional : Bool) (d : Dimensions) : StoredAxes :=
  if twoDimensional then if d.interior .y = 1 then xz else xy else full

def cellShape (l : StoredAxes) (d : Dimensions) : List Nat := l.axes.map d.extent

def shape (l : StoredAxes) (vars : Nat) (d : Dimensions) : List Nat := vars :: l.cellShape d

/-- Cells of one variable slot. -/
def cells (l : StoredAxes) (d : Dimensions) : Nat := volume (l.cellShape d)

end StoredAxes

end GridSnapshot
