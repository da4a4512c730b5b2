import GridSnapshot.Scalar

namespace GridSnapshot

/-- Rules for the value of a cell, from its slot and its place in the whole grid. -/
inductive CellPattern where
  /-- Each pair of digits is one coordinate. -/
  | positional
  | gentle
  | ripple
  /-- Polynomials of third degree. -/
  | cubic
  | constant
  /-- Smooth and bounded in all directions. -/
  | smooth
  deriving DecidableEq, Repr

namespace CellPattern

def name : CellPattern → String
  | positional => "positional"
  | gentle => "gentle"
  | ripple => "ripple"
  | cubic => "cubic"
  | constant => "constant"
  | smooth => "smooth"

def ofName? (name : String) : Option CellPattern :=
  [positional, gentle, ripple, cubic, constant, smooth].find? fun p => p.name = name

/-- Cubic polynomials around the middle of a small grid, one for each slot modulo four. -/
def cubicValue (slot : Nat) (x y z : Float) : Float :=
  match slot % 4 with
  | 0 => x * y * z
  | 1 => x * x * x - z
  | 2 => y * y * x
  | _ => 0.25 * x - 0.5 * z

def value (p : CellPattern) (slot x y z : Nat) : Float :=
  let n := Float.ofNat
  match p with
  | positional => n slot * 1e6 + n z * 1e4 + n y * 100.0 + n x
  | gentle => 0.05 * (n slot + 1.0) + 0.01 * (n x + 2.0 * n y + 3.0 * n z)
  | ripple => n ((slot * 7 + x * x * 3 + y * 5 + z * x * 11) % 17) * 0.125 - 1.0
  | cubic => cubicValue slot (n x - 2.5) (n y - 2.5) (n z - 2.5)
  | constant => n slot - 1.0
  | smooth =>
    0.1 * (n slot + 1.0)
      * (Float.sin (n x * 0.05) + Float.cos (n y * 0.07) * Float.sin (n z * 0.11))

end CellPattern

end GridSnapshot
