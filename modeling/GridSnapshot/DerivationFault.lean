import GridSnapshot.RunSettings
import GridSnapshot.Tensor

namespace GridSnapshot

/-- Which shapes do not go together. -/
inductive ShapeFault where
  | inputs (first second : List Nat)
  | vector (operator : String) (spatial shape : List Nat)
  | derived (name : String) (shape spatial : List Nat)
  | needsGhosts (field : String)
  /-- A fault that somebody else found, in their words. -/
  | described (text : String)
  deriving DecidableEq, Repr

def ShapeFault.message : ShapeFault → String
  | inputs first second => s!"inputs have shapes {shapeText first} and {shapeText second}"
  | vector operator spatial shape =>
    s!"{operator} needs a [3, {shapeText spatial}] vector, got {shapeText shape}"
  | derived name shape spatial =>
    s!"derived '{name}' has shape {shapeText shape}, spatial shape is {shapeText spatial}"
  | needsGhosts field => s!"'{field}' needs ghost cells; derive before trimming"
  | described text => text

inductive DerivationFault where
  /-- None of the alternatives is there. -/
  | missingField (field : String) (alternatives : List String)
  | unsupportedCoordinates (field : String) (system : CoordinateSystem)
  | shapeMismatch (fault : ShapeFault)
  deriving DecidableEq, Repr

namespace DerivationFault

/-- Names joined as alternatives, with commas from three on. -/
def orText : List String → String
  | [] => ""
  | [a] => a
  | [a, b] => a ++ " or " ++ b
  | names => ", ".intercalate names.dropLast ++ ", or " ++ names.getLast?.getD ""

def message : DerivationFault → String
  | missingField field alternatives => s!"cannot derive '{field}': missing {orText alternatives}"
  | unsupportedCoordinates field system => s!"cannot derive '{field}' on a {system.name} grid"
  | shapeMismatch fault => s!"shape mismatch: {fault.message}"

end DerivationFault

end GridSnapshot
