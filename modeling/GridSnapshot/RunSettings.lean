import GridSnapshot.Scalar
import GridSnapshot.Text.Blank

namespace GridSnapshot

inductive CoordinateSystem where
  | cartesian
  | cylindric
  | spherical
  deriving DecidableEq, Repr

namespace CoordinateSystem

def name : CoordinateSystem → String
  | cartesian => "cartesian"
  | cylindric => "cylindric"
  | spherical => "spherical"

/-- Reads a name in any case, with blanks around it. -/
def ofName? (text : List Char) : Option CoordinateSystem :=
  let name := String.ofList (Text.asciiLower (Text.trim text))
  if name = "cartesian" then some cartesian
  else if name = "cylindric" ∨ name = "cylindrical" then some cylindric
  else if name = "spherical" then some spherical
  else none

end CoordinateSystem

structure EquationOfState (ω : Type) where
  /-- Specific heat at constant pressure. -/
  cp : ω
  /-- Ratio of the specific heats. -/
  gamma : ω
  /-- Sound speed of the reference state. -/
  soundSpeed : ω
  /-- Density of the reference state. -/
  density : ω

namespace EquationOfState

variable {ω : Type}

def standard [FieldOps ω] : EquationOfState ω :=
  let n := RingOps.ofInt (α := ω)
  ⟨n 1, n 5 / n 3, n 1, n 1⟩

def cv [FieldOps ω] (e : EquationOfState ω) : ω := e.cp / e.gamma

def logDensity [RealOps ω] (e : EquationOfState ω) : ω := RealOps.log e.density

def logTemperature [RealOps ω] (e : EquationOfState ω) : ω :=
  RealOps.log (e.soundSpeed * e.soundSpeed / (e.cp * (e.gamma - RingOps.ofInt 1)))

end EquationOfState

/-- The parameters of a run that say how its snapshots are stored and read. -/
structure RunSettings (ω : Type) where
  /-- How the run wrote its output, if it says so. -/
  ioStrategy : Option String
  /-- One processor wrote the output of all. -/
  collective : Bool
  writesAuxiliary : Bool
  twoDimensional : Bool
  /-- A shearing box, whose snapshots hold the shear offset. -/
  shear : Bool
  coordinates : CoordinateSystem
  eos : EquationOfState ω

namespace RunSettings

def standard {ω : Type} [FieldOps ω] : RunSettings ω :=
  ⟨none, false, false, false, false, .cartesian, .standard⟩

end RunSettings

end GridSnapshot
