import GridSnapshot.CentralDifference
import GridSnapshot.DerivedQuantity
import GridSnapshot.Thermodynamics

namespace GridSnapshot

inductive Outcome where
  | computed (names : List String)
  | alreadyPresent
  | failed (e : DerivationFault)
  deriving DecidableEq, Repr

/-- What became of each field, in the order of the first requests. -/
abbrev DerivationLog := List (DerivedQuantity × Outcome)

namespace DerivationLog

def firstFailure (r : DerivationLog) : Option (DerivedQuantity × DerivationFault) :=
  r.findSome? fun
    | (f, .failed e) => some (f, e)
    | _ => none

def failureCount (r : DerivationLog) : Nat :=
  (r.filter fun
    | (_, .failed _) => true
    | _ => false).length

def isClean (r : DerivationLog) : Bool := r.firstFailure.isNone

def summary (r : DerivationLog) : String :=
  s!"{r.length} derived field(s) requested, {r.failureCount} failed"

end DerivationLog

namespace Derivation

variable {ω α : Type} [RealOps ω] [RealOps α] [Narrowing ω α]

/-- A coordinate system that the curl does not support is a failure of the field. -/
def retag (field : DerivedQuantity) : DerivationFault → DerivationFault
  | .unsupportedCoordinates _ system => .unsupportedCoordinates field.tag system
  | e => e

def source (field : DerivedQuantity) (s : Snapshot ω α) (name wanted : String) :
    Except DerivationFault (Tensor α) :=
  match s.field? name with
  | some t => .ok t
  | none => .error (.missingField field.tag [wanted])

def magneticName (group : String) : String :=
  "bb" ++ String.ofList (group.toList.drop 2)

/-- The magnetic fields that are not there yet, each under its name. -/
def magneticFields (op : CurlScheme ω α) (s : Snapshot ω α) (g : StencilGrid ω) :
    List VectorSlots → Except DerivationFault (List (String × Tensor α))
  | [] => .ok []
  | group :: groups => do
    let name := magneticName group.name
    if s.has name then magneticFields op s g groups
    else
      let a ← source .bbtest s group.name "aatest"
      let b ← (op.curl g a).mapError (retag .bbtest)
      .ok ((name, b) :: (← magneticFields op s g groups))

def compute (op : CurlScheme ω α) (s : Snapshot ω α) (field : DerivedQuantity) :
    Except DerivationFault (List (String × Tensor α)) := do
  let one := fun (t : Tensor α) => [(field.tag, t)]
  match field with
  | .bb | .jj =>
    let a ← source field s "aa" "aa"
    let g := StencilGrid.ofSnapshot s
    let r := if field = .jj then op.doubleCurl g a else op.curl g a
    one <$> r.mapError (retag field)
  | .vort =>
    let u ← source field s "uu" "uu"
    one <$> (op.curl (StencilGrid.ofSnapshot s) u).mapError (retag field)
  | .bbtest =>
    match s.metadata.index.numberedGroups "aatest" with
    | [] => .error (.missingField field.tag ["aatest"])
    | groups => magneticFields op s (StencilGrid.ofSnapshot s) groups
  | .rho => one <$> Thermodynamics.density s
  | .tt => one <$> Thermodynamics.temperature s
  | .ss => one <$> Thermodynamics.entropy s
  | .pp => one <$> Thermodynamics.pressure s

/-- Stores arrays up to the first that does not fit; those in front of it stay. -/
def store (s : Snapshot ω α) : List (String × Tensor α) → Snapshot ω α × Option DerivationFault
  | [] => (s, none)
  | (name, t) :: rest =>
    match s.addDerived name t with
    | .ok s => store s rest
    | .error e => (s, some e)

def attempt (op : CurlScheme ω α) (s : Snapshot ω α) (field : DerivedQuantity) :
    Except DerivationFault (List (String × Tensor α)) :=
  if field.kind = .vectorCalculus ∧ s.trimmed then
    .error (.shapeMismatch (.needsGhosts field.tag))
  else compute op s field

def fail (s : Snapshot ω α) (field : DerivedQuantity) (e : DerivationFault) :
    Snapshot ω α × Outcome :=
  (s.noteFailure field.tag e, .failed e)

def derive (op : CurlScheme ω α) (s : Snapshot ω α) (field : DerivedQuantity) :
    Snapshot ω α × Outcome :=
  if field ≠ .bbtest ∧ s.has field.tag then (s, .alreadyPresent)
  else match attempt op s field with
    | .error e => fail s field e
    | .ok [] => (s, .alreadyPresent)
    | .ok arrays => match store s arrays with
      | (s, none) => (s, .computed (arrays.map Prod.fst))
      | (s, some e) => fail s field e

/-- Derives fields one after the other, each only once. -/
def deriveAll (op : CurlScheme ω α) :
    List DerivedQuantity → Snapshot ω α → DerivationLog → Snapshot ω α × DerivationLog
  | [], s, report => (s, report)
  | field :: fields, s, report =>
    if field ∈ report.map Prod.fst then deriveAll op fields s report
    else
      let (s, outcome) := derive op s field
      deriveAll op fields s (report ++ [(field, outcome)])

end Derivation

/-- Derives the requested fields and reports on them. -/
def Snapshot.derive {ω α : Type} [RealOps ω] [RealOps α] [Narrowing ω α] (s : Snapshot ω α)
    (op : CurlScheme ω α) (fields : List DerivedQuantity) : Snapshot ω α × DerivationLog :=
  Derivation.deriveAll op fields s []

end GridSnapshot
