import GridSnapshot.ReadFault
import GridSnapshot.Table
import GridSnapshot.Text.Blank

namespace GridSnapshot

/-- Datasets under slash-separated entry names. A scalar is a tensor without axes. -/
abbrev Container (ω : Type) := Table String (Tensor ω)

namespace Container

variable {ω : Type}

def putScalar (c : Container ω) (entry : String) (x : ω) : Container ω :=
  c.insert entry (.fill [] x)

def put? (c : Container ω) (entry : String) (shape : List Nat) (values : Array ω) :
    Option (Container ω) :=
  (Tensor.ofArray? shape values).map (c.insert entry)

/-- What follows the first text in the second. -/
def afterHead? : List Char → List Char → Option (List Char)
  | [], rest => some rest
  | _ :: _, [] => none
  | a :: as, b :: bs => if a = b then afterHead? as bs else none

def nameUnder? (group entry : String) : Option String :=
  match afterHead? (group ++ "/").toList entry.toList with
  | some rest => if '/' ∈ rest then none else some (String.ofList rest)
  | none => none

/-- The names under a group, in the order of their insertion; a group without any is missing. -/
def names (c : Container ω) (group : String) : Except ContainerFault (List String) :=
  match c.keys.filterMap (nameUnder? group) with
  | [] => .error (.missing group)
  | ns => .ok ns

def read (c : Container ω) (entry : String) : Except ContainerFault (Tensor ω) :=
  match c.get? entry with
  | some t => .ok t
  | none => .error (.missing entry)

def scalar (c : Container ω) (entry : String) : Except ContainerFault ω := do
  match (← c.read entry).cells[0]? with
  | some x => .ok x
  | none => .error (.emptyScalar entry)

end Container

/-- Containers by the places of their files. -/
abbrev ContainerStore (ω : Type) := Table Place (Container ω)

namespace ContainerStore

variable {ω : Type}

def openFile (s : ContainerStore ω) (p : Path) : Except ContainerFault (Container ω) :=
  match s.get? p.components with
  | some c => .ok c
  | none => .error (.missing p.text)

end ContainerStore

end GridSnapshot
