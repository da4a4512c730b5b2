import GridSnapshot.Text.Blank

namespace GridSnapshot

inductive DerivedQuantity where
  /-- Magnetic field, the curl of the vector potential. -/
  | bb
  /-- Magnetic field of each numbered vector potential. -/
  | bbtest
  | jj
  | vort
  | rho
  | tt
  | ss
  | pp
  deriving DecidableEq, Repr

namespace DerivedQuantity

def all : List DerivedQuantity := [bb, bbtest, jj, vort, rho, tt, ss, pp]

def tag : DerivedQuantity → String
  | bb => "bb"
  | bbtest => "bbtest"
  | jj => "jj"
  | vort => "vort"
  | rho => "rho"
  | tt => "tt"
  | ss => "ss"
  | pp => "pp"

inductive Kind where
  /-- Needs a curl, and ghost cells. -/
  | vectorCalculus
  /-- Computed cell by cell. -/
  | thermodynamic
  deriving DecidableEq, Repr

def Kind.name : Kind → String
  | vectorCalculus => "VectorCalculus"
  | thermodynamic => "Thermodynamic"

def kind : DerivedQuantity → Kind
  | bb | bbtest | jj | vort => .vectorCalculus
  | rho | tt | ss | pp => .thermodynamic

/-- Groups of alternatives; the field needs one member of each group. -/
def prerequisites : DerivedQuantity → List (List String)
  | bb | jj => [["aa"]]
  | bbtest => [["aatest"]]
  | vort => [["uu"]]
  | rho => [["lnrho"]]
  | tt => [["lnTT", "ss"]]
  | ss => [["lnTT", "tt"], ["lnrho", "rho"]]
  | pp => [["lnrho", "rho"], ["ss", "lnTT", "tt"]]

/-- A tag may have blanks around it. -/
def ofTag? (text : String) : Option DerivedQuantity :=
  all.find? fun f => f.tag = Text.trimmed text

/-- Reads tags up to the first unknown one, which is the error. -/
def parse (tags : List String) : Except String (List DerivedQuantity) :=
  tags.mapM fun t => match ofTag? t with
    | some f => .ok f
    | none => .error t

def unknownTagMessage (tag : String) : String := s!"unknown derived field '{tag}'"

end DerivedQuantity

end GridSnapshot
