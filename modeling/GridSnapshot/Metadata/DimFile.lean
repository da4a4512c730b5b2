import GridSnapshot.Decimal.Integer
import GridSnapshot.Dimensions
import GridSnapshot.Text.Lines

namespace GridSnapshot.DimFile

inductive Fault where
  | lineCount (found : Nat)
  | badInteger (line : String) (error : Decimal.IntegerFault)
  | tooFew (line : String) (wanted : Nat)
  | unknownPrecision (tag : String)
  deriving DecidableEq, Repr

def Fault.message : Fault → String
  | lineCount found => s!"expected 4 lines, found {found}"
  | badInteger line error => s!"'{line}': {error.message}"
  | tooFew line wanted => s!"'{line}': expected {wanted} integers"
  | unknownPrecision tag => s!"unknown precision '{tag}'"

def integers (wanted : Nat) (line : List Char) : Except Fault (List Nat) :=
  match (Text.words line).mapM Decimal.parseSize with
  | .error e => .error (.badInteger (String.ofList line) e)
  | .ok ns => if ns.length < wanted then .error (.tooFew (String.ofList line) wanted) else .ok ns

def triple (line : List Char) : Except Fault (PerAxis Nat) := do
  match ← integers 3 line with
  | x :: y :: z :: _ => .ok ⟨x, y, z⟩
  | _ => .error (.tooFew (String.ofList line) 3)

def precision (line : List Char) : Except Fault Precision :=
  match Precision.ofTag? line with
  | some p => .ok p
  | none => .error (.unknownPrecision (String.ofList line))

/-- The lines that count: trimmed, and not empty. -/
def contentLines (text : String) : List (List Char) :=
  ((Text.lines text.toList).map Text.trim).filter fun l => l ≠ []

/-- The dimensions of a file for one processor at the origin, and the three last integers. -/
def parse (text : String) : Except Fault (Dimensions × PerAxis Nat) := do
  match contentLines text with
  | l₀ :: l₁ :: l₂ :: l₃ :: _ =>
    match ← integers 5 l₀ with
    | mx :: my :: mz :: evolved :: auxiliary :: _ =>
      let p ← precision l₁
      let ghosts ← triple l₂
      let last ← triple l₃
      .ok (⟨⟨mx, my, mz⟩, ghosts, evolved, auxiliary, p, .uniform 1, .uniform 0⟩, last)
    | _ => .error (.tooFew (String.ofList l₀) 5)
  | ls => .error (.lineCount ls.length)

def integerLine (ns : List Nat) : String := " ".intercalate (ns.map toString)

def render (d : Dimensions) (last : PerAxis Nat) : String :=
  integerLine [d.extents.x, d.extents.y, d.extents.z, d.evolved, d.auxiliary, 0] ++ "\n" ++
  d.precision.tag.toString ++ "\n" ++
  integerLine d.ghosts.toList ++ "\n" ++
  integerLine last.toList ++ "\n"

end GridSnapshot.DimFile
