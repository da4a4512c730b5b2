import GridSnapshot.Text.Blank

namespace GridSnapshot

/-- The width a run stores its reals in. -/
inductive Precision where
  | single
  | double
  deriving DecidableEq, Repr

namespace Precision

def bytes : Precision → Nat
  | single => 4
  | double => 8

theorem bytes_pos (p : Precision) : 0 < p.bytes := by cases p <;> decide

def tag : Precision → Char
  | single => 'S'
  | double => 'D'

/-- Reads a tag in either case, with blanks around it. -/
def ofTag? (text : List Char) : Option Precision :=
  match Text.trim text with
  | ['S'] | ['s'] => some single
  | ['D'] | ['d'] => some double
  | _ => none

end Precision

end GridSnapshot
