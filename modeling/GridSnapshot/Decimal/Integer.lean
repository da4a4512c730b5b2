import GridSnapshot.Bytes

namespace GridSnapshot.Decimal

inductive IntegerFault where
  | empty
  | invalidDigit
  | tooLarge
  deriving DecidableEq, Repr

def IntegerFault.message : IntegerFault → String
  | empty => "cannot parse integer from empty string"
  | invalidDigit => "invalid digit found in string"
  | tooLarge => "number too large to fit in target type"

def digit? (c : Char) : Option Nat := if c.isDigit then some (c.toNat - '0'.toNat) else none

/-- Reads digits onto a value; the first character that is no digit, or that takes the value to the
bound, decides the error. -/
def readDigits (bound : Nat) : Nat → List Char → Except IntegerFault Nat
  | n, [] => .ok n
  | n, c :: cs =>
    match digit? c with
    | none => .error .invalidDigit
    | some d => if bound ≤ 10 * n + d then .error .tooLarge else readDigits bound (10 * n + d) cs

/-- An optional plus sign and at least one digit. -/
def parseBelow (bound : Nat) : List Char → Except IntegerFault Nat
  | [] => .error .empty
  | ['+'] => .error .invalidDigit
  | '+' :: cs => readDigits bound 0 cs
  | cs => readDigits bound 0 cs

/-- Sizes and processor numbers fit into a word of eight bytes. -/
def parseSize (cs : List Char) : Except IntegerFault Nat := parseBelow (Word.count 8) cs

def parseSize? (cs : List Char) : Option Nat := (parseSize cs).toOption

end GridSnapshot.Decimal
