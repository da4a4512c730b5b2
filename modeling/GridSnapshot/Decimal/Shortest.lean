namespace GridSnapshot.Decimal

structure Quotient where
  num : Nat
  den : Nat

def Quotient.ofBinary (n : Nat) : Int → Quotient
  | .ofNat q => ⟨n <<< q, 1⟩
  | .negSucc q => ⟨n, 1 <<< (q + 1)⟩

def Quotient.scale (r : Quotient) : Int → Quotient
  | .ofNat e => ⟨r.num, r.den * Nat.pow 10 e⟩
  | .negSucc e => ⟨r.num * Nat.pow 10 (e + 1), r.den⟩

structure Scaled where
  digits : Nat
  exponent : Int
  deriving DecidableEq

/-- A positive double: mantissa, binary exponent, and whether the gap below it is only half as wide
as the gap above. -/
structure Binary where
  mantissa : Nat
  exponent : Int
  narrowBelow : Bool

namespace Binary

def value (b : Binary) : Quotient := .ofBinary (4 * b.mantissa) (b.exponent - 2)

def lower (b : Binary) : Quotient :=
  .ofBinary (4 * b.mantissa - if b.narrowBelow then 1 else 2) (b.exponent - 2)

def upper (b : Binary) : Quotient := .ofBinary (4 * b.mantissa + 2) (b.exponent - 2)

/-- Whether the integer c, on the grid of 10^e, rounds to the double. -/
def accepts (b : Binary) (e : Int) (c : Nat) : Bool :=
  let lo := b.lower.scale e
  let hi := b.upper.scale e
  if b.mantissa % 2 = 0 then lo.num ≤ c * lo.den && c * hi.den ≤ hi.num
  else lo.num < c * lo.den && c * hi.den < hi.num

/-- The neighbour of the value on the grid of 10^e that rounds to the double; of two, the nearer,
and the upper one of two equally near. -/
def onGrid (b : Binary) (e : Int) : Option Nat :=
  let v := b.value.scale e
  let c := v.num / v.den
  match b.accepts e c, b.accepts e (c + 1) with
  | true, true => some (if 2 * v.num < (2 * c + 1) * v.den then c else c + 1)
  | true, false => some c
  | false, true => some (c + 1)
  | false, false => none

/-- The number of decimal digits in front of the point; for a value below one, minus the number of
zeros that follow the point. -/
def leadingPlace (b : Binary) : Int :=
  let v := b.value
  ((Nat.toDigits 10 (v.num * Nat.pow 10 400 / v.den)).length : Int) - 400

/-- The first grid, of one to seventeen digits, on which a neighbour of the value reads back. -/
def shortest (b : Binary) : Scaled :=
  let place := b.leadingPlace
  let hit := (List.range 17).findSome? fun (i : Nat) =>
    let e : Int := place - (i + 1 : Nat)
    (b.onGrid e).map fun c => (⟨c, e⟩ : Scaled)
  hit.getD ⟨0, 0⟩

end Binary

inductive Class where
  | nan
  | infinite
  | zero
  | finite (b : Binary)

/-- The magnitude that the bits of a double stand for. -/
def classify (bits : UInt64) : Class :=
  let e : Nat := (bits.toNat >>> 52) % (1 <<< 11)
  let f : Nat := bits.toNat % (1 <<< 52)
  if e = 2047 then if f = 0 then .infinite else .nan
  else if e = 0 then if f = 0 then .zero else .finite ⟨f, -1074, false⟩
  else .finite ⟨(1 <<< 52) + f, (e : Int) - 1075, f = 0 ∧ 1 < e⟩

/-- Where the point goes: from 10^-4 up to below 10^16 the decimal is positional with at least one
place, else it has one digit in front of the point and an exponent. -/
def layOut (d : Scaled) : String :=
  let all := Nat.toDigits 10 d.digits
  let digits := (all.reverse.dropWhile (· == '0')).reverse
  let place : Int := all.length + d.exponent
  let text := String.ofList
  if 16 < place ∨ place < -3 then
    let e := toString (place - 1)
    match digits with
    | [c] => text [c] ++ "e" ++ e
    | c :: cs => text [c] ++ "." ++ text cs ++ "e" ++ e
    | [] => "0.0"
  else if place ≤ 0 then "0." ++ text (List.replicate place.natAbs '0') ++ text digits
  else
    let n := place.toNat
    let whole := digits.take n ++ List.replicate (n - digits.length) '0'
    let fraction := digits.drop n
    text whole ++ "." ++ (if fraction.isEmpty then "0" else text fraction)

/-- The text of a double: the fewest digits that read back. -/
def shortestText (x : Float) : String :=
  let bits := x.toBits
  let sign := if 1 <<< 63 ≤ bits.toNat then "-" else ""
  match classify bits with
  | .nan => "NaN"
  | .infinite => sign ++ "inf"
  | .zero => sign ++ "0.0"
  | .finite b => sign ++ layOut b.shortest

end GridSnapshot.Decimal
