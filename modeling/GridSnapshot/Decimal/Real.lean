import GridSnapshot.Decimal.Integer

namespace GridSnapshot.Decimal

/-- Digits and the power of ten of their last place. -/
structure Numeral where
  digits : List Nat
  exponent : Int
  deriving DecidableEq

namespace Numeral

def value (ds : List Nat) : Nat := ds.foldl (fun n d => 10 * n + d) 0

/-- The value by halves: of a long text this takes far fewer steps on large numbers. -/
def valueByHalves (ds : List Nat) : Nat :=
  if ds.length < 17 then value ds
  else
    let k := ds.length / 2
    valueByHalves (ds.take k) * Nat.pow 10 (ds.length - k) + valueByHalves (ds.drop k)
termination_by ds.length
decreasing_by all_goals simp only [List.length_take, List.length_drop]; omega

theorem foldl_digits (ds : List Nat) (n : Nat) :
    ds.foldl (fun n d => 10 * n + d) n = n * Nat.pow 10 ds.length + value ds := by
  induction ds generalizing n with
  | nil => simp [value]
  | cons d ds ih =>
    have h := ih d
    simp only [value, List.foldl_cons, List.length_cons, Nat.mul_zero, Nat.zero_add] at h ⊢
    rw [ih, h, Nat.pow, Nat.add_mul, Nat.add_assoc, Nat.mul_comm 10 n, Nat.mul_assoc,
      Nat.mul_comm 10]
    rfl

theorem value_append (as bs : List Nat) :
    value (as ++ bs) = value as * Nat.pow 10 bs.length + value bs := by
  rw [value, List.foldl_append, foldl_digits]
  rfl

theorem valueByHalves_eq (ds : List Nat) : valueByHalves ds = value ds := by
  fun_induction valueByHalves ds with
  | case1 => rfl
  | case2 ds _ k ih₁ ih₂ =>
    rw [ih₁, ih₂, ← List.length_drop, ← value_append, List.take_append_drop]

/-- The nearest double. The magnitude is checked first, so that no exponent is expanded into a
power of ten beyond the range of doubles. -/
def toFloat (n : Numeral) : Float :=
  let ds := n.digits.dropWhile (· == 0)
  let magnitude : Int := ds.length + n.exponent
  if ds.isEmpty then 0.0
  else if 400 < magnitude then 1.0 / 0.0
  else if magnitude < -400 then 0.0
  else match n.exponent with
    | .ofNat e => Float.ofScientific (valueByHalves ds) false e
    | .negSucc e => Float.ofScientific (valueByHalves ds) true (e + 1)

end Numeral

/-- The digits at the head of a text, and what follows them. -/
def takeDigits (cs : List Char) : List Nat × List Char :=
  ((cs.takeWhile Char.isDigit).filterMap digit?, cs.dropWhile Char.isDigit)

def signOf : List Char → Bool × List Char
  | '+' :: cs => (false, cs)
  | '-' :: cs => (true, cs)
  | cs => (false, cs)

/-- The size of an exponent. Once it has passed 65535, further digits are left out. -/
def exponentSize (ds : List Nat) : Nat :=
  ds.foldl (fun n d => if n < 65536 then 10 * n + d else n) 0

/-- What may follow the mantissa: nothing, or an exponent. -/
def exponent? : List Char → Option Int
  | [] => some 0
  | c :: cs =>
    if c = 'e' ∨ c = 'E' then
      let (negative, cs) := signOf cs
      match takeDigits cs with
      | ([], _) => none
      | (ds, []) => some (if negative then -(exponentSize ds : Int) else exponentSize ds)
      | _ => none
    else none

def numeral? (cs : List Char) : Option Numeral :=
  let (whole, rest) := takeDigits cs
  let (fraction, rest) := match rest with
    | '.' :: cs => takeDigits cs
    | cs => ([], cs)
  if whole = [] ∧ fraction = [] then none
  else (exponent? rest).map fun e => ⟨whole ++ fraction, e - fraction.length⟩

def named? (cs : List Char) : Option Float :=
  let name := String.ofList (cs.map Char.toLower)
  if name = "inf" ∨ name = "infinity" then some (1.0 / 0.0)
  else if name = "nan" then some (0.0 / 0.0)
  else none

/-- An optional sign, then digits with an optional point and exponent, or a name of infinity or of
no number. -/
def parseReal? (cs : List Char) : Option Float :=
  let (negative, cs) := signOf cs
  let magnitude := match named? cs with
    | some x => some x
    | none => (numeral? cs).map Numeral.toFloat
  magnitude.map fun x => if negative then -x else x

end GridSnapshot.Decimal
