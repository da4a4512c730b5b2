namespace GridSnapshot

/-- A stored double by its bits. Arithmetic on `Float` knows one NaN only; a stored one has a sign
and a payload, which stay when it is copied, narrowed or passed on by an operation. -/
structure Binary64 where
  bits : UInt64
  deriving DecidableEq, Repr

namespace Binary64

def ofFloat (x : Float) : Binary64 := ⟨x.toBits⟩

def toFloat (x : Binary64) : Float := .ofBits x.bits

def ofNat (n : Nat) : Binary64 := ofFloat (Float.ofNat n)

instance : OfScientific Binary64 := ⟨fun m negative e => ofFloat (.ofScientific m negative e)⟩

/-- All bits of the exponent are set, and some bit of the fraction. -/
def isNaN (x : Binary64) : Bool := 0x7ff0000000000000 < x.bits &&& 0x7fffffffffffffff

/-- Sets the highest bit of the fraction, which marks a NaN that has been computed with. -/
def quiet (x : Binary64) : Binary64 := ⟨x.bits ||| 0x0008000000000000⟩

/-- The outcome of an operation that has no value, such as zero times infinity. -/
def undefined : Binary64 := ⟨0xfff8000000000000⟩

/-- An operation on stored doubles. A NaN is passed on, the first one of two. -/
def lift (op : Float → Float → Float) (x y : Binary64) : Binary64 :=
  if x.isNaN then x.quiet
  else if y.isNaN then y.quiet
  else
    let z := ofFloat (op x.toFloat y.toFloat)
    if z.isNaN then undefined else z

instance : Add Binary64 := ⟨lift (· + ·)⟩

instance : Mul Binary64 := ⟨lift (· * ·)⟩

instance : Div Binary64 := ⟨lift (· / ·)⟩

/-- The 32 bits of the nearest single. A NaN keeps its sign and the upper bits of its payload. -/
def toSingleBits (x : Binary64) : UInt32 :=
  if x.isNaN then
    let sign := (x.bits >>> 32).toUInt32 &&& 0x80000000
    let payload := (x.bits >>> 29).toUInt32 &&& 0x003fffff
    sign ||| 0x7fc00000 ||| payload
  else x.toFloat.toFloat32.toBits

end Binary64

end GridSnapshot
