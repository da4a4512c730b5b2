namespace GridSnapshot

/-- The ring operations of a difference stencil, without their laws. -/
class RingOps (α : Type) extends Zero α, Add α, Sub α, Mul α where
  ofInt : Int → α

class FieldOps (α : Type) extends RingOps α, Div α

/-- A field with the exponential and the natural logarithm. -/
class RealOps (α : Type) extends FieldOps α where
  exp : α → α
  log : α → α

/-- Rounding a wide real to an element, and reading an element back as a wide real. -/
class Narrowing (ω α : Type) where
  narrow : ω → α
  widen : α → ω

export Narrowing (narrow widen)

instance : RealOps Float where
  zero := 0.0
  ofInt := Float.ofInt
  exp := Float.exp
  log := Float.log

instance : RealOps Float32 where
  zero := 0.0
  ofInt := fun i => (Float.ofInt i).toFloat32
  exp := Float32.exp
  log := Float32.log

instance : Narrowing Float Float where
  narrow x := x
  widen x := x

instance : Narrowing Float Float32 where
  narrow := Float.toFloat32
  widen := Float32.toFloat

end GridSnapshot
