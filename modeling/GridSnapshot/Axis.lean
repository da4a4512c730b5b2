namespace GridSnapshot

/-- The x axis varies fastest in storage. -/
inductive Axis where
  | x
  | y
  | z
  deriving DecidableEq, Repr

namespace Axis

def all : List Axis := [x, y, z]

theorem mem_all (a : Axis) : a ∈ all := by cases a <;> decide

def name : Axis → String
  | x => "x"
  | y => "y"
  | z => "z"

/-- The place of the axis among the components of a vector. -/
def component : Axis → Nat
  | x => 0
  | y => 1
  | z => 2

end Axis

structure PerAxis (α : Type) where
  x : α
  y : α
  z : α
  deriving DecidableEq, Repr

namespace PerAxis

variable {α β : Type}

def get (v : PerAxis α) : Axis → α
  | .x => v.x
  | .y => v.y
  | .z => v.z

def ofFn (f : Axis → α) : PerAxis α := ⟨f .x, f .y, f .z⟩

def uniform (a : α) : PerAxis α := ⟨a, a, a⟩

def map (f : α → β) (v : PerAxis α) : PerAxis β := ⟨f v.x, f v.y, f v.z⟩

def toList (v : PerAxis α) : List α := [v.x, v.y, v.z]

@[simp] theorem get_ofFn (f : Axis → α) (a : Axis) : (ofFn f).get a = f a := by cases a <;> rfl

@[simp] theorem get_uniform (c : α) (a : Axis) : (uniform c).get a = c := by cases a <;> rfl

@[simp] theorem get_map (f : α → β) (v : PerAxis α) (a : Axis) : (v.map f).get a = f (v.get a) := by
  cases a <;> rfl

@[ext] theorem ext_get {v w : PerAxis α} (h : ∀ a, v.get a = w.get a) : v = w := by
  cases v; cases w
  have hx := h .x
  have hy := h .y
  have hz := h .z
  simp_all [get]

theorem ofFn_zero_add (i : PerAxis Nat) : (ofFn fun a => 0 + i.get a) = i := by
  ext1 a
  rw [get_ofFn, Nat.zero_add]

end PerAxis

end GridSnapshot
