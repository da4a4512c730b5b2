import GridSnapshot.Scalar
import GridSnapshot.Span

namespace GridSnapshot

/-- The number of cells of a box. -/
def volume : List Nat → Nat
  | [] => 1
  | n :: shape => n * volume shape

/-- The extents of a shape, in brackets. -/
def shapeText (shape : List Nat) : String := "[" ++ ", ".intercalate (shape.map toString) ++ "]"

namespace Cell

/-- The index has one coordinate per axis and each is below its extent. -/
def Inside : List Nat → List Nat → Prop
  | [], [] => True
  | n :: shape, i :: idx => i < n ∧ Inside shape idx
  | _, _ => False

instance decidableInside : (shape idx : List Nat) → Decidable (Inside shape idx)
  | [], [] => isTrue trivial
  | n :: shape, i :: idx =>
    have := decidableInside shape idx
    inferInstanceAs (Decidable (i < n ∧ Inside shape idx))
  | [], _ :: _ => isFalse id
  | _ :: _, [] => isFalse id

/-- The place of an index in row-major order. -/
def offset : List Nat → List Nat → Nat
  | _ :: shape, i :: idx => i * volume shape + offset shape idx
  | _, _ => 0

/-- The index at a place in row-major order. -/
def ofOffset : List Nat → Nat → List Nat
  | [], _ => []
  | _ :: shape, k => k / volume shape :: ofOffset shape (k % volume shape)

/-- The index lies in a box given by one span per axis. -/
def InBox : List Span → List Nat → Prop
  | [], [] => True
  | s :: spans, i :: idx => s.Contains i ∧ InBox spans idx
  | _, _ => False

instance decidableInBox : (spans : List Span) → (idx : List Nat) → Decidable (InBox spans idx)
  | [], [] => isTrue trivial
  | s :: spans, i :: idx =>
    have := decidableInBox spans idx
    inferInstanceAs (Decidable (s.Contains i ∧ InBox spans idx))
  | [], _ :: _ => isFalse id
  | _ :: _, [] => isFalse id

/-- Carries an index of one box to the index at the same distance from the starts of another. -/
def shift : List Span → List Span → List Nat → List Nat
  | s :: spans, s' :: spans', i :: idx => (i - s.start + s'.start) :: shift spans spans' idx
  | _, _, _ => []

theorem offset_lt {shape idx : List Nat} (h : Inside shape idx) :
    offset shape idx < volume shape := by
  induction shape generalizing idx with
  | nil => cases idx <;> simp_all [Inside, offset, volume]
  | cons n shape ih =>
    cases idx with
    | nil => exact h.elim
    | cons i idx =>
      have hr := ih h.2
      have hi : (i + 1) * volume shape ≤ n * volume shape := Nat.mul_le_mul_right _ h.1
      rw [Nat.add_mul, Nat.one_mul] at hi
      simp only [offset, volume]
      omega

theorem ofOffset_offset {shape idx : List Nat} (h : Inside shape idx) :
    ofOffset shape (offset shape idx) = idx := by
  induction shape generalizing idx with
  | nil => cases idx <;> simp_all [Inside, ofOffset]
  | cons n shape ih =>
    cases idx with
    | nil => exact h.elim
    | cons i idx =>
      have hlt := offset_lt h.2
      have hpos : 0 < volume shape := by omega
      simp only [offset, ofOffset]
      rw [Nat.add_comm, Nat.add_mul_div_right _ _ hpos, Nat.div_eq_of_lt hlt, Nat.zero_add,
        Nat.add_mul_mod_self_right, Nat.mod_eq_of_lt hlt, ih h.2]

end Cell

/-- A dense array of any number of axes, stored row by row. -/
structure Tensor (α : Type) where
  shape : List Nat
  cells : Array α
  size_cells : cells.size = volume shape

namespace Tensor

variable {α β : Type}

/-- The tensor whose cell at each index is given by a function of the index. -/
def ofFn (shape : List Nat) (f : List Nat → α) : Tensor α :=
  ⟨shape, Array.ofFn (fun i : Fin (volume shape) => f (Cell.ofOffset shape i)), by simp⟩

def fill (shape : List Nat) (x : α) : Tensor α :=
  ⟨shape, Array.replicate (volume shape) x, by simp⟩

/-- A list of cells in row-major order, when there are as many as the shape asks for. -/
def ofArray? (shape : List Nat) (cells : Array α) : Option (Tensor α) :=
  if h : cells.size = volume shape then some ⟨shape, cells, h⟩ else none

def get? (t : Tensor α) (idx : List Nat) : Option α :=
  if Cell.Inside t.shape idx then t.cells[Cell.offset t.shape idx]? else none

/-- The cell at an index, zero outside the shape. -/
def cell [Zero α] (t : Tensor α) (idx : List Nat) : α := (t.get? idx).getD 0

@[simp] theorem shape_ofFn (shape : List Nat) (f : List Nat → α) : (ofFn shape f).shape = shape :=
  rfl

theorem get?_ofFn (shape : List Nat) (f : List Nat → α) (idx : List Nat) :
    (ofFn shape f).get? idx = if Cell.Inside shape idx then some (f idx) else none := by
  unfold get?
  rw [shape_ofFn]
  by_cases h : Cell.Inside shape idx
  · have hlt := Cell.offset_lt h
    rw [if_pos h, if_pos h]
    simp [ofFn, hlt, Cell.ofOffset_offset h]
  · rw [if_neg h, if_neg h]

theorem cell_ofFn [Zero α] {shape idx : List Nat} (f : List Nat → α) (h : Cell.Inside shape idx) :
    (ofFn shape f).cell idx = f idx := by
  simp [cell, get?_ofFn, h]

theorem cell_ofFn_outside [Zero α] {shape idx : List Nat} (f : List Nat → α)
    (h : ¬ Cell.Inside shape idx) : (ofFn shape f).cell idx = 0 := by
  simp [cell, get?_ofFn, h]

def map (f : α → β) (t : Tensor α) : Tensor β := ⟨t.shape, t.cells.map f, by simp [t.size_cells]⟩

/-- Combines two tensors cell by cell; there is no answer when the shapes differ. -/
def zipWith? {γ : Type} (f : α → β → γ) (s : Tensor α) (t : Tensor β) : Option (Tensor γ) :=
  if h : s.shape = t.shape then
    some ⟨s.shape, Array.zipWith f s.cells t.cells, by
      rw [Array.size_zipWith, s.size_cells, t.size_cells, h, Nat.min_self]⟩
  else none

def slice [Zero α] (t : Tensor α) (spans : List Span) : Tensor α :=
  ofFn (spans.map Span.length) fun idx => t.cell (List.zipWith (fun s i => s.start + i) spans idx)

def row [Zero α] (t : Tensor α) (i : Nat) : Tensor α :=
  ofFn t.shape.tail fun idx => t.cell (i :: idx)

def wholeSpans (shape : List Nat) : List Span := shape.map fun n => ⟨0, n⟩

/-- Cuts the last axes, one span for each, and leaves the axes in front of them whole. -/
def sliceLast [Zero α] (t : Tensor α) (spans : List Span) : Tensor α :=
  t.slice (wholeSpans (t.shape.take (t.shape.length - spans.length)) ++ spans)

def sliceFirst [Zero α] (t : Tensor α) (span : Span) : Tensor α :=
  t.slice (span :: wholeSpans t.shape.tail)

/-- Changes each cell by a function of its place in row-major order. -/
def mapPlaces (t : Tensor α) (f : Nat → α → α) : Tensor α :=
  ⟨t.shape, t.cells.mapIdx f, by simp [t.size_cells]⟩

/-- Overwrites the cells inside the target spans, each with the cell of the source that lies at the
same distance from the starts of its own spans. -/
def writeBox [Zero α] (t : Tensor α) (target : List Span) (source : Tensor α) (spans : List Span) :
    Tensor α :=
  ofFn t.shape fun idx =>
    if Cell.InBox target idx then source.cell (Cell.shift target spans idx) else t.cell idx

end Tensor

end GridSnapshot
