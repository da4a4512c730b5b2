import Mathlib.Data.List.Forall2
import GridSnapshot.StoredAxes

namespace GridSnapshot

/-- The span is a range of an array of the given extent. -/
def Span.In (s : Span) (n : Nat) : Prop := s.start ≤ s.stop ∧ s.stop ≤ n

instance (s : Span) (n : Nat) : Decidable (s.In n) := inferInstanceAs (Decidable (_ ∧ _))

namespace Cell

theorem volume_tail_pos {n k : Nat} {shape : List Nat} (h : k < volume (n :: shape)) :
    0 < volume shape := by
  apply Nat.pos_of_ne_zero
  intro hz
  rw [volume, hz, Nat.mul_zero] at h
  exact Nat.not_lt_zero k h

theorem inside_ofOffset {shape : List Nat} {k : Nat} (h : k < volume shape) :
    Inside shape (ofOffset shape k) := by
  induction shape generalizing k with
  | nil => trivial
  | cons n shape ih =>
    have hpos := volume_tail_pos h
    simp only [volume] at h
    exact ⟨Nat.div_lt_of_lt_mul (Nat.mul_comm n _ ▸ h), ih (Nat.mod_lt k hpos)⟩

theorem offset_ofOffset {shape : List Nat} {k : Nat} (h : k < volume shape) :
    offset shape (ofOffset shape k) = k := by
  induction shape generalizing k with
  | nil =>
    simp only [volume] at h
    simp only [offset]
    omega
  | cons n shape ih =>
    have hpos := volume_tail_pos h
    simp only [volume] at h
    simp only [ofOffset, offset, ih (Nat.mod_lt k hpos)]
    exact Nat.div_add_mod' k (volume shape)

theorem length_of_inside {shape idx : List Nat} (h : Inside shape idx) :
    idx.length = shape.length := by
  induction shape generalizing idx with
  | nil =>
    cases idx with
    | nil => rfl
    | cons i idx => exact h.elim
  | cons n shape ih =>
    cases idx with
    | nil => exact h.elim
    | cons i idx => rw [List.length_cons, List.length_cons, ih h.2]

/-- A place in row-major order lies in a span of slots exactly if its slot does. -/
theorem place_mem_iff {cells i off : Nat} (hoff : off < cells) (slots : Span) :
    slots.start * cells ≤ i * cells + off ∧ i * cells + off < slots.stop * cells ↔
      slots.Contains i := by
  have hnext : (i + 1) * cells = i * cells + cells := by rw [Nat.add_mul, Nat.one_mul]
  constructor
  · rintro ⟨hlow, hhigh⟩
    constructor
    · refine Nat.le_of_not_lt fun hlt => ?_
      have hle : (i + 1) * cells ≤ slots.start * cells := Nat.mul_le_mul_right _ hlt
      omega
    · refine Nat.lt_of_not_le fun hge => ?_
      have hle : slots.stop * cells ≤ i * cells := Nat.mul_le_mul_right _ hge
      omega
  · rintro ⟨hlow, hhigh⟩
    have hle : slots.start * cells ≤ i * cells := Nat.mul_le_mul_right _ hlow
    have hle' : (i + 1) * cells ≤ slots.stop * cells := Nat.mul_le_mul_right _ hhigh
    omega

section AxisByAxis

variable {ι : Type}

theorem inside_map (as : List ι) (n i : ι → Nat) :
    Inside (as.map n) (as.map i) ↔ ∀ a ∈ as, i a < n a := by
  induction as with
  | nil => simp [Inside]
  | cons a as ih => simp [Inside, ih]

theorem inBox_map (as : List ι) (s : ι → Span) (i : ι → Nat) :
    InBox (as.map s) (as.map i) ↔ ∀ a ∈ as, (s a).Contains (i a) := by
  induction as with
  | nil => simp [InBox]
  | cons a as ih => simp [InBox, ih]

theorem shift_map (as : List ι) (s s' : ι → Span) (i : ι → Nat) :
    shift (as.map s) (as.map s') (as.map i) = as.map fun a => i a - (s a).start + (s' a).start := by
  induction as with
  | nil => rfl
  | cons a as ih => simp [shift, ih]

theorem spans_in_map (as : List ι) (s : ι → Span) (n : ι → Nat) :
    List.Forall₂ Span.In (as.map s) (as.map n) ↔ ∀ a ∈ as, (s a).In (n a) := by
  rw [List.forall₂_map_left_iff, List.forall₂_map_right_iff, List.forall₂_same]

end AxisByAxis

end Cell

namespace Tensor

variable {α : Type}

theorem ext_get? {s t : Tensor α} (hshape : s.shape = t.shape)
    (h : ∀ idx, Cell.Inside s.shape idx → s.get? idx = t.get? idx) : s = t := by
  obtain ⟨shape, cells, hs⟩ := s
  obtain ⟨shape', cells', ht⟩ := t
  obtain rfl : shape = shape' := hshape
  have hcells : cells = cells' := by
    apply Array.ext_getElem?
    intro k
    by_cases hk : k < volume shape
    · have hin := Cell.inside_ofOffset hk
      have hcell := h _ hin
      simpa only [get?, hin, if_true, Cell.offset_ofOffset hk] using hcell
    · have hk' : volume shape ≤ k := Nat.le_of_not_lt hk
      rw [Array.getElem?_eq_none (hs ▸ hk'), Array.getElem?_eq_none (ht ▸ hk')]
  subst hcells
  rfl

theorem map_ofFn {β : Type} (shape : List Nat) (g : List Nat → α) (f : α → β) :
    (ofFn shape g).map f = ofFn shape fun idx => f (g idx) := by
  unfold map ofFn
  congr 1
  exact Array.map_ofFn

theorem get?_map {β : Type} (t : Tensor α) (f : α → β) (idx : List Nat) :
    (t.map f).get? idx = (t.get? idx).map f := by
  unfold get? map
  split
  · exact Array.getElem?_map
  · rfl

theorem get?_mapPlaces (t : Tensor α) (f : Nat → α → α) (idx : List Nat) :
    (t.mapPlaces f).get? idx = (t.get? idx).map (f (Cell.offset t.shape idx)) := by
  by_cases h : Cell.Inside t.shape idx
  · simp only [get?, mapPlaces, h, if_true, Array.getElem?_mapIdx]
  · simp only [get?, mapPlaces, h, if_false, Option.map_none]

theorem inside_of_get? {t : Tensor α} {idx : List Nat} {x : α} (h : t.get? idx = some x) :
    Cell.Inside t.shape idx := by
  refine Decidable.byContradiction fun hnot => ?_
  rw [get?, if_neg hnot] at h
  cases h

theorem get?_eq_some [Zero α] {t : Tensor α} {idx : List Nat} (h : Cell.Inside t.shape idx) :
    t.get? idx = some (t.cell idx) := by
  have hlt : Cell.offset t.shape idx < t.cells.size := t.size_cells ▸ Cell.offset_lt h
  simp only [cell, get?, h, if_true, Array.getElem?_eq_getElem hlt, Option.getD_some]

theorem cell_eq_zero_of_not_inside [Zero α] {t : Tensor α} {idx : List Nat}
    (h : ¬ Cell.Inside t.shape idx) : t.cell idx = 0 := by
  simp only [cell, get?, h, if_false, Option.getD_none]

@[simp] theorem cell_fill_zero [Zero α] (shape idx : List Nat) :
    (fill shape (0 : α)).cell idx = 0 := by
  by_cases h : Cell.Inside shape idx
  · have hlt : Cell.offset shape idx < volume shape := Cell.offset_lt h
    simp [cell, get?, fill, h, hlt]
  · exact cell_eq_zero_of_not_inside h

section WriteBox

variable [Zero α] {t source : Tensor α} {target spans : List Span} {idx : List Nat}

theorem get?_writeBox_of_inBox (hin : Cell.Inside t.shape idx) (h : Cell.InBox target idx) :
    (t.writeBox target source spans).get? idx =
      some (source.cell (Cell.shift target spans idx)) := by
  rw [writeBox, get?_ofFn, if_pos hin, if_pos h]

theorem get?_writeBox_of_not_inBox (h : ¬ Cell.InBox target idx) :
    (t.writeBox target source spans).get? idx = t.get? idx := by
  rw [writeBox, get?_ofFn, if_neg h]
  by_cases hin : Cell.Inside t.shape idx
  · rw [if_pos hin, get?_eq_some hin]
  · rw [if_neg hin, get?, if_neg hin]

end WriteBox

end Tensor

namespace StoredAxes

variable {l : StoredAxes} {d : Dimensions} {vars slot : Nat} {i : PerAxis Nat}

/-- The index of a cell, from its slot and its place along each axis. -/
def index (l : StoredAxes) (slot : Nat) (i : PerAxis Nat) : List Nat := slot :: l.axes.map i.get

theorem inside_index :
    Cell.Inside (l.shape vars d) (l.index slot i) ↔
      slot < vars ∧ ∀ a ∈ l.axes, i.get a < d.extent a := by
  simp only [shape, cellShape, index, Cell.Inside, Cell.inside_map]

theorem exists_map_get {idx : List Nat} (h : idx.length = l.axes.length) :
    ∃ i : PerAxis Nat, idx = l.axes.map i.get := by
  cases l with
  | full =>
    match idx, h with
    | [z, y, x], _ => exact ⟨⟨x, y, z⟩, rfl⟩
  | xz =>
    match idx, h with
    | [z, x], _ => exact ⟨⟨x, 0, z⟩, rfl⟩
  | xy =>
    match idx, h with
    | [y, x], _ => exact ⟨⟨x, y, 0⟩, rfl⟩

theorem exists_index {idx : List Nat} (h : Cell.Inside (l.shape vars d) idx) :
    ∃ slot i, idx = l.index slot i := by
  cases idx with
  | nil => exact h.elim
  | cons slot rest =>
    have hlength : rest.length = l.axes.length := by
      rw [Cell.length_of_inside h.2, cellShape, List.length_map]
    obtain ⟨i, rfl⟩ := exists_map_get hlength
    exact ⟨slot, i, rfl⟩

end StoredAxes

end GridSnapshot
