import GridSnapshot.Proofs.Cells
import GridSnapshot.Proofs.Outcome
import GridSnapshot.Proofs.OwnedSpan

namespace GridSnapshot

namespace Block

variable {ω α : Type}

/-- The value of a block at an index of its tensor. -/
def at? (b : Block ω α) (shape idx : List Nat) : Option α := b.data[Cell.offset shape idx]?

/-- The block has the variables that are asked for, and values for all cells of its part. -/
structure Fills (b : Block ω α) (l : StoredAxes) (vars : Nat) (d : Dimensions) : Prop where
  vars_eq : b.vars = vars
  size_ge : volume (l.shape vars d) ≤ b.data.size

theorem Fills.exists_at? {b : Block ω α} {l : StoredAxes} {vars : Nat} {d : Dimensions}
    {idx : List Nat} (h : b.Fills l vars d) (hin : Cell.Inside (l.shape vars d) idx) :
    ∃ v, b.at? (l.shape vars d) idx = some v :=
  ⟨_, Array.getElem?_eq_getElem (Nat.lt_of_lt_of_le (Cell.offset_lt hin) h.size_ge)⟩

end Block

namespace Assembly

variable {ω α : Type}

theorem partTensor_eq_ok {shape : List Nat} {data : Array α} (h : volume shape ≤ data.size) :
    ∃ t, partTensor shape data = .ok t ∧ t.shape = shape ∧
      ∀ idx, Cell.Inside shape idx → t.get? idx = data[Cell.offset shape idx]? := by
  have hsize : (data.take (volume shape)).size = volume shape := by
    rw [Array.take_eq_extract, Array.size_extract]
    omega
  refine ⟨⟨shape, data.take (volume shape), hsize⟩, ?_, rfl, ?_⟩
  · simp only [partTensor, Tensor.ofArray?, hsize, dite_true]
  · intro idx hin
    have hlt := Cell.offset_lt hin
    simp only [Tensor.get?, hin, if_true]
    rw [Array.take_eq_extract, Array.getElem?_extract]
    simp only [Nat.sub_zero, Nat.zero_add]
    rw [if_pos (by omega)]

theorem partTensor_eq_error {shape : List Nat} {data : Array α} (h : data.size < volume shape) :
    partTensor shape data = .error (.blockShape shape data.size) := by
  have hsize : (data.take (volume shape)).size ≠ volume shape := by
    rw [Array.take_eq_extract, Array.size_extract]
    omega
  simp only [partTensor, Tensor.ofArray?, hsize, dite_false]

variable [Zero α] [Narrowing ω α]

/-- An assembly after a part was written into it. -/
def put (asm : Assembly ω α) (p : PerAxis Placement) (t : Tensor α) (b : Block ω α) :
    Assembly ω α :=
  let slots : Span := ⟨0, asm.vars⟩
  { asm with
    f := asm.f.writeBox (slots :: asm.layout.axes.map fun a => (p.get a).whole) t
      (slots :: asm.layout.axes.map fun a => (p.get a).part)
    coords := .ofFn fun a => writeSpan (asm.coords.get a) (p.get a) (b.coords.coords.get a)
    scalars := some (.ofRecord b.coords)
    persistence := asm.persistence.insertMany b.persistence.entries
    placed := asm.placed + 1 }

theorem place_eq_ok_iff_exists {asm asm' : Assembly ω α} {d : Dimensions} {b : Block ω α} :
    asm.place d b = .ok asm' ↔ ∃ p t, placements asm.dims d = .ok p ∧ b.vars = asm.vars ∧
      partTensor (asm.layout.shape asm.vars d) b.data = .ok t ∧ (∀ a, (p.get a).Forward) ∧
        asm' = asm.put p t b := by
  unfold place
  rw [Outcome.bind_eq_ok_iff]
  constructor
  · intro hex
    obtain ⟨p, hp, h⟩ := hex
    split at h
    · cases h
    · rename_i hvars
      obtain ⟨t, ht, h⟩ := Outcome.bind_eq_ok_iff.mp h
      split at h
      · rename_i hforward
        cases h
        exact ⟨p, t, hp, Decidable.not_not.mp hvars, ht, fun a => hforward a a.mem_all, rfl⟩
      · cases h
  · intro hex
    obtain ⟨p, t, hp, hvars, ht, hforward, rfl⟩ := hex
    refine ⟨p, hp, ?_⟩
    rw [if_neg (not_not_intro hvars)]
    refine Outcome.bind_eq_ok_iff.mpr ⟨t, ht, ?_⟩
    rw [if_pos fun a _ => hforward a]
    rfl

theorem place_eq_ok_iff {asm asm' : Assembly ω α} {d : Dimensions} (hw : d.FitsWords)
    {b : Block ω α} :
    asm.place d b = .ok asm' ↔ d.FitsIn asm.dims ∧ b.vars = asm.vars ∧
      ∃ t, partTensor (asm.layout.shape asm.vars d) b.data = .ok t ∧
        asm' = asm.put d.placed t b := by
  rw [place_eq_ok_iff_exists]
  constructor
  · intro hex
    obtain ⟨p, t, hp, hvars, ht, -, rfl⟩ := hex
    obtain ⟨hfits, rfl⟩ := (placements_eq_ok_iff hw).mp hp
    exact ⟨hfits, hvars, t, ht, rfl⟩
  · intro hex
    obtain ⟨hfits, hvars, t, ht, rfl⟩ := hex
    exact ⟨d.placed, t, (placements_eq_ok_iff hw).mpr ⟨hfits, rfl⟩, hvars, ht,
      fun a => Dimensions.forward_placed (hfits a).1, rfl⟩

theorem f_put (asm : Assembly ω α) (p : PerAxis Placement) (t : Tensor α) (b : Block ω α) :
    (asm.put p t b).f =
      asm.f.writeBox (⟨0, asm.vars⟩ :: asm.layout.axes.map fun a => (p.get a).whole) t
        (⟨0, asm.vars⟩ :: asm.layout.axes.map fun a => (p.get a).part) := rfl

section Entries

variable {asm : Assembly ω α} {d : Dimensions} {t : Tensor α} {b : Block ω α} {slot : Nat}
  {i : PerAxis Nat}

theorem inBox_owned_iff {vars : Nat} {l : StoredAxes} (hs : slot < vars) :
    Cell.InBox (⟨0, vars⟩ :: l.axes.map fun a => (d.placed.get a).whole) (l.index slot i) ↔
      ∀ a ∈ l.axes, (d.owned a).Contains (i.get a) := by
  simp only [StoredAxes.index, Cell.InBox, Cell.inBox_map, Span.Contains, Nat.zero_le, hs,
    true_and, Dimensions.placed, PerAxis.get_ofFn]

/-- A written cell of the whole is the cell of the part at the same distance from its base. -/
theorem shift_index_owned {vars : Nat} {l : StoredAxes}
    (h : ∀ a ∈ l.axes, (d.owned a).Contains (i.get a)) :
    Cell.shift (⟨0, vars⟩ :: l.axes.map fun a => (d.placed.get a).whole)
      (⟨0, vars⟩ :: l.axes.map fun a => (d.placed.get a).part) (l.index slot i) =
        l.index slot (d.within i) := by
  simp only [StoredAxes.index, Cell.shift, Cell.shift_map, Nat.sub_zero, Nat.add_zero,
    List.cons.injEq, true_and]
  apply List.map_congr_left
  intro a ha
  simp only [Dimensions.placed, Dimensions.within, PerAxis.get_ofFn]
  exact (Dimensions.sub_start_owned (h a ha)).1

theorem get?_put_of_owned (hin : Cell.Inside asm.f.shape (asm.layout.index slot i))
    (hs : slot < asm.vars) (ht : t.shape = asm.layout.shape asm.vars d)
    (h : ∀ a ∈ asm.layout.axes, (d.owned a).Contains (i.get a)) :
    (asm.put d.placed t b).f.get? (asm.layout.index slot i) =
      t.get? (asm.layout.index slot (d.within i)) := by
  have hwithin : Cell.Inside t.shape (asm.layout.index slot (d.within i)) := by
    rw [ht, StoredAxes.inside_index]
    exact ⟨hs, fun a ha => Dimensions.within_lt (h a ha)⟩
  have hbox := (inBox_owned_iff hs).mpr h
  rw [f_put, Tensor.get?_writeBox_of_inBox hin hbox, shift_index_owned h,
    Tensor.get?_eq_some hwithin]

theorem get?_put_of_not_owned (hs : slot < asm.vars)
    (h : ¬ ∀ a ∈ asm.layout.axes, (d.owned a).Contains (i.get a)) :
    (asm.put d.placed t b).f.get? (asm.layout.index slot i) =
      asm.f.get? (asm.layout.index slot i) := by
  have hbox := fun hin => h ((inBox_owned_iff hs).mp hin)
  rw [f_put, Tensor.get?_writeBox_of_not_inBox hbox]

end Entries

section Coordinates

variable {asm : Assembly ω α} {d : Dimensions} {t : Tensor α} {b : Block ω α} {a : Axis} {k : Nat}

omit [Zero α] in
@[simp] theorem length_writeSpan (xs : List α) (p : Placement) (source : List ω) :
    (writeSpan xs p source).length = xs.length := by
  rw [writeSpan, List.length_mapIdx]

@[simp] theorem coords_put (asm : Assembly ω α) (p : PerAxis Placement) (t : Tensor α)
    (b : Block ω α) (a : Axis) : (asm.put p t b).coords.get a =
      writeSpan (asm.coords.get a) (p.get a) (b.coords.coords.get a) :=
  PerAxis.get_ofFn _ a

theorem getElem?_coords_put_of_owned (hlen : (b.coords.coords.get a).length = d.extent a)
    (hk : k < (asm.coords.get a).length) (h : (d.owned a).Contains k) :
    ((asm.put d.placed t b).coords.get a)[k]? =
      (b.coords.coords.get a)[k - d.base a]?.map narrow := by
  have hsub := Dimensions.sub_start_owned h
  have hlt : k - d.base a < (b.coords.coords.get a).length := hlen ▸ hsub.2.2
  rw [coords_put, writeSpan, List.getElem?_mapIdx, List.getElem?_eq_getElem hk,
    List.getElem?_eq_getElem hlt]
  simp only [Dimensions.placed, PerAxis.get_ofFn, h, if_true, hsub.1, Option.map_some,
    List.getElem?_eq_getElem hlt]

theorem getElem?_coords_put_of_not_owned (h : ¬ (d.owned a).Contains k) :
    ((asm.put d.placed t b).coords.get a)[k]? = (asm.coords.get a)[k]? := by
  rw [coords_put, writeSpan, List.getElem?_mapIdx]
  simp only [Dimensions.placed, PerAxis.get_ofFn, h, if_false, Option.map_id']

end Coordinates

end Assembly

end GridSnapshot
