import GridSnapshot.Proofs.Placing

namespace GridSnapshot

/-- A part of a run: its dimensions and its contents. -/
abbrev Part (ω α : Type) := Dimensions × Block ω α

namespace Part

variable {ω α : Type}

/-- The part writes the index, as far as the given axes go. -/
def Owns (x : Part ω α) (as : List Axis) (i : PerAxis Nat) : Prop :=
  ∀ a ∈ as, (x.1.owned a).Contains (i.get a)

instance (x : Part ω α) (as : List Axis) (i : PerAxis Nat) : Decidable (x.Owns as i) :=
  inferInstanceAs (Decidable (∀ a ∈ as, _))

/-- The part can be placed in a whole array. -/
structure Fits (x : Part ω α) (l : StoredAxes) (vars : Nat) (whole : Dimensions) : Prop where
  inside : x.1.FitsIn whole
  fills : x.2.Fills l vars x.1

/-- The last of some parts that writes an index. -/
def lastOwner (as : List Axis) (i : PerAxis Nat) : List (Part ω α) → Option (Part ω α)
  | [] => none
  | x :: xs => (lastOwner as i xs).or (if x.Owns as i then some x else none)

variable {as : List Axis} {i : PerAxis Nat} {x : Part ω α} {xs ys : List (Part ω α)}

theorem owns_singleton_iff {a : Axis} {k : Nat} :
    x.Owns [a] (.uniform k) ↔ (x.1.owned a).Contains k := by
  rw [Owns, List.forall_mem_singleton, PerAxis.get_uniform]

theorem lastOwner_eq_none_iff : lastOwner as i xs = none ↔ ∀ x ∈ xs, ¬ x.Owns as i := by
  induction xs with
  | nil => simp [lastOwner]
  | cons y ys ih => simp [lastOwner, ih, and_comm]

theorem lastOwner_append_of_owns (h : x.Owns as i) (hys : ∀ y ∈ ys, ¬ y.Owns as i) :
    lastOwner as i (xs ++ x :: ys) = some x := by
  induction xs with
  | nil => simp [lastOwner, lastOwner_eq_none_iff.mpr hys, h]
  | cons z zs ih => simp [lastOwner, ih]

theorem lastOwner_mem (h : lastOwner as i xs = some x) : x ∈ xs ∧ x.Owns as i := by
  induction xs with
  | nil => cases h
  | cons y ys ih =>
    rw [lastOwner, Option.or_eq_some_iff] at h
    rcases h with h | ⟨-, h⟩
    · exact ⟨List.mem_cons_of_mem _ (ih h).1, (ih h).2⟩
    · split at h
      · rename_i hown
        cases h
        exact ⟨List.mem_cons_self, hown⟩
      · cases h

end Part

namespace Assembly

variable {ω α : Type} {l : StoredAxes} {vars : Nat} {whole : Dimensions} {asm asm' : Assembly ω α}

/-- The assembly is one of the whole array: its tensor and its coordinates have their extents. -/
structure Over (asm : Assembly ω α) (l : StoredAxes) (vars : Nat) (whole : Dimensions) : Prop where
  layout_eq : asm.layout = l
  vars_eq : asm.vars = vars
  dims_eq : asm.dims = whole
  shape_eq : asm.f.shape = l.shape vars whole
  length_eq : ∀ a, (asm.coords.get a).length = whole.extent a

variable [Zero α]

theorem over_empty : (empty l whole vars : Assembly ω α).Over l vars whole where
  layout_eq := rfl
  vars_eq := rfl
  dims_eq := rfl
  shape_eq := rfl
  length_eq a := by simp [empty, Dimensions.extent]

variable [Narrowing ω α]

theorem Over.put (h : asm.Over l vars whole) (p : PerAxis Placement) (t : Tensor α)
    (b : Block ω α) : (asm.put p t b).Over l vars whole where
  layout_eq := h.layout_eq
  vars_eq := h.vars_eq
  dims_eq := h.dims_eq
  shape_eq := h.shape_eq
  length_eq a := by rw [coords_put, length_writeSpan, h.length_eq]

omit [Zero α] in
theorem size_ge_of_partTensor {shape : List Nat} {data : Array α} {t : Tensor α}
    (h : partTensor shape data = .ok t) : volume shape ≤ data.size := by
  refine Nat.le_of_not_lt fun hsize => ?_
  rw [partTensor_eq_error hsize] at h
  cases h

/-- A part that was placed fills its own cells, wherever it was put. -/
theorem Over.exists_put_of_place (h : asm.Over l vars whole) {x : Part ω α}
    (hplace : asm.place x.1 x.2 = .ok asm') :
    x.2.Fills l vars x.1 ∧ ∃ p t, asm' = asm.put p t x.2 := by
  obtain ⟨p, t, -, hvars, ht, -, rfl⟩ := place_eq_ok_iff_exists.mp hplace
  rw [h.vars_eq, h.layout_eq] at ht
  exact ⟨⟨hvars.trans h.vars_eq, size_ge_of_partTensor ht⟩, p, t, rfl⟩

/-- What is known of a part after it was placed, and of the assembly. -/
theorem Over.place_eq_ok_iff (h : asm.Over l vars whole) {x : Part ω α} (hw : x.1.FitsWords) :
    asm.place x.1 x.2 = .ok asm' ↔ x.Fits l vars whole ∧
      ∃ t, t.shape = l.shape vars x.1 ∧
        (∀ idx, Cell.Inside (l.shape vars x.1) idx →
          t.get? idx = x.2.at? (l.shape vars x.1) idx) ∧ asm' = asm.put x.1.placed t x.2 := by
  rw [Assembly.place_eq_ok_iff hw, h.dims_eq, h.vars_eq, h.layout_eq]
  constructor
  · intro hex
    obtain ⟨hfits, hvars, t, ht, rfl⟩ := hex
    have hsize := size_ge_of_partTensor ht
    obtain ⟨t', ht', hshape, hcells⟩ := partTensor_eq_ok hsize
    rw [ht'] at ht
    cases ht
    exact ⟨⟨hfits, hvars, hsize⟩, t, hshape, hcells, rfl⟩
  · intro hex
    obtain ⟨⟨hfits, hvars, hsize⟩, t, hshape, hcells, rfl⟩ := hex
    obtain ⟨t', ht', hshape', hcells'⟩ := partTensor_eq_ok hsize
    have heq : t = t' := by
      refine Tensor.ext_get? (hshape.trans hshape'.symm) fun idx hin => ?_
      rw [hshape] at hin
      rw [hcells idx hin, hcells' idx hin, Block.at?]
    exact ⟨hfits, hvars, t', ht', heq ▸ rfl⟩

def placeAll (asm : Assembly ω α) (parts : List (Part ω α)) : Except LayoutFault (Assembly ω α) :=
  parts.foldlM (fun asm x => asm.place x.1 x.2) asm

theorem placeAll_cons (asm : Assembly ω α) (x : Part ω α) (xs : List (Part ω α)) :
    asm.placeAll (x :: xs) = (asm.place x.1 x.2).bind fun asm => asm.placeAll xs :=
  List.foldlM_cons

theorem placeAll_cons_eq_ok_iff {x : Part ω α} {xs : List (Part ω α)} :
    asm.placeAll (x :: xs) = .ok asm' ↔
      ∃ next, asm.place x.1 x.2 = .ok next ∧ next.placeAll xs = .ok asm' := by
  rw [placeAll_cons]
  exact Outcome.bind_eq_ok_iff

variable {parts : List (Part ω α)}

/-- A run of placings comes to its end exactly when each of its parts fits. -/
theorem Over.placeAll_ok_iff (h : asm.Over l vars whole) (hw : ∀ x ∈ parts, x.1.FitsWords) :
    (∃ asm', asm.placeAll parts = .ok asm') ↔ ∀ x ∈ parts, x.Fits l vars whole := by
  induction parts generalizing asm with
  | nil => exact iff_of_true ⟨asm, rfl⟩ (List.forall_mem_nil _)
  | cons x xs ih =>
    obtain ⟨hwx, hwxs⟩ := List.forall_mem_cons.mp hw
    rw [List.forall_mem_cons]
    constructor
    · intro hex
      obtain ⟨asm', hrun⟩ := hex
      obtain ⟨next, hplace, hrest⟩ := placeAll_cons_eq_ok_iff.mp hrun
      obtain ⟨hx, t, -, -, rfl⟩ := (h.place_eq_ok_iff hwx).mp hplace
      exact ⟨hx, (ih (h.put ..) hwxs).mp ⟨asm', hrest⟩⟩
    · intro hboth
      obtain ⟨hx, hxs⟩ := hboth
      obtain ⟨t, ht, hshape, hcells⟩ := partTensor_eq_ok hx.fills.size_ge
      have hplace := (h.place_eq_ok_iff hwx).mpr ⟨hx, t, hshape, hcells, rfl⟩
      obtain ⟨asm', hrest⟩ := (ih (h.put x.1.placed t x.2) hwxs).mpr hxs
      exact ⟨asm', placeAll_cons_eq_ok_iff.mpr ⟨_, hplace, hrest⟩⟩

theorem Over.placeAll (h : asm.Over l vars whole) (hrun : asm.placeAll parts = .ok asm') :
    asm'.Over l vars whole := by
  induction parts generalizing asm with
  | nil => cases hrun; exact h
  | cons x xs ih =>
    obtain ⟨next, hplace, hrest⟩ := placeAll_cons_eq_ok_iff.mp hrun
    obtain ⟨-, p, t, rfl⟩ := h.exists_put_of_place hplace
    exact ih (h.put ..) hrest

theorem Over.fills_of_placeAll (h : asm.Over l vars whole) (hrun : asm.placeAll parts = .ok asm')
    {x : Part ω α} (hx : x ∈ parts) : x.2.Fills l vars x.1 := by
  induction parts generalizing asm with
  | nil => cases hx
  | cons y ys ih =>
    obtain ⟨next, hplace, hrest⟩ := placeAll_cons_eq_ok_iff.mp hrun
    obtain ⟨hy, p, t, rfl⟩ := h.exists_put_of_place hplace
    rcases List.mem_cons.mp hx with rfl | hx
    · exact hy
    · exact ih (h.put ..) hrest hx

/-- Whatever was placed left its time and its spacings. -/
theorem exists_scalars_placeAll (h : asm.Over l vars whole) (hrun : asm.placeAll parts = .ok asm')
    (hne : parts ≠ []) : ∃ x ∈ parts, asm'.scalars = some (.ofRecord x.2.coords) := by
  induction parts generalizing asm with
  | nil => exact absurd rfl hne
  | cons x xs ih =>
    obtain ⟨next, hplace, hrest⟩ := placeAll_cons_eq_ok_iff.mp hrun
    obtain ⟨-, p, t, rfl⟩ := h.exists_put_of_place hplace
    cases xs with
    | nil =>
      cases hrest
      exact ⟨x, List.mem_cons_self, rfl⟩
    | cons y ys =>
      obtain ⟨z, hz, hscalars⟩ := ih (h.put ..) hrest (List.cons_ne_nil _ _)
      exact ⟨z, List.mem_cons_of_mem _ hz, hscalars⟩

/-- After a run a cell has the value of the last part that owns it, or its old one. -/
theorem get?_placeAll {slot : Nat} {i : PerAxis Nat} (h : asm.Over l vars whole)
    (hw : ∀ x ∈ parts, x.1.FitsWords) (hrun : asm.placeAll parts = .ok asm') (hs : slot < vars)
    (hi : ∀ a ∈ l.axes, i.get a < whole.extent a) :
    asm'.f.get? (l.index slot i) =
      match Part.lastOwner l.axes i parts with
      | some x => x.2.at? (l.shape vars x.1) (l.index slot (x.1.within i))
      | none => asm.f.get? (l.index slot i) := by
  induction parts generalizing asm with
  | nil => cases hrun; rfl
  | cons x xs ih =>
    obtain ⟨hwx, hwxs⟩ := List.forall_mem_cons.mp hw
    obtain ⟨next, hplace, hrest⟩ := placeAll_cons_eq_ok_iff.mp hrun
    obtain ⟨-, t, hshape, hcells, rfl⟩ := (h.place_eq_ok_iff hwx).mp hplace
    rw [ih (h.put ..) hwxs hrest, Part.lastOwner]
    cases hlast : Part.lastOwner l.axes i xs with
    | some y => rfl
    | none =>
      obtain rfl := h.layout_eq
      obtain rfl := h.vars_eq
      by_cases hown : x.Owns asm.layout.axes i
      · have hin : Cell.Inside asm.f.shape (asm.layout.index slot i) := by
          rw [h.shape_eq]
          exact StoredAxes.inside_index.mpr ⟨hs, hi⟩
        have hwithin : Cell.Inside (asm.layout.shape asm.vars x.1)
            (asm.layout.index slot (x.1.within i)) :=
          StoredAxes.inside_index.mpr ⟨hs, fun a ha => Dimensions.within_lt (hown a ha)⟩
        simp only [hown, if_true, Option.none_or]
        rw [get?_put_of_owned hin hs hshape hown, hcells _ hwithin]
      · simp only [hown, if_false, Option.none_or]
        exact get?_put_of_not_owned hs hown

/-- After a run a coordinate is that of the last part that owns its index, or its old one. -/
theorem getElem?_coords_placeAll {a : Axis} {k : Nat} (h : asm.Over l vars whole)
    (hw : ∀ x ∈ parts, x.1.FitsWords) (hrun : asm.placeAll parts = .ok asm')
    (hlen : ∀ x ∈ parts, (x.2.coords.coords.get a).length = x.1.extent a)
    (hk : k < whole.extent a) :
    (asm'.coords.get a)[k]? =
      match Part.lastOwner [a] (.uniform k) parts with
      | some x => (x.2.coords.coords.get a)[k - x.1.base a]?.map narrow
      | none => (asm.coords.get a)[k]? := by
  induction parts generalizing asm with
  | nil => cases hrun; rfl
  | cons x xs ih =>
    obtain ⟨hwx, hwxs⟩ := List.forall_mem_cons.mp hw
    obtain ⟨next, hplace, hrest⟩ := placeAll_cons_eq_ok_iff.mp hrun
    obtain ⟨-, t, -, -, rfl⟩ := (h.place_eq_ok_iff hwx).mp hplace
    obtain ⟨hlenx, hlenxs⟩ := List.forall_mem_cons.mp hlen
    rw [ih (h.put ..) hwxs hrest hlenxs, Part.lastOwner]
    cases hlast : Part.lastOwner [a] (.uniform k) xs with
    | some y => rfl
    | none =>
      by_cases hown : (x.1.owned a).Contains k
      · simp only [Part.owns_singleton_iff.mpr hown, if_true, Option.none_or]
        exact getElem?_coords_put_of_owned hlenx (h.length_eq a ▸ hk) hown
      · simp only [(not_congr Part.owns_singleton_iff).mpr hown, if_false, Option.none_or]
        exact getElem?_coords_put_of_not_owned hown

end Assembly

end GridSnapshot
