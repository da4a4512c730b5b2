import GridSnapshot.CentralDifference
import GridSnapshot.Proofs.Consistency
import GridSnapshot.Proofs.Outcome

namespace GridSnapshot

/-- The same place but along one axis. -/
def PerAxis.replace {α : Type} (j : PerAxis α) (a : Axis) (x : α) : PerAxis α :=
  .ofFn fun b => if b = a then x else j.get b

theorem PerAxis.get_replace_self {α : Type} (j : PerAxis α) (a : Axis) (x : α) :
    (j.replace a x).get a = x := by
  rw [replace, get_ofFn, if_pos rfl]

theorem PerAxis.get_replace_of_ne {α : Type} (j : PerAxis α) {a b : Axis} (h : b ≠ a) (x : α) :
    (j.replace a x).get b = j.get b := by
  rw [replace, get_ofFn, if_neg h]

namespace StoredAxes

variable {l : StoredAxes} {a : Axis} {j : PerAxis Nat}

theorem getD_idxOf (h : a ∈ l.axes) : (l.axes.map j.get).getD (l.axes.idxOf a) 0 = j.get a := by
  have hlt : l.axes.idxOf a < l.axes.length := List.idxOf_lt_length_iff.mpr h
  rw [List.getD_eq_getElem?_getD, List.getElem?_map, List.getElem?_eq_getElem hlt,
    List.getElem_idxOf hlt]
  rfl

theorem set_idxOf (h : a ∈ l.axes) (i : Nat) :
    (l.axes.map j.get).set (l.axes.idxOf a) i = l.axes.map (j.replace a i).get := by
  cases l <;> cases a <;> rfl

end StoredAxes

/-- The grid of one processor's part and that of the whole array. -/
structure PartGrid (P : ProcessorGrid) (d : Dimensions) {ω : Type} (one all : StencilGrid ω) :
    Prop where
  isPart : P.IsPart d
  layout_eq : one.layout = all.layout
  extents_one : ∀ a, one.extents.get a = d.extent a
  extents_all : ∀ a, all.extents.get a = P.wholeExtent a
  ghosts_one : one.ghosts = P.ghosts
  ghosts_all : all.ghosts = P.ghosts
  coordinates_eq : one.coordinates = all.coordinates
  inverse_eq : ∃ h : PerAxis ω, ∀ a,
    one.inverse.get a = List.replicate (one.extents.get a) (h.get a) ∧
      all.inverse.get a = List.replicate (all.extents.get a) (h.get a)
  ghosts_ge : ∀ a, 3 ≤ P.ghosts.get a
  interior_ge : ∀ a, 1 < P.counts.get a → 2 ≤ P.interior.get a

namespace PartGrid

variable {ω α : Type} {P : ProcessorGrid} {d : Dimensions} {one all : StencilGrid ω} {a : Axis}
  {i : Nat}

theorem contains_interior_iff (h : PartGrid P d one all) :
    (one.interior a).Contains i ↔
      P.ghosts.get a ≤ i ∧ i < P.ghosts.get a + P.interior.get a := by
  have hextent : one.extents.get a = P.interior.get a + 2 * P.ghosts.get a := by
    rw [h.extents_one, h.isPart.extent_eq]
  rw [StencilGrid.interior, h.ghosts_one, hextent]
  simp only [Span.Contains, Span.inner]
  omega

theorem lt_extent_of_contains (h : PartGrid P d one all) (hi : (one.interior a).Contains i) :
    i < d.extent a := by
  have hin := h.contains_interior_iff.mp hi
  rw [h.isPart.extent_eq]
  omega

/-- What is inside the margins of a part is inside those of the whole array. -/
theorem contains_interior_all (h : PartGrid P d one all) (hi : (one.interior a).Contains i) :
    (all.interior a).Contains (d.base a + i) := by
  have hin := h.contains_interior_iff.mp hi
  have hle := h.isPart.base_add_extent_le a
  rw [h.isPart.extent_eq, ProcessorGrid.wholeExtent] at hle
  rw [StencilGrid.interior, h.ghosts_all, h.extents_all, ProcessorGrid.wholeExtent]
  simp only [Span.Contains, Span.inner]
  omega

theorem length_interior_one (h : PartGrid P d one all) (a : Axis) :
    (one.interior a).length = P.interior.get a := by
  rw [StencilGrid.interior, Span.length_inner, h.ghosts_one, h.extents_one, h.isPart.extent_eq,
    Nat.add_sub_cancel]

theorem length_interior_all (h : PartGrid P d one all) (a : Axis) :
    (all.interior a).length = P.counts.get a * P.interior.get a := by
  rw [StencilGrid.interior, Span.length_inner, h.ghosts_all, h.extents_all,
    ProcessorGrid.wholeExtent, Nat.add_sub_cancel]

theorem start_interior_one (h : PartGrid P d one all) (a : Axis) :
    (one.interior a).start = P.ghosts.get a := by
  rw [StencilGrid.interior, h.ghosts_one, h.extents_one, h.isPart.extent_eq]
  simp only [Span.inner]
  omega

theorem start_interior_all (h : PartGrid P d one all) (a : Axis) :
    (all.interior a).start = P.ghosts.get a := by
  rw [StencilGrid.interior, h.ghosts_all, h.extents_all, ProcessorGrid.wholeExtent]
  simp only [Span.inner]
  omega

theorem isActive_eq (h : PartGrid P d one all) (a : Axis) : one.isActive a = all.isActive a := by
  have hone : one.extents.get a = P.interior.get a + 2 * P.ghosts.get a := by
    rw [h.extents_one, h.isPart.extent_eq]
  have hall : all.extents.get a = P.counts.get a * P.interior.get a + 2 * P.ghosts.get a :=
    h.extents_all a
  have hghosts := h.ghosts_ge a
  unfold StencilGrid.isActive
  rw [h.layout_eq, h.length_interior_one, h.length_interior_all, hone, hall, h.ghosts_one,
    h.ghosts_all]
  rcases Nat.lt_or_ge 1 (P.counts.get a) with hmany | hone'
  · -- Both sides have two interior cells at least.
    have htwo := h.interior_ge a hmany
    have hmul : P.interior.get a ≤ P.counts.get a * P.interior.get a :=
      Nat.le_mul_of_pos_left _ (P.counts_pos a)
    refine decide_eq_decide.mpr ?_
    unfold StencilGrid.stencilRadius
    constructor
    · rintro ⟨hmem, -⟩
      exact ⟨hmem, by omega, by omega, hghosts⟩
    · rintro ⟨hmem, -⟩
      exact ⟨hmem, by omega, by omega, hghosts⟩
  · have hcount : P.counts.get a = 1 := Nat.le_antisymm hone' (P.counts_pos a)
    rw [hcount, Nat.one_mul]

theorem inside_part (h : PartGrid P d one all) {j : PerAxis Nat}
    (hj : ∀ a ∈ one.layout.axes, j.get a < d.extent a) :
    Cell.Inside one.cellShape (one.layout.axes.map j.get) := by
  rw [StencilGrid.cellShape, Cell.inside_map]
  intro a ha
  rw [h.extents_one]
  exact hj a ha

theorem inside_whole (h : PartGrid P d one all) {j : PerAxis Nat}
    (hj : ∀ a ∈ one.layout.axes, j.get a < d.extent a) :
    Cell.Inside all.cellShape (one.layout.axes.map (d.outward j).get) := by
  rw [StencilGrid.cellShape, ← h.layout_eq, Cell.inside_map]
  intro a ha
  have hle := h.isPart.base_add_extent_le a
  have hlt := hj a ha
  rw [h.extents_all, Dimensions.outward, PerAxis.get_ofFn]
  omega

end PartGrid

theorem Dimensions.get_outward (d : Dimensions) (j : PerAxis Nat) (a : Axis) :
    (d.outward j).get a = d.base a + j.get a := PerAxis.get_ofFn _ a

theorem Dimensions.outward_replace (d : Dimensions) (j : PerAxis Nat) (a : Axis) (i : Nat) :
    d.outward (j.replace a i) = (d.outward j).replace a (d.base a + i) := by
  ext b
  rw [get_outward]
  by_cases hb : b = a
  · subst hb
    rw [PerAxis.get_replace_self, PerAxis.get_replace_self]
  · rw [PerAxis.get_replace_of_ne _ hb, PerAxis.get_replace_of_ne _ hb, get_outward]

namespace CentralDifference

/-- The cells of a part are those of the whole array at the same places, except in the margins
along some axes. -/
structure Agree {ω α : Type} [Zero α] (d : Dimensions) (one all : StencilGrid ω) (as : List Axis)
    (small big : Tensor α) : Prop where
  shape_one : small.shape = one.cellShape
  shape_all : big.shape = all.cellShape
  cell_eq : ∀ j : PerAxis Nat, (∀ a ∈ one.layout.axes, j.get a < d.extent a) →
    (∀ a ∈ as, a ∈ one.layout.axes → (one.interior a).Contains (j.get a)) →
    small.cell (one.layout.axes.map j.get) = big.cell (one.layout.axes.map (d.outward j).get)

section Fields

variable {ω α : Type} [Zero α] {P : ProcessorGrid} {d : Dimensions} {one all : StencilGrid ω}
  {as bs : List Axis} {small big v v' : Tensor α}

theorem Agree.mono (h : Agree d one all as small big) (hsub : as ⊆ bs) :
    Agree d one all bs small big :=
  { h with cell_eq := fun j hj hin => h.cell_eq j hj fun a ha => hin a (hsub ha) }

/-- Fields that agree inside all margins. -/
abbrev AgreeInside (d : Dimensions) (one all : StencilGrid ω) (small big : Tensor α) : Prop :=
  Agree d one all Axis.all small big

theorem Agree.inside (h : Agree d one all as small big) : AgreeInside d one all small big :=
  h.mono fun a _ => by cases a <;> decide

/-- Fields that are made cell by cell of fields that agree. -/
theorem agreeInside_ofFn (h : PartGrid P d one all) {f f' : List Nat → α}
    (hcell : ∀ j : PerAxis Nat, (∀ a ∈ one.layout.axes, j.get a < d.extent a) →
      (∀ a ∈ Axis.all, a ∈ one.layout.axes → (one.interior a).Contains (j.get a)) →
      f (one.layout.axes.map j.get) = f' (one.layout.axes.map (d.outward j).get)) :
    AgreeInside d one all (Tensor.ofFn one.cellShape f) (Tensor.ofFn all.cellShape f') where
  shape_one := rfl
  shape_all := rfl
  cell_eq j hj hin := by
    rw [Tensor.cell_ofFn _ (h.inside_part hj), Tensor.cell_ofFn _ (h.inside_whole hj)]
    exact hcell j hj hin

/-- Vectors that agree: either both fit their grid or none does, and if they do, then their
components agree. -/
structure SameVector (d : Dimensions) (one all : StencilGrid ω) (v v' : Tensor α) : Prop where
  shape_iff : v.shape = 3 :: one.cellShape ↔ v'.shape = 3 :: all.cellShape
  cell_eq : v.shape = 3 :: one.cellShape → ∀ c < 3, ∀ j : PerAxis Nat,
    (∀ a ∈ one.layout.axes, j.get a < d.extent a) →
    v.cell (c :: one.layout.axes.map j.get) = v'.cell (c :: one.layout.axes.map (d.outward j).get)

theorem SameVector.row (h : PartGrid P d one all) (hv : SameVector d one all v v')
    (hshape : v.shape = 3 :: one.cellShape) (a : Axis) :
    Agree d one all [] (v.row a.component) (v'.row a.component) where
  shape_one := by rw [Tensor.row, Tensor.shape_ofFn, hshape, List.tail_cons]
  shape_all := by rw [Tensor.row, Tensor.shape_ofFn, hv.shape_iff.mp hshape, List.tail_cons]
  cell_eq j hj _ := by
    have hone : Cell.Inside v.shape.tail (one.layout.axes.map j.get) := by
      rw [hshape]
      exact h.inside_part hj
    have hall : Cell.Inside v'.shape.tail (one.layout.axes.map (d.outward j).get) := by
      rw [hv.shape_iff.mp hshape]
      exact h.inside_whole hj
    rw [Tensor.row, Tensor.row, Tensor.cell_ofFn _ hone, Tensor.cell_ofFn _ hall]
    exact hv.cell_eq hshape _ (by cases a <;> decide) j hj

end Fields

section Sums

variable {α : Type} [RingOps α]

/-- A sum that looks at the values from three below to three above. -/
def IsStencil (sum : (Int → α) → α) : Prop :=
  ∀ f f' : Int → α, (∀ o, -3 ≤ o → o ≤ 3 → f o = f' o) → sum f = sum f'

theorem isStencil_firstSum : IsStencil (firstSum : (Int → α) → α) := by
  intro f f' h
  unfold firstSum
  rw [h 1 (by decide) (by decide), h (-1) (by decide) (by decide), h 2 (by decide) (by decide),
    h (-2) (by decide) (by decide), h 3 (by decide) (by decide), h (-3) (by decide) (by decide)]

theorem isStencil_secondSum : IsStencil (secondSum : (Int → α) → α) := by
  intro f f' h
  unfold secondSum
  rw [h 0 (by decide) (by decide), h 1 (by decide) (by decide), h (-1) (by decide) (by decide),
    h 2 (by decide) (by decide), h (-2) (by decide) (by decide), h 3 (by decide) (by decide),
    h (-3) (by decide) (by decide)]

theorem getD_factors {ω : Type} (f : ω → α) {n i : Nat} (x : ω) (hi : i < n) :
    ((List.replicate n x).map f).toArray.getD i 0 = f x := by
  simp [Array.getD, hi]

end Sums

variable {ω α : Type} [RingOps α] [Narrowing ω α] {P : ProcessorGrid} {d : Dimensions}
  {one all : StencilGrid ω} {a : Axis} {as : List Axis} {small big v v' : Tensor α}

omit [Narrowing ω α] in
/-- Fields that agree have the same values up to three cells along an axis from a cell that is
inside the margins along it. -/
theorem Agree.near (h : PartGrid P d one all) (hagree : Agree d one all as small big) (ha : a ∉ as)
    {j : PerAxis Nat} (hj : ∀ a ∈ one.layout.axes, j.get a < d.extent a)
    (hin : ∀ b ∈ as, b ∈ one.layout.axes → (one.interior b).Contains (j.get b))
    (hi : (one.interior a).Contains (j.get a)) {o : Int} (hlo : -3 ≤ o) (hhi : o ≤ 3) :
    small.cell (one.layout.axes.map (j.replace a ((j.get a : Int) + o).toNat).get) =
      big.cell (one.layout.axes.map
        ((d.outward j).replace a (((d.base a + j.get a : Nat) : Int) + o).toNat).get) := by
  have hbounds := h.contains_interior_iff.mp hi
  have hghosts := h.ghosts_ge a
  have hextent := h.isPart.extent_eq a
  have hplace : (((d.base a + j.get a : Nat) : Int) + o).toNat =
      d.base a + ((j.get a : Int) + o).toNat := by omega
  rw [hplace, ← Dimensions.outward_replace]
  refine hagree.cell_eq _ (fun b hb => ?_) fun b hb hstored => ?_
  · by_cases hba : b = a
    · subst hba
      rw [PerAxis.get_replace_self]
      omega
    · rw [PerAxis.get_replace_of_ne _ hba]
      exact hj b hb
  · have hba : b ≠ a := fun heq => ha (heq ▸ hb)
    rw [PerAxis.get_replace_of_ne _ hba]
    exact hin b hb hstored

/-- A difference of fields that agree agrees outside the margins along its axis. -/
theorem Agree.difference (h : PartGrid P d one all) {sum : (Int → α) → α} (hsum : IsStencil sum)
    (scale : ω → ω) (hagree : Agree d one all as small big) (ha : a ∉ as) :
    Agree d one all (a :: as) (difference one a sum scale small)
      (difference all a sum scale big) where
  shape_one := hagree.shape_one
  shape_all := hagree.shape_all
  cell_eq j hj hin := by
    have hone : Cell.Inside small.shape (one.layout.axes.map j.get) :=
      hagree.shape_one ▸ h.inside_part hj
    have hall : Cell.Inside big.shape (one.layout.axes.map (d.outward j).get) :=
      hagree.shape_all ▸ h.inside_whole hj
    unfold CentralDifference.difference
    rw [Tensor.cell_ofFn _ hone, Tensor.cell_ofFn _ hall]
    simp only [StencilGrid.storageIndex, ← h.layout_eq, ← h.isActive_eq]
    cases hactive : one.isActive a with
    | false => simp only [Bool.false_eq_true, false_and, if_false]
    | true =>
      have hmem : a ∈ one.layout.axes := (of_decide_eq_true hactive).1
      have hi := hin a List.mem_cons_self hmem
      have hi' := h.contains_interior_all hi
      have hlt := h.lt_extent_of_contains hi
      have hle := h.isPart.base_add_extent_le a
      simp only [StoredAxes.getD_idxOf hmem, StoredAxes.set_idxOf hmem, Dimensions.get_outward]
      rw [if_pos ⟨trivial, hi⟩, if_pos ⟨trivial, hi'⟩]
      obtain ⟨inverse, hinverse⟩ := h.inverse_eq
      have hrest : ∀ b ∈ as, b ∈ one.layout.axes → (one.interior b).Contains (j.get b) :=
        fun b hb => hin b (List.mem_cons_of_mem a hb)
      rw [hsum _ _ fun o hlo hhi => hagree.near h ha hj hrest hi hlo hhi, (hinverse a).1,
        (hinverse a).2, getD_factors, getD_factors]
      · rw [h.extents_all]
        omega
      · rw [h.extents_one]
        omega

variable [FieldOps ω]

theorem Agree.first (h : PartGrid P d one all) (hagree : Agree d one all as small big)
    (ha : a ∉ as) : Agree d one all (a :: as) (first one a small) (first all a big) :=
  hagree.difference h isStencil_firstSum _ ha

theorem Agree.second (h : PartGrid P d one all) (hagree : Agree d one all as small big)
    (ha : a ∉ as) : Agree d one all (a :: as) (second one a small) (second all a big) :=
  hagree.difference h isStencil_secondSum _ ha

theorem agreeInside_curlPart (h : PartGrid P d one all) (hv : SameVector d one all v v')
    (hshape : v.shape = 3 :: one.cellShape) (c a : Axis) :
    AgreeInside d one all (curlPart one v c a) (curlPart all v' c a) := by
  have hplus := ((hv.row h hshape c).first h (a := a) List.not_mem_nil).inside
  have hminus := ((hv.row h hshape a).first h (a := c) List.not_mem_nil).inside
  unfold curlPart
  refine agreeInside_ofFn h fun j hj hin => ?_
  rw [hplus.cell_eq j hj hin, hminus.cell_eq j hj hin]

theorem agreeInside_cross (h : PartGrid P d one all) (hv : SameVector d one all v v')
    (hshape : v.shape = 3 :: one.cellShape) {own c : Axis} (hne : own ≠ c) :
    AgreeInside d one all (cross one v own c) (cross all v' own c) := by
  have hrow := hv.row h hshape c
  unfold cross mixed
  split
  · exact ((hrow.first h List.not_mem_nil).first h (by simpa using hne)).inside
  · exact ((hrow.first h List.not_mem_nil).first h (by simpa using hne.symm)).inside

theorem agreeInside_doubleCurlPart (h : PartGrid P d one all) (hv : SameVector d one all v v')
    (hshape : v.shape = 3 :: one.cellShape) {own p q : Axis} (hp : own ≠ p) (hq : own ≠ q) :
    AgreeInside d one all (doubleCurlPart one v own p q) (doubleCurlPart all v' own p q) := by
  have hcrossP := agreeInside_cross h hv hshape hp
  have hcrossQ := agreeInside_cross h hv hshape hq
  have hsecondP := ((hv.row h hshape own).second h (a := p) List.not_mem_nil).inside
  have hsecondQ := ((hv.row h hshape own).second h (a := q) List.not_mem_nil).inside
  unfold doubleCurlPart
  refine agreeInside_ofFn h fun j hj hin => ?_
  rw [hcrossP.cell_eq j hj hin, hcrossQ.cell_eq j hj hin, hsecondP.cell_eq j hj hin,
    hsecondQ.cell_eq j hj hin]

/-- Vectors on the interior cells of a part and of the whole array that have the same components at
the same places. -/
structure VectorsAgree {ω α : Type} [Zero α] (d : Dimensions) (one all : StencilGrid ω)
    (t t' : Tensor α) : Prop where
  shape_one : t.shape = 3 :: one.cellShape
  shape_all : t'.shape = 3 :: all.cellShape
  cell_eq : ∀ c < 3, ∀ j : PerAxis Nat,
    (∀ a ∈ one.layout.axes, (one.interior a).Contains (j.get a)) →
    t.cell (c :: one.layout.axes.map j.get) = t'.cell (c :: one.layout.axes.map (d.outward j).get)

omit [Narrowing ω α] [FieldOps ω] in
theorem vectorsAgree_interiorVector (h : PartGrid P d one all) {parts wholes : PerAxis (Tensor α)}
    (hparts : ∀ a, AgreeInside d one all (parts.get a) (wholes.get a)) :
    VectorsAgree d one all (interiorVector one parts) (interiorVector all wholes) where
  shape_one := rfl
  shape_all := rfl
  cell_eq c hc j hin := by
    have hj : ∀ a ∈ one.layout.axes, j.get a < d.extent a :=
      fun a ha => h.lt_extent_of_contains (hin a ha)
    have hone : Cell.Inside (3 :: one.cellShape) (c :: one.layout.axes.map j.get) :=
      ⟨hc, h.inside_part hj⟩
    have hall : Cell.Inside (3 :: all.cellShape) (c :: one.layout.axes.map (d.outward j).get) :=
      ⟨hc, h.inside_whole hj⟩
    have hbox : Cell.InBox (one.layout.axes.map one.interior) (one.layout.axes.map j.get) :=
      (Cell.inBox_map ..).mpr hin
    have hbox' : Cell.InBox (all.layout.axes.map all.interior)
        (one.layout.axes.map (d.outward j).get) := by
      rw [← h.layout_eq, Cell.inBox_map]
      intro a ha
      rw [Dimensions.get_outward]
      exact h.contains_interior_all (hin a ha)
    have hcell (a : Axis) := (hparts a).cell_eq j hj fun b _ hb => hin b hb
    unfold interiorVector
    rw [Tensor.cell_ofFn _ hone, Tensor.cell_ofFn _ hall]
    simp only [hbox, hbox', if_true]
    match c, hc with
    | 0, _ => exact hcell .x
    | 1, _ => exact hcell .y
    | 2, _ => exact hcell .z

omit [Narrowing ω α] [FieldOps ω] in
theorem together_check (h : PartGrid P d one all) (hv : SameVector d one all v v')
    (operator : String) :
    Outcome.Together (fun _ _ => v.shape = 3 :: one.cellShape) (check operator one v)
      (check operator all v') := by
  unfold check
  rw [← h.coordinates_eq]
  by_cases hcartesian : one.coordinates = .cartesian
  · rw [if_neg (not_not_intro hcartesian), if_neg (not_not_intro hcartesian)]
    by_cases hshape : v.shape = 3 :: one.cellShape
    · have hshape' := hv.shape_iff.mp hshape
      rw [if_neg (not_not_intro hshape), if_neg (not_not_intro hshape')]
      exact .ok hshape
    · have hshape' := mt hv.shape_iff.mpr hshape
      rw [if_pos hshape, if_pos hshape']
      exact .error
  · rw [if_pos hcartesian, if_pos hcartesian]
    exact .error

theorem together_curl (h : PartGrid P d one all) (hv : SameVector d one all v v') :
    Outcome.Together (VectorsAgree d one all) (curl one v) (curl all v') := by
  refine (together_check h hv "curl").bind fun _ _ hshape => ?_
  refine .ok (vectorsAgree_interiorVector h fun a => ?_)
  cases a with
  | x => exact agreeInside_curlPart h hv hshape .z .y
  | y => exact agreeInside_curlPart h hv hshape .x .z
  | z => exact agreeInside_curlPart h hv hshape .y .x

section Accepted

variable {g : StencilGrid ω} {t : Tensor α}

omit [RingOps α] [Narrowing ω α] [FieldOps ω] in
theorem check_eq_ok_iff (operator : String) : check operator g v = .ok () ↔
    g.coordinates = .cartesian ∧ v.shape = 3 :: g.cellShape := by
  unfold check
  split
  · rename_i hcurved
    simp [hcurved]
  · split
    · rename_i hshape
      simp [hshape]
    · rename_i hcartesian hshape
      simp [Decidable.of_not_not hcartesian, Decidable.of_not_not hshape]

theorem curl_eq_ok_iff : curl g v = .ok t ↔
    (g.coordinates = .cartesian ∧ v.shape = 3 :: g.cellShape) ∧
      t = interiorVector g ⟨curlPart g v .z .y, curlPart g v .x .z, curlPart g v .y .x⟩ := by
  rw [curl, Outcome.bind_eq_ok_iff, ← check_eq_ok_iff "curl"]
  constructor
  · rintro ⟨u, hcheck, ht⟩
    exact ⟨hcheck, (Except.ok.inj ht).symm⟩
  · rintro ⟨hcheck, rfl⟩
    exact ⟨(), hcheck, rfl⟩

theorem doubleCurl_eq_ok_iff : doubleCurl g v = .ok t ↔
    (g.coordinates = .cartesian ∧ v.shape = 3 :: g.cellShape) ∧
      t = interiorVector g ⟨doubleCurlPart g v .x .y .z, doubleCurlPart g v .y .x .z,
        doubleCurlPart g v .z .x .y⟩ := by
  rw [doubleCurl, Outcome.bind_eq_ok_iff, ← check_eq_ok_iff "curl curl"]
  constructor
  · rintro ⟨u, hcheck, ht⟩
    exact ⟨hcheck, (Except.ok.inj ht).symm⟩
  · rintro ⟨hcheck, rfl⟩
    exact ⟨(), hcheck, rfl⟩

theorem exists_curl (hcartesian : g.coordinates = .cartesian)
    (hshape : v.shape = 3 :: g.cellShape) : ∃ t, curl g v = .ok t :=
  ⟨_, curl_eq_ok_iff.mpr ⟨⟨hcartesian, hshape⟩, rfl⟩⟩

theorem exists_doubleCurl (hcartesian : g.coordinates = .cartesian)
    (hshape : v.shape = 3 :: g.cellShape) : ∃ t, doubleCurl g v = .ok t :=
  ⟨_, doubleCurl_eq_ok_iff.mpr ⟨⟨hcartesian, hshape⟩, rfl⟩⟩

end Accepted

theorem together_doubleCurl (h : PartGrid P d one all) (hv : SameVector d one all v v') :
    Outcome.Together (VectorsAgree d one all) (doubleCurl one v) (doubleCurl all v') := by
  refine (together_check h hv "curl curl").bind fun _ _ hshape => ?_
  refine .ok (vectorsAgree_interiorVector h fun a => ?_)
  cases a with
  | x => exact agreeInside_doubleCurlPart h hv hshape (by decide) (by decide)
  | y => exact agreeInside_doubleCurlPart h hv hshape (by decide) (by decide)
  | z => exact agreeInside_doubleCurlPart h hv hshape (by decide) (by decide)

end CentralDifference

end GridSnapshot
