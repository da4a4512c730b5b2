import GridSnapshot.Proofs.StencilAgreement

namespace GridSnapshot

theorem PerAxis.replace_comm {α : Type} {a b : Axis} (j : PerAxis α) (h : a ≠ b) (x y : α) :
    (j.replace a x).replace b y = (j.replace b y).replace a x := by
  ext c
  by_cases hb : c = b
  · have ha : c ≠ a := fun hca => h (hca.symm.trans hb)
    rw [hb, get_replace_self, get_replace_of_ne _ (hb ▸ ha), get_replace_self]
  · rw [get_replace_of_ne _ hb]
    by_cases ha : c = a
    · rw [ha, get_replace_self, get_replace_self]
    · rw [get_replace_of_ne _ ha, get_replace_of_ne _ ha, get_replace_of_ne _ hb]

/-- The place some cells further along an axis. -/
def PerAxis.neighbour (j : PerAxis Nat) (a : Axis) (o : Int) : PerAxis Nat :=
  j.replace a ((j.get a : Int) + o).toNat

theorem PerAxis.get_neighbour_self (j : PerAxis Nat) (a : Axis) (o : Int) :
    (j.neighbour a o).get a = ((j.get a : Int) + o).toNat := get_replace_self _ _ _

theorem PerAxis.get_neighbour_of_ne {a b : Axis} (h : b ≠ a) (j : PerAxis Nat) (o : Int) :
    (j.neighbour a o).get b = j.get b := get_replace_of_ne _ h _

/-- The cell at a place. -/
def Tensor.atPlace {α : Type} [Zero α] (t : Tensor α) (l : StoredAxes) (j : PerAxis Nat) : α :=
  t.cell (l.axes.map j.get)

/-- A component of a vector, by place. -/
def Tensor.component {α : Type} [Zero α] (t : Tensor α) (l : StoredAxes) (c : Axis)
    (j : PerAxis Nat) : α :=
  t.cell (c.component :: l.axes.map j.get)

theorem Axis.component_lt (c : Axis) : c.component < 3 := by
  cases c <;> decide

namespace StencilGrid

variable {ω : Type} {g : StencilGrid ω} {a : Axis} {j : PerAxis Nat}

def HasPlace (g : StencilGrid ω) (j : PerAxis Nat) : Prop :=
  ∀ a ∈ g.layout.axes, j.get a < g.extents.get a

/-- The place is between the margins along all axes. -/
def IsInterior (g : StencilGrid ω) (j : PerAxis Nat) : Prop :=
  ∀ a ∈ g.layout.axes, (g.interior a).Contains (j.get a)

instance (g : StencilGrid ω) (j : PerAxis Nat) : Decidable (g.IsInterior j) :=
  inferInstanceAs (Decidable (∀ a ∈ g.layout.axes, (g.interior a).Contains (j.get a)))

theorem contains_interior_iff {i : Nat} : (g.interior a).Contains i ↔
    g.ghosts.get a ≤ i ∧ i + g.ghosts.get a < g.extents.get a := by
  simp only [interior, Span.inner, Span.Contains]
  omega

theorem IsInterior.hasPlace (h : g.IsInterior j) : g.HasPlace j := by
  intro a ha
  have hin := contains_interior_iff.mp (h a ha)
  omega

theorem inside_cellShape_iff : Cell.Inside g.cellShape (g.layout.axes.map j.get) ↔ g.HasPlace j :=
  Cell.inside_map _ _ _

theorem inside_vector_iff (c : Axis) :
    Cell.Inside (3 :: g.cellShape) (c.component :: g.layout.axes.map j.get) ↔ g.HasPlace j := by
  rw [← inside_cellShape_iff]
  exact ⟨fun h => h.2, fun h => ⟨c.component_lt, h⟩⟩

theorem mem_axes_of_isActive (h : g.isActive a = true) : a ∈ g.layout.axes :=
  (of_decide_eq_true h).1

theorem ghosts_ge_of_isActive (h : g.isActive a = true) : 3 ≤ g.ghosts.get a :=
  (of_decide_eq_true h).2.2.2

/-- Along an active axis the stencil of an interior cell does not leave the grid. -/
theorem HasPlace.neighbour {o : Int} (hj : g.HasPlace j) (hactive : g.isActive a = true)
    (hin : (g.interior a).Contains (j.get a)) (hlo : -3 ≤ o) (hhi : o ≤ 3) :
    g.HasPlace (j.neighbour a o) := by
  intro b hb
  have hghosts := ghosts_ge_of_isActive hactive
  have hbounds := contains_interior_iff.mp hin
  by_cases hba : b = a
  · subst hba
    rw [PerAxis.get_neighbour_self]
    omega
  · rw [PerAxis.get_neighbour_of_ne hba]
    exact hj b hb

end StencilGrid

namespace CentralDifference

section Differences

variable {ω α : Type} [RingOps α] [Narrowing ω α] {g : StencilGrid ω} {a : Axis} {j : PerAxis Nat}
  {sum : (Int → α) → α} {scale : ω → ω} {f f' : PerAxis Nat → α} {t : Tensor α}

/-- What a difference is multiplied with at an index along its axis. -/
def factorAt (g : StencilGrid ω) (a : Axis) (scale : ω → ω) (i : Nat) : α :=
  ((g.inverse.get a).map fun h => (narrow (scale h) : α)).toArray.getD i 0

/-- A difference along an axis of a function of the place. -/
def differenceAt (g : StencilGrid ω) (a : Axis) (sum : (Int → α) → α) (scale : ω → ω)
    (f : PerAxis Nat → α) (j : PerAxis Nat) : α :=
  if g.isActive a ∧ (g.interior a).Contains (j.get a) then
    sum (fun o => f (j.neighbour a o)) * factorAt g a scale (j.get a)
  else 0

theorem cell_difference_of_not_isActive (h : g.isActive a = false) (t : Tensor α)
    (idx : List Nat) : (difference g a sum scale t).cell idx = 0 := by
  unfold difference
  by_cases hin : Cell.Inside t.shape idx
  · rw [Tensor.cell_ofFn _ hin]
    simp [h]
  · exact Tensor.cell_ofFn_outside _ hin

theorem differenceAt_of_interior (hactive : g.isActive a = true)
    (hin : (g.interior a).Contains (j.get a)) : differenceAt g a sum scale f j =
      sum (fun o => f (j.neighbour a o)) * factorAt g a scale (j.get a) := by
  rw [differenceAt, if_pos ⟨hactive, hin⟩]

/-- Only the values at the neighbours count. -/
theorem differenceAt_congr (hsum : IsStencil sum)
    (h : g.isActive a = true → (g.interior a).Contains (j.get a) → ∀ o : Int, -3 ≤ o → o ≤ 3 →
      f (j.neighbour a o) = f' (j.neighbour a o)) :
    differenceAt g a sum scale f j = differenceAt g a sum scale f' j := by
  unfold differenceAt
  split
  · rename_i hin
    rw [hsum _ _ (h hin.1 hin.2)]
  · rfl

theorem differenceAt_congr_hasPlace (hsum : IsStencil sum) (hj : g.HasPlace j)
    (h : ∀ i, g.HasPlace i → f i = f' i) :
    differenceAt g a sum scale f j = differenceAt g a sum scale f' j :=
  differenceAt_congr hsum fun hactive hin _ hlo hhi => h _ (hj.neighbour hactive hin hlo hhi)

theorem atPlace_difference (ht : t.shape = g.cellShape) (hj : g.HasPlace j) :
    (difference g a sum scale t).atPlace g.layout j =
      differenceAt g a sum scale (t.atPlace g.layout) j := by
  have hinside : Cell.Inside t.shape (g.layout.axes.map j.get) :=
    ht ▸ StencilGrid.inside_cellShape_iff.mpr hj
  unfold Tensor.atPlace difference
  rw [Tensor.cell_ofFn _ hinside]
  cases hactive : g.isActive a with
  | false => simp [differenceAt, hactive]
  | true =>
    have hmem := StencilGrid.mem_axes_of_isActive hactive
    simp only [StencilGrid.storageIndex, StoredAxes.getD_idxOf hmem, StoredAxes.set_idxOf hmem,
      PerAxis.neighbour, differenceAt, factorAt, hactive]

end Differences

variable {ω α : Type} [FieldOps ω] [RingOps α] [Narrowing ω α] {g : StencilGrid ω}
  {a b c : Axis} {j : PerAxis Nat} {f f' : PerAxis Nat → α} {t v : Tensor α}
  {w : PerAxis (Tensor α)}

def firstAt (g : StencilGrid ω) (a : Axis) : (PerAxis Nat → α) → PerAxis Nat → α :=
  differenceAt g a firstSum fun h => h / RingOps.ofInt 60

def secondAt (g : StencilGrid ω) (a : Axis) : (PerAxis Nat → α) → PerAxis Nat → α :=
  differenceAt g a secondSum fun h => h * h / RingOps.ofInt 180

theorem firstAt_congr (hj : g.HasPlace j) (h : ∀ i, g.HasPlace i → f i = f' i) :
    firstAt g a f j = firstAt g a f' j := differenceAt_congr_hasPlace isStencil_firstSum hj h

theorem secondAt_congr (hj : g.HasPlace j) (h : ∀ i, g.HasPlace i → f i = f' i) :
    secondAt g a f j = secondAt g a f' j := differenceAt_congr_hasPlace isStencil_secondSum hj h

theorem atPlace_first (ht : t.shape = g.cellShape) (hj : g.HasPlace j) :
    (first g a t).atPlace g.layout j = firstAt g a (t.atPlace g.layout) j :=
  atPlace_difference ht hj

theorem atPlace_second (ht : t.shape = g.cellShape) (hj : g.HasPlace j) :
    (second g a t).atPlace g.layout j = secondAt g a (t.atPlace g.layout) j :=
  atPlace_difference ht hj

theorem atPlace_mixed (ht : t.shape = g.cellShape) (hj : g.HasPlace j) :
    (mixed g a b t).atPlace g.layout j = firstAt g b (firstAt g a (t.atPlace g.layout)) j := by
  have hfirst : (first g a t).shape = g.cellShape := ht
  rw [mixed, atPlace_first hfirst hj]
  exact firstAt_congr hj fun i hi => atPlace_first ht hi

/-- The components of the curl of a vector. -/
def curlAt (g : StencilGrid ω) (f : Axis → PerAxis Nat → α) : Axis → PerAxis Nat → α
  | .x => fun j => firstAt g .y (f .z) j - firstAt g .z (f .y) j
  | .y => fun j => firstAt g .z (f .x) j - firstAt g .x (f .z) j
  | .z => fun j => firstAt g .x (f .y) j - firstAt g .y (f .x) j

/-- The derivative of a component along its own axis and another one, in the order of the axes. -/
def crossAt (g : StencilGrid ω) (f : Axis → PerAxis Nat → α) (own c : Axis) :
    PerAxis Nat → α :=
  if c.component < own.component then firstAt g own (firstAt g c (f c))
  else firstAt g c (firstAt g own (f c))

def doubleCurlPartAt (g : StencilGrid ω) (f : Axis → PerAxis Nat → α) (own p q : Axis)
    (j : PerAxis Nat) : α :=
  crossAt g f own p j + crossAt g f own q j - secondAt g p (f own) j - secondAt g q (f own) j

/-- The components of the curl of the curl. -/
def doubleCurlAt (g : StencilGrid ω) (f : Axis → PerAxis Nat → α) : Axis → PerAxis Nat → α
  | .x => doubleCurlPartAt g f .x .y .z
  | .y => doubleCurlPartAt g f .y .x .z
  | .z => doubleCurlPartAt g f .z .x .y

theorem curlAt_congr {F F' : Axis → PerAxis Nat → α} (hj : g.HasPlace j)
    (h : ∀ c i, g.HasPlace i → F c i = F' c i) (c : Axis) : curlAt g F c j = curlAt g F' c j := by
  have hfirst (a b : Axis) : firstAt g a (F b) j = firstAt g a (F' b) j := firstAt_congr hj (h b)
  cases c <;> simp only [curlAt, hfirst]

theorem doubleCurlAt_congr {F F' : Axis → PerAxis Nat → α} (hj : g.HasPlace j)
    (h : ∀ c i, g.HasPlace i → F c i = F' c i) (c : Axis) :
    doubleCurlAt g F c j = doubleCurlAt g F' c j := by
  have hmixed (a b c : Axis) :
      firstAt g a (firstAt g b (F c)) j = firstAt g a (firstAt g b (F' c)) j :=
    firstAt_congr hj fun i hi => firstAt_congr hi (h c)
  have hsecond (a b : Axis) : secondAt g a (F b) j = secondAt g a (F' b) j :=
    secondAt_congr hj (h b)
  have hcross (own c : Axis) : crossAt g F own c j = crossAt g F' own c j := by
    unfold crossAt
    split
    · exact hmixed own c c
    · exact hmixed c own c
  cases c <;> simp only [doubleCurlAt, doubleCurlPartAt, hcross, hsecond]

omit [FieldOps ω] [Narrowing ω α] in
theorem atPlace_row (hv : v.shape = 3 :: g.cellShape) (hj : g.HasPlace j) (c : Axis) :
    (v.row c.component).atPlace g.layout j = v.component g.layout c j := by
  have hrow : Cell.Inside v.shape.tail (g.layout.axes.map j.get) := by
    rw [hv]
    exact StencilGrid.inside_cellShape_iff.mpr hj
  exact Tensor.cell_ofFn _ hrow

omit [FieldOps ω] [RingOps α] [Narrowing ω α] in
theorem shape_row [Zero α] (hv : v.shape = 3 :: g.cellShape) (i : Nat) :
    (v.row i).shape = g.cellShape := by
  rw [Tensor.row, Tensor.shape_ofFn, hv, List.tail_cons]

theorem atPlace_first_row (hv : v.shape = 3 :: g.cellShape) (hj : g.HasPlace j) (a c : Axis) :
    (first g a (v.row c.component)).atPlace g.layout j =
      firstAt g a (v.component g.layout c) j := by
  rw [atPlace_first (shape_row hv _) hj]
  exact firstAt_congr hj fun i hi => atPlace_row hv hi c

theorem atPlace_second_row (hv : v.shape = 3 :: g.cellShape) (hj : g.HasPlace j) (a c : Axis) :
    (second g a (v.row c.component)).atPlace g.layout j =
      secondAt g a (v.component g.layout c) j := by
  rw [atPlace_second (shape_row hv _) hj]
  exact secondAt_congr hj fun i hi => atPlace_row hv hi c

theorem atPlace_mixed_row (hv : v.shape = 3 :: g.cellShape) (hj : g.HasPlace j) (a b c : Axis) :
    (mixed g a b (v.row c.component)).atPlace g.layout j =
      firstAt g b (firstAt g a (v.component g.layout c)) j := by
  rw [atPlace_mixed (shape_row hv _) hj]
  refine firstAt_congr hj fun i hi => ?_
  exact firstAt_congr hi fun i' hi' => atPlace_row hv hi' c

theorem atPlace_curlPart (hv : v.shape = 3 :: g.cellShape) (hj : g.HasPlace j) (c a : Axis) :
    (curlPart g v c a).atPlace g.layout j = firstAt g a (v.component g.layout c) j -
      firstAt g c (v.component g.layout a) j := by
  rw [← atPlace_first_row hv hj, ← atPlace_first_row hv hj]
  exact Tensor.cell_ofFn _ (StencilGrid.inside_cellShape_iff.mpr hj)

theorem atPlace_cross (hv : v.shape = 3 :: g.cellShape) (hj : g.HasPlace j) (own c : Axis) :
    (cross g v own c).atPlace g.layout j = crossAt g (v.component g.layout) own c j := by
  unfold cross crossAt
  split
  · exact atPlace_mixed_row hv hj c own c
  · exact atPlace_mixed_row hv hj own c c

theorem atPlace_doubleCurlPart (hv : v.shape = 3 :: g.cellShape) (hj : g.HasPlace j)
    (own p q : Axis) : (doubleCurlPart g v own p q).atPlace g.layout j =
      doubleCurlPartAt g (v.component g.layout) own p q j := by
  unfold doubleCurlPartAt
  rw [← atPlace_cross hv hj, ← atPlace_cross hv hj, ← atPlace_second_row hv hj,
    ← atPlace_second_row hv hj]
  exact Tensor.cell_ofFn _ (StencilGrid.inside_cellShape_iff.mpr hj)

omit [FieldOps ω] [Narrowing ω α] in
theorem component_interiorVector (hj : g.HasPlace j) (c : Axis) :
    (interiorVector g w).component g.layout c j =
      if g.IsInterior j then (w.get c).atPlace g.layout j else 0 := by
  have hbox : Cell.InBox (g.layout.axes.map g.interior) (g.layout.axes.map j.get) ↔
      g.IsInterior j := Cell.inBox_map _ _ _
  unfold Tensor.component interiorVector
  rw [Tensor.cell_ofFn _ ((StencilGrid.inside_vector_iff c).mpr hj)]
  simp only [hbox]
  cases c <;> rfl

/-- A vector that has the given components at interior cells, and zero at ghost cells. -/
structure HasComponents (g : StencilGrid ω) (t : Tensor α) (f : Axis → PerAxis Nat → α) :
    Prop where
  shape_eq : t.shape = 3 :: g.cellShape
  component_eq : ∀ j, g.HasPlace j → ∀ c,
    t.component g.layout c j = if g.IsInterior j then f c j else 0

omit [FieldOps ω] [Narrowing ω α] in
theorem hasComponents_interiorVector {f : Axis → PerAxis Nat → α}
    (h : ∀ c j, g.HasPlace j → (w.get c).atPlace g.layout j = f c j) :
    HasComponents g (interiorVector g w) f where
  shape_eq := rfl
  component_eq j hj c := by
    rw [component_interiorVector hj, h c j hj]

omit [FieldOps ω] [Narrowing ω α] in
theorem HasComponents.of_interior {f : Axis → PerAxis Nat → α} (h : HasComponents g t f)
    (hj : g.IsInterior j) (c : Axis) : t.component g.layout c j = f c j := by
  rw [h.component_eq j hj.hasPlace, if_pos hj]

omit [FieldOps ω] [Narrowing ω α] in
theorem HasComponents.congr {f f' : Axis → PerAxis Nat → α} (h : HasComponents g t f)
    (hf : ∀ j, g.IsInterior j → ∀ c, f c j = f' c j) : HasComponents g t f' where
  shape_eq := h.shape_eq
  component_eq j hj c := by
    rw [h.component_eq j hj]
    split
    · rename_i hin
      exact hf j hin c
    · rfl

theorem hasComponents_of_curl (h : curl g v = .ok t) :
    HasComponents g t (curlAt g (v.component g.layout)) := by
  obtain ⟨⟨-, hv⟩, rfl⟩ := curl_eq_ok_iff.mp h
  apply hasComponents_interiorVector
  intro c j hj
  cases c with
  | x => exact atPlace_curlPart hv hj .z .y
  | y => exact atPlace_curlPart hv hj .x .z
  | z => exact atPlace_curlPart hv hj .y .x

theorem hasComponents_of_doubleCurl (h : doubleCurl g v = .ok t) :
    HasComponents g t (doubleCurlAt g (v.component g.layout)) := by
  obtain ⟨⟨-, hv⟩, rfl⟩ := doubleCurl_eq_ok_iff.mp h
  apply hasComponents_interiorVector
  intro c j hj
  cases c with
  | x => exact atPlace_doubleCurlPart hv hj .x .y .z
  | y => exact atPlace_doubleCurlPart hv hj .y .x .z
  | z => exact atPlace_doubleCurlPart hv hj .z .x .y

end CentralDifference

end GridSnapshot
