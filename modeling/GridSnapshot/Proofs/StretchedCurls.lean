import GridSnapshot.Proofs.PolynomialLines
import GridSnapshot.Proofs.CellDifferences

namespace GridSnapshot

open CentralDifference

/-- The coordinate along an axis, as a field. -/
def coordinateField (g : StencilGrid ℚ) (x : Axis → Nat → ℚ) (a : Axis) : Tensor ℚ :=
  .ofFn g.cellShape fun idx => x a (idx.getD (g.storageIndex a) 0)

/-- A Cartesian grid with active axes whose inverse spacings are those of the given coordinates: by
first differences the derivative of each coordinate along its axis is one. -/
structure IsStretched (g : StencilGrid ℚ) (x : Axis → Nat → ℚ) : Prop where
  layout_eq : g.layout = .full
  coordinates_eq : g.coordinates = .cartesian
  active : ∀ a, g.isActive a = true
  slope_eq : ∀ a j, g.IsInterior j → (first g a (coordinateField g x a)).atPlace .full j = 1

/-- The second derivative of a coordinate along its axis, by second differences. -/
def coordinateBend (g : StencilGrid ℚ) (x : Axis → Nat → ℚ) (j : PerAxis Nat) (a : Axis) : ℚ :=
  (second g a (coordinateField g x a)).atPlace .full j

/-- A vector whose components are affine functions of the coordinates. -/
structure AffineVector where
  offset : Axis → ℚ
  /-- The slope of a component along an axis. -/
  slope : Axis → Axis → ℚ

namespace AffineVector

variable {g : StencilGrid ℚ} {x : Axis → Nat → ℚ}

def value (v : AffineVector) (x : Axis → Nat → ℚ) (c : Axis) (j : PerAxis Nat) : ℚ :=
  v.offset c + v.slope c .x * x .x j.x + v.slope c .y * x .y j.y + v.slope c .z * x .z j.z

/-- The values at all cells. -/
def sample (v : AffineVector) (g : StencilGrid ℚ) (x : Axis → Nat → ℚ) : Tensor ℚ :=
  .ofFn (3 :: g.cellShape) fun idx => match idx with
    | [0, k, j, i] => v.value x .x ⟨i, j, k⟩
    | [1, k, j, i] => v.value x .y ⟨i, j, k⟩
    | [_, k, j, i] => v.value x .z ⟨i, j, k⟩
    | _ => 0

/-- The curl, which is the same everywhere. -/
def curl (v : AffineVector) : Axis → ℚ
  | .x => v.slope .z .y - v.slope .y .z
  | .y => v.slope .x .z - v.slope .z .x
  | .z => v.slope .y .x - v.slope .x .y

/-- Each slope of a component across its own axis, times what is given for the axis. -/
def across (v : AffineVector) (s : Axis → ℚ) : Axis → ℚ
  | .x => v.slope .x .y * s .y + v.slope .x .z * s .z
  | .y => v.slope .y .x * s .x + v.slope .y .z * s .z
  | .z => v.slope .z .x * s .x + v.slope .z .y * s .y

/-- Along an axis only the coordinate of that axis changes. -/
theorem value_neighbour (v : AffineVector) (x : Axis → Nat → ℚ) (c a : Axis) (j : PerAxis Nat)
    (o : Int) : v.value x c (j.neighbour a o) =
      v.value x c j - v.slope c a * x a (j.get a) +
        v.slope c a * x a ((j.neighbour a o).get a) := by
  cases a <;> simp only [value, PerAxis.neighbour, PerAxis.replace, PerAxis.ofFn, PerAxis.get,
    reduceCtorEq, if_true, if_false] <;> ring

theorem component_sample (hlayout : g.layout = .full) {j : PerAxis Nat} (hj : g.HasPlace j)
    (v : AffineVector) (c : Axis) : (v.sample g x).component g.layout c j = v.value x c j := by
  have hin := (StencilGrid.inside_vector_iff c).mpr hj
  rw [hlayout] at hin
  rw [hlayout]
  refine (Tensor.cell_ofFn _ hin).trans ?_
  cases c <;> rfl

end AffineVector

namespace CentralDifference

variable {g : StencilGrid ℚ} {a b c : Axis} {j : PerAxis Nat} {f : PerAxis Nat → ℚ}

theorem firstSum_affine (k m : ℚ) (f : Int → ℚ) :
    firstSum (fun o => k + m * f o) = m * firstSum f := by
  rw [firstSum_rat, firstSum_rat]
  ring

theorem secondSum_affine (k m : ℚ) (f : Int → ℚ) :
    secondSum (fun o => k + m * f o) = m * secondSum f := by
  rw [secondSum_rat, secondSum_rat]
  ring

/-- A difference of a function that is an affine function of another one along the axis. -/
theorem differenceAt_affine {sum : (Int → ℚ) → ℚ}
    (hsum : ∀ k m f, sum (fun o => k + m * f o) = m * sum f) (scale : ℚ → ℚ)
    (f f' : PerAxis Nat → ℚ) {k m : ℚ}
    (hf : ∀ o, f (j.neighbour a o) = k + m * f' (j.neighbour a o)) :
    differenceAt g a sum scale f j = m * differenceAt g a sum scale f' j := by
  unfold differenceAt
  split
  · simp only [hf, hsum]
    ring
  · ring

/-- A first difference of a function that does not change along the axis. -/
theorem firstAt_const {k : ℚ} (hf : ∀ o, f (j.neighbour a o) = k) : firstAt g a f j = 0 := by
  have hzero := differenceAt_affine (g := g) firstSum_affine (fun h => h / RingOps.ofInt 60) f f
    (m := 0) fun o => (hf o).trans (by ring)
  exact hzero.trans (zero_mul _)

end CentralDifference

open CentralDifference

section Coordinates

variable {g : StencilGrid ℚ} {x : Axis → Nat → ℚ} {a b c : Axis} {j : PerAxis Nat}
  {v : AffineVector}

/-- The coordinate along an axis, by place. -/
def coordinateAt (x : Axis → Nat → ℚ) (a : Axis) (j : PerAxis Nat) : ℚ := x a (j.get a)

theorem atPlace_coordinateField (hj : g.HasPlace j) (ha : a ∈ g.layout.axes) :
    (coordinateField g x a).atPlace g.layout j = coordinateAt x a j := by
  have hin := StencilGrid.inside_cellShape_iff.mpr hj
  rw [Tensor.atPlace, coordinateField, Tensor.cell_ofFn _ hin, StencilGrid.storageIndex,
    StoredAxes.getD_idxOf ha]
  rfl

theorem atPlace_difference_coordinateField {sum : (Int → ℚ) → ℚ} (hsum : IsStencil sum)
    (scale : ℚ → ℚ) (hj : g.HasPlace j) (ha : a ∈ g.layout.axes) :
    (difference g a sum scale (coordinateField g x a)).atPlace g.layout j =
      differenceAt g a sum scale (coordinateAt x a) j := by
  rw [atPlace_difference rfl hj]
  exact differenceAt_congr_hasPlace hsum hj fun i hi => atPlace_coordinateField hi ha

/-- How a coordinate changes along its axis depends on the index along that axis only. -/
theorem firstAt_coordinateAt_neighbour (hne : a ≠ b) (o : Int) :
    firstAt g a (coordinateAt x a) (j.neighbour b o) = firstAt g a (coordinateAt x a) j := by
  unfold firstAt differenceAt coordinateAt
  simp only [PerAxis.get_neighbour_self, PerAxis.get_neighbour_of_ne hne]

namespace AffineVector

theorem firstAt_value (v : AffineVector) (c a : Axis) (j : PerAxis Nat) :
    firstAt g a (v.value x c) j = v.slope c a * firstAt g a (coordinateAt x a) j :=
  differenceAt_affine firstSum_affine _ _ _ fun o => v.value_neighbour x c a j o

theorem secondAt_value (v : AffineVector) (c a : Axis) (j : PerAxis Nat) :
    secondAt g a (v.value x c) j = v.slope c a * secondAt g a (coordinateAt x a) j :=
  differenceAt_affine secondSum_affine _ _ _ fun o => v.value_neighbour x c a j o

/-- A slope does not change across its axis. -/
theorem mixedAt_value (v : AffineVector) (hne : a ≠ b) (c : Axis) (j : PerAxis Nat) :
    firstAt g b (firstAt g a (v.value x c)) j = 0 := by
  apply firstAt_const
  intro o
  rw [firstAt_value, firstAt_coordinateAt_neighbour hne]

theorem crossAt_value (v : AffineVector) {own c : Axis} (hne : own ≠ c) (j : PerAxis Nat) :
    crossAt g (v.value x) own c j = 0 := by
  unfold crossAt
  split
  · exact v.mixedAt_value hne.symm c j
  · exact v.mixedAt_value hne c j

theorem curlAt_value (v : AffineVector) (hslope : ∀ a, firstAt g a (coordinateAt x a) j = 1)
    (c : Axis) : curlAt g (v.value x) c j = v.curl c := by
  cases c <;> simp only [curlAt, firstAt_value, hslope, mul_one, curl]

theorem doubleCurlAt_value (v : AffineVector) (c : Axis) (j : PerAxis Nat) :
    doubleCurlAt g (v.value x) c j =
      -v.across (fun a => secondAt g a (coordinateAt x a) j) c := by
  have hcross (own c : Axis) (hne : own ≠ c) : crossAt g (v.value x) own c j = 0 :=
    v.crossAt_value hne j
  cases c with
  | x =>
    have hy := hcross .x .y (by decide)
    have hz := hcross .x .z (by decide)
    simp only [doubleCurlAt, doubleCurlPartAt, hy, hz, secondAt_value, across]
    ring
  | y =>
    have hx := hcross .y .x (by decide)
    have hz := hcross .y .z (by decide)
    simp only [doubleCurlAt, doubleCurlPartAt, hx, hz, secondAt_value, across]
    ring
  | z =>
    have hx := hcross .z .x (by decide)
    have hy := hcross .z .y (by decide)
    simp only [doubleCurlAt, doubleCurlPartAt, hx, hy, secondAt_value, across]
    ring

/-- The one component that grows along the one axis. -/
def shear (c a : Axis) : AffineVector where
  offset _ := 0
  slope c' a' := if c' = c ∧ a' = a then 1 else 0

theorem across_shear {c a : Axis} (hne : c ≠ a) (s : Axis → ℚ) : (shear c a).across s c = s a := by
  cases c <;> cases a <;> simp [shear, across] at hne ⊢

end AffineVector

end Coordinates

namespace IsStretched

variable {g : StencilGrid ℚ} {x : Axis → Nat → ℚ} {a : Axis} {j : PerAxis Nat}

theorem mem_axes (h : IsStretched g x) (a : Axis) : a ∈ g.layout.axes :=
  StencilGrid.mem_axes_of_isActive (h.active a)

theorem firstAt_coordinateAt (h : IsStretched g x) (hj : g.IsInterior j) (a : Axis) :
    firstAt g a (coordinateAt x a) j = 1 := by
  have hslope := h.slope_eq a j hj
  rw [← h.layout_eq] at hslope
  rw [← hslope]
  exact (atPlace_difference_coordinateField isStencil_firstSum _ hj.hasPlace (h.mem_axes a)).symm

theorem secondAt_coordinateAt (h : IsStretched g x) (hj : g.HasPlace j) (a : Axis) :
    secondAt g a (coordinateAt x a) j = coordinateBend g x j a := by
  rw [coordinateBend, ← h.layout_eq]
  exact (atPlace_difference_coordinateField isStencil_secondSum _ hj (h.mem_axes a)).symm

theorem curl_affine (h : IsStretched g x) (v : AffineVector) :
    ∃ t, CentralDifference.curl g (v.sample g x) = .ok t ∧
      HasComponents g t fun c _ => v.curl c := by
  have hcurl := curl_eq_ok_iff.mpr ⟨⟨h.coordinates_eq, show (v.sample g x).shape = _ from rfl⟩, rfl⟩
  refine ⟨_, hcurl, (hasComponents_of_curl hcurl).congr fun j hj c => ?_⟩
  rw [curlAt_congr hj.hasPlace fun c i hi => AffineVector.component_sample h.layout_eq hi v c]
  exact v.curlAt_value (h.firstAt_coordinateAt hj) c

theorem doubleCurl_affine (h : IsStretched g x) (v : AffineVector) :
    ∃ t, doubleCurl g (v.sample g x) = .ok t ∧
      HasComponents g t fun c j => -v.across (coordinateBend g x j) c := by
  have hcurl := doubleCurl_eq_ok_iff.mpr
    ⟨⟨h.coordinates_eq, show (v.sample g x).shape = _ from rfl⟩, rfl⟩
  refine ⟨_, hcurl, (hasComponents_of_doubleCurl hcurl).congr fun j hj c => ?_⟩
  rw [doubleCurlAt_congr hj.hasPlace fun c i hi =>
    AffineVector.component_sample h.layout_eq hi v c, v.doubleCurlAt_value]
  simp only [h.secondAt_coordinateAt hj.hasPlace]

/-- The double curl of all affine vectors vanishes only where the coordinates are not bent. -/
theorem doubleCurl_eq_zero_iff (h : IsStretched g x) :
    (∀ v t, doubleCurl g (AffineVector.sample v g x) = .ok t →
      ∀ j, g.IsInterior j → ∀ c, t.component .full c j = 0) ↔
    ∀ j, g.IsInterior j → ∀ a, coordinateBend g x j a = 0 := by
  constructor
  · intro hzero j hj a
    obtain ⟨c, hne⟩ : ∃ c : Axis, c ≠ a := by
      cases a
      · exact ⟨.y, by decide⟩
      · exact ⟨.z, by decide⟩
      · exact ⟨.x, by decide⟩
    obtain ⟨t, hcurl, ht⟩ := h.doubleCurl_affine (.shear c a)
    have hcell := ht.of_interior hj c
    rw [h.layout_eq, hzero _ t hcurl j hj c, AffineVector.across_shear hne] at hcell
    exact neg_eq_zero.mp hcell.symm
  · intro hbend v t hcurl j hj c
    obtain ⟨t', hcurl', ht'⟩ := h.doubleCurl_affine v
    obtain rfl : t' = t := Except.ok.inj (hcurl'.symm.trans hcurl)
    have hcell := ht'.of_interior hj c
    rw [h.layout_eq] at hcell
    rw [hcell]
    cases c <;> simp [AffineVector.across, hbend j hj]

/-- Coordinates at equal distances are not bent. -/
theorem coordinateBend_eq_zero (h : IsStretched g x) (hj : g.IsInterior j) {s d : ℚ}
    (heven : ∀ i, x a i = s + d * i) : coordinateBend g x j a = 0 := by
  have hin := hj a (h.mem_axes a)
  have hghosts := StencilGrid.ghosts_ge_of_isActive (h.active a)
  have hbounds := StencilGrid.contains_interior_iff.mp hin
  have hline (o : Int) (hlo : -3 ≤ o) (_ : o ≤ 3) :
      coordinateAt x a (j.neighbour a o) = s + d * j.get a + d * (o : ℚ) := by
    have hcast : (((j.neighbour a o).get a : Nat) : ℚ) = j.get a + o := by
      have hint : (((j.neighbour a o).get a : Nat) : Int) = j.get a + o := by
        rw [PerAxis.get_neighbour_self]
        omega
      exact_mod_cast congrArg (Int.cast : Int → ℚ) hint
    rw [coordinateAt, heven, hcast]
    ring
  have hsum : secondSum (fun o => (o : ℚ)) = 0 := by
    rw [secondSum_rat]
    norm_num
  rw [← h.secondAt_coordinateAt hj.hasPlace, secondAt, differenceAt_of_interior (h.active a) hin,
    isStencil_secondSum _ _ hline, secondSum_affine, hsum]
  ring

/-- The curl of an affine vector is constant at interior cells. Its double curl is not always zero
there: in each component it is what the slopes across the axis of the component make of the bends.
So it vanishes for all affine vectors exactly if no coordinate is bent, as when the coordinates are
at equal distances. -/
theorem curls_affine (h : IsStretched g x) :
    (∀ v : AffineVector,
      (∃ t, CentralDifference.curl g (v.sample g x) = .ok t ∧
        HasComponents g t fun c _ => v.curl c) ∧
      ∃ t, doubleCurl g (v.sample g x) = .ok t ∧
        HasComponents g t fun c j => -v.across (coordinateBend g x j) c) ∧
    ((∀ v t, doubleCurl g (AffineVector.sample v g x) = .ok t →
        ∀ j, g.IsInterior j → ∀ c, t.component .full c j = 0) ↔
      ∀ j, g.IsInterior j → ∀ a, coordinateBend g x j a = 0) ∧
    ((∀ a, ∃ s d, ∀ i : Nat, x a i = s + d * i) →
      ∀ j, g.IsInterior j → ∀ a, coordinateBend g x j a = 0) := by
  refine ⟨fun v => ⟨h.curl_affine v, h.doubleCurl_affine v⟩, h.doubleCurl_eq_zero_iff, ?_⟩
  intro heven j hj a
  obtain ⟨s, d, hline⟩ := heven a
  exact h.coordinateBend_eq_zero hj hline

end IsStretched

/-- Cells get about twice as wide from one to the next along x. -/
def doublingCoordinates : Axis → Nat → ℚ
  | .x, i => [0, 1, 3, 7, 12, 25, 51, 103].getD i 0
  | _, i => i

def doublingGrid : StencilGrid ℚ where
  layout := .full
  extents := .uniform 8
  ghosts := .uniform 3
  inverse := ⟨[1, 1 / 2, 1 / 2, 1 / 4, 1 / 8, 1 / 16, 1 / 32, 1 / 32], List.replicate 8 1,
    List.replicate 8 1⟩
  coordinates := .cartesian

theorem isActive_doublingGrid (a : Axis) : doublingGrid.isActive a = true := by
  cases a <;> decide

/-- There are two interior cells along each axis. -/
theorem isInterior_doublingGrid {j : PerAxis Nat} (hj : doublingGrid.IsInterior j) (a : Axis) :
    j.get a = 3 ∨ j.get a = 4 := by
  have hmem := StencilGrid.mem_axes_of_isActive (isActive_doublingGrid a)
  have hbounds := StencilGrid.contains_interior_iff.mp (hj a hmem)
  have hextent : doublingGrid.extents.get a = 8 := PerAxis.get_uniform 8 a
  have hghosts : doublingGrid.ghosts.get a = 3 := PerAxis.get_uniform 3 a
  omega

theorem isStretched_doublingGrid : IsStretched doublingGrid doublingCoordinates where
  layout_eq := rfl
  coordinates_eq := rfl
  active := isActive_doublingGrid
  slope_eq a j hj := by
    have hactive := isActive_doublingGrid a
    have hmem := StencilGrid.mem_axes_of_isActive hactive
    have hslope := atPlace_difference_coordinateField (x := doublingCoordinates)
      isStencil_firstSum (fun h => h / RingOps.ofInt 60) hj.hasPlace hmem
    rw [differenceAt_of_interior hactive (hj a hmem)] at hslope
    simp only [coordinateAt, PerAxis.get_neighbour_self] at hslope
    refine hslope.trans ?_
    rcases isInterior_doublingGrid hj a with hi | hi <;> rw [hi] <;> cases a <;> decide +kernel

theorem coordinateBend_doublingGrid : coordinateBend doublingGrid doublingCoordinates ⟨4, 3, 3⟩ .x =
    151 / 1152 := by
  have hj : doublingGrid.IsInterior ⟨4, 3, 3⟩ := by decide
  have hactive := isActive_doublingGrid .x
  have hmem := StencilGrid.mem_axes_of_isActive hactive
  rw [← isStretched_doublingGrid.secondAt_coordinateAt hj.hasPlace, secondAt,
    differenceAt_of_interior hactive (hj .x hmem)]
  decide +kernel

/-- The coordinates of the grid are bent, so not all double curls of affine vectors vanish. -/
theorem curls_affine_doublingGrid :
    IsStretched doublingGrid doublingCoordinates ∧
    (∃ t, CentralDifference.curl doublingGrid
        ((AffineVector.shear .y .x).sample doublingGrid doublingCoordinates) = .ok t ∧
      t.component .full .z ⟨4, 3, 3⟩ = 1) ∧
    ¬ ∀ v t, doubleCurl doublingGrid
        (AffineVector.sample v doublingGrid doublingCoordinates) = .ok t →
      ∀ j, doublingGrid.IsInterior j → ∀ c, t.component .full c j = 0 := by
  have hj : doublingGrid.IsInterior ⟨4, 3, 3⟩ := by decide
  obtain ⟨hcurls, hiff, -⟩ := isStretched_doublingGrid.curls_affine
  obtain ⟨⟨t, hcurl, ht⟩, -⟩ := hcurls (.shear .y .x)
  have hone : (AffineVector.shear .y .x).curl .z = 1 := by decide +kernel
  refine ⟨isStretched_doublingGrid, ⟨t, hcurl, (ht.of_interior hj .z).trans hone⟩, ?_⟩
  intro hzero
  have hbend := hiff.mp hzero _ hj .x
  rw [coordinateBend_doublingGrid] at hbend
  exact absurd hbend (by norm_num)

/-- On a shear along x the curl is one and the double curl is not zero. -/
theorem doubleCurl_shear_doublingGrid :
    let shear := (AffineVector.shear .y .x).sample doublingGrid doublingCoordinates
    IsStretched doublingGrid doublingCoordinates ∧ doublingGrid.IsInterior ⟨4, 3, 3⟩ ∧
    (∃ t, CentralDifference.curl doublingGrid shear = .ok t ∧
      t.component .full .z ⟨4, 3, 3⟩ = 1) ∧
    ∃ t, doubleCurl doublingGrid shear = .ok t ∧
      t.component .full .y ⟨4, 3, 3⟩ = -(151 / 1152) := by
  intro shear
  have hj : doublingGrid.IsInterior ⟨4, 3, 3⟩ := by decide
  obtain ⟨t, hcurl, ht⟩ := isStretched_doublingGrid.curl_affine (.shear .y .x)
  obtain ⟨t', hcurl', ht'⟩ := isStretched_doublingGrid.doubleCurl_affine (.shear .y .x)
  have hone : (AffineVector.shear .y .x).curl .z = 1 := by decide +kernel
  have hcell := ht'.of_interior hj .y
  rw [AffineVector.across_shear (by decide), coordinateBend_doublingGrid] at hcell
  exact ⟨isStretched_doublingGrid, hj, ⟨t, hcurl, (ht.of_interior hj .z).trans hone⟩,
    ⟨t', hcurl', hcell⟩⟩

end GridSnapshot
