import GridSnapshot.Proofs.PolynomialLines
import GridSnapshot.Proofs.CellDifferences

namespace GridSnapshot

open CentralDifference

/-- A Cartesian grid with equal distances along each axis. Where an axis has more than one interior
cell, its margins have room for the stencil. -/
structure RegularGrid where
  interior : PerAxis Nat
  ghosts : PerAxis Nat
  spacing : PerAxis ℚ
  /-- What is added to an index before it is multiplied by the distance. -/
  shift : PerAxis ℚ
  spacing_ne : ∀ a, spacing.get a ≠ 0
  ghosts_ge : ∀ a, 1 < interior.get a → 3 ≤ ghosts.get a

/-- The components of a vector are polynomials in the coordinates. -/
abbrev PolynomialVector := PerAxis (MvPolynomial Axis ℚ)

/-- The curl, from the derivatives along the axes. -/
noncomputable def curlWith (d : Axis → MvPolynomial Axis ℚ → MvPolynomial Axis ℚ)
    (v : PolynomialVector) : PolynomialVector :=
  ⟨d .y v.z - d .z v.y, d .z v.x - d .x v.z, d .x v.y - d .y v.x⟩

noncomputable def analyticCurl : PolynomialVector → PolynomialVector :=
  curlWith fun a p => MvPolynomial.pderiv a p

namespace RegularGrid

variable {G : RegularGrid} {a b : Axis} {i : Nat} {j : PerAxis Nat} {p q : MvPolynomial Axis ℚ}

def extents (G : RegularGrid) : PerAxis Nat :=
  .ofFn fun a => G.interior.get a + 2 * G.ghosts.get a

def stencil (G : RegularGrid) : StencilGrid ℚ where
  layout := .full
  extents := G.extents
  ghosts := G.ghosts
  inverse := .ofFn fun a => List.replicate (G.extents.get a) (1 / G.spacing.get a)
  coordinates := .cartesian

/-- The coordinates of a cell. -/
def point (G : RegularGrid) (j : PerAxis Nat) : Axis → ℚ :=
  fun a => (j.get a + G.shift.get a) * G.spacing.get a

/-- The cell is inside the margins along the axis. -/
def IsInterior (G : RegularGrid) (j : PerAxis Nat) (a : Axis) : Prop :=
  G.ghosts.get a ≤ j.get a ∧ j.get a < G.ghosts.get a + G.interior.get a

instance (G : RegularGrid) (j : PerAxis Nat) (a : Axis) : Decidable (G.IsInterior j a) :=
  inferInstanceAs (Decidable (_ ∧ _))

/-- The partial derivative, or nothing along an axis with one interior cell. -/
noncomputable def deriv (G : RegularGrid) (a : Axis) (p : MvPolynomial Axis ℚ) :
    MvPolynomial Axis ℚ :=
  if 1 < G.interior.get a then MvPolynomial.pderiv a p else 0

/-- The curl without the derivatives along axes with one interior cell. -/
noncomputable def curl (G : RegularGrid) : PolynomialVector → PolynomialVector := curlWith G.deriv

/-- The values of a vector at all cells. -/
noncomputable def sample (G : RegularGrid) (v : PolynomialVector) : Tensor ℚ :=
  Tensor.ofFn (3 :: G.stencil.cellShape) fun idx =>
    match idx with
    | [0, k, j, i] => v.x.eval (G.point ⟨i, j, k⟩)
    | [1, k, j, i] => v.y.eval (G.point ⟨i, j, k⟩)
    | [_, k, j, i] => v.z.eval (G.point ⟨i, j, k⟩)
    | _ => 0

/-- The same margin and the same distance along all axes. -/
def uniform (interior : PerAxis Nat) (ghost : Nat) (h shift : ℚ) (hh : h ≠ 0)
    (hghost : 3 ≤ ghost) : RegularGrid where
  interior := interior
  ghosts := .uniform ghost
  spacing := .uniform h
  shift := .uniform shift
  spacing_ne a := by
    rw [PerAxis.get_uniform]
    exact hh
  ghosts_ge a _ := by
    rw [PerAxis.get_uniform]
    exact hghost

theorem stencil_uniform (interior : PerAxis Nat) {ghost : Nat} {h : ℚ} (shift : ℚ) (hh : h ≠ 0)
    (hghost : 3 ≤ ghost) : (uniform interior ghost h shift hh hghost).stencil =
      .uniform .full (interior.map fun n => n + 2 * ghost) ghost h := by
  have hone : (RingOps.ofInt 1 : ℚ) = 1 := Int.cast_one
  unfold StencilGrid.uniform
  rw [hone]
  rfl

theorem deriv_sub (a : Axis) (p q : MvPolynomial Axis ℚ) :
    G.deriv a (p - q) = G.deriv a p - G.deriv a q := by
  unfold deriv
  split
  · exact map_sub _ p q
  · exact (sub_zero 0).symm

theorem deriv_comm (a b : Axis) (p : MvPolynomial Axis ℚ) :
    G.deriv a (G.deriv b p) = G.deriv b (G.deriv a p) := by
  unfold deriv
  split
  · split
    · exact pderiv_comm a b p
    · exact map_zero _
  · split
    · exact (map_zero _).symm
    · rfl

theorem degreeOf_deriv_le (a b : Axis) (p : MvPolynomial Axis ℚ) :
    (G.deriv a p).degreeOf b ≤ p.degreeOf b := by
  unfold deriv
  split
  · exact degreeOf_pderiv_le a b p
  · rw [MvPolynomial.degreeOf_zero]
    exact Nat.zero_le _

theorem curl_eq_analyticCurl (h : ∀ a, 1 < G.interior.get a) : G.curl = analyticCurl := by
  have hderiv : G.deriv = fun a p => MvPolynomial.pderiv a p := by
    funext a p
    exact if_pos (h a)
  rw [curl, hderiv, analyticCurl]

theorem get_extents (G : RegularGrid) (a : Axis) :
    G.extents.get a = G.interior.get a + 2 * G.ghosts.get a := PerAxis.get_ofFn _ a

theorem mem_axes_full (a : Axis) : a ∈ StoredAxes.full.axes :=
  (StoredAxes.mem_axes_iff .full a).mpr nofun

theorem stencil_interior (G : RegularGrid) (a : Axis) :
    G.stencil.interior a = .inner (G.ghosts.get a) (G.interior.get a + 2 * G.ghosts.get a) := by
  have hextent : G.stencil.extents.get a = G.interior.get a + 2 * G.ghosts.get a := G.get_extents a
  rw [StencilGrid.interior, hextent]
  rfl

theorem contains_interior_iff : (G.stencil.interior a).Contains (j.get a) ↔ G.IsInterior j a := by
  rw [stencil_interior, IsInterior]
  simp only [Span.Contains, Span.inner]
  omega

theorem isActive_eq (G : RegularGrid) (a : Axis) :
    G.stencil.isActive a = decide (1 < G.interior.get a) := by
  have hextent : G.stencil.extents.get a = G.interior.get a + 2 * G.ghosts.get a := G.get_extents a
  have hghosts : G.stencil.ghosts.get a = G.ghosts.get a := rfl
  have hstored : a ∈ G.stencil.layout.axes := mem_axes_full a
  have hroom := G.ghosts_ge a
  unfold StencilGrid.isActive
  rw [stencil_interior, Span.length_inner, hghosts]
  refine decide_eq_decide.mpr ?_
  unfold StencilGrid.stencilRadius
  constructor
  · rintro ⟨-, hone, -⟩
    omega
  · intro hone
    have hthree := hroom hone
    exact ⟨hstored, by omega, by omega, hthree⟩

theorem IsInterior.lt (h : G.IsInterior j a) : j.get a < G.extents.get a := by
  rw [get_extents]
  unfold IsInterior at h
  omega

theorem inside (hj : ∀ a, j.get a < G.extents.get a) :
    Cell.Inside G.stencil.cellShape (StoredAxes.full.axes.map j.get) :=
  (Cell.inside_map _ _ _).mpr fun a _ => hj a

theorem inside_component (c : Axis) (hj : ∀ a, j.get a < G.extents.get a) :
    Cell.Inside (3 :: G.stencil.cellShape) (c.component :: StoredAxes.full.axes.map j.get) :=
  ⟨by cases c <;> decide, inside hj⟩

/-- The neighbour of an interior cell that lies o cells further along an axis. -/
theorem point_replace {o : Int} (hin : G.IsInterior j a) (hone : 1 < G.interior.get a)
    (hlo : -3 ≤ o) :
    G.point (j.replace a ((j.get a : Int) + o).toNat) =
      fun b => if b = a then G.point j a + o * G.spacing.get a else G.point j b := by
  have hghosts := G.ghosts_ge a hone
  have hcast : ((((j.get a : Int) + o).toNat : Nat) : ℚ) = j.get a + o := by
    have hint : ((((j.get a : Int) + o).toNat : Nat) : Int) = j.get a + o := by
      unfold IsInterior at hin
      omega
    exact_mod_cast congrArg (Int.cast : Int → ℚ) hint
  funext b
  unfold point
  by_cases hb : b = a
  · subst hb
    rw [if_pos rfl, PerAxis.get_replace_self, hcast]
    ring
  · rw [if_neg hb, PerAxis.get_replace_of_ne _ hb]

end RegularGrid

/-- The cells are the values of a polynomial, except in the margins along some axes. -/
structure Samples (G : RegularGrid) (as : List Axis) (f : Tensor ℚ) (p : MvPolynomial Axis ℚ) :
    Prop where
  shape_eq : f.shape = G.stencil.cellShape
  cell_eq : ∀ j : PerAxis Nat, (∀ a, j.get a < G.extents.get a) →
    (∀ a ∈ as, G.IsInterior j a) →
    f.cell (StoredAxes.full.axes.map j.get) = p.eval (G.point j)

namespace Samples

variable {G : RegularGrid} {as : List Axis} {a : Axis} {f : Tensor ℚ}
  {p q : MvPolynomial Axis ℚ} {j : PerAxis Nat}

/-- What stands at the neighbours along an axis of a cell inside the margin. -/
theorem cell_near {o : Int} (h : Samples G as f p) (ha : a ∉ as) (hone : 1 < G.interior.get a)
    (hj : ∀ b, j.get b < G.extents.get b) (hin : ∀ b ∈ a :: as, G.IsInterior j b)
    (hlo : -3 ≤ o) (hhi : o ≤ 3) :
    f.cell (StoredAxes.full.axes.map (j.replace a ((j.get a : Int) + o).toNat).get) =
      p.eval fun b => if b = a then G.point j a + o * G.spacing.get a else G.point j b := by
  have hina : G.IsInterior j a := hin a List.mem_cons_self
  rw [← RegularGrid.point_replace hina hone hlo]
  have hroom := G.ghosts_ge a hone
  have hextent := G.get_extents a
  unfold RegularGrid.IsInterior at hina
  refine h.cell_eq _ (fun b => ?_) fun b hb => ?_
  · by_cases hba : b = a
    · subst hba
      rw [PerAxis.get_replace_self]
      omega
    · rw [PerAxis.get_replace_of_ne _ hba]
      exact hj b
  · have hba : b ≠ a := fun heq => ha (heq ▸ hb)
    unfold RegularGrid.IsInterior
    rw [PerAxis.get_replace_of_ne _ hba]
    exact hin b (List.mem_cons_of_mem a hb)

/-- A sum over neighbours along an axis that gives the values of a second polynomial makes samples
of that one. -/
theorem difference {sum : (Int → ℚ) → ℚ} (hsum : IsStencil sum) (scale : ℚ → ℚ)
    (h : Samples G as f p) (ha : a ∉ as) (hone : 1 < G.interior.get a)
    (hq : ∀ x : Axis → ℚ,
      sum (fun o => p.eval fun b => if b = a then x a + o * G.spacing.get a else x b) *
        scale (1 / G.spacing.get a) = q.eval x) :
    Samples G (a :: as) (difference G.stencil a sum scale f) q where
  shape_eq := h.shape_eq
  cell_eq j hj hin := by
    have hinside : Cell.Inside f.shape (StoredAxes.full.axes.map j.get) :=
      h.shape_eq ▸ RegularGrid.inside hj
    have hstored := RegularGrid.mem_axes_full a
    have hcontains := RegularGrid.contains_interior_iff.mpr (hin a List.mem_cons_self)
    have hnear (o : Int) (hlo : -3 ≤ o) (hhi : o ≤ 3) :=
      h.cell_near ha hone hj hin hlo hhi
    have hfactor : (((G.stencil.inverse.get a).map fun h => (narrow (scale h) : ℚ)).toArray).getD
        (j.get a) 0 = scale (1 / G.spacing.get a) := by
      have hinverse : G.stencil.inverse.get a =
          List.replicate (G.extents.get a) (1 / G.spacing.get a) := PerAxis.get_ofFn _ a
      rw [hinverse]
      exact getD_factors _ _ (hj a)
    unfold CentralDifference.difference
    rw [Tensor.cell_ofFn _ hinside]
    have hindex : G.stencil.storageIndex a = StoredAxes.full.axes.idxOf a := rfl
    simp only [hindex, StoredAxes.getD_idxOf hstored, StoredAxes.set_idxOf hstored]
    rw [if_pos ⟨by rw [G.isActive_eq]; exact decide_eq_true hone, hcontains⟩, hsum _ _ hnear,
      hfactor, hq]

/-- Along an axis with one interior cell no difference is taken. -/
theorem difference_inactive (sum : (Int → ℚ) → ℚ) (scale : ℚ → ℚ) (h : Samples G as f p)
    (hone : ¬ 1 < G.interior.get a) :
    Samples G (a :: as) (CentralDifference.difference G.stencil a sum scale f) 0 where
  shape_eq := h.shape_eq
  cell_eq j hj _ := by
    have hinside : Cell.Inside f.shape (StoredAxes.full.axes.map j.get) :=
      h.shape_eq ▸ RegularGrid.inside hj
    have hinactive : G.stencil.isActive a = false := by
      rw [G.isActive_eq]
      exact decide_eq_false hone
    unfold CentralDifference.difference
    rw [Tensor.cell_ofFn _ hinside, map_zero]
    simp only [hinactive, Bool.false_eq_true, false_and, if_false]

theorem first (h : Samples G as f p) (ha : a ∉ as) (hp : p.degreeOf a ≤ 6) :
    Samples G (a :: as) (CentralDifference.first G.stencil a f) (G.deriv a p) := by
  unfold RegularGrid.deriv
  split
  · rename_i hone
    refine h.difference isStencil_firstSum _ ha hone fun x => ?_
    exact firstSum_onLine hp (G.spacing_ne a) x
  · rename_i hone
    exact h.difference_inactive _ _ hone

theorem second (h : Samples G as f p) (ha : a ∉ as) (hp : p.degreeOf a ≤ 6) :
    Samples G (a :: as) (CentralDifference.second G.stencil a f)
      (G.deriv a (G.deriv a p)) := by
  by_cases hone : 1 < G.interior.get a
  · unfold RegularGrid.deriv
    rw [if_pos hone, if_pos hone]
    refine h.difference isStencil_secondSum _ ha hone fun x => ?_
    exact secondSum_onLine hp (G.spacing_ne a) x
  · unfold RegularGrid.deriv
    rw [if_neg hone]
    exact h.difference_inactive _ _ hone

theorem cell_of_interior (h : Samples G as f p) (hin : ∀ a, G.IsInterior j a) :
    f.cell (StoredAxes.full.axes.map j.get) = p.eval (G.point j) :=
  h.cell_eq j (fun a => (hin a).lt) fun a _ => hin a

end Samples

namespace RegularGrid

variable {G : RegularGrid} {v : PolynomialVector}

theorem samples_row (G : RegularGrid) (v : PolynomialVector) (c : Axis) :
    Samples G [] ((G.sample v).row c.component) (v.get c) where
  shape_eq := rfl
  cell_eq j hj _ := by
    have hrow : Cell.Inside (G.sample v).shape.tail (StoredAxes.full.axes.map j.get) := inside hj
    rw [Tensor.row, Tensor.cell_ofFn _ hrow, sample, Tensor.cell_ofFn _ (inside_component c hj)]
    cases c <;> rfl

/-- Components that hold the values of polynomials at interior cells. -/
def Holds (G : RegularGrid) (f : Tensor ℚ) (p : MvPolynomial Axis ℚ) : Prop :=
  ∀ j : PerAxis Nat, (∀ a, G.IsInterior j a) →
    f.cell (StoredAxes.full.axes.map j.get) = p.eval (G.point j)

theorem holds_curlPart (hv : ∀ a b, (v.get a).degreeOf b ≤ 6) (c a : Axis) :
    Holds G (curlPart G.stencil (G.sample v) c a)
      (G.deriv a (v.get c) - G.deriv c (v.get a)) := by
  intro j hin
  have hplus := (G.samples_row v c).first (a := a) List.not_mem_nil (hv c a)
  have hminus := (G.samples_row v a).first (a := c) List.not_mem_nil (hv a c)
  unfold curlPart
  rw [Tensor.cell_ofFn _ (inside fun a => (hin a).lt), hplus.cell_of_interior hin,
    hminus.cell_of_interior hin, map_sub]

theorem samples_mixed (hv : ∀ a b, (v.get a).degreeOf b ≤ 6) (c : Axis) {a b : Axis}
    (hne : a ≠ b) : Samples G [b, a] (mixed G.stencil a b ((G.sample v).row c.component))
      (G.deriv b (G.deriv a (v.get c))) := by
  have hfirst := (G.samples_row v c).first (a := a) List.not_mem_nil (hv c a)
  refine hfirst.first ?_ ((degreeOf_deriv_le a b _).trans (hv c b))
  rw [List.mem_singleton]
  exact hne.symm

theorem holds_cross (hv : ∀ a b, (v.get a).degreeOf b ≤ 6) {own c : Axis} (hne : own ≠ c) :
    Holds G (cross G.stencil (G.sample v) own c) (G.deriv c (G.deriv own (v.get c))) := by
  intro j hin
  unfold cross
  split
  · rw [deriv_comm]
    exact (samples_mixed hv c hne.symm).cell_of_interior hin
  · exact (samples_mixed hv c hne).cell_of_interior hin

theorem holds_doubleCurlPart (hv : ∀ a b, (v.get a).degreeOf b ≤ 6) {own p q : Axis}
    (hp : own ≠ p) (hq : own ≠ q) :
    Holds G (doubleCurlPart G.stencil (G.sample v) own p q)
      (G.deriv p (G.deriv own (v.get p)) + G.deriv q (G.deriv own (v.get q))
        - G.deriv p (G.deriv p (v.get own)) - G.deriv q (G.deriv q (v.get own))) := by
  intro j hin
  have hcrossP := holds_cross hv hp j hin
  have hcrossQ := holds_cross hv hq j hin
  have hsecondP := (G.samples_row v own).second (a := p) List.not_mem_nil (hv own p)
  have hsecondQ := (G.samples_row v own).second (a := q) List.not_mem_nil (hv own q)
  unfold doubleCurlPart
  rw [Tensor.cell_ofFn _ (inside fun a => (hin a).lt), hcrossP, hcrossQ,
    hsecondP.cell_of_interior hin, hsecondQ.cell_of_interior hin, map_sub, map_sub, map_add]

theorem cell_interiorVector (w : PerAxis (Tensor ℚ)) {j : PerAxis Nat}
    (hin : ∀ a, G.IsInterior j a) (c : Axis) :
    (interiorVector G.stencil w).cell (c.component :: StoredAxes.full.axes.map j.get) =
      (w.get c).cell (StoredAxes.full.axes.map j.get) := by
  have hinterior : G.stencil.IsInterior j := fun a _ => contains_interior_iff.mpr (hin a)
  have hcell := component_interiorVector (w := w) hinterior.hasPlace c
  rw [if_pos hinterior] at hcell
  exact hcell

theorem cell_interiorVector_ghost (w : PerAxis (Tensor ℚ)) {j : PerAxis Nat}
    (hj : ∀ a, j.get a < G.extents.get a) {a : Axis} (hghost : ¬ G.IsInterior j a) (c : Axis) :
    (interiorVector G.stencil w).cell (c.component :: StoredAxes.full.axes.map j.get) = 0 := by
  have hplace : G.stencil.HasPlace j := fun a _ => hj a
  have houtside : ¬ G.stencil.IsInterior j := fun hinterior =>
    hghost (contains_interior_iff.mp (hinterior a (mem_axes_full a)))
  have hcell := component_interiorVector (w := w) hplace c
  rw [if_neg houtside] at hcell
  exact hcell

/-- The result of a curl on the grid: the values of a vector at interior cells, and zero at ghost
cells. -/
structure IsCurl (G : RegularGrid) (t : Tensor ℚ) (v : PolynomialVector) : Prop where
  shape_eq : t.shape = 3 :: G.stencil.cellShape
  interior_eq : ∀ j : PerAxis Nat, (∀ a, G.IsInterior j a) → ∀ c : Axis,
    t.cell [c.component, j.z, j.y, j.x] = (v.get c).eval (G.point j)
  ghost_eq : ∀ j : PerAxis Nat, (∀ a, j.get a < G.extents.get a) → (∃ a, ¬ G.IsInterior j a) →
    ∀ c : Axis, t.cell [c.component, j.z, j.y, j.x] = 0

theorem isCurl_interiorVector {w : PerAxis (Tensor ℚ)}
    (hw : ∀ a, Holds G (w.get a) (v.get a)) : IsCurl G (interiorVector G.stencil w) v where
  shape_eq := rfl
  interior_eq j hin c := (cell_interiorVector w hin c).trans (hw c j hin)
  ghost_eq j hj hex c := by
    obtain ⟨a, hghost⟩ := hex
    exact cell_interiorVector_ghost w hj hghost c

theorem curl_sample (hv : ∀ a b, (v.get a).degreeOf b ≤ 6) :
    ∃ t, CentralDifference.curl G.stencil (G.sample v) = .ok t ∧ IsCurl G t (G.curl v) := by
  refine ⟨_, curl_eq_ok_iff.mpr ⟨⟨rfl, rfl⟩, rfl⟩, ?_⟩
  refine isCurl_interiorVector fun a => ?_
  cases a with
  | x => exact holds_curlPart hv .z .y
  | y => exact holds_curlPart hv .x .z
  | z => exact holds_curlPart hv .y .x

/-- What the parts of the double curl hold is the curl of the curl. -/
theorem curl_curl (G : RegularGrid) (v : PolynomialVector) :
    G.curl (G.curl v) =
      ⟨G.deriv .y (G.deriv .x v.y) + G.deriv .z (G.deriv .x v.z)
          - G.deriv .y (G.deriv .y v.x) - G.deriv .z (G.deriv .z v.x),
        G.deriv .x (G.deriv .y v.x) + G.deriv .z (G.deriv .y v.z)
          - G.deriv .x (G.deriv .x v.y) - G.deriv .z (G.deriv .z v.y),
        G.deriv .x (G.deriv .z v.x) + G.deriv .y (G.deriv .z v.y)
          - G.deriv .x (G.deriv .x v.z) - G.deriv .y (G.deriv .y v.z)⟩ := by
  unfold curl curlWith
  simp only [deriv_sub, PerAxis.mk.injEq]
  refine ⟨?_, ?_, ?_⟩
  · ring
  · ring
  · ring

theorem doubleCurl_sample (hv : ∀ a b, (v.get a).degreeOf b ≤ 6) :
    ∃ t, doubleCurl G.stencil (G.sample v) = .ok t ∧ IsCurl G t (G.curl (G.curl v)) := by
  refine ⟨_, doubleCurl_eq_ok_iff.mpr ⟨⟨rfl, rfl⟩, rfl⟩, ?_⟩
  rw [curl_curl]
  refine isCurl_interiorVector fun a => ?_
  cases a with
  | x => exact holds_doubleCurlPart hv (by decide) (by decide)
  | y => exact holds_doubleCurlPart hv (by decide) (by decide)
  | z => exact holds_doubleCurlPart hv (by decide) (by decide)

/-- The curl and the curl of curl of samples of polynomials up to the sixth degree in each
coordinate are the analytic ones at interior cells and zero at ghost cells, where derivatives along
an axis with one interior cell are taken as zero. -/
theorem curls_exact (G : RegularGrid) (v : PolynomialVector)
    (hv : ∀ a b, (v.get a).degreeOf b ≤ 6) :
    (∃ t, CentralDifference.curl G.stencil (G.sample v) = .ok t ∧ IsCurl G t (G.curl v)) ∧
    (∃ t, doubleCurl G.stencil (G.sample v) = .ok t ∧ IsCurl G t (G.curl (G.curl v))) ∧
    ((∀ a, 1 < G.interior.get a) → G.curl = analyticCurl) :=
  ⟨curl_sample hv, doubleCurl_sample hv, curl_eq_analyticCurl⟩

/-- Two interior cells along each axis at a distance of one half. -/
def smallGrid : RegularGrid := uniform (.uniform 2) 3 (1 / 2) (-5 / 2) (by norm_num) (by decide)

/-- The sixth power of x as the second component. -/
noncomputable def sixthPower : PolynomialVector := ⟨0, MvPolynomial.X .x ^ 6, 0⟩

theorem degreeOf_sixthPower_le (a b : Axis) : (sixthPower.get a).degreeOf b ≤ 6 := by
  have hpow : (MvPolynomial.X .x ^ 6 : MvPolynomial Axis ℚ).degreeOf b ≤ 6 := by
    have hX : (MvPolynomial.X .x : MvPolynomial Axis ℚ).degreeOf b ≤ 1 := by
      rw [MvPolynomial.degreeOf_X]
      split <;> omega
    have hle := MvPolynomial.degreeOf_pow_le b (MvPolynomial.X .x : MvPolynomial Axis ℚ) 6
    omega
  cases a with
  | x => exact (MvPolynomial.degreeOf_zero b).le.trans (Nat.zero_le 6)
  | y => exact hpow
  | z => exact (MvPolynomial.degreeOf_zero b).le.trans (Nat.zero_le 6)

/-- At x = 1/4 the curl of the sixth power is six times the fifth power. -/
theorem curls_exact_sixthPower : (∀ a b, (sixthPower.get a).degreeOf b ≤ 6) ∧
    (∀ a, 1 < smallGrid.interior.get a) ∧
    ∃ t, CentralDifference.curl smallGrid.stencil (smallGrid.sample sixthPower) = .ok t ∧
      t.cell [2, 3, 3, 3] = 6 * (1 / 4) ^ 5 ∧ t.cell [2, 3, 3, 0] = 0 := by
  obtain ⟨⟨t, hcurl, ht⟩, -, hanalytic⟩ := curls_exact smallGrid sixthPower degreeOf_sixthPower_le
  have hwide : ∀ a, 1 < smallGrid.interior.get a := by
    intro a
    cases a <;> decide
  have hinterior : ∀ a, smallGrid.IsInterior (.uniform 3) a := by
    intro a
    cases a <;> decide
  have hinside : ∀ a, (⟨0, 3, 3⟩ : PerAxis Nat).get a < smallGrid.extents.get a := by
    intro a
    cases a <;> decide
  refine ⟨degreeOf_sixthPower_le, hwide, t, hcurl, ?_, ?_⟩
  · have hpoint : smallGrid.point (.uniform 3) .x = 1 / 4 := by
      simp only [point, smallGrid, uniform, PerAxis.get_uniform]
      norm_num
    have hcomponent : (analyticCurl sixthPower).get .z =
        MvPolynomial.pderiv .x (MvPolynomial.X .x ^ 6) := by
      simp only [analyticCurl, curlWith, sixthPower, PerAxis.get, map_zero, sub_zero]
    have hcell := ht.interior_eq (.uniform 3) hinterior .z
    rw [hanalytic hwide, hcomponent, MvPolynomial.pderiv_pow, MvPolynomial.pderiv_X_self] at hcell
    refine hcell.trans ?_
    simp [hpoint]
  · exact ht.ghost_eq ⟨0, 3, 3⟩ hinside ⟨.x, by decide⟩ .z

end RegularGrid

end GridSnapshot
