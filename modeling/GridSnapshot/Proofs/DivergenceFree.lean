import GridSnapshot.Proofs.PolynomialLines
import GridSnapshot.Proofs.CellDifferences

namespace GridSnapshot

namespace ExactArithmetic

/-- The operations of a commutative ring. -/
scoped instance ofCommRing {R : Type} [CommRing R] : RingOps R where
  ofInt i := i

end ExactArithmetic

open scoped ExactArithmetic

namespace PerAxis

variable {j : PerAxis Nat} {a b : Axis}

theorem neighbour_comm (h : a ≠ b) (o o' : Int) :
    (j.neighbour a o).neighbour b o' = (j.neighbour b o').neighbour a o := by
  unfold neighbour
  rw [get_replace_of_ne _ h.symm, get_replace_of_ne _ h, replace_comm _ h]

end PerAxis

namespace StencilGrid

variable {ω : Type} {g : StencilGrid ω} {j : PerAxis Nat} {a : Axis}

/-- An interior cell that is at least three cells away from both ends of the interior along the
active axes. -/
structure IsDeep (g : StencilGrid ω) (j : PerAxis Nat) : Prop where
  interior : g.IsInterior j
  away : ∀ a, g.isActive a = true →
    (g.interior a).start + 3 ≤ j.get a ∧ j.get a + 3 < (g.interior a).stop

theorem IsDeep.neighbour {o : Int} (hj : g.IsDeep j) (hactive : g.isActive a = true)
    (hlo : -3 ≤ o) (hhi : o ≤ 3) : g.IsInterior (j.neighbour a o) := by
  intro b hb
  by_cases hba : b = a
  · subst hba
    have haway := hj.away b hactive
    rw [PerAxis.get_neighbour_self]
    constructor
    · omega
    · omega
  · rw [PerAxis.get_neighbour_of_ne hba]
    exact hj.interior b hb

end StencilGrid

namespace CentralDifference

variable {ω R : Type} [FieldOps ω] [CommRing R] [Narrowing ω R] {g : StencilGrid ω}
  {a b : Axis} {j : PerAxis Nat} {f f' : PerAxis Nat → R} {v t : Tensor R}

omit [FieldOps ω] in
theorem firstSum_eq (f : Int → R) :
    firstSum f = (f 1 - f (-1)) * 45 - (f 2 - f (-2)) * 9 + (f 3 - f (-3)) := by
  have h45 : (RingOps.ofInt 45 : R) = 45 := Int.cast_ofNat 45
  have h9 : (RingOps.ofInt 9 : R) = 9 := Int.cast_ofNat 9
  rw [← h45, ← h9]
  rfl

/-- What a first difference is multiplied with at an index along its axis, zero where none is
taken. -/
def firstWeight (g : StencilGrid ω) (a : Axis) (i : Nat) : R :=
  if g.isActive a ∧ (g.interior a).Contains i then
    factorAt g a (fun h => h / RingOps.ofInt 60) i
  else 0

theorem firstAt_eq (g : StencilGrid ω) (a : Axis) (f : PerAxis Nat → R) (j : PerAxis Nat) :
    firstAt g a f j = ((f (j.neighbour a 1) - f (j.neighbour a (-1))) * 45
      - (f (j.neighbour a 2) - f (j.neighbour a (-2))) * 9
      + (f (j.neighbour a 3) - f (j.neighbour a (-3)))) * firstWeight g a (j.get a) := by
  unfold firstAt differenceAt firstWeight
  rw [firstSum_eq]
  split
  · rfl
  · exact (mul_zero _).symm

theorem firstAt_sub (g : StencilGrid ω) (a : Axis) (f f' : PerAxis Nat → R) (j : PerAxis Nat) :
    firstAt g a (fun i => f i - f' i) j = firstAt g a f j - firstAt g a f' j := by
  simp only [firstAt_eq]
  ring

/-- Neither difference moves the index that the other one depends on. -/
theorem firstAt_comm (h : a ≠ b) (f : PerAxis Nat → R) (j : PerAxis Nat) :
    firstAt g a (firstAt g b f) j = firstAt g b (firstAt g a f) j := by
  simp only [firstAt_eq, PerAxis.get_neighbour_of_ne h, PerAxis.get_neighbour_of_ne h.symm,
    PerAxis.neighbour_comm h]
  ring

/-- Each component is differentiated along each of the two other axes, in both orders and with
opposite signs. -/
theorem divergence_curlAt (g : StencilGrid ω) (f : Axis → PerAxis Nat → R) (j : PerAxis Nat) :
    firstAt g .x (curlAt g f .x) j + firstAt g .y (curlAt g f .y) j
      + firstAt g .z (curlAt g f .z) j = 0 := by
  unfold curlAt
  rw [firstAt_sub, firstAt_sub, firstAt_sub, firstAt_comm (a := .x) (b := .y) (by decide),
    firstAt_comm (a := .x) (b := .z) (by decide), firstAt_comm (a := .y) (b := .z) (by decide)]
  ring

/-- Far enough from the margins the first differences of a curl are those of its components as
functions. -/
theorem first_curl (hcurl : curl g v = .ok t) (hj : g.IsDeep j) (a : Axis) :
    (first g a (t.row a.component)).atPlace g.layout j =
      firstAt g a (curlAt g (v.component g.layout) a) j := by
  have ht := hasComponents_of_curl hcurl
  rw [atPlace_first_row ht.shape_eq hj.interior.hasPlace]
  apply differenceAt_congr isStencil_firstSum
  intro hactive _ o hlo hhi
  exact ht.of_interior (hj.neighbour hactive hlo hhi) a

/-- The curl of a vector has no divergence at cells whose stencils hold interior cells only. It is
taken of each vector that fits a Cartesian grid, and an axis that is not active adds nothing, to
the curl or to the divergence. -/
theorem divergence_curl (g : StencilGrid ω) (v : Tensor R) :
    ((∃ b, curl g v = .ok b) ↔ g.coordinates = .cartesian ∧ v.shape = 3 :: g.cellShape) ∧
    (∀ b, curl g v = .ok b → ∀ j, g.IsDeep j →
      (first g .x (b.row 0)).atPlace g.layout j + (first g .y (b.row 1)).atPlace g.layout j
        + (first g .z (b.row 2)).atPlace g.layout j = 0) ∧
    ∀ a, g.isActive a = false → ∀ (t : Tensor R) (idx : List Nat), (first g a t).cell idx = 0 := by
  refine ⟨?_, ?_, ?_⟩
  · constructor
    · rintro ⟨b, hb⟩
      exact (curl_eq_ok_iff.mp hb).1
    · intro h
      exact ⟨_, curl_eq_ok_iff.mpr ⟨h, rfl⟩⟩
  · intro b hcurl j hj
    have hx := first_curl hcurl hj .x
    have hy := first_curl hcurl hj .y
    have hz := first_curl hcurl hj .z
    have hzero := divergence_curlAt g (v.component g.layout) j
    rw [← hx, ← hy, ← hz] at hzero
    exact hzero
  · intro a hactive t idx
    exact cell_difference_of_not_isActive hactive t idx

/-- A grid whose cells get wider along x and z, with one interior cell along y. -/
def wideningGrid : StencilGrid ℚ where
  layout := .full
  extents := ⟨13, 7, 13⟩
  ghosts := .uniform 3
  inverse := ⟨(List.range 13).map fun i => 1 / (i + 1), List.replicate 7 1,
    (List.range 13).map fun i => 1 / (2 * i + 1)⟩
  coordinates := .cartesian

/-- Components that are products of powers of the indices. -/
def twistedVector : Tensor ℚ := .ofFn [3, 13, 7, 13] fun idx => match idx with
  | [0, k, j, i] => k ^ 3 * i + j
  | [1, k, _, i] => k * i ^ 2
  | [_, k, j, i] => k * j + i ^ 4
  | _ => 0

theorem divergence_curl_wideningGrid :
    wideningGrid.IsDeep ⟨6, 3, 6⟩ ∧ wideningGrid.isActive .y = false ∧
    ∃ b, curl wideningGrid twistedVector = .ok b ∧
      (first wideningGrid .x (b.row 0)).atPlace .full ⟨6, 3, 6⟩
        + (first wideningGrid .y (b.row 1)).atPlace .full ⟨6, 3, 6⟩
        + (first wideningGrid .z (b.row 2)).atPlace .full ⟨6, 3, 6⟩ = 0 := by
  have hdeep : wideningGrid.IsDeep ⟨6, 3, 6⟩ := {
    interior := by decide
    away := by
      intro a
      cases a <;> decide }
  obtain ⟨haccepted, hzero, -⟩ := divergence_curl wideningGrid twistedVector
  obtain ⟨b, hb⟩ := haccepted.mpr ⟨rfl, rfl⟩
  exact ⟨hdeep, by decide, b, hb, hzero b hb _ hdeep⟩

end CentralDifference

end GridSnapshot
