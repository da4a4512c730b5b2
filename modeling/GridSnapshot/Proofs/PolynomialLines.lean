import Mathlib.Algebra.MvPolynomial.PDeriv
import Mathlib.Algebra.Polynomial.Derivative
import Mathlib.Algebra.Polynomial.BigOperators
import Mathlib.Algebra.Polynomial.Eval.Degree
import Mathlib.Tactic.FieldSimp
import Mathlib.Tactic.Ring
import GridSnapshot.Proofs.StencilAgreement

namespace GridSnapshot

instance : FieldOps ℚ where
  ofInt i := i

instance : Narrowing ℚ ℚ where
  narrow x := x
  widen x := x

namespace CentralDifference

theorem firstSum_rat (f : Int → ℚ) :
    firstSum f = (f 1 - f (-1)) * 45 - (f 2 - f (-2)) * 9 + (f 3 - f (-3)) := by
  have h45 : (RingOps.ofInt 45 : ℚ) = 45 := Int.cast_ofNat 45
  have h9 : (RingOps.ofInt 9 : ℚ) = 9 := Int.cast_ofNat 9
  rw [← h45, ← h9]
  rfl

theorem secondSum_rat (f : Int → ℚ) :
    secondSum f = f 0 * -490 + (f 1 + f (-1)) * 270 - (f 2 + f (-2)) * 27
      + (f 3 + f (-3)) * 2 := by
  have h490 : (RingOps.ofInt (-490) : ℚ) = -490 := by
    change ((-490 : Int) : ℚ) = -490
    norm_num
  have h270 : (RingOps.ofInt 270 : ℚ) = 270 := Int.cast_ofNat 270
  have h27 : (RingOps.ofInt 27 : ℚ) = 27 := Int.cast_ofNat 27
  have h2 : (RingOps.ofInt 2 : ℚ) = 2 := Int.cast_ofNat 2
  rw [← h490, ← h270, ← h27, ← h2]
  rfl

section Line

open Polynomial

variable {P : ℚ[X]} {x h : ℚ}

theorem eval_of_natDegree_le_six (hP : P.natDegree ≤ 6) (x : ℚ) :
    P.eval x = P.coeff 0 + P.coeff 1 * x + P.coeff 2 * x ^ 2 + P.coeff 3 * x ^ 3
      + P.coeff 4 * x ^ 4 + P.coeff 5 * x ^ 5 + P.coeff 6 * x ^ 6 := by
  rw [eval_eq_sum_range' (Nat.lt_succ_of_le hP) x]
  simp [Finset.sum_range_succ]

/-- The first difference of seven values of a polynomial up to the sixth degree is its derivative
in the middle. -/
theorem firstSum_eval (hP : P.natDegree ≤ 6) (hh : h ≠ 0) :
    firstSum (fun o => P.eval (x + o * h)) * (1 / h / 60) = P.derivative.eval x := by
  have hderivative : P.derivative.natDegree ≤ 6 :=
    (natDegree_derivative_le P).trans ((Nat.sub_le _ _).trans hP)
  have hseven : P.coeff 7 = 0 := coeff_eq_zero_of_natDegree_lt (Nat.lt_succ_of_le hP)
  rw [firstSum_rat, eval_of_natDegree_le_six hderivative]
  simp only [eval_of_natDegree_le_six hP, coeff_derivative, hseven]
  push_cast
  field_simp
  ring

/-- The second difference of such values is the second derivative. -/
theorem secondSum_eval (hP : P.natDegree ≤ 6) (hh : h ≠ 0) :
    secondSum (fun o => P.eval (x + o * h)) * (1 / h * (1 / h) / 180) =
      P.derivative.derivative.eval x := by
  have hderivative : P.derivative.derivative.natDegree ≤ 6 := by
    have hfirst := natDegree_derivative_le P
    have hsecond := natDegree_derivative_le P.derivative
    omega
  have hseven : P.coeff 7 = 0 := coeff_eq_zero_of_natDegree_lt (Nat.lt_succ_of_le hP)
  have height : P.coeff 8 = 0 := coeff_eq_zero_of_natDegree_lt (by omega)
  rw [secondSum_rat, eval_of_natDegree_le_six hderivative]
  simp only [eval_of_natDegree_le_six hP, coeff_derivative, hseven, height]
  push_cast
  field_simp
  ring

end Line

end CentralDifference

open Polynomial (X C natDegree_C)

/-- A polynomial in the coordinates along the line through a point that is parallel to an axis. -/
noncomputable def onLine (x : Axis → ℚ) (a : Axis) (p : MvPolynomial Axis ℚ) : Polynomial ℚ :=
  MvPolynomial.aeval (fun b => if b = a then X else C (x b)) p

variable {x : Axis → ℚ} {a b : Axis} {p : MvPolynomial Axis ℚ}

/-- Its values are those of the polynomial where only the one coordinate varies. -/
theorem eval_onLine (x : Axis → ℚ) (a : Axis) (p : MvPolynomial Axis ℚ) (t : ℚ) :
    (onLine x a p).eval t = p.eval fun b => if b = a then t else x b := by
  have hcoord (b : Axis) : (if b = a then X else C (x b) : Polynomial ℚ).eval t =
      if b = a then t else x b := by
    split
    · exact Polynomial.eval_X
    · exact Polynomial.eval_C
  induction p using MvPolynomial.induction_on with
  | C c => simp [onLine]
  | add p q hp hq =>
    simp only [onLine, map_add, Polynomial.eval_add] at hp hq ⊢
    rw [hp, hq]
  | mul_X p b hp =>
    simp only [onLine, map_mul, MvPolynomial.aeval_X, Polynomial.eval_mul, MvPolynomial.eval_X]
      at hp ⊢
    rw [hp, hcoord]

theorem derivative_onLine (x : Axis → ℚ) (a : Axis) (p : MvPolynomial Axis ℚ) :
    (onLine x a p).derivative = onLine x a (MvPolynomial.pderiv a p) := by
  have hcoord (b : Axis) : (if b = a then X else C (x b) : Polynomial ℚ).derivative =
      onLine x a (MvPolynomial.pderiv a (MvPolynomial.X b)) := by
    by_cases h : b = a
    · subst h
      simp [onLine]
    · simp [onLine, h]
  induction p using MvPolynomial.induction_on with
  | C c => simp [onLine]
  | add p q hp hq =>
    simp only [onLine, map_add] at hp hq ⊢
    rw [hp, hq]
  | mul_X p b hp =>
    have hX := hcoord b
    simp only [onLine, map_mul, MvPolynomial.aeval_X, Polynomial.derivative_mul,
      MvPolynomial.pderiv_mul, map_add] at hp hX ⊢
    rw [hp, hX]

theorem natDegree_onLine_le (x : Axis → ℚ) (a : Axis) (p : MvPolynomial Axis ℚ) :
    (onLine x a p).natDegree ≤ p.degreeOf a := by
  rw [onLine, MvPolynomial.aeval_def, MvPolynomial.eval₂_eq]
  refine Polynomial.natDegree_sum_le_of_forall_le _ _ fun m hm => ?_
  have hfactor (b : Axis) : ((if b = a then X else C (x b) : Polynomial ℚ) ^ m b).natDegree ≤
      if b = a then m a else 0 := by
    by_cases h : b = a
    · rw [if_pos h, if_pos h, h]
      exact Polynomial.natDegree_X_pow_le _
    · rw [if_neg h, if_neg h, ← map_pow]
      exact (natDegree_C _).le
  have hprod : (∏ b ∈ m.support, (if b = a then X else C (x b) : Polynomial ℚ) ^ m b).natDegree ≤
      m a := by
    refine (Polynomial.natDegree_prod_le _ _).trans ?_
    refine (Finset.sum_le_sum fun b _ => hfactor b).trans ?_
    rw [Finset.sum_ite_eq']
    split
    · exact Nat.le_refl _
    · exact Nat.zero_le _
  calc _ ≤ (∏ b ∈ m.support, (if b = a then X else C (x b) : Polynomial ℚ) ^ m b).natDegree :=
        Polynomial.natDegree_C_mul_le _ _
    _ ≤ m a := hprod
    _ ≤ p.degreeOf a := MvPolynomial.monomial_le_degreeOf a hm

/-- A partial derivative has no higher degree in any coordinate. -/
theorem degreeOf_pderiv_le (a b : Axis) (p : MvPolynomial Axis ℚ) :
    (MvPolynomial.pderiv a p).degreeOf b ≤ p.degreeOf b := by
  rw [MvPolynomial.degreeOf_eq_sup]
  refine Finset.sup_le fun m hm => ?_
  have hraised : m + Finsupp.single a 1 ∈ p.support := by
    rw [MvPolynomial.mem_support_iff, MvPolynomial.coeff_pderiv] at hm
    rw [MvPolynomial.mem_support_iff]
    exact left_ne_zero_of_mul hm
  have hle := MvPolynomial.monomial_le_degreeOf b hraised
  exact (Nat.le_add_right _ _).trans hle

theorem pderiv_comm (a b : Axis) (p : MvPolynomial Axis ℚ) :
    MvPolynomial.pderiv a (MvPolynomial.pderiv b p) =
      MvPolynomial.pderiv b (MvPolynomial.pderiv a p) := by
  ext m
  rw [MvPolynomial.coeff_pderiv, MvPolynomial.coeff_pderiv, MvPolynomial.coeff_pderiv,
    MvPolynomial.coeff_pderiv, add_right_comm m]
  by_cases h : a = b
  · subst h
    rfl
  · rw [Finsupp.add_apply, Finsupp.add_apply, Finsupp.single_eq_of_ne h,
      Finsupp.single_eq_of_ne (Ne.symm h), Nat.add_zero, Nat.add_zero]
    ring

namespace CentralDifference

variable {h : ℚ}

theorem eval_onLine_self (x : Axis → ℚ) (a : Axis) (p : MvPolynomial Axis ℚ) :
    (onLine x a p).eval (x a) = p.eval x := by
  have hsame : (fun b => if b = a then x a else x b) = x := by
    funext b
    by_cases hb : b = a
    · rw [if_pos hb, hb]
    · rw [if_neg hb]
  rw [eval_onLine, hsame]

theorem firstSum_onLine (hp : p.degreeOf a ≤ 6) (hh : h ≠ 0) (x : Axis → ℚ) :
    firstSum (fun o => p.eval fun b => if b = a then x a + o * h else x b) * (1 / h / 60) =
      (MvPolynomial.pderiv a p).eval x := by
  have hfirst := firstSum_eval (x := x a) ((natDegree_onLine_le x a p).trans hp) hh
  simp only [eval_onLine, derivative_onLine] at hfirst
  rw [hfirst, ← eval_onLine, eval_onLine_self]

theorem secondSum_onLine (hp : p.degreeOf a ≤ 6) (hh : h ≠ 0) (x : Axis → ℚ) :
    secondSum (fun o => p.eval fun b => if b = a then x a + o * h else x b) *
        (1 / h * (1 / h) / 180) =
      (MvPolynomial.pderiv a (MvPolynomial.pderiv a p)).eval x := by
  have hsecond := secondSum_eval (x := x a) ((natDegree_onLine_le x a p).trans hp) hh
  simp only [eval_onLine, derivative_onLine] at hsecond
  rw [hsecond, ← eval_onLine, eval_onLine_self]

end CentralDifference

end GridSnapshot
