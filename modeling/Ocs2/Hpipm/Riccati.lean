import Mathlib
import Ocs2.Hpipm.Transcription
import Ocs2.Quadratic

/-!
# Ocs2.Hpipm.Riccati

The Riccati quantities `HpipmInterface` reads back from hpipm after a solve: the stage-0
feedback, feedforward and value that `getRiccatiZeroStage` reconstructs in closed form, and the
interior gains `getRiccatiFeedbackFeedforward` extracts stage by stage.

hpipm's getters are modelled by the blocks of its stage-`k` Cholesky factor: `ric_Lr` gives `Lr`
with `Lr Lr' = H = R + B'PB`, `ric_Ls` gives `Ls` with `Ls Lr' = G'` for `G = S + B'PA`, and
`ric_k` gives the row `l` with `Lr l = g = r + B'p + B'Pb`; `ric_P` and `ric_p` give the next
stage's value `1/2 y'Py + p'y`. The matrices are of fixed size here; `Ocs2.Hpipm.ZeroStage` shows
that the code's computation on Eigen's dynamic objects is this closed form.

* `getRiccatiZeroStage_lqr`: the closed form is the exact LQR backward step at stage 0.
* `feedbackFeedforward_feedback`, `feedbackFeedforward_feedforward`: at an interior stage the
  extracted feedback is the same law, but the extracted feedforward is the raw row `l`, which is
  `-Lr' k` for the law's `k`.
* `solve_horizon_zero_out_of_range`: with `N = 0`, `solve` and `getRiccatiZeroStage` index past
  the end of `dynamics` and of `nx`.
-/

namespace Ocs2
namespace Hpipm

open Matrix

/-- The LQ data of one stage: the dynamics `y = A x + B u + b` into a state of `ny` entries, and
the cost `1/2 x'Qx + 1/2 u'Ru + u'Sx + q'x + r'u` on a state of `nx` and an input of `nu`
entries. -/
structure StageData (K : Type) (nx ny nu : ℕ) where
  A : Matrix (Fin ny) (Fin nx) K
  B : Matrix (Fin ny) (Fin nu) K
  b : Fin ny → K
  Q : Matrix (Fin nx) (Fin nx) K
  R : Matrix (Fin nu) (Fin nu) K
  S : Matrix (Fin nu) (Fin nx) K
  q : Fin nx → K
  r : Fin nu → K

variable {K : Type} [LinearOrderedField K] {n nx ny nu : ℕ}

/-- The quadratic value function `V(y) = 1/2 y'Py + p'y`. -/
def costToGo (P : Matrix (Fin n) (Fin n) K) (p y : Fin n → K) : K :=
  y ⬝ᵥ (P *ᵥ y) / 2 + p ⬝ᵥ y

namespace StageData

variable (d : StageData K nx ny nu) (P : Matrix (Fin ny) (Fin ny) K) (p : Fin ny → K)

/-- The stage cost at `(x, u)` plus the next stage's value `V(y) = 1/2 y'Py + p'y` at the state
the dynamics lead to. -/
def objective (x : Fin nx → K) (u : Fin nu → K) : K :=
  x ⬝ᵥ (d.Q *ᵥ x) / 2 + u ⬝ᵥ (d.R *ᵥ u) / 2 + u ⬝ᵥ (d.S *ᵥ x) + d.q ⬝ᵥ x + d.r ⬝ᵥ u +
    costToGo P p (d.A *ᵥ x + d.B *ᵥ u + d.b)

/-- `H = R + B'PB`, the objective's Hessian in the input. -/
def hessian : Matrix (Fin nu) (Fin nu) K := d.R + d.Bᵀ * P * d.B

/-- `G = S + B'PA`, its mixed second derivative. -/
def cross : Matrix (Fin nu) (Fin nx) K := d.S + d.Bᵀ * P * d.A

/-- `g = r + B'p + B'Pb`, its gradient in the input at `x = 0, u = 0`. -/
def gradient : Fin nu → K := d.r + d.Bᵀ *ᵥ p + (d.Bᵀ * P) *ᵥ d.b

theorem objective_eq (hP : Pᵀ = P) (x : Fin nx → K) (u : Fin nu → K) :
    d.objective P p x u = u ⬝ᵥ (d.hessian P *ᵥ u) / 2 + u ⬝ᵥ (d.cross P *ᵥ x + d.gradient P p) +
      (x ⬝ᵥ ((d.Q + d.Aᵀ * P * d.A) *ᵥ x) / 2 + (d.q + d.Aᵀ *ᵥ p + (d.Aᵀ * P) *ᵥ d.b) ⬝ᵥ x +
        costToGo P p d.b) := by
  have hy : d.A *ᵥ x + d.B *ᵥ u + d.b = (d.B *ᵥ u + d.A *ᵥ x) + d.b := by abel
  rw [objective, costToGo, hy, dotProduct_mulVec_add hP, dotProduct_mulVec_add hP,
    add_dotProduct (d.B *ᵥ u), mulVec_dotProduct_mulVec, mulVec_dotProduct_mulVec,
    mulVec_dotProduct_mulVec, mulVec_dotProduct, mulVec_dotProduct, dotProduct_add, dotProduct_add,
    dotProduct_mulVec_comm _ p, dotProduct_mulVec_comm _ p, dotProduct_comm d.r u]
  simp only [hessian, cross, gradient, costToGo, add_mulVec, dotProduct_add, add_dotProduct,
    mulVec_mulVec, transpose_transpose]
  rw [dotProduct_comm (d.Aᵀ *ᵥ p) x, dotProduct_comm ((d.Aᵀ * P) *ᵥ d.b) x]
  ring

end StageData

/-- Eigen's `inverse()` of an invertible square matrix: the adjugate over the determinant. On a
singular matrix Eigen divides by the zero determinant and returns non-finite entries, where
this is `0`; every result that reads it assumes the determinant is a unit. -/
def inverse (A : Matrix (Fin n) (Fin n) K) : Matrix (Fin n) (Fin n) K :=
  A.det⁻¹ • A.adjugate

theorem inverse_eq_inv (A : Matrix (Fin n) (Fin n) K) : inverse A = A⁻¹ := by
  rw [inverse, inv_def, Ring.inverse_eq_inv']

/-- What `getRiccatiZeroStage` writes: `P0, K0, p0, k0`. -/
structure ZeroStage (K : Type) (nx nu : ℕ) where
  P0 : Matrix (Fin nx) (Fin nx) K
  K0 : Matrix (Fin nu) (Fin nx) K
  p0 : Fin nx → K
  k0 : Fin nu → K

/-- `getRiccatiZeroStage`, from hpipm's `P1 = ric_P(1)`, `Lr0 = ric_Lr(0)` and `p1 = ric_p(1)`
and the stage-0 data `A0, B0, b0, Q0, R0, S0, q0, r0` of before the elimination of `x0`. -/
def getRiccatiZeroStage (d : StageData K nx ny nu) (P1 : Matrix (Fin ny) (Fin ny) K)
    (Lr0 : Matrix (Fin nu) (Fin nu) K) (p1 : Fin ny → K) : ZeroStage K nx nu :=
  let Lr0_inv := inverse Lr0
  { K0 := -(Lr0_invᵀ * Lr0_inv) * (d.S + d.Bᵀ * P1 * d.A)
    k0 := -(Lr0_invᵀ * Lr0_inv) *ᵥ (d.r + d.Bᵀ *ᵥ p1 + (d.Bᵀ * P1) *ᵥ d.b)
    P0 := d.Q + d.Aᵀ * P1 * d.A -
      (d.S + d.Bᵀ * P1 * d.A)ᵀ * (Lr0_invᵀ * Lr0_inv) * (d.S + d.Bᵀ * P1 * d.A)
    p0 := d.q + d.Aᵀ *ᵥ p1 + (d.Aᵀ * P1) *ᵥ d.b -
      ((d.S + d.Bᵀ * P1 * d.A)ᵀ * (Lr0_invᵀ * Lr0_inv)) *ᵥ (d.r + d.Bᵀ *ᵥ p1 + (d.Bᵀ * P1) *ᵥ d.b) }

section ZeroStageLaw

variable {L : Matrix (Fin nu) (Fin nu) K}

theorem gramInverse_symm (L : Matrix (Fin nu) (Fin nu) K) :
    ((inverse L)ᵀ * inverse L)ᵀ = (inverse L)ᵀ * inverse L := by
  rw [transpose_mul, transpose_transpose]

theorem gramInverse_mul (hL : IsUnit L.det) : (inverse L)ᵀ * inverse L * (L * Lᵀ) = 1 := by
  rw [inverse_eq_inv, Matrix.mul_assoc, ← Matrix.mul_assoc L⁻¹, nonsing_inv_mul _ hL,
    Matrix.one_mul, ← transpose_mul, mul_nonsing_inv _ hL, transpose_one]

theorem mul_gramInverse (hL : IsUnit L.det) : L * Lᵀ * ((inverse L)ᵀ * inverse L) = 1 := by
  rw [inverse_eq_inv, Matrix.mul_assoc, ← Matrix.mul_assoc Lᵀ, ← transpose_mul,
    nonsing_inv_mul _ hL, transpose_one, Matrix.one_mul, mul_nonsing_inv _ hL]

variable (d : StageData K nx ny nu) (P1 : Matrix (Fin ny) (Fin ny) K) (p1 : Fin ny → K)

theorem getRiccatiZeroStage_feedback (L : Matrix (Fin nu) (Fin nu) K) (x : Fin nx → K) :
    (getRiccatiZeroStage d P1 L p1).K0 *ᵥ x + (getRiccatiZeroStage d P1 L p1).k0 =
      -(((inverse L)ᵀ * inverse L) *ᵥ (d.cross P1 *ᵥ x + d.gradient P1 p1)) := by
  simp only [getRiccatiZeroStage, StageData.cross, StageData.gradient, neg_mul, neg_mulVec,
    ← mulVec_mulVec, mulVec_add, neg_add]

theorem getRiccatiZeroStage_value (L : Matrix (Fin nu) (Fin nu) K) (x : Fin nx → K) :
    x ⬝ᵥ ((getRiccatiZeroStage d P1 L p1).P0 *ᵥ x) / 2 + (getRiccatiZeroStage d P1 L p1).p0 ⬝ᵥ x =
      x ⬝ᵥ ((d.Q + d.Aᵀ * P1 * d.A) *ᵥ x) / 2 + (d.q + d.Aᵀ *ᵥ p1 + (d.Aᵀ * P1) *ᵥ d.b) ⬝ᵥ x -
        ((d.cross P1 *ᵥ x + d.gradient P1 p1) ⬝ᵥ
          (((inverse L)ᵀ * inverse L) *ᵥ (d.cross P1 *ᵥ x + d.gradient P1 p1)) -
          d.gradient P1 p1 ⬝ᵥ (((inverse L)ᵀ * inverse L) *ᵥ d.gradient P1 p1)) / 2 := by
  rw [dotProduct_mulVec_add (gramInverse_symm L), mulVec_dotProduct_mulVec, mulVec_dotProduct,
    mulVec_mulVec]
  simp only [getRiccatiZeroStage, StageData.cross, StageData.gradient, sub_mulVec, dotProduct_sub,
    sub_dotProduct]
  rw [dotProduct_comm (((d.S + d.Bᵀ * P1 * d.A)ᵀ * ((inverse L)ᵀ * inverse L)) *ᵥ _) x]
  ring

variable {d P1 p1} (hP1 : P1ᵀ = P1) (hL : IsUnit L.det) (hH : L * Lᵀ = d.hessian P1)
include hP1 hL hH

theorem objective_eq_feedback_add (x : Fin nx → K) (u : Fin nu → K) :
    d.objective P1 p1 x u =
      d.objective P1 p1 x ((getRiccatiZeroStage d P1 L p1).K0 *ᵥ x +
        (getRiccatiZeroStage d P1 L p1).k0) +
      (u - ((getRiccatiZeroStage d P1 L p1).K0 *ᵥ x + (getRiccatiZeroStage d P1 L p1).k0)) ⬝ᵥ
        (d.hessian P1 *ᵥ (u - ((getRiccatiZeroStage d P1 L p1).K0 *ᵥ x +
          (getRiccatiZeroStage d P1 L p1).k0))) / 2 := by
  have hsymm : (d.hessian P1)ᵀ = d.hessian P1 := by rw [← hH, transpose_mul, transpose_transpose]
  have hstat : d.hessian P1 *ᵥ ((getRiccatiZeroStage d P1 L p1).K0 *ᵥ x +
      (getRiccatiZeroStage d P1 L p1).k0) = -(d.cross P1 *ᵥ x + d.gradient P1 p1) := by
    rw [getRiccatiZeroStage_feedback, mulVec_neg, mulVec_mulVec, ← hH, mul_gramInverse hL,
      one_mulVec]
  rw [StageData.objective_eq d P1 p1 hP1, StageData.objective_eq d P1 p1 hP1,
    quadratic_eq_of_stationary hsymm hstat u]
  ring

theorem objective_feedback (x : Fin nx → K) :
    d.objective P1 p1 x ((getRiccatiZeroStage d P1 L p1).K0 *ᵥ x +
        (getRiccatiZeroStage d P1 L p1).k0) =
      x ⬝ᵥ ((getRiccatiZeroStage d P1 L p1).P0 *ᵥ x) / 2 +
        (getRiccatiZeroStage d P1 L p1).p0 ⬝ᵥ x +
        (costToGo P1 p1 d.b -
          d.gradient P1 p1 ⬝ᵥ (((inverse L)ᵀ * inverse L) *ᵥ d.gradient P1 p1) / 2) := by
  rw [StageData.objective_eq d P1 p1 hP1, getRiccatiZeroStage_feedback, ← hH,
    quadratic_at_stationary (mul_gramInverse hL) (gramInverse_symm L), getRiccatiZeroStage_value]
  ring

omit hP1 in
theorem gramInverse_hessian : (inverse L)ᵀ * inverse L * d.hessian P1 = 1 := by
  rw [← hH, gramInverse_mul hL]

end ZeroStageLaw

/-- **`getRiccatiZeroStage` is the LQR backward step at stage 0.** With `P1` symmetric and `Lr0`
an invertible factor `Lr0 Lr0' = H = R0 + B0'P1B0`, the product `Lr0^{-T} Lr0^{-1}` the code forms
is `H^{-1}`, and for every state `x` the stage-0 objective has its unique minimiser at
`K0 x + k0`, where it is `1/2 x'P0x + p0'x` plus a constant. -/
theorem getRiccatiZeroStage_lqr (d : StageData K nx ny nu) (P1 : Matrix (Fin ny) (Fin ny) K)
    (p1 : Fin ny → K) (Lr0 : Matrix (Fin nu) (Fin nu) K) (hP1 : P1ᵀ = P1) (hLr0 : IsUnit Lr0.det)
    (hH : Lr0 * Lr0ᵀ = d.hessian P1) :
    (inverse Lr0)ᵀ * inverse Lr0 * d.hessian P1 = 1 ∧
    ∃ c : K, ∀ x : Fin nx → K,
      (∀ u, d.objective P1 p1 x ((getRiccatiZeroStage d P1 Lr0 p1).K0 *ᵥ x +
          (getRiccatiZeroStage d P1 Lr0 p1).k0) ≤ d.objective P1 p1 x u) ∧
      (∀ u, d.objective P1 p1 x u = d.objective P1 p1 x ((getRiccatiZeroStage d P1 Lr0 p1).K0 *ᵥ x +
          (getRiccatiZeroStage d P1 Lr0 p1).k0) →
        u = (getRiccatiZeroStage d P1 Lr0 p1).K0 *ᵥ x + (getRiccatiZeroStage d P1 Lr0 p1).k0) ∧
      d.objective P1 p1 x ((getRiccatiZeroStage d P1 Lr0 p1).K0 *ᵥ x +
          (getRiccatiZeroStage d P1 Lr0 p1).k0) =
        x ⬝ᵥ ((getRiccatiZeroStage d P1 Lr0 p1).P0 *ᵥ x) / 2 +
          (getRiccatiZeroStage d P1 Lr0 p1).p0 ⬝ᵥ x + c := by
  refine ⟨gramInverse_hessian hLr0 hH, _, fun x => ⟨fun u => ?_, fun u hu => ?_,
    objective_feedback hP1 hLr0 hH x⟩⟩
  · rw [objective_eq_feedback_add hP1 hLr0 hH x u, ← hH]
    linarith [gram_nonneg Lr0 (u - ((getRiccatiZeroStage d P1 Lr0 p1).K0 *ᵥ x +
      (getRiccatiZeroStage d P1 Lr0 p1).k0))]
  · rw [objective_eq_feedback_add hP1 hLr0 hH x u, ← hH, add_right_eq_self,
      div_eq_zero_iff] at hu
    exact sub_eq_zero.mp (eq_zero_of_gram hLr0 (hu.resolve_right two_ne_zero))

/-- One state, one input: `y = x + u`, no stage cost but `r = 1`. With `P1 = 1` and `p1 = 0`
it has `H = 1`, `G = 1` and `g = 1`. -/
def riccatiExample : StageData ℚ 1 1 1 := ⟨1, 1, 0, 0, 0, 0, 0, 1⟩

theorem getRiccatiZeroStage_lqr_riccatiExample :
    (1 : Matrix (Fin 1) (Fin 1) ℚ)ᵀ = 1 ∧ IsUnit (1 : Matrix (Fin 1) (Fin 1) ℚ).det ∧
    (1 : Matrix (Fin 1) (Fin 1) ℚ) * 1ᵀ = riccatiExample.hessian 1 ∧
    ((inverse (1 : Matrix (Fin 1) (Fin 1) ℚ))ᵀ * inverse 1 * riccatiExample.hessian 1 = 1 ∧
    ∃ c : ℚ, ∀ x : Fin 1 → ℚ,
      (∀ u, riccatiExample.objective 1 0 x ((getRiccatiZeroStage riccatiExample 1 1 0).K0 *ᵥ x +
          (getRiccatiZeroStage riccatiExample 1 1 0).k0) ≤ riccatiExample.objective 1 0 x u) ∧
      (∀ u, riccatiExample.objective 1 0 x u =
          riccatiExample.objective 1 0 x ((getRiccatiZeroStage riccatiExample 1 1 0).K0 *ᵥ x +
            (getRiccatiZeroStage riccatiExample 1 1 0).k0) →
        u = (getRiccatiZeroStage riccatiExample 1 1 0).K0 *ᵥ x +
          (getRiccatiZeroStage riccatiExample 1 1 0).k0) ∧
      riccatiExample.objective 1 0 x ((getRiccatiZeroStage riccatiExample 1 1 0).K0 *ᵥ x +
          (getRiccatiZeroStage riccatiExample 1 1 0).k0) =
        x ⬝ᵥ ((getRiccatiZeroStage riccatiExample 1 1 0).P0 *ᵥ x) / 2 +
          (getRiccatiZeroStage riccatiExample 1 1 0).p0 ⬝ᵥ x + c) :=
  have hP1 : (1 : Matrix (Fin 1) (Fin 1) ℚ)ᵀ = 1 := transpose_one
  have hL : IsUnit (1 : Matrix (Fin 1) (Fin 1) ℚ).det := by simp
  have hH : (1 : Matrix (Fin 1) (Fin 1) ℚ) * 1ᵀ = riccatiExample.hessian 1 := by
    simp [StageData.hessian, riccatiExample]
  ⟨hP1, hL, hH, getRiccatiZeroStage_lqr riccatiExample 1 0 1 hP1 hL hH⟩

/-! ## Interior stages -/

/-- Stage `k` of the loop of `getRiccatiFeedbackFeedforward`: `KMatrics[k] = -(Ls Lr^{-1})'` from
hpipm's `Lr = ric_Lr(k)` and `Ls = ric_Ls(k)`, and `kVectors[k] = ric_k(k)` as hpipm returns
it. -/
def feedbackFeedforward (Lr : Matrix (Fin nu) (Fin nu) K) (Ls : Matrix (Fin nx) (Fin nu) K)
    (ricK : Fin nu → K) : Matrix (Fin nu) (Fin nx) K × (Fin nu → K) :=
  (-(Ls * inverse Lr)ᵀ, ricK)

section Interior

variable (d : StageData K nx ny nu) (P1 : Matrix (Fin ny) (Fin ny) K) (p1 : Fin ny → K)
  {Lr : Matrix (Fin nu) (Fin nu) K}

/-- The interior feedback is the stage-0 law's `K = -Lr^{-T} Lr^{-1} G`. -/
theorem feedbackFeedforward_feedback (hL : IsUnit Lr.det) {Ls : Matrix (Fin nx) (Fin nu) K}
    (hLs : Ls * Lrᵀ = (d.cross P1)ᵀ) (l : Fin nu → K) :
    (feedbackFeedforward Lr Ls l).1 = (getRiccatiZeroStage d P1 Lr p1).K0 := by
  have h1 : Lr * Lsᵀ = d.cross P1 := by
    rw [← transpose_transpose (d.cross P1), ← hLs, transpose_mul, transpose_transpose]
  have h2 : Lsᵀ = Lr⁻¹ * d.cross P1 := by
    rw [← h1, ← Matrix.mul_assoc, nonsing_inv_mul _ hL, Matrix.one_mul]
  simp only [feedbackFeedforward, getRiccatiZeroStage, transpose_neg, transpose_mul, h2,
    inverse_eq_inv, Matrix.neg_mul, Matrix.mul_assoc, StageData.cross]

/-- The interior feedforward is hpipm's row `l`, which is `-Lr'` times the law's
`k = -Lr^{-T} Lr^{-1} g`. -/
theorem feedbackFeedforward_feedforward (hL : IsUnit Lr.det) (Ls : Matrix (Fin nx) (Fin nu) K)
    {l : Fin nu → K} (hl : Lr *ᵥ l = d.gradient P1 p1) :
    Lrᵀ *ᵥ (getRiccatiZeroStage d P1 Lr p1).k0 = -(feedbackFeedforward Lr Ls l).2 := by
  have hLt : Lrᵀ * (inverse Lr)ᵀ = 1 := by
    rw [← transpose_mul, inverse_eq_inv, nonsing_inv_mul _ hL, transpose_one]
  simp only [getRiccatiZeroStage, feedbackFeedforward, neg_mulVec, mulVec_neg, mulVec_mulVec,
    ← Matrix.mul_assoc, hLt, Matrix.one_mul]
  rw [← StageData.gradient, ← hl, mulVec_mulVec, inverse_eq_inv, nonsing_inv_mul _ hL, one_mulVec]

end Interior

/-- **The interior feedforward is not the stage-0 law's.** On `riccatiExample`, with the factor
`Lr = 1`, `Ls = 1`, `l = 1` of `H = 1`, `G = 1`, `g = 1`, the gains of
`getRiccatiFeedbackFeedforward` and of `getRiccatiZeroStage`'s closed form agree on the feedback
but not on the feedforward: the raw `l = 1` against `k = -H^{-1} g = -1`. -/
theorem riccati_feedforward_raw :
    (1 : Matrix (Fin 1) (Fin 1) ℚ) * 1ᵀ = riccatiExample.hessian 1 ∧
    (1 : Matrix (Fin 1) (Fin 1) ℚ) * 1ᵀ = (riccatiExample.cross 1)ᵀ ∧
    (1 : Matrix (Fin 1) (Fin 1) ℚ) *ᵥ 1 = riccatiExample.gradient 1 0 ∧
    (feedbackFeedforward 1 1 1).1 = (getRiccatiZeroStage riccatiExample 1 1 0).K0 ∧
    (feedbackFeedforward 1 (1 : Matrix (Fin 1) (Fin 1) ℚ) 1).2 ≠
      (getRiccatiZeroStage riccatiExample 1 1 0).k0 := by
  have hL : IsUnit (1 : Matrix (Fin 1) (Fin 1) ℚ).det := by simp
  have hl : (1 : Matrix (Fin 1) (Fin 1) ℚ) *ᵥ 1 = riccatiExample.gradient 1 0 := by
    simp [StageData.gradient, riccatiExample]
  refine ⟨by simp [StageData.hessian, riccatiExample], by simp [StageData.cross, riccatiExample],
    hl, feedbackFeedforward_feedback riccatiExample 1 0 hL
      (by simp [StageData.cross, riccatiExample]) 1,
    fun h => ?_⟩
  have hk := feedbackFeedforward_feedforward riccatiExample 1 0 hL 1 hl
  rw [transpose_one, one_mulVec, ← h] at hk
  have := congrFun hk 0
  norm_num [feedbackFeedforward] at this

/-! ## The horizon `N = 0` -/

/-- The sizes `getRiccatiZeroStage` reads from `ocpSize_` before it calls hpipm's getters:
`nu[0]` for `fake_k0`, `Lr0` and `Lr0_inv`, and `nx[1]` for `P1` and `p1`. -/
def riccatiZeroStageSizes (s : OcpSize) : Except Fault (ℕ × ℕ) := do
  let nu0 ← index s.nu 0
  let nx1 ← index s.nx 1
  pure (nu0, nx1)

theorem riccatiZeroStageSizes_ok {s : OcpSize} (hs : s.WellFormed) (hN : 0 < s.N) :
    riccatiZeroStageSizes s = .ok (s.nu.getD 0 0, s.nx.getD 1 0) := by
  have hu : 0 < s.nu.length := by rw [hs.2.1]; omega
  have hx : 1 < s.nx.length := by rw [hs.1]; omega
  simp [riccatiZeroStageSizes, index_ok hu, index_ok hx, List.getD_eq_getElem?_getD, hu, hx]

/-- **With `N = 0` the asserts of `solve` admit arguments it reads past.** `dynamics` is then
empty, and `solve` reads `dynamics[0]` whatever `cost` and `constraints` are; a shape of one
stage has no `nx[1]` for `getRiccatiZeroStage` to read. -/
theorem solve_horizon_zero_out_of_range {R : Type} [CommRing R] (s : OcpSize) (hs : s.WellFormed)
    (h0 : s.N = 0) (ipm : OcpQp R → IpmResult R) (x0 : VectorT R)
    (dynamics : List (VectorFunctionLinearApproximation R))
    (cost : List (ScalarFunctionQuadraticApproximation R))
    (constraints : Option (List (VectorFunctionLinearApproximation R)))
    (hd : dynamics.length = s.N) :
    solve s ipm x0 dynamics cost constraints = .error .outOfRange ∧
      riccatiZeroStageSizes s = .error .outOfRange := by
  obtain rfl : dynamics = [] := List.eq_nil_of_length_eq_zero (hd.trans h0)
  have hu : 0 < s.nu.length := by rw [hs.2.1]; omega
  have hx : s.nx.length ≤ 1 := by rw [hs.1]; omega
  exact ⟨rfl, by simp [riccatiZeroStageSizes, index_ok hu, index_error hx]⟩

/-- A shape of horizon 0: one stage, nothing in it. -/
def horizonZeroSize : OcpSize := ⟨0, [0], [0], [0], [0], [0], [0], [0], [0]⟩

theorem solve_horizon_zero_out_of_range_horizonZeroSize :
    horizonZeroSize.WellFormed ∧ horizonZeroSize.N = 0 ∧
    ([] : List (VectorFunctionLinearApproximation ℚ)).length = horizonZeroSize.N ∧
    solve horizonZeroSize (fun _ => ⟨fun _ _ => 0, fun _ _ => 0, 0⟩) (VectorT.empty : VectorT ℚ) []
        [⟨0, VectorT.empty, VectorT.empty, ⟨0, 0, fun _ _ => 0⟩, ⟨0, 0, fun _ _ => 0⟩,
          ⟨0, 0, fun _ _ => 0⟩⟩] none = .error .outOfRange ∧
      riccatiZeroStageSizes horizonZeroSize = .error .outOfRange :=
  ⟨by decide, rfl, rfl, solve_horizon_zero_out_of_range horizonZeroSize (by decide) rfl _ _ _ _ _
    rfl⟩

end Hpipm
end Ocs2
