import Mathlib
import Ocs2.Hpipm.Riccati

/-!
# Ocs2.Hpipm.Horizon

The LQ problem over a whole horizon, and the backward Riccati sweep that solves it: from the
terminal cost backwards, each stage's law `u = K x + k` and value `1/2 x'Px + p'x + c`. This is
the recursion hpipm runs inside `d_ocp_qp_ipm_solve` on a QP without inequalities, and the one
whose blocks `HpipmInterface` reads back with `getRiccatiZeroStage`,
`getRiccatiFeedbackFeedforward` and `getRiccatiCostToGo`.

A horizon is indexed by the size of its first state; each stage feeds its successor's state size.
An input sequence is read as `HpipmInterface` holds it, `u j` being the input of stage `j`, read
with that stage's size.

* `value_le_cost`: when every `Q` is symmetric and every `H = R + B'PB` positive definite, the
  sweep's value at `x` bounds the cost of every input sequence from `x`.
* `cost_eq_value_iff`: the bound is reached exactly by the input sequences that follow the law at
  every stage, and `follows_lawInputs` builds one.
* `isOptimal_iff_follows`: an input sequence is optimal exactly when it follows the law.
-/

namespace Ocs2
namespace Hpipm

open Matrix

/-- The stages of an LQ problem, from one whose state has `n` entries to the terminal cost
`1/2 x'Qx + q'x`. -/
inductive Horizon (K : Type) : ℕ → Type
  | terminal {n : ℕ} (Q : Matrix (Fin n) (Fin n) K) (q : Fin n → K) : Horizon K n
  | stage {nx ny nu : ℕ} (d : StageData K nx ny nu) (tail : Horizon K ny) : Horizon K nx

/-- A quadratic value function `1/2 x'Px + p'x + c`. -/
structure Value (K : Type) (n : ℕ) where
  P : Matrix (Fin n) (Fin n) K
  p : Fin n → K
  c : K

variable {K : Type} [LinearOrderedField K] {n nx ny nu : ℕ}

def Value.eval (V : Value K n) (x : Fin n → K) : K := costToGo V.P V.p x + V.c

/-- The first `n` entries of `v`, the rest of a `std::vector` of inputs being read by no stage. -/
def extendZero (v : Fin n → K) : ℕ → K := fun i => if h : i < n then v ⟨i, h⟩ else 0

/-- `H` is symmetric and `v'Hv > 0` for every `v ≠ 0`. -/
def PosDefinite (H : Matrix (Fin n) (Fin n) K) : Prop :=
  Hᵀ = H ∧ ∀ v, v ≠ 0 → 0 < v ⬝ᵥ (H *ᵥ v)

namespace PosDefinite

variable {H : Matrix (Fin n) (Fin n) K} (hH : PosDefinite H)
include hH

theorem nonneg (v : Fin n → K) : 0 ≤ v ⬝ᵥ (H *ᵥ v) := by
  by_cases hv : v = 0
  · rw [hv, mulVec_zero, dotProduct_zero]
  · exact (hH.2 v hv).le

theorem eq_zero {v : Fin n → K} (h : v ⬝ᵥ (H *ᵥ v) = 0) : v = 0 :=
  by_contra fun hv => (hH.2 v hv).ne' h

theorem isUnit_det : IsUnit H.det := by
  rw [isUnit_iff_ne_zero]
  intro h0
  obtain ⟨v, hv, hHv⟩ := exists_mulVec_eq_zero_iff.mpr h0
  exact hv (hH.eq_zero (by rw [hHv, dotProduct_zero]))

theorem mul_inverse : H * inverse H = 1 := by
  rw [inverse_eq_inv, mul_nonsing_inv _ hH.isUnit_det]

theorem inverse_symm : (inverse H)ᵀ = inverse H := by
  rw [inverse_eq_inv, transpose_nonsing_inv, hH.1]

end PosDefinite

namespace StageData

variable (d : StageData K nx ny nu)

/-- The state the stage's dynamics lead to: `A x + B u + b`. -/
def next (x : Fin nx → K) (u : Fin nu → K) : Fin ny → K := d.A *ᵥ x + d.B *ᵥ u + d.b

/-- The stage cost `1/2 x'Qx + 1/2 u'Ru + u'Sx + q'x + r'u`. -/
def stageCost (x : Fin nx → K) (u : Fin nu → K) : K :=
  x ⬝ᵥ (d.Q *ᵥ x) / 2 + u ⬝ᵥ (d.R *ᵥ u) / 2 + u ⬝ᵥ (d.S *ᵥ x) + d.q ⬝ᵥ x + d.r ⬝ᵥ u

/-- The LQR step of the stage for the next stage's value `1/2 y'Py + p'y`, with `M` standing for
`H^{-1}`: the law `K = -M G`, `k = -M g` and the value `P0`, `p0`. -/
def lqrStep (P : Matrix (Fin ny) (Fin ny) K) (p : Fin ny → K) (M : Matrix (Fin nu) (Fin nu) K) :
    ZeroStage K nx nu where
  K0 := -M * d.cross P
  k0 := -M *ᵥ d.gradient P p
  P0 := d.Q + d.Aᵀ * P * d.A - (d.cross P)ᵀ * M * d.cross P
  p0 := d.q + d.Aᵀ *ᵥ p + (d.Aᵀ * P) *ᵥ d.b - ((d.cross P)ᵀ * M) *ᵥ d.gradient P p

/-- `getRiccatiZeroStage` is the LQR step with `Lr0^{-T} Lr0^{-1}` for `H^{-1}`. -/
theorem getRiccatiZeroStage_eq_lqrStep (P : Matrix (Fin ny) (Fin ny) K)
    (L : Matrix (Fin nu) (Fin nu) K) (p : Fin ny → K) :
    getRiccatiZeroStage d P L p = d.lqrStep P p ((inverse L)ᵀ * inverse L) := rfl

/-- One step of hpipm's sweep: the stage in front of the next stage's value `V`. -/
def backward (V : Value K ny) : Value K nx where
  P := (d.lqrStep V.P V.p (inverse (d.hessian V.P))).P0
  p := (d.lqrStep V.P V.p (inverse (d.hessian V.P))).p0
  c := V.c + costToGo V.P V.p d.b -
    d.gradient V.P V.p ⬝ᵥ (inverse (d.hessian V.P) *ᵥ d.gradient V.P V.p) / 2

/-- The stage's law `u = K x + k` for the next stage's value `V`. -/
def law (V : Value K ny) (x : Fin nx → K) : Fin nu → K :=
  (d.lqrStep V.P V.p (inverse (d.hessian V.P))).K0 *ᵥ x +
    (d.lqrStep V.P V.p (inverse (d.hessian V.P))).k0

section Step

variable (P : Matrix (Fin ny) (Fin ny) K) (p : Fin ny → K) {M : Matrix (Fin nu) (Fin nu) K}

theorem lqrStep_law (M : Matrix (Fin nu) (Fin nu) K) (x : Fin nx → K) :
    (d.lqrStep P p M).K0 *ᵥ x + (d.lqrStep P p M).k0 =
      -(M *ᵥ (d.cross P *ᵥ x + d.gradient P p)) := by
  simp only [lqrStep, Matrix.neg_mul, neg_mulVec, ← mulVec_mulVec, mulVec_add, neg_add]

theorem lqrStep_value (hM : Mᵀ = M) (x : Fin nx → K) :
    x ⬝ᵥ ((d.lqrStep P p M).P0 *ᵥ x) / 2 + (d.lqrStep P p M).p0 ⬝ᵥ x =
      x ⬝ᵥ ((d.Q + d.Aᵀ * P * d.A) *ᵥ x) / 2 + (d.q + d.Aᵀ *ᵥ p + (d.Aᵀ * P) *ᵥ d.b) ⬝ᵥ x -
        ((d.cross P *ᵥ x + d.gradient P p) ⬝ᵥ (M *ᵥ (d.cross P *ᵥ x + d.gradient P p)) -
          d.gradient P p ⬝ᵥ (M *ᵥ d.gradient P p)) / 2 := by
  rw [dotProduct_mulVec_add hM, mulVec_dotProduct_mulVec, mulVec_dotProduct, mulVec_mulVec]
  simp only [lqrStep, sub_mulVec, dotProduct_sub, sub_dotProduct]
  rw [dotProduct_comm (((d.cross P)ᵀ * M) *ᵥ _) x]
  ring

variable {P} (hP : Pᵀ = P) (hH : (d.hessian P)ᵀ = d.hessian P) (hM : d.hessian P * M = 1)
include hP hH hM

theorem objective_eq_lqrStep_add (x : Fin nx → K) (u : Fin nu → K) :
    d.objective P p x u =
      d.objective P p x ((d.lqrStep P p M).K0 *ᵥ x + (d.lqrStep P p M).k0) +
      (u - ((d.lqrStep P p M).K0 *ᵥ x + (d.lqrStep P p M).k0)) ⬝ᵥ
        (d.hessian P *ᵥ (u - ((d.lqrStep P p M).K0 *ᵥ x + (d.lqrStep P p M).k0))) / 2 := by
  have hstat : d.hessian P *ᵥ ((d.lqrStep P p M).K0 *ᵥ x + (d.lqrStep P p M).k0) =
      -(d.cross P *ᵥ x + d.gradient P p) := by
    rw [lqrStep_law, mulVec_neg, mulVec_mulVec, hM, one_mulVec]
  rw [objective_eq d P p hP, objective_eq d P p hP, quadratic_eq_of_stationary hH hstat u]
  ring

omit hH in
theorem objective_lqrStep (hMs : Mᵀ = M) (x : Fin nx → K) :
    d.objective P p x ((d.lqrStep P p M).K0 *ᵥ x + (d.lqrStep P p M).k0) =
      x ⬝ᵥ ((d.lqrStep P p M).P0 *ᵥ x) / 2 + (d.lqrStep P p M).p0 ⬝ᵥ x +
        (costToGo P p d.b - d.gradient P p ⬝ᵥ (M *ᵥ d.gradient P p) / 2) := by
  rw [objective_eq d P p hP, lqrStep_law, quadratic_at_stationary hM hMs, lqrStep_value d P p hMs]
  ring

end Step

/-- **One stage of dynamic programming.** The stage cost plus the next stage's value exceeds the
value of `backward` by the square completed at the law. -/
theorem stageCost_add_eval (V : Value K ny) (hP : V.Pᵀ = V.P) (hH : PosDefinite (d.hessian V.P))
    (x : Fin nx → K) (u : Fin nu → K) :
    d.stageCost x u + V.eval (d.next x u) =
      (d.backward V).eval x + (u - d.law V x) ⬝ᵥ (d.hessian V.P *ᵥ (u - d.law V x)) / 2 := by
  have hobj : d.stageCost x u + V.eval (d.next x u) = d.objective V.P V.p x u + V.c := by
    rw [Value.eval, ← add_assoc]
    rfl
  rw [hobj, objective_eq_lqrStep_add d V.p hP hH.1 hH.mul_inverse x u,
    objective_lqrStep d V.p hP hH.mul_inverse hH.inverse_symm x]
  simp only [Value.eval, backward, law, costToGo]
  ring

end StageData

namespace Horizon

/-- The cost of the inputs `u` from the state `x`: each stage's cost at the state the earlier
stages lead to, then the terminal cost. -/
def cost : {n : ℕ} → Horizon K n → (Fin n → K) → (ℕ → ℕ → K) → K
  | _, terminal Q q, x, _ => costToGo Q q x
  | _, stage d tail, x, u =>
    d.stageCost x (fun i => u 0 i) + tail.cost (d.next x fun i => u 0 i) fun j => u (j + 1)

/-- hpipm's backward Riccati sweep: the terminal cost, then one `backward` step per stage. -/
def value : {n : ℕ} → Horizon K n → Value K n
  | _, terminal Q q => ⟨Q, q, 0⟩
  | _, stage d tail => d.backward tail.value

/-- The inputs `u` follow the sweep's law at every stage, along the states they lead to. -/
def Follows : {n : ℕ} → Horizon K n → (Fin n → K) → (ℕ → ℕ → K) → Prop
  | _, terminal _ _, _, _ => True
  | _, stage d tail, x, u =>
    (fun i : Fin _ => u 0 i) = d.law tail.value x ∧
      tail.Follows (d.next x fun i => u 0 i) fun j => u (j + 1)

/-- The inputs of the law from `x`, stage by stage. -/
def lawInputs : {n : ℕ} → Horizon K n → (Fin n → K) → ℕ → ℕ → K
  | _, terminal _ _, _ => fun _ _ => 0
  | _, stage d tail, x => fun j => match j with
    | 0 => extendZero (d.law tail.value x)
    | j + 1 => tail.lawInputs (d.next x (d.law tail.value x)) j

/-- What the sweep needs: `Q` symmetric at every stage and at the end, and every stage's
`H = R + B'PB` positive definite for the value `P` of the stage after it. -/
def WellPosed : {n : ℕ} → Horizon K n → Prop
  | _, terminal Q _ => Qᵀ = Q
  | _, stage d tail => d.Qᵀ = d.Q ∧ PosDefinite (d.hessian tail.value.P) ∧ tail.WellPosed

theorem value_symm (h : Horizon K n) (hw : h.WellPosed) : h.value.Pᵀ = h.value.P := by
  induction h with
  | terminal Q q => exact hw
  | stage d tail ih =>
    obtain ⟨hQ, hH, hw⟩ := hw
    simp only [value, StageData.backward, StageData.lqrStep, transpose_sub, transpose_add,
      transpose_mul, transpose_transpose, hQ, ih hw, hH.inverse_symm, Matrix.mul_assoc]

/-- **The sweep's value bounds the cost of every input sequence.** -/
theorem value_le_cost (h : Horizon K n) (hw : h.WellPosed) (x : Fin n → K) (u : ℕ → ℕ → K) :
    h.value.eval x ≤ h.cost x u := by
  induction h generalizing u with
  | terminal Q q => simp only [value, cost, Value.eval, add_zero, le_refl]
  | stage d tail ih =>
    obtain ⟨-, hH, hw⟩ := hw
    have hsq := hH.nonneg ((fun i : Fin _ => u 0 i) - d.law tail.value x)
    calc (d.backward tail.value).eval x
        ≤ d.stageCost x (fun i => u 0 i) + tail.value.eval (d.next x fun i => u 0 i) := by
          rw [d.stageCost_add_eval _ (value_symm tail hw) hH]
          linarith
      _ ≤ d.stageCost x (fun i => u 0 i) + tail.cost (d.next x fun i => u 0 i) fun j => u (j + 1) :=
          add_le_add_left (ih hw _ _) _

/-- **The bound is reached exactly by the inputs that follow the law.** -/
theorem cost_eq_value_iff (h : Horizon K n) (hw : h.WellPosed) (x : Fin n → K) (u : ℕ → ℕ → K) :
    h.cost x u = h.value.eval x ↔ h.Follows x u := by
  induction h generalizing u with
  | terminal Q q => simp only [cost, value, Value.eval, add_zero, Follows]
  | stage d tail ih =>
    obtain ⟨-, hH, hw⟩ := hw
    have hstep := d.stageCost_add_eval _ (value_symm tail hw) hH x fun i => u 0 i
    have hsq := hH.nonneg ((fun i : Fin _ => u 0 i) - d.law tail.value x)
    have htail := value_le_cost tail hw (d.next x fun i => u 0 i) fun j => u (j + 1)
    simp only [cost, value, Follows, ← ih hw]
    constructor
    · intro heq
      refine ⟨sub_eq_zero.mp (hH.eq_zero ?_), ?_⟩ <;> linarith
    · rintro ⟨hu, ht⟩
      rw [ht, hstep, hu, sub_self, mulVec_zero, dotProduct_zero, zero_div, add_zero]

theorem follows_lawInputs (h : Horizon K n) (x : Fin n → K) : h.Follows x (h.lawInputs x) := by
  induction h with
  | terminal Q q => trivial
  | stage d tail ih =>
    have h0 : (fun i : Fin _ => (stage d tail).lawInputs x 0 i) = d.law tail.value x :=
      funext fun i => dif_pos i.2
    exact ⟨h0, by rw [h0]; exact ih _⟩

/-- **Optimal inputs are those that follow the law.** -/
theorem isOptimal_iff_follows (h : Horizon K n) (hw : h.WellPosed) (x : Fin n → K)
    (u : ℕ → ℕ → K) : (∀ u', h.cost x u ≤ h.cost x u') ↔ h.Follows x u := by
  rw [← cost_eq_value_iff h hw]
  refine ⟨fun hu => le_antisymm ?_ (value_le_cost h hw x u), fun he u' => ?_⟩
  · exact ((cost_eq_value_iff h hw x _).mpr (follows_lawInputs h x)) ▸ hu (h.lawInputs x)
  · exact he ▸ value_le_cost h hw x u'

end Horizon

end Hpipm
end Ocs2
