import Mathlib
import Ocs2.Hpipm.Horizon
import Ocs2.Hpipm.Equivalence
import Ocs2.Hpipm.ZeroStage

/-!
# Ocs2.Hpipm.LqHorizon

The LQ problem of `solve`'s arguments as a `Horizon`, read with the stored shape as hpipm reads
it. Without general constraints, the QP that `solve` hands to hpipm is this problem with `x0`
eliminated (`Ocs2.Hpipm.Equivalence`), and its stages from 1 on are the approximations' own.

* `lqCost_eq_cost`: along every trajectory that satisfies the dynamics, the LQ cost is the cost
  of the horizon plus the constants `f` of the cost approximations.
* `lqOptimal_iff_follows`: a trajectory is optimal exactly when it satisfies the dynamics and
  follows the Riccati law at every stage.
* `value_le_lqCost`: the sweep's value is the value function of the LQ problem.
* `qpOptimal_rollout_lawInputs`: the law's rollout is an optimum of the QP `solve` hands hpipm.
-/

namespace Ocs2

open Finset Matrix

variable {K : Type}

/-! ## Eigen's sums as Mathlib's -/

theorem VectorT.view_eq_get (v : VectorT K) (n : ℕ) : v.view n = fun i : Fin n => v.get i := rfl

section Sums

variable [CommRing K]

theorem dot_eq_dotProduct (n : ℕ) (a b : ℕ → K) :
    dot n a b = (fun i : Fin n => a i) ⬝ᵥ fun i => b i :=
  sum_range fun i => a i * b i

theorem rowDot_eq_mulVec (A : ℕ → ℕ → K) {m : ℕ} (n : ℕ) (x : ℕ → K) (i : Fin m) :
    rowDot A n x i = ((Matrix.of fun (i : Fin m) (j : Fin n) => A i j) *ᵥ fun j => x j) i :=
  sum_range fun j => A i j * x j

theorem bilin_eq_dotProduct (m n : ℕ) (a : ℕ → K) (M : ℕ → ℕ → K) (b : ℕ → K) :
    bilin m n a M b =
      (fun i : Fin m => a i) ⬝ᵥ
        ((Matrix.of fun (i : Fin m) (j : Fin n) => M i j) *ᵥ fun j => b j) := by
  rw [bilin, dot_eq_dotProduct]
  exact congrArg _ (funext fun i => rowDot_eq_mulVec M n b i)

end Sums

/-- A `matrix_t` symmetric in its `rows × rows` block, as ocs2's cost Hessians are. -/
def MatrixT.IsSymm (A : MatrixT K) : Prop :=
  ∀ i j, i < A.rows → j < A.rows → A.get i j = A.get j i

theorem MatrixT.view_transpose_of_isSymm {A : MatrixT K} (hA : A.IsSymm) {n : ℕ} (hn : A.rows = n) :
    (A.view n n)ᵀ = A.view n n := by
  ext i j
  exact hA j i (hn ▸ j.2) (hn ▸ i.2)

namespace Hpipm

variable [LinearOrderedField K]

/-! ## One stage of `solve`'s arguments -/

/-- Stage data of a dynamics and a cost approximation, read with `nx` states, `ny` states after
the stage and `nu` inputs, as hpipm reads the pointers `solve` passes. -/
def stageData (a : VectorFunctionLinearApproximation K) (c : ScalarFunctionQuadraticApproximation K)
    (nx ny nu : ℕ) : StageData K nx ny nu :=
  ⟨a.dfdx.view ny nx, a.dfdu.view ny nu, a.f.view ny, c.dfdxx.view nx nx, c.dfduu.view nu nu,
    c.dfdux.view nu nx, c.dfdx.view nx, c.dfdu.view nu⟩

section Stage

variable {nx ny nu : ℕ} (dx du : ℕ → K)

theorem next_stageData {a : VectorFunctionLinearApproximation K} (ha : a.HasShape ny nx nu)
    (c : ScalarFunctionQuadraticApproximation K) :
    (stageData a c nx ny nu).next (fun i => dx i) (fun i => du i) =
      fun i : Fin ny => a.eval dx du i := by
  obtain ⟨-, -, hx, -, hu⟩ := ha
  funext i
  simp only [VectorFunctionLinearApproximation.eval, hx, hu, rowDot_eq_mulVec]
  rfl

theorem eval_stageData {c : ScalarFunctionQuadraticApproximation K} (hc : c.HasShape nx nu)
    (a : VectorFunctionLinearApproximation K) :
    c.eval dx du = c.f + (stageData a c nx ny nu).stageCost (fun i => dx i) (fun i => du i) := by
  obtain ⟨hq, hr, hQr, hQc, hSr, hSc, hRr, hRc⟩ := hc
  simp only [ScalarFunctionQuadraticApproximation.eval, hq, hr, hQr, hQc, hSr, hSc, hRr, hRc,
    dot_eq_dotProduct, bilin_eq_dotProduct, StageData.stageCost, stageData, MatrixT.view,
    VectorT.view_eq_get]
  ring

theorem eval_terminal {c : ScalarFunctionQuadraticApproximation K} (hc : c.HasShape nx 0) :
    c.eval dx du = c.f + costToGo (c.dfdxx.view nx nx) (c.dfdx.view nx) fun i => dx i := by
  obtain ⟨hq, hr, hQr, hQc, hSr, -, hRr, -⟩ := hc
  simp only [ScalarFunctionQuadraticApproximation.eval, hr, hSr, hRr, dot_zero, bilin_zero_rows,
    add_zero]
  simp only [hq, hQr, hQc, dot_eq_dotProduct, bilin_eq_dotProduct, costToGo, MatrixT.view,
    VectorT.view_eq_get]
  ring

end Stage

/-! ## The horizon of `solve`'s arguments -/

/-- The LQ problem of `dynamics` and `cost` from stage `k` on, the state of stage `k` having `n`
entries: each stage read with `nx[k+1]` states after it and `nu[k]` inputs, the last cost as the
terminal one. -/
def lqHorizon (s : OcpSize) :
    List (VectorFunctionLinearApproximation K) → List (ScalarFunctionQuadraticApproximation K) →
      ℕ → (n : ℕ) → Horizon K n
  | a :: as, c :: cs, k, n =>
    .stage (stageData a c n (s.nx.getD (k + 1) 0) (s.nu.getD k 0))
      (lqHorizon s as cs (k + 1) (s.nx.getD (k + 1) 0))
  | [], c :: _, _, n => .terminal (c.dfdxx.view n n) (c.dfdx.view n)
  | _, [], _, _ => .terminal 0 0

/-- The arguments have the shapes `lqHorizon` reads them with, stage by stage, and the last stage
has no input. -/
def Fits (s : OcpSize) :
    List (VectorFunctionLinearApproximation K) → List (ScalarFunctionQuadraticApproximation K) →
      ℕ → ℕ → Prop
  | a :: as, c :: cs, k, n =>
    a.HasShape (s.nx.getD (k + 1) 0) n (s.nu.getD k 0) ∧ c.HasShape n (s.nu.getD k 0) ∧
      Fits s as cs (k + 1) (s.nx.getD (k + 1) 0)
  | [], [c], k, n => c.HasShape n (s.nu.getD k 0) ∧ s.nu.getD k 0 = 0
  | _, _, _, _ => False

variable {s : OcpSize}

/-- Along a trajectory that satisfies the dynamics, the cost approximations sum to the cost of the
horizon plus their constants. -/
theorem sum_eval_eq_cost :
    ∀ (as : List (VectorFunctionLinearApproximation K))
      (cs : List (ScalarFunctionQuadraticApproximation K)) (k n : ℕ) (x u : ℕ → ℕ → K),
      Fits s as cs k n →
      (∀ j (hj : j < as.length), ∀ i < as[j].f.size, x (j + 1) i = as[j].eval (x j) (u j) i) →
      ∑ j : Fin cs.length, cs[j].eval (x j) (u j) =
        (lqHorizon s as cs k n).cost (fun i => x 0 i) u + ∑ j : Fin cs.length, cs[j].f
  | [], [c], k, n, x, u, ⟨hc, hnu⟩, _ => by
    rw [hnu] at hc
    simp only [List.length_singleton, Fin.sum_univ_one, Fin.getElem_fin, Fin.val_zero,
      List.getElem_cons_zero, lqHorizon, Horizon.cost, eval_terminal _ _ hc]
    ring
  | a :: as, c :: cs, k, n, x, u, ⟨ha, hc, hfit⟩, hdyn => by
    have hnext : (stageData a c n (s.nx.getD (k + 1) 0) (s.nu.getD k 0)).next (fun i => x 0 i)
        (fun i => u 0 i) = fun i : Fin _ => x 1 i := by
      rw [next_stageData _ _ ha]
      exact funext fun i => (hdyn 0 (Nat.zero_lt_succ _) i (lt_of_lt_of_eq i.2 ha.1.symm)).symm
    have ih := sum_eval_eq_cost as cs (k + 1) _ (fun j => x (j + 1)) (fun j => u (j + 1)) hfit
      fun j hj => hdyn (j + 1) (Nat.succ_lt_succ hj)
    simp only [List.length_cons, Fin.sum_univ_succ, Fin.getElem_fin, Fin.val_zero, Fin.val_succ,
      List.getElem_cons_zero, List.getElem_cons_succ, zero_add] at ih ⊢
    rw [ih, eval_stageData _ _ hc a, lqHorizon, Horizon.cost, hnext]
    ring
  | [], [], _, _, _, _, hfit, _ => hfit.elim
  | [], _ :: _ :: _, _, _, _, _, hfit, _ => hfit.elim
  | _ :: _, [], _, _, _, _, hfit, _ => hfit.elim

/-! ## From the shapes `solve` is given -/

omit [LinearOrderedField K] in
theorem stateDim_succ (s : OcpSize) (x0 : VectorT K) (k : ℕ) :
    stateDim s x0 (k + 1) = s.nx.getD (k + 1) 0 :=
  if_neg k.succ_ne_zero

variable {x0 : VectorT K} {dynamics : List (VectorFunctionLinearApproximation K)}
  {cost : List (ScalarFunctionQuadraticApproximation K)}
  {constraints : Option (List (VectorFunctionLinearApproximation K))}

/-- The shapes of `Agrees`, stage by stage from stage `k` on. -/
theorem Agrees.fits_drop (h : Agrees s x0 dynamics cost constraints)
    (hnu : s.nu.getD s.N 0 = 0) :
    ∀ m k, k + m = s.N → Fits s (dynamics.drop k) (cost.drop k) k (stateDim s x0 k)
  | 0, k, hk => by
    have hc : k < cost.length := by rw [h.cost_length]; omega
    rw [List.drop_eq_nil_of_le (by rw [h.dynamics_length]; omega), List.drop_eq_getElem_cons hc,
      List.drop_eq_nil_of_le (by rw [h.cost_length]; omega)]
    exact ⟨h.cost_shape k hc, (show k = s.N from hk) ▸ hnu⟩
  | m + 1, k, hk => by
    have hd : k < dynamics.length := by rw [h.dynamics_length]; omega
    have hc : k < cost.length := by rw [h.cost_length]; omega
    rw [List.drop_eq_getElem_cons hd, List.drop_eq_getElem_cons hc]
    refine ⟨h.dynamics_shape k hd, h.cost_shape k hc, ?_⟩
    rw [← stateDim_succ s x0 k]
    exact h.fits_drop hnu m (k + 1) (by omega)

theorem Agrees.fits (h : Agrees s x0 dynamics cost constraints) (hnu : s.nu.getD s.N 0 = 0) :
    Fits s dynamics cost 0 x0.size :=
  h.fits_drop hnu s.N 0 (zero_add _)

/-- **The LQ cost is the cost of the horizon.** For arguments that fit `lqHorizon` from stage `k`,
along every trajectory from `xk` that satisfies the dynamics, the LQ cost of the approximations
is the cost of the horizon from `xk` plus the constants `f` of the cost approximations. -/
theorem lqCost_eq_cost {as : List (VectorFunctionLinearApproximation K)}
    {cs : List (ScalarFunctionQuadraticApproximation K)} {k n : ℕ} (hfit : Fits s as cs k n)
    {xk : VectorT K} {x u : ℕ → ℕ → K} (hx : x 0 = xk.get) (hf : LqFeasible as constraints x u) :
    lqCost cs x u = (lqHorizon s as cs k n).cost (xk.view n) u + ∑ j : Fin cs.length, cs[j].f := by
  rw [lqCost, sum_eval_eq_cost as cs k n x u hfit hf.1, hx]
  rfl

/-- The states that `x0` and the inputs `u` lead to under `dynamics`. -/
def rollout (dynamics : List (VectorFunctionLinearApproximation K)) (x0 : ℕ → K) (u : ℕ → ℕ → K) :
    ℕ → ℕ → K
  | 0 => x0
  | k + 1 => fun i => match dynamics[k]? with
    | some a => a.eval (rollout dynamics x0 u k) (u k) i
    | none => 0

theorem lqFeasible_rollout (x0 : ℕ → K) (u : ℕ → ℕ → K) :
    LqFeasible dynamics none (rollout dynamics x0 u) u :=
  ⟨fun k hk _ _ => by simp only [rollout, List.getElem?_eq_getElem hk], fun _ h => nomatch h⟩

section Fitting

variable {as : List (VectorFunctionLinearApproximation K)}
  {cs : List (ScalarFunctionQuadraticApproximation K)} {k n : ℕ} (hfit : Fits s as cs k n)
  (hw : (lqHorizon s as cs k n).WellPosed)
include hfit hw

/-- **Optimal trajectories are those that follow the Riccati law.** For arguments that fit
`lqHorizon` from stage `k`, without general constraints, and a horizon whose sweep is well posed,
a trajectory is optimal for the LQ problem from `xk` exactly when it starts at `xk`, satisfies
the dynamics and follows the sweep's law at every stage. -/
theorem lqOptimal_iff_follows (xk : VectorT K) (x u : ℕ → ℕ → K) :
    LqOptimal as cs none xk x u ↔ x 0 = xk.get ∧ LqFeasible as none x u ∧
      (lqHorizon s as cs k n).Follows (xk.view n) u := by
  constructor
  · rintro ⟨hx, hf, hopt⟩
    refine ⟨hx, hf, (Horizon.isOptimal_iff_follows _ hw _ u).mp fun u' => ?_⟩
    have h' := hopt _ u' rfl (lqFeasible_rollout xk.get u')
    rwa [lqCost_eq_cost hfit hx hf, lqCost_eq_cost hfit rfl (lqFeasible_rollout xk.get u'),
      add_le_add_iff_right] at h'
  · rintro ⟨hx, hf, hfol⟩
    refine ⟨hx, hf, fun x' u' hx' hf' => ?_⟩
    rw [lqCost_eq_cost hfit hx hf, lqCost_eq_cost hfit hx' hf']
    exact add_le_add_right ((Horizon.isOptimal_iff_follows _ hw _ u).mpr hfol u') _

/-- **The sweep's value is the value function.** Under the same conditions, every trajectory
from `xk` that satisfies the dynamics costs at least the sweep's value at `xk` plus the constants
`f`, and exactly that when it is optimal. -/
theorem value_le_lqCost {xk : VectorT K} {x u : ℕ → ℕ → K} (hx : x 0 = xk.get)
    (hf : LqFeasible as none x u) :
    (lqHorizon s as cs k n).value.eval (xk.view n) + ∑ j : Fin cs.length, cs[j].f ≤
        lqCost cs x u ∧
      (LqOptimal as cs none xk x u ↔ lqCost cs x u =
        (lqHorizon s as cs k n).value.eval (xk.view n) + ∑ j : Fin cs.length, cs[j].f) := by
  rw [lqOptimal_iff_follows hfit hw, lqCost_eq_cost hfit hx hf, add_le_add_iff_right,
    add_left_inj, Horizon.cost_eq_value_iff _ hw]
  exact ⟨Horizon.value_le_cost _ hw _ u, by simp only [hx, hf, true_and]⟩

end Fitting

/-- An optimum of the LQ problem from `x0` is one of the QP `solve` hands hpipm. -/
theorem qpOptimal_of_lqOptimal (h : Agrees s x0 dynamics cost constraints) {x u : ℕ → ℕ → K}
    (ho : LqOptimal dynamics cost constraints x0 x u) :
    QpOptimal s (hpipmQp s.N x0 dynamics cost constraints) x u := by
  obtain ⟨hx, hf, hmin⟩ := ho
  rw [← withX0_self hx] at hf hmin
  refine ⟨(qpFeasible_iff h x u).mpr hf, fun x' u' hf' => ?_⟩
  have hle := hmin (withX0 x0 x') u' rfl ((qpFeasible_iff h x' u').mp hf')
  rwa [lqCost_withX0 h x u, lqCost_withX0 h x' u', add_le_add_iff_right] at hle

/-- The law's rollout from `x0` is an optimum of the QP `solve` hands hpipm. -/
theorem qpOptimal_rollout_lawInputs (h : Agrees s x0 dynamics cost none)
    (hnu : s.nu.getD s.N 0 = 0) (hw : (lqHorizon s dynamics cost 0 x0.size).WellPosed) :
    QpOptimal s (hpipmQp s.N x0 dynamics cost none)
      (rollout dynamics x0.get ((lqHorizon s dynamics cost 0 x0.size).lawInputs (x0.view x0.size)))
      ((lqHorizon s dynamics cost 0 x0.size).lawInputs (x0.view x0.size)) :=
  qpOptimal_of_lqOptimal h ((lqOptimal_iff_follows (h.fits hnu) hw _ _ _).mpr
    ⟨rfl, lqFeasible_rollout _ _, Horizon.follows_lawInputs _ _⟩)

end Hpipm
end Ocs2
