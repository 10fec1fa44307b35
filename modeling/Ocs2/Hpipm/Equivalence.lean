import Mathlib
import Ocs2.Hpipm.Transcription

/-!
# Ocs2.Hpipm.Equivalence

What the QP that `solve` hands to hpipm means, and that it is the LQ problem of the
approximations with the initial state fixed to `x0`.

hpipm's OCP QP over a shape `s` has states `x_k` of `nx[k]` entries and inputs `u_k` of `nu[k]`
entries, the dynamics `x_{k+1} = A_k x_k + B_k u_k + b_k`, the general constraints
`lg_k ≤ C_k x_k + D_k u_k ≤ ug_k` over `ng[k]` rows and the cost
`Σ_k 1/2 u'Ru + u'Sx + 1/2 x'Qx + r'u + q'x`; it reads every array with the dimensions of `s`.
The LQ problem of ocs2 is read from the approximations, each matrix with its own shape.

* `qpDynamics_iff`, `qpConstraints_iff`: under `Agrees`, a point satisfies the QP exactly when
  the trajectory with `x0` in front satisfies the LQ problem.
* `lqCost_withX0`: the two objectives differ by the LQ cost of `x0` with no deviation.
* `solve_solves_lq`: `solve` hands over this QP, and what an optimal hpipm solution reads back
  is optimal for the LQ problem.
-/

namespace Ocs2
namespace Hpipm

open Finset

variable {K : Type}

/-! ## What hpipm reads -/

section Pointers

variable [Zero K]

/-- The entries hpipm reads through pointer `k` of an array of matrices. `solve` passes
`nullptr` only where hpipm reads no entry; it reads as zeros. -/
def matrixAt (l : List (Option (MatrixT K))) (k : ℕ) : ℕ → ℕ → K :=
  match l[k]? with
  | some (some A) => A.get
  | _ => fun _ _ => 0

/-- The entries hpipm reads through pointer `k` of an array of vectors. -/
def vectorAt (l : List (Option (VectorT K))) (k : ℕ) : ℕ → K :=
  match l[k]? with
  | some (some a) => a.get
  | _ => fun _ => 0

theorem matrixAt_map {α : Type} (l : List α) (f : α → MatrixT K) {k : ℕ} (hk : k < l.length) :
    matrixAt (l.map fun a => some (f a)) k = (f l[k]).get := by
  simp [matrixAt, hk]

theorem vectorAt_map {α : Type} (l : List α) (f : α → VectorT K) {k : ℕ} (hk : k < l.length) :
    vectorAt (l.map fun a => some (f a)) k = (f l[k]).get := by
  simp [vectorAt, hk]

theorem vectorAt_mapIdx {α : Type} (l : List α) (f : ℕ → α → VectorT K) {k : ℕ}
    (hk : k < l.length) : vectorAt (l.mapIdx fun j a => some (f j a)) k = (f k l[k]).get := by
  simp [vectorAt, hk]

end Pointers

/-! ## hpipm's QP -/

section Qp

variable [LinearOrderedField K] (s : OcpSize) (qp : OcpQp K)

/-- `x_{k+1} = A_k x_k + B_k u_k + b_k` for `k < N`, row by row. -/
def QpDynamics (x u : ℕ → ℕ → K) : Prop :=
  ∀ k < s.N, ∀ i < s.nx.getD (k + 1) 0,
    x (k + 1) i = rowDot (matrixAt qp.AA k) (s.nx.getD k 0) (x k) i +
      rowDot (matrixAt qp.BB k) (s.nu.getD k 0) (u k) i + vectorAt qp.bb k i

/-- `lg_k ≤ C_k x_k + D_k u_k ≤ ug_k` for `k ≤ N`, row by row. -/
def QpConstraints (x u : ℕ → ℕ → K) : Prop :=
  ∀ k ≤ s.N, ∀ i < s.ng.getD k 0,
    vectorAt qp.llg k i ≤ rowDot (matrixAt qp.CC k) (s.nx.getD k 0) (x k) i +
        rowDot (matrixAt qp.DD k) (s.nu.getD k 0) (u k) i ∧
      rowDot (matrixAt qp.CC k) (s.nx.getD k 0) (x k) i +
        rowDot (matrixAt qp.DD k) (s.nu.getD k 0) (u k) i ≤ vectorAt qp.uug k i

def QpFeasible (x u : ℕ → ℕ → K) : Prop :=
  QpDynamics s qp x u ∧ QpConstraints s qp x u

/-- hpipm's stage cost `1/2 u'Ru + u'Sx + 1/2 x'Qx + r'u + q'x`. -/
def qpStageCost (k : ℕ) (x u : ℕ → K) : K :=
  bilin (s.nu.getD k 0) (s.nu.getD k 0) u (matrixAt qp.RR k) u / 2 +
    bilin (s.nu.getD k 0) (s.nx.getD k 0) u (matrixAt qp.SS k) x +
    bilin (s.nx.getD k 0) (s.nx.getD k 0) x (matrixAt qp.QQ k) x / 2 +
    dot (s.nu.getD k 0) (vectorAt qp.rr k) u + dot (s.nx.getD k 0) (vectorAt qp.qq k) x

def qpCost (x u : ℕ → ℕ → K) : K :=
  ∑ k ∈ range (s.N + 1), qpStageCost s qp k (x k) (u k)

/-- What hpipm's interior-point method is asked to return. -/
def QpOptimal (x u : ℕ → ℕ → K) : Prop :=
  QpFeasible s qp x u ∧ ∀ x' u', QpFeasible s qp x' u' → qpCost s qp x u ≤ qpCost s qp x' u'

end Qp

/-! ## The LQ problem of the approximations -/

namespace VectorFunctionLinearApproximation

/-- Row `i` of `f + dfdx dx + dfdu du`. -/
def eval [CommRing K] (a : VectorFunctionLinearApproximation K) (dx du : ℕ → K) (i : ℕ) : K :=
  rowDot a.dfdx.get a.dfdx.cols dx i + rowDot a.dfdu.get a.dfdu.cols du i + a.f.get i

/-- `a` maps states of `nx` entries and inputs of `nu` entries to `m` entries. -/
def HasShape (a : VectorFunctionLinearApproximation K) (m nx nu : ℕ) : Prop :=
  a.f.size = m ∧ a.dfdx.rows = m ∧ a.dfdx.cols = nx ∧ a.dfdu.rows = m ∧ a.dfdu.cols = nu

instance (a : VectorFunctionLinearApproximation K) (m nx nu : ℕ) : Decidable (a.HasShape m nx nu) :=
  inferInstanceAs (Decidable (_ ∧ _))

end VectorFunctionLinearApproximation

namespace ScalarFunctionQuadraticApproximation

/-- `f + dfdx' dx + dfdu' du + 1/2 dx' dfdxx dx + du' dfdux dx + 1/2 du' dfduu du`. -/
def eval [Field K] (c : ScalarFunctionQuadraticApproximation K) (dx du : ℕ → K) : K :=
  c.f + dot c.dfdx.size c.dfdx.get dx + dot c.dfdu.size c.dfdu.get du +
    bilin c.dfdxx.rows c.dfdxx.cols dx c.dfdxx.get dx / 2 +
    bilin c.dfdux.rows c.dfdux.cols du c.dfdux.get dx +
    bilin c.dfduu.rows c.dfduu.cols du c.dfduu.get du / 2

/-- `c` is a cost on states of `nx` entries and inputs of `nu` entries. -/
def HasShape (c : ScalarFunctionQuadraticApproximation K) (nx nu : ℕ) : Prop :=
  c.dfdx.size = nx ∧ c.dfdu.size = nu ∧ c.dfdxx.rows = nx ∧ c.dfdxx.cols = nx ∧
    c.dfdux.rows = nu ∧ c.dfdux.cols = nx ∧ c.dfduu.rows = nu ∧ c.dfduu.cols = nu

instance (c : ScalarFunctionQuadraticApproximation K) (nx nu : ℕ) : Decidable (c.HasShape nx nu) :=
  inferInstanceAs (Decidable (_ ∧ _))

end ScalarFunctionQuadraticApproximation

section Lq

variable [LinearOrderedField K] (dynamics : List (VectorFunctionLinearApproximation K))
  (cost : List (ScalarFunctionQuadraticApproximation K))
  (constraints : Option (List (VectorFunctionLinearApproximation K)))

/-- `x_{k+1} = A_k x_k + B_k u_k + f_k` for every stage of `dynamics`, and
`C_k x_k + D_k u_k + e_k = 0` for every stage of the constraints. -/
def LqFeasible (x u : ℕ → ℕ → K) : Prop :=
  (∀ k (hk : k < dynamics.length), ∀ i < dynamics[k].f.size,
    x (k + 1) i = dynamics[k].eval (x k) (u k) i) ∧
  ∀ constr ∈ constraints, ∀ k (hk : k < constr.length), ∀ i < constr[k].f.size,
    constr[k].eval (x k) (u k) i = 0

def lqCost (x u : ℕ → ℕ → K) : K :=
  ∑ k : Fin cost.length, cost[k].eval (x k) (u k)

/-- `(x, u)` solves the LQ problem from `x0`: it starts at `x0`, is feasible, and no feasible
trajectory from `x0` costs less. -/
def LqOptimal (x0 : VectorT K) (x u : ℕ → ℕ → K) : Prop :=
  x 0 = x0.get ∧ LqFeasible dynamics constraints x u ∧
    ∀ x' u', x' 0 = x0.get → LqFeasible dynamics constraints x' u' →
      lqCost cost x u ≤ lqCost cost x' u'

end Lq

/-- The trajectory of the LQ problem for hpipm's states `x`: `x0` at stage 0, where hpipm has
no state. -/
def withX0 (x0 : VectorT K) (x : ℕ → ℕ → K) : ℕ → ℕ → K
  | 0 => x0.get
  | k + 1 => x (k + 1)

@[simp] theorem withX0_zero (x0 : VectorT K) (x : ℕ → ℕ → K) : withX0 x0 x 0 = x0.get := rfl
@[simp] theorem withX0_succ (x0 : VectorT K) (x : ℕ → ℕ → K) (k : ℕ) :
    withX0 x0 x (k + 1) = x (k + 1) := rfl

theorem withX0_of_ne_zero (x0 : VectorT K) (x : ℕ → ℕ → K) {k : ℕ} (hk : k ≠ 0) :
    withX0 x0 x k = x k := by
  obtain ⟨k, rfl⟩ := Nat.exists_eq_succ_of_ne_zero hk
  rfl

theorem withX0_self {x0 : VectorT K} {x : ℕ → ℕ → K} (h : x 0 = x0.get) : withX0 x0 x = x := by
  funext k
  cases k with
  | zero => exact h.symm
  | succ k => rfl

/-! ## Agreement of the arguments with the stored shape -/

/-- The state dimension of stage `k` in ocs2: the size of `x0` at stage 0, where hpipm has no
state, and `nx[k]` after. -/
def stateDim (s : OcpSize) (x0 : VectorT K) (k : ℕ) : ℕ :=
  if k = 0 then x0.size else s.nx.getD k 0

/-- The arguments of `solve` fit the stored shape `s`: the asserted lengths, `N ≥ 1`, every
matrix of the shape hpipm reads it with (the state of stage 0 being `x0`'s), no box constraint
and no slack (`solve` passes `nullptr` for all of them), and no general constraint when
`constraints` is null. -/
structure Agrees [Zero K] (s : OcpSize) (x0 : VectorT K)
    (dynamics : List (VectorFunctionLinearApproximation K))
    (cost : List (ScalarFunctionQuadraticApproximation K))
    (constraints : Option (List (VectorFunctionLinearApproximation K))) : Prop where
  horizon_pos : 0 < s.N
  wellFormed : s.WellFormed
  nx_zero : s.nx.getD 0 0 = 0
  no_boxes : ∀ n ∈ s.nbx ++ s.nbu ++ s.nsbx ++ s.nsbu ++ s.nsg, n = 0
  dynamics_length : dynamics.length = s.N
  cost_length : cost.length = s.N + 1
  dynamics_shape : ∀ k (hk : k < dynamics.length),
    dynamics[k].HasShape (s.nx.getD (k + 1) 0) (stateDim s x0 k) (s.nu.getD k 0)
  cost_shape : ∀ k (hk : k < cost.length), cost[k].HasShape (stateDim s x0 k) (s.nu.getD k 0)
  constraints_shape : ∀ constr ∈ constraints, constr.length = s.N + 1 ∧
    ∀ k (hk : k < constr.length),
      constr[k].HasShape (s.ng.getD k 0) (stateDim s x0 k) (s.nu.getD k 0)
  no_constraints : constraints = none → ∀ n ∈ s.ng, n = 0

/-! ## Stage by stage -/

section Stages

variable [LinearOrderedField K] {s : OcpSize} {x0 : VectorT K}
  {dynamics : List (VectorFunctionLinearApproximation K)}
  {cost : List (ScalarFunctionQuadraticApproximation K)}
  {constraints : Option (List (VectorFunctionLinearApproximation K))}

/-- Row `i` of hpipm's dynamics at stage `k` is row `i` of the approximation at `(x_k, u_k)`,
`x_0` being `x0`. -/
theorem qp_dynamics_row (h : Agrees s x0 dynamics cost constraints) {k : ℕ}
    (hk : k < dynamics.length) (x u : ℕ → ℕ → K) (i : ℕ) :
    rowDot (matrixAt (hpipmQp s.N x0 dynamics cost constraints).AA k) (s.nx.getD k 0) (x k) i +
      rowDot (matrixAt (hpipmQp s.N x0 dynamics cost constraints).BB k) (s.nu.getD k 0) (u k) i +
      vectorAt (hpipmQp s.N x0 dynamics cost constraints).bb k i =
    dynamics[k].eval (withX0 x0 x k) (u k) i := by
  obtain ⟨-, -, hcols, -, hucols⟩ := h.dynamics_shape k hk
  simp only [hpipmQp, matrixAt_map _ _ hk, vectorAt_mapIdx _ _ hk, dynamicsBias,
    VectorFunctionLinearApproximation.eval, hucols]
  by_cases hk0 : k = 0
  · subst hk0
    simp only [h.nx_zero, rowDot_zero, if_true, VectorT.add_get, MatrixT.mul_get, withX0_zero]
    ring
  · rw [if_neg hk0, withX0_of_ne_zero x0 x hk0, hcols, stateDim, if_neg hk0]

/-- Row `i` of hpipm's constraint at stage `k`, minus its bound, is row `i` of the
approximation at `(x_k, u_k)`. -/
theorem qp_constraint_row (h : Agrees s x0 dynamics cost constraints)
    {constr : List (VectorFunctionLinearApproximation K)} (hc : constraints = some constr) {k : ℕ}
    (hk : k < constr.length) (x u : ℕ → ℕ → K) (i : ℕ) :
    rowDot (matrixAt (hpipmQp s.N x0 dynamics cost constraints).CC k) (s.nx.getD k 0) (x k) i +
      rowDot (matrixAt (hpipmQp s.N x0 dynamics cost constraints).DD k) (s.nu.getD k 0) (u k) i -
      vectorAt (hpipmQp s.N x0 dynamics cost constraints).llg k i =
    constr[k].eval (withX0 x0 x k) (u k) i := by
  subst hc
  obtain ⟨-, -, hcols, -, hucols⟩ := ((h.constraints_shape constr rfl).2 k hk)
  simp only [hpipmQp, Option.elim, matrixAt_map _ _ hk, vectorAt_mapIdx _ _ hk, constraintBound,
    VectorFunctionLinearApproximation.eval, hucols]
  by_cases hk0 : k = 0
  · subst hk0
    simp only [h.nx_zero, rowDot_zero, if_true, VectorT.sub_get, VectorT.neg_get, MatrixT.mul_get,
      withX0_zero]
    ring
  · rw [if_neg hk0, withX0_of_ne_zero x0 x hk0, hcols, stateDim, if_neg hk0, VectorT.neg_get]
    ring

/-- hpipm's stage cost at `(x_k, u_k)` is the approximation's cost there less its cost at no
deviation: at stage 0, `x0` with no input. -/
theorem qp_stage_cost (h : Agrees s x0 dynamics cost constraints) {k : ℕ} (hk : k < cost.length)
    (x u : ℕ → ℕ → K) :
    cost[k].eval (withX0 x0 x k) (u k) =
      qpStageCost s (hpipmQp s.N x0 dynamics cost constraints) k (x k) (u k) +
        cost[k].eval (withX0 x0 0 k) 0 := by
  obtain ⟨hq, hr, hQr, hQc, hSr, hSc, hRr, hRc⟩ := h.cost_shape k hk
  simp only [qpStageCost, hpipmQp, matrixAt_map _ _ hk, vectorAt_map _ _ hk,
    vectorAt_mapIdx _ _ hk, costInputGradient, ScalarFunctionQuadraticApproximation.eval, hr, hRr,
    hRc, hSr, dot_zero_right, bilin_zero_left, bilin_zero_right, Pi.zero_apply]
  by_cases hk0 : k = 0
  · subst hk0
    simp only [h.nx_zero, if_true, bilin_zero_cols, bilin_zero_rows, dot_zero, withX0_zero]
    rw [show (cost[0].dfdu + cost[0].dfdux * x0).get =
      fun i => cost[0].dfdu.get i + rowDot cost[0].dfdux.get cost[0].dfdux.cols x0.get i from rfl,
      dot_add_left, bilin_eq_dot _ _ (u 0) cost[0].dfdux.get]
    ring
  · rw [if_neg hk0, withX0_of_ne_zero x0 x hk0, withX0_of_ne_zero x0 0 hk0, hq, hQr, hQc, hSc,
      stateDim, if_neg hk0]
    simp only [Pi.zero_apply, dot_zero_right, bilin_zero_left, bilin_zero_right]
    ring

end Stages

/-! ## The whole problem -/

theorem getD_eq_zero_of_forall {l : List ℕ} (h : ∀ n ∈ l, n = 0) (k : ℕ) : l.getD k 0 = 0 := by
  rw [List.getD_eq_getElem?_getD]
  cases hk : l[k]? with
  | none => rfl
  | some n => exact h n (List.getElem?_mem hk)

section Problem

variable [LinearOrderedField K] {s : OcpSize} {x0 : VectorT K}
  {dynamics : List (VectorFunctionLinearApproximation K)}
  {cost : List (ScalarFunctionQuadraticApproximation K)}
  {constraints : Option (List (VectorFunctionLinearApproximation K))}

theorem qpDynamics_iff (h : Agrees s x0 dynamics cost constraints) (x u : ℕ → ℕ → K) :
    QpDynamics s (hpipmQp s.N x0 dynamics cost constraints) x u ↔
      ∀ k (hk : k < dynamics.length), ∀ i < dynamics[k].f.size,
        withX0 x0 x (k + 1) i = dynamics[k].eval (withX0 x0 x k) (u k) i := by
  have hN := h.dynamics_length
  constructor
  · intro hq k hk i hi
    rw [withX0_succ, hq k (by omega) i ((h.dynamics_shape k hk).1 ▸ hi), qp_dynamics_row h hk]
  · intro hl k hk i hi
    have hk' : k < dynamics.length := by omega
    rw [qp_dynamics_row h hk']
    exact hl k hk' i (by rw [(h.dynamics_shape k hk').1]; exact hi)

theorem qpConstraints_iff (h : Agrees s x0 dynamics cost constraints) (x u : ℕ → ℕ → K) :
    QpConstraints s (hpipmQp s.N x0 dynamics cost constraints) x u ↔
      ∀ constr ∈ constraints, ∀ k (hk : k < constr.length), ∀ i < constr[k].f.size,
        constr[k].eval (withX0 x0 x k) (u k) i = 0 := by
  cases hc : constraints with
  | none =>
    have hng := getD_eq_zero_of_forall (h.no_constraints hc)
    exact iff_of_true (fun k _ i hi => absurd hi (by rw [hng]; exact Nat.not_lt_zero i))
      (fun _ h' => nomatch h')
  | some constr =>
    obtain ⟨hlen, hshape⟩ := h.constraints_shape constr hc
    have hrow := fun k (hk : k < constr.length) => qp_constraint_row h hc hk x u
    subst hc
    simp only [Option.mem_def, Option.some.injEq, forall_eq']
    constructor
    · intro hq k hk i hi
      rw [← hrow k hk, sub_eq_zero]
      exact (le_antisymm (hq k (by omega) i ((hshape k hk).1 ▸ hi)).2
        (hq k (by omega) i ((hshape k hk).1 ▸ hi)).1)
    · intro hl k hk i hi
      have hk' : k < constr.length := by omega
      have he := hl k hk' i (by rw [(hshape k hk').1]; exact hi)
      rw [← hrow k hk', sub_eq_zero] at he
      exact ⟨he.ge, he.le⟩

theorem qpFeasible_iff (h : Agrees s x0 dynamics cost constraints) (x u : ℕ → ℕ → K) :
    QpFeasible s (hpipmQp s.N x0 dynamics cost constraints) x u ↔
      LqFeasible dynamics constraints (withX0 x0 x) u :=
  and_congr (qpDynamics_iff h x u) (qpConstraints_iff h x u)

/-- The objectives differ by a constant: the LQ cost of staying at `x0` with no input and no
deviation. -/
theorem lqCost_withX0 (h : Agrees s x0 dynamics cost constraints) (x u : ℕ → ℕ → K) :
    lqCost cost (withX0 x0 x) u =
      qpCost s (hpipmQp s.N x0 dynamics cost constraints) x u + lqCost cost (withX0 x0 0) 0 := by
  rw [lqCost, sum_congr rfl fun k _ => qp_stage_cost h k.2 x u, sum_add_distrib, qpCost,
    ← h.cost_length, ← Fin.sum_univ_eq_sum_range (fun k => qpStageCost s _ k (x k) (u k))]
  rfl

theorem lqOptimal_of_qpOptimal (h : Agrees s x0 dynamics cost constraints) {x u : ℕ → ℕ → K}
    (ho : QpOptimal s (hpipmQp s.N x0 dynamics cost constraints) x u) :
    LqOptimal dynamics cost constraints x0 (withX0 x0 x) u := by
  refine ⟨rfl, (qpFeasible_iff h x u).mp ho.1, fun x' u' hx' hf' => ?_⟩
  rw [← withX0_self hx'] at hf' ⊢
  rw [lqCost_withX0 h x u, lqCost_withX0 h x' u']
  exact add_le_add_right (ho.2 x' u' ((qpFeasible_iff h x' u').mpr hf')) _

/-- **`solve` hands hpipm the LQ problem with `x0` eliminated.** For arguments that agree with
the stored shape, `solve` stays inside every vector and sets the QP `hpipmQp`: a point is
feasible for it exactly when the trajectory with `x0` in front is feasible for the LQ problem,
and the two objectives differ by a constant. The trajectories `solve` returns are `x0` followed
by hpipm's states and hpipm's inputs, and they are optimal for the LQ problem whenever hpipm's
solution is optimal for the QP. -/
theorem solve_solves_lq (s : OcpSize) (ipm : OcpQp K → IpmResult K) (x0 : VectorT K)
    (dynamics : List (VectorFunctionLinearApproximation K))
    (cost : List (ScalarFunctionQuadraticApproximation K))
    (constraints : Option (List (VectorFunctionLinearApproximation K)))
    (h : Agrees s x0 dynamics cost constraints) :
    ∃ sol, solve s ipm x0 dynamics cost constraints = .ok sol ∧
      sol.qp = hpipmQp s.N x0 dynamics cost constraints ∧
      (∃ c : K, ∀ x u, (QpFeasible s sol.qp x u ↔ LqFeasible dynamics constraints (withX0 x0 x) u) ∧
        lqCost cost (withX0 x0 x) u = qpCost s sol.qp x u + c) ∧
      sol.stateTrajectory = stateSolution s (ipm sol.qp).x x0 ∧
      sol.inputTrajectory = inputSolution s (ipm sol.qp).u ∧
      (QpOptimal s sol.qp (ipm sol.qp).x (ipm sol.qp).u →
        LqOptimal dynamics cost constraints x0 (withX0 x0 (ipm sol.qp).x) (ipm sol.qp).u) :=
  ⟨_, solve_eq s h.wellFormed ipm x0 dynamics cost constraints h.horizon_pos h.dynamics_length
      h.cost_length fun c hc => (h.constraints_shape c hc).1,
    rfl, ⟨_, fun x u => ⟨qpFeasible_iff h x u, lqCost_withX0 h x u⟩⟩, rfl, rfl,
    lqOptimal_of_qpOptimal h⟩

end Problem

/-- One stage with a state of one entry, an input at stage 0 and no general constraint. -/
def oneStageSize : OcpSize := ⟨1, [0, 1], [1, 0], [0, 0], [0, 0], [0, 0], [0, 0], [0, 0], [0, 0]⟩

def oneStageX0 : VectorT ℚ := ⟨1, fun _ => 1⟩

def oneStageDynamics : List (VectorFunctionLinearApproximation ℚ) :=
  [⟨⟨1, fun _ => 0⟩, ⟨1, 1, fun _ _ => 1⟩, ⟨1, 1, fun _ _ => 1⟩⟩]

def oneStageCost : List (ScalarFunctionQuadraticApproximation ℚ) :=
  [⟨0, ⟨1, fun _ => 0⟩, ⟨1, fun _ => 0⟩, ⟨1, 1, fun _ _ => 1⟩, ⟨1, 1, fun _ _ => 0⟩,
      ⟨1, 1, fun _ _ => 1⟩⟩,
    ⟨0, ⟨1, fun _ => 0⟩, ⟨0, fun _ => 0⟩, ⟨1, 1, fun _ _ => 1⟩, ⟨0, 1, fun _ _ => 0⟩,
      ⟨0, 0, fun _ _ => 0⟩⟩]

/-- An hpipm that returns zeros. -/
def zeroIpm : OcpQp ℚ → IpmResult ℚ := fun _ => ⟨fun _ _ => 0, fun _ _ => 0, 0⟩

theorem solve_solves_lq_oneStage :
    Agrees oneStageSize oneStageX0 oneStageDynamics oneStageCost none ∧
    ∃ sol, solve oneStageSize zeroIpm oneStageX0 oneStageDynamics oneStageCost none = .ok sol ∧
      sol.qp = hpipmQp oneStageSize.N oneStageX0 oneStageDynamics oneStageCost none ∧
      (∃ c : ℚ, ∀ x u, (QpFeasible oneStageSize sol.qp x u ↔
          LqFeasible oneStageDynamics none (withX0 oneStageX0 x) u) ∧
        lqCost oneStageCost (withX0 oneStageX0 x) u = qpCost oneStageSize sol.qp x u + c) ∧
      sol.stateTrajectory = stateSolution oneStageSize (zeroIpm sol.qp).x oneStageX0 ∧
      sol.inputTrajectory = inputSolution oneStageSize (zeroIpm sol.qp).u ∧
      (QpOptimal oneStageSize sol.qp (zeroIpm sol.qp).x (zeroIpm sol.qp).u →
        LqOptimal oneStageDynamics oneStageCost none oneStageX0
          (withX0 oneStageX0 (zeroIpm sol.qp).x) (zeroIpm sol.qp).u) :=
  have h : Agrees oneStageSize oneStageX0 oneStageDynamics oneStageCost none :=
    ⟨by decide, by decide, rfl, by decide, rfl, rfl, by decide, by decide,
      fun _ h => (nomatch h), fun _ => by decide⟩
  ⟨h, solve_solves_lq oneStageSize zeroIpm oneStageX0 oneStageDynamics oneStageCost none h⟩

end Hpipm
end Ocs2
