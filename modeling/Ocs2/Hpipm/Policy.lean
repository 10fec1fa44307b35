import Mathlib
import Ocs2.Hpipm.LqHorizon

/-!
# Ocs2.Hpipm.Policy

What hpipm's Riccati getters read back after a solve without general constraints, and what
follows for the trajectories `solve` returns and the gains the getters expose.

* `Horizon.ReadBy`: what hpipm's `ric_P`, `ric_p`, `ric_Lr` and `ric_Ls` hold after a solve,
  stage by stage: the sweep's value and the factors of its `H` and `G`; `Horizon.RowsReadBy`:
  what `ric_k` holds, the row `l` with `Lr l = g`.
* `getRiccatiCostToGo_valueFunction`, `getRiccatiZeroStage_valueFunction`: the `P_k, p_k` that
  `getRiccatiCostToGo` stores are the value functions of the problems from stage `k ≥ 1` on, and
  the `P0, p0` that `getRiccatiZeroStage` computes the value function of the whole horizon.
* `lqOptimal_iff_getRiccatiFeedback`: from every initial state, a trajectory is optimal exactly
  when it follows the feedback of `getRiccatiZeroStage` at stage 0 and, at every later stage, the
  gain `getRiccatiFeedbackFeedforward` stores with the feedforward `-Lr^{-T}` times the row it
  stores.
* `solve_firstInput_eq_getRiccatiZeroStage`, `solve_inputs_eq_getRiccatiFeedbackFeedforward`:
  the inputs `solve` returns are the feedback of `getRiccatiZeroStage` at stage 0, and at every
  later stage the gain `getRiccatiFeedbackFeedforward` stores, with the feedforward `-Lr^{-T}`
  times the row it stores.
-/

namespace Ocs2
namespace Hpipm

open Finset Matrix

variable {K : Type} [LinearOrderedField K] {s : OcpSize} {x0 : VectorT K}
  {dynamics : List (VectorFunctionLinearApproximation K)}
  {cost : List (ScalarFunctionQuadraticApproximation K)}
  {constraints : Option (List (VectorFunctionLinearApproximation K))}

/-! ## What hpipm's getters read back -/

theorem posDefinite_of_factor {n : ℕ} {L H : Matrix (Fin n) (Fin n) K} (hL : IsUnit L.det)
    (hH : L * Lᵀ = H) : PosDefinite H := by
  subst hH
  exact ⟨by rw [transpose_mul, transpose_transpose], fun v hv =>
    lt_of_le_of_ne (gram_nonneg L v) fun h0 => hv (eq_zero_of_gram hL h0.symm)⟩

/-- `Lr^{-T} Lr^{-1}` is Eigen's inverse of `H = Lr Lr'`. -/
theorem gramInverse_eq_inverse {n : ℕ} {L H : Matrix (Fin n) (Fin n) K} (hL : IsUnit L.det)
    (hH : L * Lᵀ = H) : (inverse L)ᵀ * inverse L = inverse H := by
  rw [inverse_eq_inv H, inv_eq_left_inv (hH ▸ gramInverse_mul hL)]

/-- hpipm's Riccati getters read back the sweep of `h`, whose first stage is stage `k` of the QP:
`ric_P(k)` and `ric_p(k)` give the sweep's value there, and at every stage `ric_Lr` and `ric_Ls`
give an invertible `Lr` with `Lr Lr' = H` and an `Ls` with `Ls Lr' = G'`, for the stage's `H`
and `G` at the value of the stage after it. -/
def Horizon.ReadBy (ric : RiccatiFactors K) : {n : ℕ} → Horizon K n → ℕ → Prop
  | n, .terminal Q q, k => ric.PBlock k n = Q ∧ ric.pBlock k n = q
  | n, @Horizon.stage _ _ _ nu d tail, k =>
    ric.PBlock k n = (d.backward tail.value).P ∧ ric.pBlock k n = (d.backward tail.value).p ∧
      IsUnit (ric.LrBlock k nu).det ∧
      ric.LrBlock k nu * (ric.LrBlock k nu)ᵀ = d.hessian tail.value.P ∧
      ric.LsBlock k n nu * (ric.LrBlock k nu)ᵀ = (d.cross tail.value.P)ᵀ ∧
      tail.ReadBy ric (k + 1)

/-- hpipm's `ric_k` along the sweep of `h`, whose first stage is stage `k` of the QP: at every
stage the row `l` with `Lr l = g`, for `Lr = ric_Lr` and the stage's `g` at the value of the
stage after it. -/
def Horizon.RowsReadBy (ric : RiccatiFactors K) : {n : ℕ} → Horizon K n → ℕ → Prop
  | _, .terminal _ _, _ => True
  | _, @Horizon.stage _ _ _ nu d tail, k =>
    ric.LrBlock k nu *ᵥ ric.kBlock k nu = d.gradient tail.value.P tail.value.p ∧
      tail.RowsReadBy ric (k + 1)

theorem Horizon.ReadBy.value_eq {ric : RiccatiFactors K} {n k : ℕ} {h : Horizon K n}
    (hr : h.ReadBy ric k) : ric.PBlock k n = h.value.P ∧ ric.pBlock k n = h.value.p := by
  cases h with
  | terminal Q q => exact hr
  | stage d tail => exact ⟨hr.1, hr.2.1⟩

/-- With symmetric cost Hessians, a horizon whose sweep hpipm reads back is well posed: its
factors make every `H` positive definite. -/
theorem wellPosed_lqHorizon (ric : RiccatiFactors K) :
    ∀ (as : List (VectorFunctionLinearApproximation K))
      (cs : List (ScalarFunctionQuadraticApproximation K)) (k n : ℕ),
      Fits s as cs k n → (∀ c ∈ cs, c.dfdxx.IsSymm) → (lqHorizon s as cs k n).ReadBy ric k →
      (lqHorizon s as cs k n).WellPosed
  | [], [c], _, _, ⟨hc, _⟩, hQ, _ =>
    MatrixT.view_transpose_of_isSymm (hQ c (List.mem_singleton_self c)) hc.2.2.1
  | a :: as, c :: cs, k, n, ⟨_, hc, hfit⟩, hQ, hr => by
    obtain ⟨-, -, hL, hH, -, hr⟩ := hr
    exact ⟨MatrixT.view_transpose_of_isSymm (hQ c (List.mem_cons_self c cs)) hc.2.2.1,
      posDefinite_of_factor hL hH,
      wellPosed_lqHorizon ric as cs (k + 1) _ hfit
        (fun c' hc' => hQ c' (List.mem_cons_of_mem c hc')) hr⟩
  | [], [], _, _, hfit, _, _ => hfit.elim
  | [], _ :: _ :: _, _, _, hfit, _, _ => hfit.elim
  | _ :: _, [], _, _, hfit, _, _ => hfit.elim

/-! ## The laws the getters expose -/

/-- Stage `0`'s law is the feedback of `getRiccatiZeroStage` for hpipm's factor of its `H`. -/
theorem StageData.law_eq_getRiccatiZeroStage {nx ny nu : ℕ} (d : StageData K nx ny nu)
    (V : Value K ny) {L : Matrix (Fin nu) (Fin nu) K} (hL : IsUnit L.det)
    (hH : L * Lᵀ = d.hessian V.P) (x : Fin nx → K) :
    d.law V x =
      (getRiccatiZeroStage d V.P L V.p).K0 *ᵥ x + (getRiccatiZeroStage d V.P L V.p).k0 := by
  rw [getRiccatiZeroStage_eq_lqrStep, gramInverse_eq_inverse hL hH, law]

/-- An interior stage's law, from the factors hpipm returns: `K x - Lr^{-T} l` with the feedback
`K = -(Ls Lr^{-1})'` that `getRiccatiFeedbackFeedforward` stores, and hpipm's row `l` in place of
the feedforward `k = -Lr^{-T} l`. -/
theorem StageData.law_eq_feedbackFeedforward {nx ny nu : ℕ} (d : StageData K nx ny nu)
    (V : Value K ny) {Lr : Matrix (Fin nu) (Fin nu) K} {Ls : Matrix (Fin nx) (Fin nu) K}
    {l : Fin nu → K} (hL : IsUnit Lr.det) (hH : Lr * Lrᵀ = d.hessian V.P)
    (hLs : Ls * Lrᵀ = (d.cross V.P)ᵀ) (hl : Lr *ᵥ l = d.gradient V.P V.p) (x : Fin nx → K) :
    d.law V x = (feedbackFeedforward Lr Ls l).1 *ᵥ x - (inverse Lr)ᵀ *ᵥ l := by
  have hk : (getRiccatiZeroStage d V.P Lr V.p).k0 = -((inverse Lr)ᵀ *ᵥ l) := by
    change -((inverse Lr)ᵀ * inverse Lr) *ᵥ d.gradient V.P V.p = _
    rw [← hl, neg_mulVec, mulVec_mulVec, Matrix.mul_assoc, inverse_eq_inv, nonsing_inv_mul _ hL,
      Matrix.mul_one]
  rw [d.law_eq_getRiccatiZeroStage V hL hH, ← feedbackFeedforward_feedback d V.P V.p hL hLs l, hk,
    sub_eq_add_neg]

/-! ## Stage by stage from stage 1 -/

/-- The LQ problem from stage `k ≥ 1` on, whose state has `nx[k]` entries. -/
def lqFrom (s : OcpSize) (dynamics : List (VectorFunctionLinearApproximation K))
    (cost : List (ScalarFunctionQuadraticApproximation K)) (k : ℕ) : Horizon K (s.nx.getD k 0) :=
  lqHorizon s (dynamics.drop k) (cost.drop k) k (s.nx.getD k 0)

theorem lqFrom_eq_stage {k : ℕ} (hd : k < dynamics.length) (hc : k < cost.length) :
    lqFrom s dynamics cost k =
      .stage (stageData dynamics[k] cost[k] (s.nx.getD k 0) (s.nx.getD (k + 1) 0) (s.nu.getD k 0))
        (lqFrom s dynamics cost (k + 1)) := by
  rw [lqFrom, List.drop_eq_getElem_cons hd, List.drop_eq_getElem_cons hc]
  rfl

theorem lqHorizon_eq_stage {a0 : VectorFunctionLinearApproximation K}
    {c0 : ScalarFunctionQuadraticApproximation K} (ha0 : dynamics[0]? = some a0)
    (hc0 : cost[0]? = some c0) (n : ℕ) :
    lqHorizon s dynamics cost 0 n =
      .stage (stageData a0 c0 n (s.nx.getD 1 0) (s.nu.getD 0 0)) (lqFrom s dynamics cost 1) := by
  cases dynamics with
  | nil => exact absurd ha0 (by simp)
  | cons a as =>
    cases cost with
    | nil => exact absurd hc0 (by simp)
    | cons c cs =>
      simp only [List.getElem?_cons_zero, Option.some.injEq] at ha0 hc0
      subst ha0 hc0
      rfl

omit [LinearOrderedField K] in
/-- The inputs of stage `k` on, read from stage `k`. -/
theorem shift_succ (u : ℕ → ℕ → K) (k : ℕ) :
    (fun j => u (k + (j + 1))) = fun j => u (k + 1 + j) :=
  funext fun j => congrArg u (by omega)

omit [LinearOrderedField K] in
theorem shift_comm (u : ℕ → ℕ → K) : (fun j => u (j + 1)) = fun j => u (1 + j) :=
  funext fun j => congrArg u (Nat.add_comm j 1)

/-- A property of the problem from stage `k` that every stage `1 ≤ k < N` passes on to stage
`k + 1` holds from every stage `1 ≤ k ≤ N` once it holds from stage 1. -/
theorem lqFrom_induction {P : (k : ℕ) → Horizon K (s.nx.getD k 0) → Prop}
    (hstep : ∀ k, 1 ≤ k → k < s.N →
      P k (lqFrom s dynamics cost k) → P (k + 1) (lqFrom s dynamics cost (k + 1)))
    (h1 : P 1 (lqFrom s dynamics cost 1)) {k : ℕ} (hk : 1 ≤ k) (hkN : k ≤ s.N) :
    P k (lqFrom s dynamics cost k) := by
  induction k, hk using Nat.le_induction with
  | base => exact h1
  | succ k hk ih => exact hstep k hk (by omega) (ih (by omega))

section Trajectory

variable (h : Agrees s x0 dynamics cost constraints) {x u : ℕ → ℕ → K}
  (hf : LqFeasible dynamics constraints x u)
include h hf

/-- A trajectory follows the law from stage `k ≥ 1` exactly when it takes the law's input at
stage `k` and follows the law from stage `k + 1`. -/
theorem follows_lqFrom_succ {k : ℕ} (hk : 1 ≤ k) (hd : k < dynamics.length)
    (hc : k < cost.length) :
    (lqFrom s dynamics cost k).Follows (fun i => x k i) (fun j => u (k + j)) ↔
      (fun i : Fin (s.nu.getD k 0) => u k i) =
          (stageData dynamics[k] cost[k] (s.nx.getD k 0) (s.nx.getD (k + 1) 0) (s.nu.getD k 0)).law
            (lqFrom s dynamics cost (k + 1)).value (fun i => x k i) ∧
        (lqFrom s dynamics cost (k + 1)).Follows (fun i => x (k + 1) i) fun j => u (k + 1 + j) := by
  have hsh := h.dynamics_shape k hd
  rw [stateDim, if_neg (by omega)] at hsh
  have hnext : (stageData dynamics[k] cost[k] (s.nx.getD k 0) (s.nx.getD (k + 1) 0)
      (s.nu.getD k 0)).next (fun i => x k i) (fun i => u k i) = fun i : Fin _ => x (k + 1) i := by
    rw [next_stageData _ _ hsh]
    exact funext fun i => (hf.1 k hd i (lt_of_lt_of_eq i.2 hsh.1.symm)).symm
  rw [lqFrom_eq_stage hd hc]
  simp only [Horizon.Follows, Nat.add_zero, hnext, shift_succ]

theorem follows_lqFrom (h1 : (lqFrom s dynamics cost 1).Follows (fun i => x 1 i) fun j => u (1 + j))
    {k : ℕ} (hk : 1 ≤ k) (hkN : k ≤ s.N) :
    (lqFrom s dynamics cost k).Follows (fun i => x k i) fun j => u (k + j) :=
  lqFrom_induction (P := fun k hz => hz.Follows (fun i => x k i) fun j => u (k + j))
    (fun k hk hkN ih => ((follows_lqFrom_succ h hf hk (by rw [h.dynamics_length]; omega)
      (by rw [h.cost_length]; omega)).mp ih).2) h1 hk hkN

/-- **Following the law is taking the law's input at every stage.** From stage `k ≥ 1`, with `m`
stages left, a trajectory that satisfies the dynamics follows the law exactly when its input at
every stage `k ≤ j < N` is the law of that stage at its state. -/
theorem follows_lqFrom_iff (hnu : s.nu.getD s.N 0 = 0) :
    ∀ m k, 1 ≤ k → k + m = s.N →
      ((lqFrom s dynamics cost k).Follows (fun i => x k i) (fun j => u (k + j)) ↔
        ∀ j (hd : j < dynamics.length) (hc : j < cost.length), k ≤ j →
          (fun i : Fin (s.nu.getD j 0) => u j i) =
            (stageData dynamics[j] cost[j] (s.nx.getD j 0) (s.nx.getD (j + 1) 0)
              (s.nu.getD j 0)).law (lqFrom s dynamics cost (j + 1)).value (fun i => x j i))
  | 0, k, _, hk => by
    have hfit := h.fits_drop hnu 0 k hk
    rw [List.drop_eq_nil_of_le (by rw [h.dynamics_length]; omega)] at hfit
    obtain ⟨c, hc⟩ : ∃ c, cost.drop k = [c] := by
      match cost.drop k, hfit with
      | [c], _ => exact ⟨c, rfl⟩
    rw [lqFrom, List.drop_eq_nil_of_le (by rw [h.dynamics_length]; omega), hc]
    exact ⟨fun _ j hd _ hj => absurd hd (by rw [h.dynamics_length]; omega), fun _ => trivial⟩
  | m + 1, k, hk, hkm => by
    have hd : k < dynamics.length := by rw [h.dynamics_length]; omega
    have hc : k < cost.length := by rw [h.cost_length]; omega
    rw [follows_lqFrom_succ h hf hk hd hc, follows_lqFrom_iff hnu m (k + 1) (by omega) (by omega)]
    constructor
    · rintro ⟨hu, ht⟩ j hd' hc' hj
      rcases Nat.eq_or_lt_of_le hj with rfl | hj
      · exact hu
      · exact ht j hd' hc' hj
    · intro hall
      exact ⟨hall k hd hc le_rfl, fun j hd' hc' hj => hall j hd' hc' (by omega)⟩

end Trajectory

theorem readBy_lqFrom (h : Agrees s x0 dynamics cost constraints) {ric : RiccatiFactors K}
    (h1 : (lqFrom s dynamics cost 1).ReadBy ric 1) {k : ℕ} (hk : 1 ≤ k) (hkN : k ≤ s.N) :
    (lqFrom s dynamics cost k).ReadBy ric k :=
  lqFrom_induction (P := fun k hz => hz.ReadBy ric k) (fun k _ hkN hr => by
    rw [lqFrom_eq_stage (by rw [h.dynamics_length]; omega) (by rw [h.cost_length]; omega)] at hr
    exact hr.2.2.2.2.2) h1 hk hkN

theorem rowsReadBy_lqFrom (h : Agrees s x0 dynamics cost constraints) {ric : RiccatiFactors K}
    (h1 : (lqFrom s dynamics cost 1).RowsReadBy ric 1) {k : ℕ} (hk : 1 ≤ k) (hkN : k ≤ s.N) :
    (lqFrom s dynamics cost k).RowsReadBy ric k :=
  lqFrom_induction (P := fun k hz => hz.RowsReadBy ric k) (fun k _ hkN hr => by
    rw [lqFrom_eq_stage (by rw [h.dynamics_length]; omega) (by rw [h.cost_length]; omega)] at hr
    exact hr.2) h1 hk hkN

theorem Agrees.fits_lqFrom (h : Agrees s x0 dynamics cost constraints)
    (hnu : s.nu.getD s.N 0 = 0) {k : ℕ} (hk : 1 ≤ k) (hkN : k ≤ s.N) :
    Fits s (dynamics.drop k) (cost.drop k) k (s.nx.getD k 0) := by
  obtain ⟨j, rfl⟩ : ∃ j, k = j + 1 := ⟨k - 1, by omega⟩
  rw [← stateDim_succ s x0 j]
  exact h.fits_drop hnu (s.N - (j + 1)) (j + 1) (by omega)

/-- With symmetric cost Hessians, the problem from every stage `k ≥ 1` is well posed when hpipm
reads back the sweep from stage 1. -/
theorem Agrees.wellPosed_lqFrom (h : Agrees s x0 dynamics cost constraints)
    (hnu : s.nu.getD s.N 0 = 0) (hQ : ∀ c ∈ cost, c.dfdxx.IsSymm) {ric : RiccatiFactors K}
    (hread : (lqFrom s dynamics cost 1).ReadBy ric 1) {k : ℕ} (hk : 1 ≤ k) (hkN : k ≤ s.N) :
    (lqFrom s dynamics cost k).WellPosed :=
  wellPosed_lqHorizon ric _ _ k _ (h.fits_lqFrom hnu hk hkN)
    (fun c hc => hQ c (List.mem_of_mem_drop hc)) (readBy_lqFrom h hread hk hkN)

/-- Stage 0 leads a trajectory from `x0'` that satisfies the dynamics to its state at stage 1. -/
theorem Agrees.next_stage0 (h : Agrees s x0 dynamics cost constraints)
    {a0 : VectorFunctionLinearApproximation K} (ha0 : dynamics[0]? = some a0)
    (c0 : ScalarFunctionQuadraticApproximation K) {x0' : VectorT K} {x u : ℕ → ℕ → K}
    (hx : x 0 = x0'.get) (hf : LqFeasible dynamics constraints x u) :
    (stageData a0 c0 x0.size (s.nx.getD 1 0) (s.nu.getD 0 0)).next (x0'.view x0.size)
      (fun i => u 0 i) = fun i : Fin (s.nx.getD 1 0) => x 1 i := by
  obtain ⟨hlen, ha0'⟩ := List.getElem?_eq_some_iff.mp ha0
  have hsh : a0.HasShape (s.nx.getD 1 0) x0.size (s.nu.getD 0 0) :=
    ha0' ▸ h.dynamics_shape 0 hlen
  rw [VectorT.view_eq_get, ← hx, next_stageData _ _ hsh]
  exact funext fun i => (ha0' ▸ hf.1 0 hlen i (lt_of_lt_of_eq i.2 (ha0' ▸ hsh.1).symm)).symm

/-- At every interior stage the law is the gain `getRiccatiFeedbackFeedforward` stores, with the
feedforward `-Lr^{-T}` times the row it stores. -/
theorem law_eq_feedbackFeedforwardAt (h : Agrees s x0 dynamics cost constraints)
    {ric : RiccatiFactors K} (hread : (lqFrom s dynamics cost 1).ReadBy ric 1)
    (hrows : (lqFrom s dynamics cost 1).RowsReadBy ric 1) {k : ℕ}
    (hk : 1 ≤ k) (hkN : k < s.N) (hd : k < dynamics.length) (hc : k < cost.length)
    (xk : Fin (s.nx.getD k 0) → K) :
    (stageData dynamics[k] cost[k] (s.nx.getD k 0) (s.nx.getD (k + 1) 0) (s.nu.getD k 0)).law
        (lqFrom s dynamics cost (k + 1)).value xk =
      (feedbackFeedforwardAt s ric k).1.view (s.nu.getD k 0) (s.nx.getD k 0) *ᵥ xk -
        (inverse (ric.LrBlock k (s.nu.getD k 0)))ᵀ *ᵥ
          (feedbackFeedforwardAt s ric k).2.view (s.nu.getD k 0) := by
  have hr := readBy_lqFrom h hread hk hkN.le
  have hl := rowsReadBy_lqFrom h hrows hk hkN.le
  rw [lqFrom_eq_stage hd hc] at hr hl
  obtain ⟨-, -, hL, hH, hLs, -⟩ := hr
  have hK : (feedbackFeedforwardAt s ric k).1.view (s.nu.getD k 0) (s.nx.getD k 0) =
      (feedbackFeedforward (ric.LrBlock k _) (ric.LsBlock k _ _) (ric.kBlock k _)).1 :=
    congrArg Prod.fst (feedbackFeedforwardAt_view ric k)
  rw [StageData.law_eq_feedbackFeedforward _ _ hL hH hLs hl.1, hK]
  rfl

/-! ## What `solve` returns and what the getters expose -/

/-- The whole horizon is well posed when the cost Hessians are symmetric, hpipm reads back the
sweep from stage 1 and factors stage 0's `H`. -/
theorem Agrees.wellPosed (h : Agrees s x0 dynamics cost constraints) (hnu : s.nu.getD s.N 0 = 0)
    (hQ : ∀ c ∈ cost, c.dfdxx.IsSymm) {a0 : VectorFunctionLinearApproximation K}
    {c0 : ScalarFunctionQuadraticApproximation K} (ha0 : dynamics[0]? = some a0)
    (hc0 : cost[0]? = some c0) {ric : RiccatiFactors K}
    (hread : (lqFrom s dynamics cost 1).ReadBy ric 1)
    (hL0 : IsUnit (ric.LrBlock 0 (s.nu.getD 0 0)).det)
    (hH0 : ric.LrBlock 0 _ * (ric.LrBlock 0 _)ᵀ =
      (stageData a0 c0 x0.size (s.nx.getD 1 0) (s.nu.getD 0 0)).hessian
        (ric.PBlock 1 (s.nx.getD 1 0))) :
    (lqHorizon s dynamics cost 0 x0.size).WellPosed := by
  obtain ⟨hlen, hc0'⟩ := List.getElem?_eq_some_iff.mp hc0
  rw [hread.value_eq.1] at hH0
  rw [lqHorizon_eq_stage ha0 hc0]
  exact ⟨MatrixT.view_transpose_of_isSymm (hQ c0 (List.getElem?_mem hc0))
      (hc0' ▸ (h.cost_shape 0 hlen).2.2.1),
    posDefinite_of_factor hL0 hH0, h.wellPosed_lqFrom hnu hQ hread le_rfl h.horizon_pos⟩

/-! ## An instance

Two stages of `x_{k+1} = x_k + u_k` with `R = 3`, `Q_1 = 1/4` and `Q_2 = 1`: the sweep gives
`H = 4` and `P = 1` at both stages, which hpipm factors with `Lr = 2` and `Ls = 1/2`. -/

/-- Two stages of one state and one input, no input at the end (`nx[0] = 0`, as stored). -/
def lqrSize : OcpSize :=
  ⟨2, [0, 1, 1], [1, 1, 0], [0, 0, 0], [0, 0, 0], [0, 0, 0], [0, 0, 0], [0, 0, 0], [0, 0, 0]⟩

def lqrX0 : VectorT ℚ := ⟨1, fun _ => 1⟩

/-- `x_{k+1} = x_k + u_k`. -/
def integrator : VectorFunctionLinearApproximation ℚ :=
  ⟨⟨1, fun _ => 0⟩, ⟨1, 1, fun _ _ => 1⟩, ⟨1, 1, fun _ _ => 1⟩⟩

/-- `1/2 Q dx² + 1/2 R du²`. -/
def diagonalCost (Q R : ℚ) : ScalarFunctionQuadraticApproximation ℚ :=
  ⟨0, ⟨1, fun _ => 0⟩, ⟨1, fun _ => 0⟩, ⟨1, 1, fun _ _ => Q⟩, ⟨1, 1, fun _ _ => 0⟩,
    ⟨1, 1, fun _ _ => R⟩⟩

def lqrDynamics : List (VectorFunctionLinearApproximation ℚ) := [integrator, integrator]

def lqrCost : List (ScalarFunctionQuadraticApproximation ℚ) :=
  [diagonalCost 1 3, diagonalCost (1 / 4) 3,
    ⟨0, ⟨1, fun _ => 0⟩, ⟨0, fun _ => 0⟩, ⟨1, 1, fun _ _ => 1⟩, ⟨0, 1, fun _ _ => 0⟩,
      ⟨0, 0, fun _ _ => 0⟩⟩]

/-- hpipm's blocks for it: `P = 1`, `p = 0`, `Lr = 2`, `Ls = 1/2`, `l = 0`. -/
def lqrFactors : RiccatiFactors ℚ :=
  ⟨fun _ _ _ => 1, fun _ _ => 0, fun _ _ _ => 2, fun _ _ _ => 1 / 2, fun _ _ => 0⟩

/-- An hpipm that returns the law's rollout. -/
def lqrIpm : OcpQp ℚ → IpmResult ℚ := fun _ =>
  ⟨rollout lqrDynamics lqrX0.get
      ((lqHorizon lqrSize lqrDynamics lqrCost 0 1).lawInputs (lqrX0.view 1)),
    (lqHorizon lqrSize lqrDynamics lqrCost 0 1).lawInputs (lqrX0.view 1), 0⟩

theorem lqr_agrees : Agrees lqrSize lqrX0 lqrDynamics lqrCost none :=
  ⟨by decide, by decide, rfl, by decide, rfl, rfl, by decide, by decide, fun _ h => (nomatch h),
    fun _ => by decide⟩

theorem lqr_symm : ∀ c ∈ lqrCost, c.dfdxx.IsSymm := by
  simp [lqrCost, diagonalCost, MatrixT.IsSymm]

theorem lqrFactors_isUnit (k : ℕ) : IsUnit (lqrFactors.LrBlock k 1).det := by
  simp [RiccatiFactors.LrBlock, lqrFactors, det_fin_one]

theorem lqr_readBy : (lqFrom lqrSize lqrDynamics lqrCost 1).ReadBy lqrFactors 1 := by
  show Horizon.ReadBy lqrFactors (n := 1)
    (.stage (stageData integrator (diagonalCost (1 / 4) 3) 1 1 1) (.terminal (of fun _ _ => 1) 0)) 1
  refine ⟨?_, ?_, lqrFactors_isUnit 1, ?_, ?_, ?_, ?_⟩ <;>
    ext <;>
    simp only [RiccatiFactors.LrBlock, RiccatiFactors.LsBlock, RiccatiFactors.PBlock,
      RiccatiFactors.pBlock, RiccatiFactors.kBlock, lqrFactors, StageData.backward,
      StageData.lqrStep, Horizon.value, stageData, integrator, diagonalCost, StageData.hessian,
      StageData.cross, StageData.gradient, inverse, det_unique, adjugate_fin_one, MatrixT.view,
      VectorT.view_eq_get, mulVec, dotProduct, mul_apply, smul_apply, sub_apply, add_apply,
      neg_apply, transpose_apply, of_apply, one_apply_eq, univ_unique, sum_singleton,
      Fin.default_eq_zero, Pi.add_apply, Pi.sub_apply, Pi.neg_apply, Pi.zero_apply,
      smul_eq_mul] <;>
    norm_num

theorem lqr_rowsReadBy : (lqFrom lqrSize lqrDynamics lqrCost 1).RowsReadBy lqrFactors 1 := by
  show Horizon.RowsReadBy lqrFactors (n := 1)
    (.stage (stageData integrator (diagonalCost (1 / 4) 3) 1 1 1) (.terminal (of fun _ _ => 1) 0)) 1
  refine ⟨?_, trivial⟩
  ext
  simp only [RiccatiFactors.LrBlock, RiccatiFactors.kBlock, lqrFactors, Horizon.value, stageData,
    integrator, diagonalCost, StageData.gradient, MatrixT.view, VectorT.view_eq_get, mulVec,
    dotProduct, mul_apply, transpose_apply, of_apply, univ_unique, sum_singleton,
    Fin.default_eq_zero, Pi.add_apply, Pi.zero_apply]
  norm_num

theorem lqr_factor0 : IsUnit (lqrFactors.LrBlock 0 1).det ∧
    lqrFactors.LrBlock 0 1 * (lqrFactors.LrBlock 0 1)ᵀ =
      (stageData integrator (diagonalCost 1 3) 1 1 1).hessian (lqrFactors.PBlock 1 1) := by
  refine ⟨lqrFactors_isUnit 0, ?_⟩
  ext
  simp only [RiccatiFactors.LrBlock, RiccatiFactors.PBlock, lqrFactors, stageData, integrator,
    diagonalCost, StageData.hessian, MatrixT.view, mul_apply, add_apply, transpose_apply, of_apply,
    univ_unique, sum_singleton, Fin.default_eq_zero]
  norm_num

theorem lqr_wellPosed : (lqHorizon lqrSize lqrDynamics lqrCost 0 lqrX0.size).WellPosed :=
  lqr_agrees.wellPosed rfl lqr_symm rfl rfl lqr_readBy lqr_factor0.1 lqr_factor0.2

theorem lqrIpm_qpOptimal : QpOptimal lqrSize (hpipmQp lqrSize.N lqrX0 lqrDynamics lqrCost none)
    (lqrIpm (hpipmQp lqrSize.N lqrX0 lqrDynamics lqrCost none)).x
    (lqrIpm (hpipmQp lqrSize.N lqrX0 lqrDynamics lqrCost none)).u :=
  qpOptimal_rollout_lawInputs lqr_agrees rfl lqr_wellPosed

section Sweep

variable (h : Agrees s x0 dynamics cost none)
  (hnu : s.nu.getD s.N 0 = 0) (hQ : ∀ c ∈ cost, c.dfdxx.IsSymm) (ric : RiccatiFactors K)
  (hread : (lqFrom s dynamics cost 1).ReadBy ric 1)
include h hnu hQ hread

/-- **`getRiccatiCostToGo`'s `P_k, p_k` are the value functions of the tails.** Without general
constraints and with no input at stage `N`, when the cost Hessians are symmetric and hpipm reads
back the Riccati sweep from stage 1, `getRiccatiCostToGo` returns normally, and at every stage
`1 ≤ k ≤ N` the `P_k` and `p_k` it stores, read with `nx[k]` entries, are the value function of
the problem from stage `k` on: for one constant `c` and every state `xk`, every trajectory from
`xk` that satisfies the dynamics from stage `k` on costs at least `1/2 xk'P_k xk + p_k'xk + c`
from stage `k` on, and exactly that when it is optimal. -/
theorem getRiccatiCostToGo_valueFunction (PMatrics : List (MatrixT K))
    (pVectors : List (VectorT K)) :
    ∃ PMatrics' pVectors', getRiccatiCostToGo s ric PMatrics pVectors = .ok (PMatrics', pVectors') ∧
      ∀ k, 1 ≤ k → k ≤ s.N → ∃ (Pk : MatrixT K) (pk : VectorT K) (c : K),
        PMatrics'[k]? = some Pk ∧ pVectors'[k]? = some pk ∧
        ∀ (xk : VectorT K) (x u : ℕ → ℕ → K), x 0 = xk.get →
          LqFeasible (dynamics.drop k) none x u →
          costToGo (Pk.view (s.nx.getD k 0) (s.nx.getD k 0)) (pk.view (s.nx.getD k 0))
              (xk.view (s.nx.getD k 0)) + c ≤ lqCost (cost.drop k) x u ∧
            (LqOptimal (dynamics.drop k) (cost.drop k) none xk x u ↔
              lqCost (cost.drop k) x u =
                costToGo (Pk.view (s.nx.getD k 0) (s.nx.getD k 0)) (pk.view (s.nx.getD k 0))
                  (xk.view (s.nx.getD k 0)) + c) := by
  have hs := h.wellFormed.1
  have hok : getRiccatiCostToGo s ric PMatrics pVectors =
      .ok (riccatiCostToGo s ric PMatrics pVectors) := by
    rw [getRiccatiCostToGo, costToGoStage_ok ric (by omega) (by simp) (by simp), ok_bind]
    exact costToGoLoop_ok ric hs PMatrics pVectors
  refine ⟨_, _, hok, fun k hk1 hkN => ?_⟩
  obtain ⟨hP, hp⟩ := (readBy_lqFrom h hread hk1 hkN).value_eq
  refine ⟨(costToGoAt s ric k).1, (costToGoAt s ric k).2,
    (lqFrom s dynamics cost k).value.c + ∑ j : Fin (cost.drop k).length, (cost.drop k)[j].f,
    ?_, ?_, fun xk x u hx hf => ?_⟩
  · rw [getElem?_map_range, if_pos (by omega), if_neg (by omega)]
  · rw [getElem?_map_range, if_pos (by omega), if_neg (by omega)]
  · have hb := value_le_lqCost (h.fits_lqFrom hnu hk1 hkN) (h.wellPosed_lqFrom hnu hQ hread hk1 hkN)
      hx hf
    rw [Value.eval, add_assoc] at hb
    show costToGo (ric.PBlock k _) (ric.pBlock k _) _ + _ ≤ _ ∧
      (_ ↔ _ = costToGo (ric.PBlock k _) (ric.pBlock k _) _ + _)
    rw [hP, hp]
    exact hb

omit h hnu hQ hread in
theorem getRiccatiCostToGo_valueFunction_integrator :
    Agrees lqrSize lqrX0 lqrDynamics lqrCost none ∧ lqrSize.nu.getD lqrSize.N 0 = 0 ∧
    (∀ c ∈ lqrCost, c.dfdxx.IsSymm) ∧
    (lqFrom lqrSize lqrDynamics lqrCost 1).ReadBy lqrFactors 1 ∧
    ∃ PMatrics' pVectors',
      getRiccatiCostToGo lqrSize lqrFactors [] [] = .ok (PMatrics', pVectors') ∧
      ∀ k, 1 ≤ k → k ≤ lqrSize.N → ∃ (Pk : MatrixT ℚ) (pk : VectorT ℚ) (c : ℚ),
        PMatrics'[k]? = some Pk ∧ pVectors'[k]? = some pk ∧
        ∀ (xk : VectorT ℚ) (x u : ℕ → ℕ → ℚ), x 0 = xk.get →
          LqFeasible (lqrDynamics.drop k) none x u →
          costToGo (Pk.view (lqrSize.nx.getD k 0) (lqrSize.nx.getD k 0))
              (pk.view (lqrSize.nx.getD k 0)) (xk.view (lqrSize.nx.getD k 0)) + c ≤
            lqCost (lqrCost.drop k) x u ∧
            (LqOptimal (lqrDynamics.drop k) (lqrCost.drop k) none xk x u ↔
              lqCost (lqrCost.drop k) x u =
                costToGo (Pk.view (lqrSize.nx.getD k 0) (lqrSize.nx.getD k 0))
                  (pk.view (lqrSize.nx.getD k 0)) (xk.view (lqrSize.nx.getD k 0)) + c) :=
  ⟨lqr_agrees, rfl, lqr_symm, lqr_readBy,
    getRiccatiCostToGo_valueFunction lqr_agrees rfl lqr_symm lqrFactors lqr_readBy [] []⟩

section Riccati

variable {a0 : VectorFunctionLinearApproximation K} {c0 : ScalarFunctionQuadraticApproximation K}
  (ha0 : dynamics[0]? = some a0) (hc0 : cost[0]? = some c0)
  (hL0 : IsUnit (ric.LrBlock 0 (s.nu.getD 0 0)).det)
  (hH0 : ric.LrBlock 0 _ * (ric.LrBlock 0 _)ᵀ =
    (stageData a0 c0 x0.size (s.nx.getD 1 0) (s.nu.getD 0 0)).hessian
      (ric.PBlock 1 (s.nx.getD 1 0)))
include ha0 hc0 hL0 hH0

/-- **`getRiccatiZeroStage`'s `P0, p0` are the value function of the whole horizon.** Under the
same conditions, when `ric_Lr(0)` factors stage 0's `H`, the `P0` and `p0` that
`getRiccatiZeroStage` computes from the stage-0 approximations satisfy: for one constant `c` and
every initial state `x0'`, read with `x0`'s size, every trajectory from `x0'` that satisfies the
dynamics costs at least `1/2 x0''P0x0' + p0'x0' + c`, and exactly that when it is optimal. -/
theorem getRiccatiZeroStage_valueFunction :
    ∃ c : K, ∀ (x0' : VectorT K) (x u : ℕ → ℕ → K), x 0 = x0'.get →
      LqFeasible dynamics none x u →
      costToGo (getRiccatiZeroStage (stageData a0 c0 x0.size (s.nx.getD 1 0) (s.nu.getD 0 0))
          (ric.PBlock 1 _) (ric.LrBlock 0 _) (ric.pBlock 1 _)).P0
        (getRiccatiZeroStage (stageData a0 c0 x0.size (s.nx.getD 1 0) (s.nu.getD 0 0))
          (ric.PBlock 1 _) (ric.LrBlock 0 _) (ric.pBlock 1 _)).p0 (x0'.view x0.size) + c ≤
        lqCost cost x u ∧
      (LqOptimal dynamics cost none x0' x u ↔ lqCost cost x u =
        costToGo (getRiccatiZeroStage (stageData a0 c0 x0.size (s.nx.getD 1 0) (s.nu.getD 0 0))
            (ric.PBlock 1 _) (ric.LrBlock 0 _) (ric.pBlock 1 _)).P0
          (getRiccatiZeroStage (stageData a0 c0 x0.size (s.nx.getD 1 0) (s.nu.getD 0 0))
            (ric.PBlock 1 _) (ric.LrBlock 0 _) (ric.pBlock 1 _)).p0 (x0'.view x0.size) + c) := by
  have hw := h.wellPosed hnu hQ ha0 hc0 hread hL0 hH0
  obtain ⟨hP1, hp1⟩ := hread.value_eq
  rw [hP1] at hH0 ⊢
  rw [hp1]
  refine ⟨(lqHorizon s dynamics cost 0 x0.size).value.c + ∑ k : Fin cost.length, cost[k].f,
    fun x0' x u hx hf => ?_⟩
  have hb := value_le_lqCost (h.fits hnu) hw hx hf
  rw [Value.eval, add_assoc, lqHorizon_eq_stage ha0 hc0] at hb
  rw [StageData.getRiccatiZeroStage_eq_lqrStep, gramInverse_eq_inverse hL0 hH0,
    lqHorizon_eq_stage ha0 hc0]
  exact hb

omit h hnu hQ hread ha0 hc0 hL0 hH0 in
theorem getRiccatiZeroStage_valueFunction_integrator :
    Agrees lqrSize lqrX0 lqrDynamics lqrCost none ∧ lqrSize.nu.getD lqrSize.N 0 = 0 ∧
    (∀ c ∈ lqrCost, c.dfdxx.IsSymm) ∧
    (lqFrom lqrSize lqrDynamics lqrCost 1).ReadBy lqrFactors 1 ∧
    IsUnit (lqrFactors.LrBlock 0 1).det ∧
    lqrFactors.LrBlock 0 1 * (lqrFactors.LrBlock 0 1)ᵀ =
      (stageData integrator (diagonalCost 1 3) 1 1 1).hessian (lqrFactors.PBlock 1 1) ∧
    ∃ c : ℚ, ∀ (x0' : VectorT ℚ) (x u : ℕ → ℕ → ℚ), x 0 = x0'.get →
      LqFeasible lqrDynamics none x u →
      costToGo
          (getRiccatiZeroStage (stageData integrator (diagonalCost 1 3) 1 1 1)
            (lqrFactors.PBlock 1 1) (lqrFactors.LrBlock 0 1) (lqrFactors.pBlock 1 1)).P0
          (getRiccatiZeroStage (stageData integrator (diagonalCost 1 3) 1 1 1)
            (lqrFactors.PBlock 1 1) (lqrFactors.LrBlock 0 1) (lqrFactors.pBlock 1 1)).p0
          (x0'.view 1) + c ≤ lqCost lqrCost x u ∧
      (LqOptimal lqrDynamics lqrCost none x0' x u ↔ lqCost lqrCost x u =
        costToGo
            (getRiccatiZeroStage (stageData integrator (diagonalCost 1 3) 1 1 1)
              (lqrFactors.PBlock 1 1) (lqrFactors.LrBlock 0 1) (lqrFactors.pBlock 1 1)).P0
            (getRiccatiZeroStage (stageData integrator (diagonalCost 1 3) 1 1 1)
              (lqrFactors.PBlock 1 1) (lqrFactors.LrBlock 0 1) (lqrFactors.pBlock 1 1)).p0
            (x0'.view 1) + c) :=
  ⟨lqr_agrees, rfl, lqr_symm, lqr_readBy, lqr_factor0.1, lqr_factor0.2,
    getRiccatiZeroStage_valueFunction lqr_agrees rfl lqr_symm lqrFactors lqr_readBy rfl rfl
      lqr_factor0.1 lqr_factor0.2⟩

/-- **The getters expose an optimal feedback policy.** Under the same conditions, for every
caller vectors `KMatrics`, `kVectors`, `getRiccatiFeedbackFeedforward` returns normally, and from
every initial state `x0'`, read with `x0`'s size, a trajectory that satisfies the dynamics is
optimal exactly when its input at stage 0 is `K0 x0' + k0` for the `K0` and `k0` that
`getRiccatiZeroStage` computes, and its input at every interior stage `1 ≤ k < N` is
`KMatrics[k] x_k - Lr^{-T} kVectors[k]` for the gain and row `getRiccatiFeedbackFeedforward`
stores and hpipm's `Lr = ric_Lr(k)`. -/
theorem lqOptimal_iff_getRiccatiFeedback (hrows : (lqFrom s dynamics cost 1).RowsReadBy ric 1)
    (KMatrics : List (MatrixT K)) (kVectors : List (VectorT K)) :
    ∃ KMatrics' kVectors',
      getRiccatiFeedbackFeedforward s ric KMatrics kVectors = .ok (KMatrics', kVectors') ∧
      ∀ (x0' : VectorT K) (x u : ℕ → ℕ → K), x 0 = x0'.get → LqFeasible dynamics none x u →
        (LqOptimal dynamics cost none x0' x u ↔
          (fun i : Fin (s.nu.getD 0 0) => u 0 i) =
              (getRiccatiZeroStage (stageData a0 c0 x0.size (s.nx.getD 1 0) (s.nu.getD 0 0))
                  (ric.PBlock 1 _) (ric.LrBlock 0 _) (ric.pBlock 1 _)).K0 *ᵥ x0'.view x0.size +
                (getRiccatiZeroStage (stageData a0 c0 x0.size (s.nx.getD 1 0) (s.nu.getD 0 0))
                  (ric.PBlock 1 _) (ric.LrBlock 0 _) (ric.pBlock 1 _)).k0 ∧
            ∀ k, 1 ≤ k → k < s.N → ∀ Kk lk, KMatrics'[k]? = some Kk → kVectors'[k]? = some lk →
              (fun i : Fin (s.nu.getD k 0) => u k i) =
                Kk.view (s.nu.getD k 0) (s.nx.getD k 0) *ᵥ (fun i => x k i) -
                  (inverse (ric.LrBlock k (s.nu.getD k 0)))ᵀ *ᵥ lk.view (s.nu.getD k 0)) := by
  have hw := h.wellPosed hnu hQ ha0 hc0 hread hL0 hH0
  obtain ⟨hP1, hp1⟩ := hread.value_eq
  rw [hP1] at hH0
  refine ⟨_, _, getRiccatiFeedbackFeedforward_eq ric h.wellFormed KMatrics kVectors,
    fun x0' x u hx hf => ?_⟩
  rw [hP1, hp1, ← StageData.law_eq_getRiccatiZeroStage _ _ hL0 hH0,
    lqOptimal_iff_follows (h.fits hnu) hw, lqHorizon_eq_stage ha0 hc0]
  simp only [hx, hf, true_and, Horizon.Follows, h.next_stage0 ha0 c0 hx hf, shift_comm]
  rw [follows_lqFrom_iff h hf hnu (s.N - 1) 1 le_rfl (by have := h.horizon_pos; omega)]
  refine and_congr_right fun _ => ⟨fun hall k hk1 hkN Kk lk hK hl => ?_, fun hall j hd hc hj => ?_⟩
  · rw [getElem?_map_range, if_pos hkN, if_neg (by omega), Option.some.injEq] at hK hl
    subst hK hl
    have hd : k < dynamics.length := h.dynamics_length ▸ hkN
    rw [hall k hd (by rw [h.cost_length]; omega) hk1,
      law_eq_feedbackFeedforwardAt h hread hrows hk1 hkN hd]
  · have hjN : j < s.N := h.dynamics_length ▸ hd
    rw [law_eq_feedbackFeedforwardAt h hread hrows hj hjN hd hc]
    exact hall j hj hjN _ _ (by rw [getElem?_map_range, if_pos hjN, if_neg (by omega)])
      (by rw [getElem?_map_range, if_pos hjN, if_neg (by omega)])

omit h hnu hQ hread ha0 hc0 hL0 hH0 in
theorem lqOptimal_iff_getRiccatiFeedback_integrator :
    Agrees lqrSize lqrX0 lqrDynamics lqrCost none ∧ lqrSize.nu.getD lqrSize.N 0 = 0 ∧
    (∀ c ∈ lqrCost, c.dfdxx.IsSymm) ∧
    (lqFrom lqrSize lqrDynamics lqrCost 1).ReadBy lqrFactors 1 ∧
    IsUnit (lqrFactors.LrBlock 0 1).det ∧
    lqrFactors.LrBlock 0 1 * (lqrFactors.LrBlock 0 1)ᵀ =
      (stageData integrator (diagonalCost 1 3) 1 1 1).hessian (lqrFactors.PBlock 1 1) ∧
    (lqFrom lqrSize lqrDynamics lqrCost 1).RowsReadBy lqrFactors 1 ∧
    ∃ KMatrics' kVectors',
      getRiccatiFeedbackFeedforward lqrSize lqrFactors [] [] = .ok (KMatrics', kVectors') ∧
      ∀ (x0' : VectorT ℚ) (x u : ℕ → ℕ → ℚ), x 0 = x0'.get → LqFeasible lqrDynamics none x u →
        (LqOptimal lqrDynamics lqrCost none x0' x u ↔
          (fun i : Fin 1 => u 0 i) =
              (getRiccatiZeroStage (stageData integrator (diagonalCost 1 3) 1 1 1)
                  (lqrFactors.PBlock 1 1) (lqrFactors.LrBlock 0 1) (lqrFactors.pBlock 1 1)).K0 *ᵥ
                  x0'.view 1 +
                (getRiccatiZeroStage (stageData integrator (diagonalCost 1 3) 1 1 1)
                  (lqrFactors.PBlock 1 1) (lqrFactors.LrBlock 0 1) (lqrFactors.pBlock 1 1)).k0 ∧
            ∀ k, 1 ≤ k → k < lqrSize.N → ∀ Kk lk, KMatrics'[k]? = some Kk →
              kVectors'[k]? = some lk →
              (fun i : Fin (lqrSize.nu.getD k 0) => u k i) =
                Kk.view (lqrSize.nu.getD k 0) (lqrSize.nx.getD k 0) *ᵥ (fun i => x k i) -
                  (inverse (lqrFactors.LrBlock k (lqrSize.nu.getD k 0)))ᵀ *ᵥ
                    lk.view (lqrSize.nu.getD k 0)) :=
  ⟨lqr_agrees, rfl, lqr_symm, lqr_readBy, lqr_factor0.1, lqr_factor0.2, lqr_rowsReadBy,
    lqOptimal_iff_getRiccatiFeedback lqr_agrees rfl lqr_symm lqrFactors lqr_readBy rfl rfl
      lqr_factor0.1 lqr_factor0.2 lqr_rowsReadBy [] []⟩

section Solve

variable (ipm : OcpQp K → IpmResult K)
  (hopt : QpOptimal s (hpipmQp s.N x0 dynamics cost none)
    (ipm (hpipmQp s.N x0 dynamics cost none)).x (ipm (hpipmQp s.N x0 dynamics cost none)).u)
include hopt

/-- hpipm's optimal solution, with `x0` in front, follows the Riccati law at stage 0 and from
stage 1 on. -/
theorem follows_of_qpOptimal :
    (fun i : Fin (s.nu.getD 0 0) => (ipm (hpipmQp s.N x0 dynamics cost none)).u 0 i) =
        (stageData a0 c0 x0.size (s.nx.getD 1 0) (s.nu.getD 0 0)).law
          (lqFrom s dynamics cost 1).value (x0.view x0.size) ∧
      LqFeasible dynamics none (withX0 x0 (ipm (hpipmQp s.N x0 dynamics cost none)).x)
        (ipm (hpipmQp s.N x0 dynamics cost none)).u ∧
      (lqFrom s dynamics cost 1).Follows
        (fun i => withX0 x0 (ipm (hpipmQp s.N x0 dynamics cost none)).x 1 i)
        fun j => (ipm (hpipmQp s.N x0 dynamics cost none)).u (1 + j) := by
  obtain ⟨-, hf, hfol⟩ := (lqOptimal_iff_follows (h.fits hnu)
    (h.wellPosed hnu hQ ha0 hc0 hread hL0 hH0) _ _ _).mp (lqOptimal_of_qpOptimal h hopt)
  rw [lqHorizon_eq_stage ha0 hc0] at hfol
  obtain ⟨hu, ht⟩ := hfol
  rw [h.next_stage0 ha0 c0 rfl hf, shift_comm] at ht
  exact ⟨hu, hf, ht⟩

/-- **The first input `solve` returns is `getRiccatiZeroStage`'s law at `x0`.** Under the same
conditions, when hpipm returns an optimal solution of the QP, the input `solve` writes at stage 0
is `K0 x0 + k0` for the `K0` and `k0` that `getRiccatiZeroStage` computes from the stage-0
approximations and hpipm's `ric_P(1)`, `ric_Lr(0)` and `ric_p(1)`. -/
theorem solve_firstInput_eq_getRiccatiZeroStage :
    ∃ sol u0, solve s ipm x0 dynamics cost none = .ok sol ∧ sol.inputTrajectory[0]? = some u0 ∧
      u0.view (s.nu.getD 0 0) =
        (getRiccatiZeroStage (stageData a0 c0 x0.size (s.nx.getD 1 0) (s.nu.getD 0 0))
            (ric.PBlock 1 _) (ric.LrBlock 0 _) (ric.pBlock 1 _)).K0 *ᵥ x0.view x0.size +
          (getRiccatiZeroStage (stageData a0 c0 x0.size (s.nx.getD 1 0) (s.nu.getD 0 0))
            (ric.PBlock 1 _) (ric.LrBlock 0 _) (ric.pBlock 1 _)).k0 := by
  obtain ⟨hu, -, -⟩ := follows_of_qpOptimal h hnu hQ ric hread ha0 hc0 hL0 hH0 ipm hopt
  obtain ⟨hP1, hp1⟩ := hread.value_eq
  rw [hP1] at hH0 ⊢
  rw [hp1, ← StageData.law_eq_getRiccatiZeroStage _ _ hL0 hH0, ← hu]
  refine ⟨_, ⟨s.nu.getD 0 0, (ipm (hpipmQp s.N x0 dynamics cost none)).u 0⟩,
    solve_eq s h.wellFormed ipm x0 dynamics cost none h.horizon_pos h.dynamics_length
      h.cost_length (fun _ hc => nomatch hc), ?_, rfl⟩
  rw [inputSolution, getElem?_map_range, if_pos h.horizon_pos]

omit h hnu hQ hread ha0 hc0 hL0 hH0 hopt in
theorem solve_firstInput_eq_getRiccatiZeroStage_integrator :
    Agrees lqrSize lqrX0 lqrDynamics lqrCost none ∧ lqrSize.nu.getD lqrSize.N 0 = 0 ∧
    (∀ c ∈ lqrCost, c.dfdxx.IsSymm) ∧
    (lqFrom lqrSize lqrDynamics lqrCost 1).ReadBy lqrFactors 1 ∧
    IsUnit (lqrFactors.LrBlock 0 1).det ∧
    lqrFactors.LrBlock 0 1 * (lqrFactors.LrBlock 0 1)ᵀ =
      (stageData integrator (diagonalCost 1 3) 1 1 1).hessian (lqrFactors.PBlock 1 1) ∧
    QpOptimal lqrSize (hpipmQp lqrSize.N lqrX0 lqrDynamics lqrCost none)
      (lqrIpm (hpipmQp lqrSize.N lqrX0 lqrDynamics lqrCost none)).x
      (lqrIpm (hpipmQp lqrSize.N lqrX0 lqrDynamics lqrCost none)).u ∧
    ∃ sol u0, solve lqrSize lqrIpm lqrX0 lqrDynamics lqrCost none = .ok sol ∧
      sol.inputTrajectory[0]? = some u0 ∧
      u0.view 1 =
        (getRiccatiZeroStage (stageData integrator (diagonalCost 1 3) 1 1 1)
            (lqrFactors.PBlock 1 1) (lqrFactors.LrBlock 0 1) (lqrFactors.pBlock 1 1)).K0 *ᵥ
            lqrX0.view 1 +
          (getRiccatiZeroStage (stageData integrator (diagonalCost 1 3) 1 1 1)
            (lqrFactors.PBlock 1 1) (lqrFactors.LrBlock 0 1) (lqrFactors.pBlock 1 1)).k0 :=
  ⟨lqr_agrees, rfl, lqr_symm, lqr_readBy, lqr_factor0.1, lqr_factor0.2, lqrIpm_qpOptimal,
    solve_firstInput_eq_getRiccatiZeroStage lqr_agrees rfl lqr_symm lqrFactors lqr_readBy rfl rfl
      lqr_factor0.1 lqr_factor0.2 lqrIpm lqrIpm_qpOptimal⟩

/-- **The inputs `solve` returns follow the gains `getRiccatiFeedbackFeedforward` exposes, with
the feedforward corrected.** Under the same conditions, when hpipm returns an optimal solution
of the QP, at every interior stage `1 ≤ k < N` the input `u_k` that `solve` writes is
`KMatrics[k] x_k - Lr^{-T} kVectors[k]`, for the state `x_k` it writes, the gain `KMatrics[k]`
and the raw row `kVectors[k]` that `getRiccatiFeedbackFeedforward` stores and hpipm's
`Lr = ric_Lr(k)`: the feedforward of the law is `-Lr^{-T}` times what the getter stores. -/
theorem solve_inputs_eq_getRiccatiFeedbackFeedforward
    (hrows : (lqFrom s dynamics cost 1).RowsReadBy ric 1) (KMatrics : List (MatrixT K))
    (kVectors : List (VectorT K)) :
    ∃ sol KMatrics' kVectors', solve s ipm x0 dynamics cost none = .ok sol ∧
      getRiccatiFeedbackFeedforward s ric KMatrics kVectors = .ok (KMatrics', kVectors') ∧
      ∀ k, 1 ≤ k → k < s.N → ∃ uk xk Kk lk, sol.inputTrajectory[k]? = some uk ∧
        sol.stateTrajectory[k]? = some xk ∧ KMatrics'[k]? = some Kk ∧ kVectors'[k]? = some lk ∧
        uk.view (s.nu.getD k 0) =
          Kk.view (s.nu.getD k 0) (s.nx.getD k 0) *ᵥ xk.view (s.nx.getD k 0) -
            (inverse (ric.LrBlock k (s.nu.getD k 0)))ᵀ *ᵥ lk.view (s.nu.getD k 0) := by
  obtain ⟨-, hf, h1⟩ := follows_of_qpOptimal h hnu hQ ric hread ha0 hc0 hL0 hH0 ipm hopt
  refine ⟨_, _, _, solve_eq s h.wellFormed ipm x0 dynamics cost none h.horizon_pos
    h.dynamics_length h.cost_length (fun _ hc => nomatch hc),
    getRiccatiFeedbackFeedforward_eq ric h.wellFormed KMatrics kVectors, fun k hk1 hkN => ?_⟩
  have hd : k < dynamics.length := h.dynamics_length ▸ hkN
  have hc : k < cost.length := by rw [h.cost_length]; omega
  have hu := ((follows_lqFrom_succ h hf hk1 hd hc).mp (follows_lqFrom h hf h1 hk1 hkN.le)).1
  rw [law_eq_feedbackFeedforwardAt h hread hrows hk1 hkN hd hc,
    withX0_of_ne_zero x0 _ (by omega : k ≠ 0)] at hu
  refine ⟨⟨s.nu.getD k 0, (ipm (hpipmQp s.N x0 dynamics cost none)).u k⟩,
    ⟨s.nx.getD k 0, (ipm (hpipmQp s.N x0 dynamics cost none)).x k⟩,
    (feedbackFeedforwardAt s ric k).1, (feedbackFeedforwardAt s ric k).2, ?_, ?_, ?_, ?_, hu⟩
  · rw [inputSolution, getElem?_map_range, if_pos hkN]
  · rw [stateSolution, getElem?_map_range, if_pos (by omega), if_neg (by omega)]
  · rw [getElem?_map_range, if_pos hkN, if_neg (by omega)]
  · rw [getElem?_map_range, if_pos hkN, if_neg (by omega)]

omit h hnu hQ hread ha0 hc0 hL0 hH0 hopt in
theorem solve_inputs_eq_getRiccatiFeedbackFeedforward_integrator :
    Agrees lqrSize lqrX0 lqrDynamics lqrCost none ∧ lqrSize.nu.getD lqrSize.N 0 = 0 ∧
    (∀ c ∈ lqrCost, c.dfdxx.IsSymm) ∧
    (lqFrom lqrSize lqrDynamics lqrCost 1).ReadBy lqrFactors 1 ∧
    IsUnit (lqrFactors.LrBlock 0 1).det ∧
    lqrFactors.LrBlock 0 1 * (lqrFactors.LrBlock 0 1)ᵀ =
      (stageData integrator (diagonalCost 1 3) 1 1 1).hessian (lqrFactors.PBlock 1 1) ∧
    QpOptimal lqrSize (hpipmQp lqrSize.N lqrX0 lqrDynamics lqrCost none)
      (lqrIpm (hpipmQp lqrSize.N lqrX0 lqrDynamics lqrCost none)).x
      (lqrIpm (hpipmQp lqrSize.N lqrX0 lqrDynamics lqrCost none)).u ∧
    (lqFrom lqrSize lqrDynamics lqrCost 1).RowsReadBy lqrFactors 1 ∧
    ∃ sol KMatrics' kVectors', solve lqrSize lqrIpm lqrX0 lqrDynamics lqrCost none = .ok sol ∧
      getRiccatiFeedbackFeedforward lqrSize lqrFactors [] [] = .ok (KMatrics', kVectors') ∧
      ∀ k, 1 ≤ k → k < lqrSize.N → ∃ uk xk Kk lk, sol.inputTrajectory[k]? = some uk ∧
        sol.stateTrajectory[k]? = some xk ∧ KMatrics'[k]? = some Kk ∧ kVectors'[k]? = some lk ∧
        uk.view (lqrSize.nu.getD k 0) =
          Kk.view (lqrSize.nu.getD k 0) (lqrSize.nx.getD k 0) *ᵥ xk.view (lqrSize.nx.getD k 0) -
            (inverse (lqrFactors.LrBlock k (lqrSize.nu.getD k 0)))ᵀ *ᵥ
              lk.view (lqrSize.nu.getD k 0) :=
  ⟨lqr_agrees, rfl, lqr_symm, lqr_readBy, lqr_factor0.1, lqr_factor0.2, lqrIpm_qpOptimal,
    lqr_rowsReadBy, solve_inputs_eq_getRiccatiFeedbackFeedforward lqr_agrees rfl lqr_symm lqrFactors lqr_readBy
      rfl rfl lqr_factor0.1 lqr_factor0.2 lqrIpm lqrIpm_qpOptimal lqr_rowsReadBy [] []⟩

end Solve

end Riccati

end Sweep

end Hpipm
end Ocs2
