import Ocs2.Eigen
import Ocs2.Hpipm.Access

/-!
# Ocs2.Hpipm.Transcription

`HpipmInterface::Impl::solve`: the per-stage LQ approximations of ocs2 turned into the pointer
arrays handed to `d_ocp_qp_set_all`, hpipm's solve, and the trajectories read back by
`getStateSolution` and `getInputSolution`. The initial state is not a decision variable: stage 0
has no state in hpipm (`nx[0] = 0`), and `x0` is folded into `b0`, `r0` and the stage-0 bounds.

hpipm's solver is external: `IpmResult` is what it leaves behind for the QP it was given.

* `hpipmQp`: the arrays in closed form, every stage copied but for `b0 = f0 + A0 x0`,
  `r0 = dfdu0 + dfdux0 x0` and the stage-0 bounds `-e0 - C0 x0`.
* `transcribe_eq`: for `N ≥ 1` and argument vectors of the asserted lengths, the loops of `solve`
  stay inside every vector and build exactly `hpipmQp`.
* `solve_eq`: so does the whole of `solve`, which then returns the trajectories
  `x0, x_1, ..., x_N` and `u_0, ..., u_{N-1}` read from hpipm.
-/

namespace Ocs2
namespace Hpipm

open Finset

/-- `VectorFunctionLinearApproximation`: `f + dfdx dx + dfdu du`. -/
structure VectorFunctionLinearApproximation (K : Type) where
  f : VectorT K
  dfdx : MatrixT K
  dfdu : MatrixT K

/-- `ScalarFunctionQuadraticApproximation`:
`f + dfdx' dx + dfdu' du + 1/2 dx' dfdxx dx + du' dfdux dx + 1/2 du' dfduu du`. -/
structure ScalarFunctionQuadraticApproximation (K : Type) where
  f : K
  dfdx : VectorT K
  dfdu : VectorT K
  dfdxx : MatrixT K
  dfdux : MatrixT K
  dfduu : MatrixT K

/-- The pointer arrays `solve` hands to `d_ocp_qp_set_all`, `none` being `nullptr`. The box and
slack arrays, all `nullptr`, are left out. -/
structure OcpQp (K : Type) where
  AA : List (Option (MatrixT K))
  BB : List (Option (MatrixT K))
  bb : List (Option (VectorT K))
  QQ : List (Option (MatrixT K))
  RR : List (Option (MatrixT K))
  SS : List (Option (MatrixT K))
  qq : List (Option (VectorT K))
  rr : List (Option (VectorT K))
  CC : List (Option (MatrixT K))
  DD : List (Option (MatrixT K))
  llg : List (Option (VectorT K))
  uug : List (Option (VectorT K))

/-- What hpipm's `d_ocp_qp_ipm_solve` leaves: the stage values `d_ocp_qp_sol_get_x` and
`d_ocp_qp_sol_get_u` read, and the status `d_ocp_qp_ipm_get_status` reads. -/
structure IpmResult (K : Type) where
  x : ℕ → ℕ → K
  u : ℕ → ℕ → K
  status : ℤ

/-- The outputs of `solve`: the QP it set, the trajectories it wrote and the status it
returned. -/
structure Solution (K : Type) where
  qp : OcpQp K
  stateTrajectory : List (VectorT K)
  inputTrajectory : List (VectorT K)
  status : ℤ

variable {K : Type} [CommRing K]

/-- Stage `k` of the loop `for (int k = 1; k < N; k++)` over the dynamics. -/
def dynamicsStage (dynamics : List (VectorFunctionLinearApproximation K)) (k : ℕ)
    (p : List (Option (MatrixT K)) × List (Option (MatrixT K)) × List (Option (VectorT K))) :
    Except Fault (List (Option (MatrixT K)) × List (Option (MatrixT K)) ×
      List (Option (VectorT K))) := do
  let d ← index dynamics k
  let AA ← assign p.1 k (some d.dfdx)
  let BB ← assign p.2.1 k (some d.dfdu)
  let bb ← assign p.2.2 k (some d.f)
  pure (AA, BB, bb)

/-- Dynamics: `k = 0` absorbs the initial state into `b0 = f0 + dfdx0 x0`; `k = 1 .. N-1` are
copied. -/
def dynamicsPointers (N : ℕ) (x0 : VectorT K)
    (dynamics : List (VectorFunctionLinearApproximation K)) :
    Except Fault (List (Option (MatrixT K)) × List (Option (MatrixT K)) ×
      List (Option (VectorT K))) := do
  let d0 ← index dynamics 0
  let b0 := d0.f + d0.dfdx * x0
  let AA ← assign (List.replicate N none) 0 (some d0.dfdx)
  let BB ← assign (List.replicate N none) 0 (some d0.dfdu)
  let bb ← assign (List.replicate N none) 0 (some b0)
  forRange (dynamicsStage dynamics) 1 (N - 1) (AA, BB, bb)

/-- Stage `k` of the loop `for (int k = 1; k < N + 1; k++)` over the cost. -/
def costStage (cost : List (ScalarFunctionQuadraticApproximation K)) (k : ℕ)
    (p : List (Option (MatrixT K)) × List (Option (MatrixT K)) × List (Option (MatrixT K)) ×
      List (Option (VectorT K)) × List (Option (VectorT K))) :
    Except Fault (List (Option (MatrixT K)) × List (Option (MatrixT K)) ×
      List (Option (MatrixT K)) × List (Option (VectorT K)) × List (Option (VectorT K))) := do
  let c ← index cost k
  let QQ ← assign p.1 k (some c.dfdxx)
  let RR ← assign p.2.1 k (some c.dfduu)
  let SS ← assign p.2.2.1 k (some c.dfdux)
  let qq ← assign p.2.2.2.1 k (some c.dfdx)
  let rr ← assign p.2.2.2.2 k (some c.dfdu)
  pure (QQ, RR, SS, qq, rr)

/-- Cost: `k = 0` adapts `r0 = dfdu0 + dfdux0 x0` (`q0` is left, `x0` not being a decision
variable); `k = 1 .. N` are copied. -/
def costPointers (N : ℕ) (x0 : VectorT K) (cost : List (ScalarFunctionQuadraticApproximation K)) :
    Except Fault (List (Option (MatrixT K)) × List (Option (MatrixT K)) ×
      List (Option (MatrixT K)) × List (Option (VectorT K)) × List (Option (VectorT K))) := do
  let c0 ← index cost 0
  let r0 := c0.dfdu + c0.dfdux * x0
  let QQ ← assign (List.replicate (N + 1) none) 0 (some c0.dfdxx)
  let RR ← assign (List.replicate (N + 1) none) 0 (some c0.dfduu)
  let SS ← assign (List.replicate (N + 1) none) 0 (some c0.dfdux)
  let qq ← assign (List.replicate (N + 1) none) 0 (some c0.dfdx)
  let rr ← assign (List.replicate (N + 1) none) 0 (some r0)
  forRange (costStage cost) 1 N (QQ, RR, SS, qq, rr)

/-- Stage `k` of the loop `for (int k = 0; k < N + 1; k++)` over the constraints
`C dx + D du + e = 0`, set as `lg = ug = -e` with the stage-0 bound moved by `-C0 x0`.
`boundData` owns the bounds; it is reserved for `N + 1` entries, so the pointers into it stay
valid. -/
def constraintStage (x0 : VectorT K) (constr : List (VectorFunctionLinearApproximation K)) (k : ℕ)
    (p : List (VectorT K) × List (Option (MatrixT K)) × List (Option (MatrixT K)) ×
      List (Option (VectorT K)) × List (Option (VectorT K))) :
    Except Fault (List (VectorT K) × List (Option (MatrixT K)) × List (Option (MatrixT K)) ×
      List (Option (VectorT K)) × List (Option (VectorT K))) := do
  let c ← index constr k
  let CC ← assign p.2.1 k (some c.dfdx)
  let DD ← assign p.2.2.1 k (some c.dfdu)
  let boundData := p.1 ++ [-c.f]
  let boundData ← if k = 0 then do
      let c0 ← index constr 0
      let bk ← index boundData k
      assign boundData k (bk - c0.dfdx * x0)
    else pure boundData
  let bk ← index boundData k
  let llg ← assign p.2.2.2.1 k (some bk)
  let uug ← assign p.2.2.2.2 k (some bk)
  pure (boundData, CC, DD, llg, uug)

/-- Constraints, all stages. -/
def constraintPointers (N : ℕ) (x0 : VectorT K)
    (constr : List (VectorFunctionLinearApproximation K)) :
    Except Fault (List (VectorT K) × List (Option (MatrixT K)) × List (Option (MatrixT K)) ×
      List (Option (VectorT K)) × List (Option (VectorT K))) :=
  forRange (constraintStage x0 constr) 0 (N + 1)
    ([], List.replicate (N + 1) none, List.replicate (N + 1) none, List.replicate (N + 1) none,
      List.replicate (N + 1) none)

/-- The transcription in `solve`, up to `d_ocp_qp_set_all`. -/
def transcribe (N : ℕ) (x0 : VectorT K) (dynamics : List (VectorFunctionLinearApproximation K))
    (cost : List (ScalarFunctionQuadraticApproximation K))
    (constraints : Option (List (VectorFunctionLinearApproximation K))) :
    Except Fault (OcpQp K) := do
  let (AA, BB, bb) ← dynamicsPointers N x0 dynamics
  let (QQ, RR, SS, qq, rr) ← costPointers N x0 cost
  let (CC, DD, llg, uug) ← match constraints with
    | none => pure (List.replicate (N + 1) none, List.replicate (N + 1) none,
        List.replicate (N + 1) none, List.replicate (N + 1) none)
    | some constr => do
      let (_, CC, DD, llg, uug) ← constraintPointers N x0 constr
      pure (CC, DD, llg, uug)
  pure ⟨AA, BB, bb, QQ, RR, SS, qq, rr, CC, DD, llg, uug⟩

/-- An empty `vector_t`. -/
def VectorT.empty : VectorT K := ⟨0, fun _ => 0⟩

/-- Stage `k` of the loops of `getStateSolution` and `getInputSolution`: entry `k` of the
trajectory resized to `dims[k]` and filled by hpipm's getter `v k`. -/
def readStage (dims : List ℕ) (v : ℕ → ℕ → K) (k : ℕ) (traj : List (VectorT K)) :
    Except Fault (List (VectorT K)) := do
  let n ← index dims k
  assign traj k ⟨n, v k⟩

/-- `getStateSolution`: `stateTrajectory` resized to `N + 1` (every entry is overwritten), its
front set to `x0`, and `x_k` of size `nx[k]` read from hpipm for `k = 1 .. N`. -/
def getStateSolution (s : OcpSize) (x : ℕ → ℕ → K) (x0 : VectorT K) :
    Except Fault (List (VectorT K)) := do
  let traj ← assign (List.replicate (s.N + 1) VectorT.empty) 0 x0
  forRange (readStage s.nx x) 1 s.N traj

/-- `getInputSolution`: `u_k` of size `nu[k]` read from hpipm for `k = 0 .. N-1`. -/
def getInputSolution (s : OcpSize) (u : ℕ → ℕ → K) : Except Fault (List (VectorT K)) :=
  forRange (readStage s.nu u) 0 s.N (List.replicate s.N VectorT.empty)

/-- `solve`, on the stored shape `s` (with `nx[0] = 0`); `ipm` is hpipm's solver. The asserts
on the argument sizes are preconditions of the theorems, not checks of the model. -/
def solve (s : OcpSize) (ipm : OcpQp K → IpmResult K) (x0 : VectorT K)
    (dynamics : List (VectorFunctionLinearApproximation K))
    (cost : List (ScalarFunctionQuadraticApproximation K))
    (constraints : Option (List (VectorFunctionLinearApproximation K))) :
    Except Fault (Solution K) := do
  let qp ← transcribe s.N x0 dynamics cost constraints
  let res := ipm qp
  let stateTrajectory ← getStateSolution s res.x x0
  let inputTrajectory ← getInputSolution s res.u
  pure ⟨qp, stateTrajectory, inputTrajectory, res.status⟩

/-! ## The arrays and the trajectories, in closed form -/

/-- `b_k` as hpipm receives it: `f_0 + dfdx_0 x0` at stage 0, `f_k` after. -/
def dynamicsBias (x0 : VectorT K) (k : ℕ) (d : VectorFunctionLinearApproximation K) : VectorT K :=
  if k = 0 then d.f + d.dfdx * x0 else d.f

/-- `r_k` as hpipm receives it: `dfdu_0 + dfdux_0 x0` at stage 0, `dfdu_k` after. -/
def costInputGradient (x0 : VectorT K) (k : ℕ) (c : ScalarFunctionQuadraticApproximation K) :
    VectorT K :=
  if k = 0 then c.dfdu + c.dfdux * x0 else c.dfdu

/-- `lg_k = ug_k` as hpipm receives them: `-e_0 - C_0 x0` at stage 0, `-e_k` after. -/
def constraintBound (x0 : VectorT K) (k : ℕ) (c : VectorFunctionLinearApproximation K) :
    VectorT K :=
  if k = 0 then -c.f - c.dfdx * x0 else -c.f

/-- The QP of the LQ problem with `x_0 = x0` eliminated, array by array: every stage copied but
for `b_0`, `r_0` and the stage-0 bounds. -/
def hpipmQp (N : ℕ) (x0 : VectorT K) (dynamics : List (VectorFunctionLinearApproximation K))
    (cost : List (ScalarFunctionQuadraticApproximation K))
    (constraints : Option (List (VectorFunctionLinearApproximation K))) : OcpQp K where
  AA := dynamics.map fun d => some d.dfdx
  BB := dynamics.map fun d => some d.dfdu
  bb := dynamics.mapIdx fun k d => some (dynamicsBias x0 k d)
  QQ := cost.map fun c => some c.dfdxx
  RR := cost.map fun c => some c.dfduu
  SS := cost.map fun c => some c.dfdux
  qq := cost.map fun c => some c.dfdx
  rr := cost.mapIdx fun k c => some (costInputGradient x0 k c)
  CC := constraints.elim (List.replicate (N + 1) none) (List.map fun c => some c.dfdx)
  DD := constraints.elim (List.replicate (N + 1) none) (List.map fun c => some c.dfdu)
  llg := constraints.elim (List.replicate (N + 1) none)
    (List.mapIdx fun k c => some (constraintBound x0 k c))
  uug := constraints.elim (List.replicate (N + 1) none)
    (List.mapIdx fun k c => some (constraintBound x0 k c))

/-- The state trajectory `getStateSolution` writes: `x0`, then `x_k` of size `nx[k]`. -/
def stateSolution (s : OcpSize) (x : ℕ → ℕ → K) (x0 : VectorT K) : List (VectorT K) :=
  (List.range (s.N + 1)).map fun k => if k = 0 then x0 else ⟨s.nx.getD k 0, x k⟩

/-- The input trajectory `getInputSolution` writes: `u_k` of size `nu[k]`, `k < N`. -/
def inputSolution (s : OcpSize) (u : ℕ → ℕ → K) : List (VectorT K) :=
  (List.range s.N).map fun k => ⟨s.nu.getD k 0, u k⟩

omit [CommRing K] in
@[simp] theorem stateSolution_length (s : OcpSize) (x : ℕ → ℕ → K) (x0 : VectorT K) :
    (stateSolution s x x0).length = s.N + 1 := by
  simp [stateSolution]

omit [CommRing K] in
@[simp] theorem inputSolution_length (s : OcpSize) (u : ℕ → ℕ → K) :
    (inputSolution s u).length = s.N := by
  simp [inputSolution]

/-! ## The loops of `solve` -/

omit [CommRing K] in
theorem dynamicsStage_ok {dynamics : List (VectorFunctionLinearApproximation K)} {k : ℕ}
    {p : List (Option (MatrixT K)) × List (Option (MatrixT K)) × List (Option (VectorT K))}
    (hk : k < dynamics.length) (hp : p.1.length = dynamics.length ∧ p.2.1.length = dynamics.length ∧
      p.2.2.length = dynamics.length) :
    dynamicsStage dynamics k p = .ok (p.1.set k (some dynamics[k].dfdx),
      p.2.1.set k (some dynamics[k].dfdu), p.2.2.set k (some dynamics[k].f)) := by
  obtain ⟨h1, h2, h3⟩ := hp
  simp only [dynamicsStage, index_ok hk, assign_ok _ (h1 ▸ hk), assign_ok _ (h2 ▸ hk),
    assign_ok _ (h3 ▸ hk)]
  rfl

theorem dynamicsPointers_eq (x0 : VectorT K) (dynamics : List (VectorFunctionLinearApproximation K))
    (hN : 0 < dynamics.length) :
    dynamicsPointers dynamics.length x0 dynamics = .ok (dynamics.map fun d => some d.dfdx,
      dynamics.map fun d => some d.dfdu,
      dynamics.mapIdx fun k d => some (dynamicsBias x0 k d)) := by
  set N := dynamics.length
  have h0 : 0 < (List.replicate N (none : Option (MatrixT K))).length := by simpa using hN
  have h0' : 0 < (List.replicate N (none : Option (VectorT K))).length := by simpa using hN
  obtain ⟨s, hs, -, hv⟩ := forRange_fill
    (fun _ p => p.1.length = N ∧ p.2.1.length = N ∧ p.2.2.length = N)
    (fun p j => (p.1[j]?, p.2.1[j]?, p.2.2[j]?))
    (dynamics.map fun d => some d.dfdx, dynamics.map fun d => some d.dfdu,
      dynamics.mapIdx fun k d => some (dynamicsBias x0 k d))
    (dynamicsStage dynamics) (N - 1) 1
    ((List.replicate N none).set 0 (some dynamics[0].dfdx),
      (List.replicate N none).set 0 (some dynamics[0].dfdu),
      (List.replicate N none).set 0 (some (dynamics[0].f + dynamics[0].dfdx * x0))) (by simp)
    (fun j hj => by
      rcases hj with hj | hj
      · obtain rfl : j = 0 := by omega
        simp only [List.length_set, List.length_replicate, hN, List.getElem?_eq_getElem,
          List.getElem_set_self, List.length_map, List.getElem_map, dynamicsBias,
          List.length_mapIdx, List.getElem_mapIdx, if_pos]
      · have hN' : N ≤ j := by omega
        simp only [getElem?_set_of_ne (show j ≠ 0 by omega), List.getElem?_map,
          List.getElem?_eq_none hN', Option.map_none', List.getElem?_mapIdx, Prod.mk.injEq,
          List.getElem?_eq_none_iff, List.length_replicate, hN', and_self])
    (fun k p hlo hhi hp => ⟨_, dynamicsStage_ok (by omega) hp,
      by simpa only [List.length_set] using hp,
      by simp only [List.length_set, hp.1, hp.2.1, hp.2.2, show k < N by omega,
          List.getElem?_eq_getElem, List.getElem_set_self, List.length_map, List.getElem_map,
          dynamicsBias, List.length_mapIdx, List.getElem_mapIdx, show k ≠ 0 by omega, if_false],
      fun j hj => by simp only [getElem?_set_of_ne hj]⟩)
  simp only [Prod.mk.injEq] at hv
  simp only [dynamicsPointers, index_ok hN, assign_ok _ h0, assign_ok _ h0', ok_bind, hs]
  congr 1
  exact Prod.ext (List.ext_getElem? fun j => (hv j).1)
    (Prod.ext (List.ext_getElem? fun j => (hv j).2.1) (List.ext_getElem? fun j => (hv j).2.2))

omit [CommRing K] in
theorem costStage_ok {cost : List (ScalarFunctionQuadraticApproximation K)} {k : ℕ}
    {p : List (Option (MatrixT K)) × List (Option (MatrixT K)) × List (Option (MatrixT K)) ×
      List (Option (VectorT K)) × List (Option (VectorT K))}
    (hk : k < cost.length) (hp : p.1.length = cost.length ∧ p.2.1.length = cost.length ∧
      p.2.2.1.length = cost.length ∧ p.2.2.2.1.length = cost.length ∧
      p.2.2.2.2.length = cost.length) :
    costStage cost k p = .ok (p.1.set k (some cost[k].dfdxx), p.2.1.set k (some cost[k].dfduu),
      p.2.2.1.set k (some cost[k].dfdux), p.2.2.2.1.set k (some cost[k].dfdx),
      p.2.2.2.2.set k (some cost[k].dfdu)) := by
  obtain ⟨h1, h2, h3, h4, h5⟩ := hp
  simp only [costStage, index_ok hk, assign_ok _ (h1 ▸ hk), assign_ok _ (h2 ▸ hk),
    assign_ok _ (h3 ▸ hk), assign_ok _ (h4 ▸ hk), assign_ok _ (h5 ▸ hk)]
  rfl

theorem costPointers_eq (x0 : VectorT K) (cost : List (ScalarFunctionQuadraticApproximation K))
    {N : ℕ} (hN : cost.length = N + 1) :
    costPointers N x0 cost = .ok (cost.map fun c => some c.dfdxx, cost.map fun c => some c.dfduu,
      cost.map fun c => some c.dfdux, cost.map fun c => some c.dfdx,
      cost.mapIdx fun k c => some (costInputGradient x0 k c)) := by
  have h0 : 0 < cost.length := by omega
  have hm : 0 < (List.replicate (N + 1) (none : Option (MatrixT K))).length :=
    (List.length_replicate _ _).symm ▸ N.succ_pos
  have hv' : 0 < (List.replicate (N + 1) (none : Option (VectorT K))).length :=
    (List.length_replicate _ _).symm ▸ N.succ_pos
  obtain ⟨s, hs, -, hv⟩ := forRange_fill
    (fun _ p => p.1.length = N + 1 ∧ p.2.1.length = N + 1 ∧ p.2.2.1.length = N + 1 ∧
      p.2.2.2.1.length = N + 1 ∧ p.2.2.2.2.length = N + 1)
    (fun p j => (p.1[j]?, p.2.1[j]?, p.2.2.1[j]?, p.2.2.2.1[j]?, p.2.2.2.2[j]?))
    (cost.map fun c => some c.dfdxx, cost.map fun c => some c.dfduu,
      cost.map fun c => some c.dfdux, cost.map fun c => some c.dfdx,
      cost.mapIdx fun k c => some (costInputGradient x0 k c))
    (costStage cost) N 1
    ((List.replicate (N + 1) none).set 0 (some cost[0].dfdxx),
      (List.replicate (N + 1) none).set 0 (some cost[0].dfduu),
      (List.replicate (N + 1) none).set 0 (some cost[0].dfdux),
      (List.replicate (N + 1) none).set 0 (some cost[0].dfdx),
      (List.replicate (N + 1) none).set 0 (some (cost[0].dfdu + cost[0].dfdux * x0))) (by simp)
    (fun j hj => by
      rcases hj with hj | hj
      · obtain rfl : j = 0 := by omega
        simp only [List.length_set, List.length_replicate, List.getElem?_eq_getElem, h0,
          Nat.zero_lt_succ, List.getElem_set_self, List.length_map, List.getElem_map,
          costInputGradient,          List.length_mapIdx, List.getElem_mapIdx, if_pos]
      · have hN' : cost.length ≤ j := by omega
        simp only [← hN, getElem?_set_of_ne (show j ≠ 0 by omega), List.getElem?_map,
          List.getElem?_eq_none hN', Option.map_none', List.getElem?_mapIdx, Prod.mk.injEq,
          List.getElem?_eq_none_iff, List.length_replicate, hN', and_self])
    (fun k p hlo hhi hp => ⟨_, costStage_ok (by omega) (by simpa [hN] using hp),
      by simpa only [List.length_set] using hp, by
      simp only [List.length_set, hp.1, hp.2.1, hp.2.2.1, hp.2.2.2.1, hp.2.2.2.2,
        show k < N + 1 by omega, List.getElem?_eq_getElem, List.getElem_set_self, List.length_map,
        show k < cost.length by omega, List.getElem_map, costInputGradient, List.length_mapIdx,
        List.getElem_mapIdx, show k ≠ 0 by omega, if_false],
      fun j hj => by simp only [getElem?_set_of_ne hj]⟩)
  simp only [Prod.mk.injEq] at hv
  simp only [costPointers, index_ok h0, assign_ok _ hm, assign_ok _ hv', ok_bind, hs]
  congr 1
  exact Prod.ext (List.ext_getElem? fun j => (hv j).1)
    (Prod.ext (List.ext_getElem? fun j => (hv j).2.1)
      (Prod.ext (List.ext_getElem? fun j => (hv j).2.2.1)
        (Prod.ext (List.ext_getElem? fun j => (hv j).2.2.2.1)
          (List.ext_getElem? fun j => (hv j).2.2.2.2))))

theorem constraintStage_ok (x0 : VectorT K) {constr : List (VectorFunctionLinearApproximation K)}
    {k : ℕ} {p : List (VectorT K) × List (Option (MatrixT K)) × List (Option (MatrixT K)) ×
      List (Option (VectorT K)) × List (Option (VectorT K))}
    (hk : k < constr.length) (hp : p.1.length = k ∧ p.2.1.length = constr.length ∧
      p.2.2.1.length = constr.length ∧ p.2.2.2.1.length = constr.length ∧
      p.2.2.2.2.length = constr.length) :
    ∃ bd, constraintStage x0 constr k p = .ok (bd, p.2.1.set k (some constr[k].dfdx),
      p.2.2.1.set k (some constr[k].dfdu), p.2.2.2.1.set k (some (constraintBound x0 k constr[k])),
      p.2.2.2.2.set k (some (constraintBound x0 k constr[k]))) ∧ bd.length = k + 1 := by
  obtain ⟨h0, h1, h2, h3, h4⟩ := hp
  have hlt : k < (p.1 ++ [-constr[k].f]).length := by simp [h0]
  have hget : (p.1 ++ [-constr[k].f])[k] = -constr[k].f :=
    List.getElem_concat_length _ _ _ h0.symm hlt
  by_cases hk0 : k = 0
  · subst hk0
    have hlt' :
        0 < ((p.1 ++ [-constr[0].f]).set 0 (-constr[0].f - constr[0].dfdx * x0)).length := by
      simp
    refine ⟨(p.1 ++ [-constr[0].f]).set 0 (-constr[0].f - constr[0].dfdx * x0), ?_, by simp [h0]⟩
    simp only [constraintStage, index_ok hk, assign_ok _ (h1 ▸ hk), assign_ok _ (h2 ▸ hk),
      if_true, ok_bind, pure_eq_ok, index_ok hlt, hget, assign_ok _ hlt, index_ok hlt',
      List.getElem_set_self, assign_ok _ (h3 ▸ hk), assign_ok _ (h4 ▸ hk), constraintBound]
  · refine ⟨p.1 ++ [-constr[k].f], ?_, by simp [h0]⟩
    simp only [constraintStage, index_ok hk, assign_ok _ (h1 ▸ hk), assign_ok _ (h2 ▸ hk),
      if_neg hk0, ok_bind, pure_eq_ok, index_ok hlt, hget, assign_ok _ (h3 ▸ hk),
      assign_ok _ (h4 ▸ hk), constraintBound]

theorem constraintPointers_eq (x0 : VectorT K) (constr : List (VectorFunctionLinearApproximation K))
    {N : ℕ} (hN : constr.length = N + 1) :
    ∃ bd, constraintPointers N x0 constr = .ok (bd, constr.map fun c => some c.dfdx,
      constr.map fun c => some c.dfdu, constr.mapIdx fun k c => some (constraintBound x0 k c),
      constr.mapIdx fun k c => some (constraintBound x0 k c)) := by
  obtain ⟨s, hs, -, hv⟩ := forRange_fill
    (fun k p => p.1.length = k ∧ p.2.1.length = N + 1 ∧ p.2.2.1.length = N + 1 ∧
      p.2.2.2.1.length = N + 1 ∧ p.2.2.2.2.length = N + 1)
    (fun p j => (p.2.1[j]?, p.2.2.1[j]?, p.2.2.2.1[j]?, p.2.2.2.2[j]?))
    ([], constr.map fun c => some c.dfdx, constr.map fun c => some c.dfdu,
      constr.mapIdx fun k c => some (constraintBound x0 k c),
      constr.mapIdx fun k c => some (constraintBound x0 k c))
    (constraintStage x0 constr) (N + 1) 0
    ([], List.replicate (N + 1) none, List.replicate (N + 1) none, List.replicate (N + 1) none,
      List.replicate (N + 1) none) (by simp)
    (fun j hj => by
      have hN' : constr.length ≤ j := by omega
      simp only [← hN, List.getElem?_map, List.getElem?_eq_none hN', Option.map_none',
        List.getElem?_mapIdx, Prod.mk.injEq, List.getElem?_eq_none_iff, List.length_replicate, hN',
        and_self])
    (fun k p _ hhi hp => by
      obtain ⟨bd, hb, hbd⟩ := constraintStage_ok x0 (show k < constr.length by omega)
        (by simpa [hN] using hp)
      exact ⟨_, hb, by simpa only [hbd, List.length_set, true_and] using hp.2, by
        simp only [List.length_set, hp.2.1, hp.2.2.1, hp.2.2.2.1, hp.2.2.2.2,
          show k < N + 1 by omega, List.getElem?_eq_getElem, List.getElem_set_self,
          List.length_map, show k < constr.length by omega, List.getElem_map, List.length_mapIdx,
          List.getElem_mapIdx],
        fun j hj => by simp only [getElem?_set_of_ne hj]⟩)
  simp only [Prod.mk.injEq] at hv
  refine ⟨s.1, ?_⟩
  rw [constraintPointers, hs]
  congr 1
  exact Prod.ext rfl (Prod.ext (List.ext_getElem? fun j => (hv j).1)
    (Prod.ext (List.ext_getElem? fun j => (hv j).2.1)
      (Prod.ext (List.ext_getElem? fun j => (hv j).2.2.1)
        (List.ext_getElem? fun j => (hv j).2.2.2))))

theorem transcribe_eq (x0 : VectorT K) (dynamics : List (VectorFunctionLinearApproximation K))
    (cost : List (ScalarFunctionQuadraticApproximation K))
    (constraints : Option (List (VectorFunctionLinearApproximation K))) {N : ℕ} (hN : 0 < N)
    (hd : dynamics.length = N) (hc : cost.length = N + 1)
    (hcon : ∀ constr ∈ constraints, constr.length = N + 1) :
    transcribe N x0 dynamics cost constraints = .ok (hpipmQp N x0 dynamics cost constraints) := by
  subst hd
  simp only [transcribe, dynamicsPointers_eq x0 dynamics hN, costPointers_eq x0 cost hc, ok_bind]
  cases constraints with
  | none => rfl
  | some constr =>
    obtain ⟨bd, h⟩ := constraintPointers_eq x0 constr (hcon constr rfl)
    simp only [h, ok_bind]
    rfl

omit [CommRing K] in
theorem readStage_ok (dims : List ℕ) (v : ℕ → ℕ → K) {k : ℕ} {t : List (VectorT K)}
    (hk : k < dims.length) (ht : k < t.length) :
    readStage dims v k t = .ok (t.set k ⟨dims.getD k 0, v k⟩) := by
  simp [readStage, index_ok hk, assign_ok _ ht, List.getD_eq_getElem?_getD, hk]

theorem getStateSolution_eq (s : OcpSize) (hs : s.nx.length = s.N + 1) (x : ℕ → ℕ → K)
    (x0 : VectorT K) : getStateSolution s x x0 = .ok (stateSolution s x x0) := by
  have h0 : 0 < (List.replicate (s.N + 1) (VectorT.empty : VectorT K)).length := by simp
  obtain ⟨t, ht, -, hv⟩ := forRange_fill (fun _ t => t.length = s.N + 1) (fun t j => t[j]?)
    (stateSolution s x x0) (readStage s.nx x) s.N 1
    ((List.replicate (s.N + 1) VectorT.empty).set 0 x0) (by simp)
    (fun j hj => by
      rcases hj with hj | hj
      · obtain rfl : j = 0 := by omega
        simp [stateSolution]
      · dsimp only
        rw [getElem?_set_of_ne (by omega), List.getElem?_eq_none (by simp; omega),
          List.getElem?_eq_none (by simp; omega)])
    (fun k t hlo hhi ht => ⟨_, readStage_ok _ _ (by omega) (by omega), by simpa using ht,
      by simp [stateSolution, ht, show k < s.N + 1 by omega, show k ≠ 0 by omega],
      fun j hj => getElem?_set_of_ne hj⟩)
  simp only [getStateSolution, assign_ok _ h0, ok_bind, ht]
  exact congrArg _ (List.ext_getElem? hv)

theorem getInputSolution_eq (s : OcpSize) (hs : s.N ≤ s.nu.length) (u : ℕ → ℕ → K) :
    getInputSolution s u = .ok (inputSolution s u) := by
  obtain ⟨t, ht, -, hv⟩ := forRange_fill (fun _ t => t.length = s.N) (fun t j => t[j]?)
    (inputSolution s u) (readStage s.nu u) s.N 0 (List.replicate s.N VectorT.empty) (by simp)
    (fun j hj => by
      dsimp only
      rw [List.getElem?_eq_none (by simp; omega), List.getElem?_eq_none (by simp; omega)])
    (fun k t _ hhi ht => ⟨_, readStage_ok _ _ (by omega) (by omega), by simpa using ht,
      by simp [inputSolution, ht, show k < s.N by omega], fun j hj => getElem?_set_of_ne hj⟩)
  rw [getInputSolution, ht]
  exact congrArg _ (List.ext_getElem? hv)
theorem solve_eq (s : OcpSize) (hs : s.WellFormed) (ipm : OcpQp K → IpmResult K) (x0 : VectorT K)
    (dynamics : List (VectorFunctionLinearApproximation K))
    (cost : List (ScalarFunctionQuadraticApproximation K))
    (constraints : Option (List (VectorFunctionLinearApproximation K))) (hN : 0 < s.N)
    (hd : dynamics.length = s.N) (hc : cost.length = s.N + 1)
    (hcon : ∀ constr ∈ constraints, constr.length = s.N + 1) :
    solve s ipm x0 dynamics cost constraints = .ok ⟨hpipmQp s.N x0 dynamics cost constraints,
      stateSolution s (ipm (hpipmQp s.N x0 dynamics cost constraints)).x x0,
      inputSolution s (ipm (hpipmQp s.N x0 dynamics cost constraints)).u,
      (ipm (hpipmQp s.N x0 dynamics cost constraints)).status⟩ := by
  simp only [solve, transcribe_eq x0 dynamics cost constraints hN hd hc hcon, ok_bind,
    getStateSolution_eq s hs.1, getInputSolution_eq s (by have := hs.2.1; omega), pure_eq_ok]

end Hpipm
end Ocs2
