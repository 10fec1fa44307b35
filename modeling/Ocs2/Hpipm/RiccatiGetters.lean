import Mathlib
import Ocs2.Hpipm.Riccati

/-!
# Ocs2.Hpipm.RiccatiGetters

`getRiccatiCostToGo` and `getRiccatiFeedbackFeedforward`: after a solve, the loops that copy
hpipm's Riccati recursion out, stage by stage, into the caller's vectors of Eigen objects.
hpipm's getters `d_ocp_qp_ipm_get_ric_*` are the fields of `RiccatiFactors`, each the entries it
writes into the storage of the object it is given. The vectors are the caller's: `resize` keeps
what they held below the new size.

Unlike `solve` and `getRiccatiZeroStage`, neither getter reads past a vector, for any horizon,
`N = 0` included. For `N > 0` neither writes stage 0: `PMatrics[0]`, `pVectors[0]`,
`KMatrics[0]` and `kVectors[0]` are left as the caller had them, for `getRiccatiZeroStage` to
fill.

* `getRiccatiCostToGo_eq`, `getRiccatiFeedbackFeedforward_eq`: what the loops leave, stage by
  stage.
* `feedbackGain_view`: read with hpipm's dimensions, the dynamic `-(Ls Lr^{-1})'` the loop stores
  is the typed `feedbackFeedforward` of `Ocs2.Hpipm.Riccati`.
* `getRiccatiFeedbackFeedforward_lqr`: every interior `KMatrics[k]` is the LQR feedback of its
  stage.
-/

namespace Ocs2

open Finset Matrix

variable {K : Type}

/-! ## Eigen's dynamic matrix operations -/

namespace MatrixT

/-- A default-constructed `matrix_t`: `0 × 0`. -/
def empty [Zero K] : MatrixT K := ⟨0, 0, fun _ _ => 0⟩

instance [Neg K] : Neg (MatrixT K) := ⟨fun A => ⟨A.rows, A.cols, fun i j => -A.get i j⟩⟩

/-- Eigen's `A * B`, summed over `A`'s columns. -/
instance [CommRing K] : HMul (MatrixT K) (MatrixT K) (MatrixT K) :=
  ⟨fun A B => ⟨A.rows, B.cols, fun i j => ∑ l ∈ range A.cols, A.get i l * B.get l j⟩⟩

def transpose (A : MatrixT K) : MatrixT K := ⟨A.cols, A.rows, fun i j => A.get j i⟩

/-- The `m × n` matrix read from `A`'s entries, as hpipm reads a pointer with its own
dimensions. -/
def view (A : MatrixT K) (m n : ℕ) : Matrix (Fin m) (Fin n) K := Matrix.of fun i j => A.get i j

def ofMatrix [Zero K] {m n : ℕ} (M : Matrix (Fin m) (Fin n) K) : MatrixT K :=
  ⟨m, n, fun i j => if h : i < m ∧ j < n then M ⟨i, h.1⟩ ⟨j, h.2⟩ else 0⟩

/-- Eigen's `A.inverse()` of a square `A`. -/
def inverse [LinearOrderedField K] (A : MatrixT K) : MatrixT K :=
  ofMatrix (Hpipm.inverse (A.view A.rows A.rows))

@[simp] theorem view_ofMatrix [Zero K] {m n : ℕ} (M : Matrix (Fin m) (Fin n) K) :
    (ofMatrix M).view m n = M := by
  ext i j
  simp [view, ofMatrix]

theorem view_neg [Neg K] (A : MatrixT K) (m n : ℕ) : (-A).view m n = -A.view m n := rfl

theorem view_transpose (A : MatrixT K) (m n : ℕ) : A.transpose.view m n = (A.view n m)ᵀ := rfl

theorem view_mul [CommRing K] (A B : MatrixT K) (m n : ℕ) :
    (A * B).view m n = A.view m A.cols * B.view A.cols n := by
  ext i j
  exact sum_range fun l => A.get i l * B.get l j

end MatrixT

namespace Hpipm

/-- hpipm's Riccati getters after a solve, by stage: `ric_P(k)`, `ric_p(k)`, `ric_Lr(k)`,
`ric_Ls(k)` and `ric_k(k)`, each as the entries it writes. -/
structure RiccatiFactors (K : Type) where
  P : ℕ → ℕ → ℕ → K
  p : ℕ → ℕ → K
  Lr : ℕ → ℕ → ℕ → K
  Ls : ℕ → ℕ → ℕ → K
  k : ℕ → ℕ → K

namespace RiccatiFactors

variable (ric : RiccatiFactors K)

/-- `ric_Lr(k)` as hpipm's `nu × nu` block; `ric_Ls(k)` and `ric_k(k)` below are read the same
way, as `nx × nu` and `nu` entries. -/
def LrBlock (k nu : ℕ) : Matrix (Fin nu) (Fin nu) K := Matrix.of fun i j => ric.Lr k i j

def LsBlock (k nx nu : ℕ) : Matrix (Fin nx) (Fin nu) K := Matrix.of fun i j => ric.Ls k i j

def kBlock (k nu : ℕ) : Fin nu → K := fun i => ric.k k i

end RiccatiFactors

variable [LinearOrderedField K] (s : OcpSize) (ric : RiccatiFactors K)

/-! ## The getters -/

/-- `PMatrics[k]` resized to `nx[k] × nx[k]` and `pVectors[k]` to `nx[k]`, then filled by
`d_ocp_qp_ipm_get_ric_P` and `d_ocp_qp_ipm_get_ric_p`: the statements of `getRiccatiCostToGo`
before its loop, at `k = N`, and the loop's body. -/
def costToGoStage (k : ℕ) (Pp : List (MatrixT K) × List (VectorT K)) :
    Except Fault (List (MatrixT K) × List (VectorT K)) := do
  let nxk ← index s.nx k
  let PMatrics ← assign Pp.1 k ⟨nxk, nxk, ric.P k⟩
  let pVectors ← assign Pp.2 k ⟨nxk, ric.p k⟩
  pure (PMatrics, pVectors)

/-- `getRiccatiCostToGo`: both vectors resized to `N + 1`, stage `N` read, then stages
`k = 1 .. N-1`. -/
def getRiccatiCostToGo (PMatrics : List (MatrixT K)) (pVectors : List (VectorT K)) :
    Except Fault (List (MatrixT K) × List (VectorT K)) := do
  let Pp ← costToGoStage s ric s.N
    (resize PMatrics (s.N + 1) MatrixT.empty, resize pVectors (s.N + 1) VectorT.empty)
  forRange (costToGoStage s ric) 1 (s.N - 1) Pp

/-- The body of the loop of `getRiccatiFeedbackFeedforward` at stage `k`:
`KMatrics[k] = -(Ls * Lr.inverse()).transpose()` from `Lr = ric_Lr(k)` of size `nu[k] × nu[k]`
and `Ls = ric_Ls(k)` of size `nx[k] × nu[k]`, and `kVectors[k] = ric_k(k)` of size `nu[k]`.
The `resize` of `KMatrics[k]` is overwritten by the assignment. -/
def feedbackFeedforwardStage (k : ℕ) (Kk : List (MatrixT K) × List (VectorT K)) :
    Except Fault (List (MatrixT K) × List (VectorT K)) := do
  let nuk ← index s.nu k
  let nxk ← index s.nx k
  let Lr : MatrixT K := ⟨nuk, nuk, ric.Lr k⟩
  let Ls : MatrixT K := ⟨nxk, nuk, ric.Ls k⟩
  let KMatrics ← assign Kk.1 k (-(Ls * Lr.inverse).transpose)
  let kVectors ← assign Kk.2 k ⟨nuk, ric.k k⟩
  pure (KMatrics, kVectors)

/-- `getRiccatiFeedbackFeedforward`: both vectors resized to `N`, then stages `k = 1 .. N-1`. -/
def getRiccatiFeedbackFeedforward (KMatrics : List (MatrixT K)) (kVectors : List (VectorT K)) :
    Except Fault (List (MatrixT K) × List (VectorT K)) :=
  forRange (feedbackFeedforwardStage s ric) 1 (s.N - 1)
    (resize KMatrics s.N MatrixT.empty, resize kVectors s.N VectorT.empty)

/-! ## What the getters leave -/

/-- hpipm's cost-to-go at stage `k`, as `getRiccatiCostToGo` stores it. -/
def costToGoAt (k : ℕ) : MatrixT K × VectorT K :=
  (⟨s.nx.getD k 0, s.nx.getD k 0, ric.P k⟩, ⟨s.nx.getD k 0, ric.p k⟩)

/-- hpipm's gains at stage `k`, as `getRiccatiFeedbackFeedforward` stores them. -/
def feedbackFeedforwardAt (k : ℕ) : MatrixT K × VectorT K :=
  (-((⟨s.nx.getD k 0, s.nu.getD k 0, ric.Ls k⟩ : MatrixT K) *
      MatrixT.inverse ⟨s.nu.getD k 0, s.nu.getD k 0, ric.Lr k⟩).transpose,
    ⟨s.nu.getD k 0, ric.k k⟩)

/-- The vectors `getRiccatiCostToGo` leaves: hpipm's `P_k, p_k` at every stage, but stage 0 of a
horizon `N > 0`, which keeps what the caller's vectors held (default-constructed objects if they
were empty). -/
def riccatiCostToGo (PMatrics : List (MatrixT K)) (pVectors : List (VectorT K)) :
    List (MatrixT K) × List (VectorT K) :=
  ((List.range (s.N + 1)).map fun k =>
      if k = 0 ∧ 0 < s.N then PMatrics.getD 0 MatrixT.empty else (costToGoAt s ric k).1,
    (List.range (s.N + 1)).map fun k =>
      if k = 0 ∧ 0 < s.N then pVectors.getD 0 VectorT.empty else (costToGoAt s ric k).2)

/-- The vectors `getRiccatiFeedbackFeedforward` leaves: hpipm's gains at stages `1 .. N-1`, and
at stage 0 what the caller's vectors held. -/
def riccatiFeedbackFeedforward (KMatrics : List (MatrixT K)) (kVectors : List (VectorT K)) :
    List (MatrixT K) × List (VectorT K) :=
  ((List.range s.N).map fun k =>
      if k = 0 then KMatrics.getD 0 MatrixT.empty else (feedbackFeedforwardAt s ric k).1,
    (List.range s.N).map fun k =>
      if k = 0 then kVectors.getD 0 VectorT.empty else (feedbackFeedforwardAt s ric k).2)

variable {s}

theorem getElem?_map_range {α : Type} (n : ℕ) (f : ℕ → α) (j : ℕ) :
    ((List.range n).map f)[j]? = if j < n then some (f j) else none := by
  split_ifs with h
  · simp [h]
  · simp [Nat.le_of_not_lt h]

omit [LinearOrderedField K] in
theorem costToGoStage_ok {k : ℕ} {Pp : List (MatrixT K) × List (VectorT K)}
    (hk : k < s.nx.length) (h1 : k < Pp.1.length) (h2 : k < Pp.2.length) :
    costToGoStage s ric k Pp =
      .ok (Pp.1.set k (costToGoAt s ric k).1, Pp.2.set k (costToGoAt s ric k).2) := by
  simp [costToGoStage, costToGoAt, index_ok hk, assign_ok _ h1, assign_ok _ h2,
    List.getD_eq_getElem?_getD, hk]

theorem feedbackFeedforwardStage_ok {k : ℕ} {Kk : List (MatrixT K) × List (VectorT K)}
    (hx : k < s.nx.length) (hu : k < s.nu.length) (h1 : k < Kk.1.length) (h2 : k < Kk.2.length) :
    feedbackFeedforwardStage s ric k Kk =
      .ok (Kk.1.set k (feedbackFeedforwardAt s ric k).1,
        Kk.2.set k (feedbackFeedforwardAt s ric k).2) := by
  simp [feedbackFeedforwardStage, feedbackFeedforwardAt, index_ok hx, index_ok hu, assign_ok _ h1,
    assign_ok _ h2, List.getD_eq_getElem?_getD, hx, hu]

theorem getElem?_costToGoWrites {γ : Type} (N : ℕ) (l : List γ) (d : γ) (f : ℕ → γ) (j : ℕ) :
    (if 1 ≤ j ∧ j < 1 + (N - 1) then some (f j) else ((resize l (N + 1) d).set N (f N))[j]?) =
      if j < N + 1 then some (if j = 0 ∧ 0 < N then l.getD 0 d else f j) else none := by
  rcases Nat.lt_trichotomy j N with hj | rfl | hj
  · rcases Nat.eq_zero_or_pos j with rfl | hj0
    · rw [if_neg (by omega), getElem?_set_of_ne (by omega), getElem?_resize, if_pos (by omega),
        if_pos (by omega), if_pos ⟨rfl, hj⟩]
    · rw [if_pos ⟨hj0, by omega⟩, if_pos (by omega), if_neg (by omega)]
  · rw [if_neg (by omega), List.getElem?_set_self (by simp), if_pos (by omega), if_neg (by omega)]
  · rw [if_neg (by omega), List.getElem?_eq_none (by simp; omega), if_neg (by omega)]

theorem getElem?_feedbackFeedforwardWrites {γ : Type} (N : ℕ) (l : List γ) (d : γ) (f : ℕ → γ)
    (j : ℕ) :
    (if 1 ≤ j ∧ j < 1 + (N - 1) then some (f j) else (resize l N d)[j]?) =
      if j < N then some (if j = 0 then l.getD 0 d else f j) else none := by
  rw [getElem?_resize]
  rcases Nat.eq_zero_or_pos j with rfl | hj0
  · rw [if_neg (by omega), if_pos rfl]
  · by_cases hjN : j < N
    · rw [if_pos ⟨hj0, by omega⟩, if_pos hjN, if_neg (by omega)]
    · rw [if_neg (by omega), if_neg hjN, if_neg hjN]

theorem costToGoLoop_ok (hs : s.nx.length = s.N + 1) (PMatrics : List (MatrixT K))
    (pVectors : List (VectorT K)) :
    forRange (costToGoStage s ric) 1 (s.N - 1)
        ((resize PMatrics (s.N + 1) MatrixT.empty).set s.N (costToGoAt s ric s.N).1,
          (resize pVectors (s.N + 1) VectorT.empty).set s.N (costToGoAt s ric s.N).2) =
      .ok (riccatiCostToGo s ric PMatrics pVectors) := by
  obtain ⟨P', p', h, hP, hp⟩ := forRange_setPair (costToGoStage s ric) (costToGoAt s ric) 1
    (s.N - 1) ((resize PMatrics (s.N + 1) MatrixT.empty).set s.N (costToGoAt s ric s.N).1)
    ((resize pVectors (s.N + 1) VectorT.empty).set s.N (costToGoAt s ric s.N).2)
    (fun k _ hk => by simp; omega)
    (fun k a b _ hk ha hb => costToGoStage_ok ric (by omega) (by simp at ha ⊢; omega)
      (by simp at hb ⊢; omega))
  rw [h]
  refine congrArg _ (Prod.ext (List.ext_getElem? fun j => ?_) (List.ext_getElem? fun j => ?_))
  · rw [hP, riccatiCostToGo, getElem?_map_range]
    exact getElem?_costToGoWrites _ _ _ (fun k => (costToGoAt s ric k).1) j
  · rw [hp, riccatiCostToGo, getElem?_map_range]
    exact getElem?_costToGoWrites _ _ _ (fun k => (costToGoAt s ric k).2) j

/-- `getRiccatiCostToGo` stays inside every vector for every horizon, and leaves stage 0 to the
caller when `N > 0`. -/
theorem getRiccatiCostToGo_eq (hs : s.nx.length = s.N + 1) (PMatrics : List (MatrixT K))
    (pVectors : List (VectorT K)) :
    getRiccatiCostToGo s ric PMatrics pVectors = .ok (riccatiCostToGo s ric PMatrics pVectors) := by
  rw [getRiccatiCostToGo, costToGoStage_ok ric (by omega) (by simp) (by simp), ok_bind]
  exact costToGoLoop_ok ric hs PMatrics pVectors

/-- hpipm's blocks `P = 1`, `Lr = Ls = 1` at every stage: at stage 1 the factor of
`riccatiExample` with the next stage's `P = 1`. -/
def unitFactors : RiccatiFactors ℚ :=
  ⟨fun _ _ _ => 1, fun _ _ => 0, fun _ _ _ => 1, fun _ _ _ => 1, fun _ _ => 0⟩

/-- With `N = 0`, where `getRiccatiZeroStage` reads past `nx`, `getRiccatiCostToGo` does not. -/
theorem getRiccatiCostToGo_eq_horizonZero :
    horizonZeroSize.nx.length = horizonZeroSize.N + 1 ∧
    getRiccatiCostToGo horizonZeroSize unitFactors [] [] =
      .ok (riccatiCostToGo horizonZeroSize unitFactors [] []) :=
  have hs : horizonZeroSize.nx.length = horizonZeroSize.N + 1 := rfl
  ⟨hs, getRiccatiCostToGo_eq unitFactors hs [] []⟩

/-- `getRiccatiFeedbackFeedforward` stays inside every vector for every horizon, and leaves stage
0 to the caller. -/
theorem getRiccatiFeedbackFeedforward_eq (hs : s.WellFormed) (KMatrics : List (MatrixT K))
    (kVectors : List (VectorT K)) :
    getRiccatiFeedbackFeedforward s ric KMatrics kVectors =
      .ok (riccatiFeedbackFeedforward s ric KMatrics kVectors) := by
  obtain ⟨K', k', h, hK, hk⟩ := forRange_setPair (feedbackFeedforwardStage s ric)
    (feedbackFeedforwardAt s ric) 1 (s.N - 1) (resize KMatrics s.N MatrixT.empty)
    (resize kVectors s.N VectorT.empty) (fun k _ hk => by simp; omega)
    (fun k a b _ hk ha hb => feedbackFeedforwardStage_ok ric (by rw [hs.1]; omega)
      (by rw [hs.2.1]; omega) (by simp at ha ⊢; omega) (by simp at hb ⊢; omega))
  rw [getRiccatiFeedbackFeedforward, h]
  refine congrArg _ (Prod.ext (List.ext_getElem? fun j => ?_) (List.ext_getElem? fun j => ?_))
  · rw [hK, riccatiFeedbackFeedforward, getElem?_map_range]
    exact getElem?_feedbackFeedforwardWrites _ _ _ (fun k => (feedbackFeedforwardAt s ric k).1) j
  · rw [hk, riccatiFeedbackFeedforward, getElem?_map_range]
    exact getElem?_feedbackFeedforwardWrites _ _ _ (fun k => (feedbackFeedforwardAt s ric k).2) j

theorem feedbackFeedforwardAt_view (k : ℕ) :
    ((feedbackFeedforwardAt s ric k).1.view (s.nu.getD k 0) (s.nx.getD k 0),
      fun i : Fin (s.nu.getD k 0) => (feedbackFeedforwardAt s ric k).2.get i) =
      feedbackFeedforward (ric.LrBlock k _) (ric.LsBlock k _ _) (ric.kBlock k _) := by
  rw [feedbackFeedforwardAt, MatrixT.view_neg, MatrixT.view_transpose, MatrixT.view_mul]
  simp only [MatrixT.inverse, MatrixT.view_ofMatrix]
  rfl

/-- **Every interior gain is the LQR feedback of its stage.** If at stage `k`, `1 ≤ k < N`,
hpipm's blocks factor that stage's `H = R + B'PB` and `G = S + B'PA` for the next stage's value
`P` (`Lr Lr' = H` with `Lr` invertible, `Ls Lr' = G'`), then `KMatrics[k]`, as
`getRiccatiFeedbackFeedforward` leaves it and read with the stage's dimensions, is the LQR
feedback `-H^{-1} G`. -/
theorem getRiccatiFeedbackFeedforward_lqr (hs : s.WellFormed) (KMatrics : List (MatrixT K))
    (kVectors : List (VectorT K)) {k ny : ℕ} (hk : 1 ≤ k) (hkN : k < s.N)
    (d : StageData K (s.nx.getD k 0) ny (s.nu.getD k 0)) (P : Matrix (Fin ny) (Fin ny) K)
    (hL : IsUnit (ric.LrBlock k (s.nu.getD k 0)).det)
    (hH : ric.LrBlock k _ * (ric.LrBlock k _)ᵀ = d.hessian P)
    (hLs : ric.LsBlock k _ _ * (ric.LrBlock k _)ᵀ = (d.cross P)ᵀ) :
    ∃ KMatrics' kVectors', getRiccatiFeedbackFeedforward s ric KMatrics kVectors =
        .ok (KMatrics', kVectors') ∧
      ∃ Kk : MatrixT K, KMatrics'[k]? = some Kk ∧
        Kk.view (s.nu.getD k 0) (s.nx.getD k 0) = -(inverse (d.hessian P) * d.cross P) := by
  refine ⟨_, _, getRiccatiFeedbackFeedforward_eq ric hs KMatrics kVectors,
    (feedbackFeedforwardAt s ric k).1, ?_, ?_⟩
  · simp [riccatiFeedbackFeedforward, getElem?_map_range, hkN, show k ≠ 0 by omega]
  · have hM : inverse (d.hessian P) = (inverse (ric.LrBlock k _))ᵀ * inverse (ric.LrBlock k _) := by
      rw [inverse_eq_inv, inv_eq_left_inv (gramInverse_hessian hL hH)]
    have hv : (feedbackFeedforwardAt s ric k).1.view (s.nu.getD k 0) (s.nx.getD k 0) =
        (feedbackFeedforward (ric.LrBlock k _) (ric.LsBlock k _ _) (ric.kBlock k _)).1 :=
      congrArg Prod.fst (feedbackFeedforwardAt_view ric k)
    rw [hv, feedbackFeedforward_feedback d P 0 hL hLs, hM]
    simp only [getRiccatiZeroStage, StageData.cross, Matrix.neg_mul]

/-- Two stages of one state and one input (`nx[0] = 0`, as stored). -/
def twoStageSize : OcpSize :=
  ⟨2, [0, 1, 1], [1, 1, 1], [0, 0, 0], [0, 0, 0], [0, 0, 0], [0, 0, 0], [0, 0, 0], [0, 0, 0]⟩

theorem getRiccatiFeedbackFeedforward_lqr_unitFactors :
    twoStageSize.WellFormed ∧ 1 ≤ 1 ∧ 1 < twoStageSize.N ∧
    IsUnit (unitFactors.LrBlock 1 1).det ∧
    unitFactors.LrBlock 1 1 * (unitFactors.LrBlock 1 1)ᵀ = riccatiExample.hessian 1 ∧
    unitFactors.LsBlock 1 1 1 * (unitFactors.LrBlock 1 1)ᵀ = (riccatiExample.cross 1)ᵀ ∧
    ∃ KMatrics' kVectors', getRiccatiFeedbackFeedforward twoStageSize unitFactors [] [] =
        .ok (KMatrics', kVectors') ∧
      ∃ Kk : MatrixT ℚ, KMatrics'[1]? = some Kk ∧
        Kk.view 1 1 = -(inverse (riccatiExample.hessian 1) * riccatiExample.cross 1) :=
  have hs : twoStageSize.WellFormed := by decide
  have hL : IsUnit (unitFactors.LrBlock 1 1).det := by
    simp [RiccatiFactors.LrBlock, unitFactors, det_unique]
  have hH : unitFactors.LrBlock 1 1 * (unitFactors.LrBlock 1 1)ᵀ = riccatiExample.hessian 1 := by
    ext i j
    simp [RiccatiFactors.LrBlock, unitFactors, StageData.hessian, riccatiExample, mul_apply,
      Subsingleton.elim i j]
  have hLs : unitFactors.LsBlock 1 1 1 * (unitFactors.LrBlock 1 1)ᵀ =
      (riccatiExample.cross 1)ᵀ := by
    ext i j
    simp [RiccatiFactors.LrBlock, RiccatiFactors.LsBlock, unitFactors, StageData.cross,
      riccatiExample, mul_apply, Subsingleton.elim i j]
  ⟨hs, le_rfl, by decide, hL, hH, hLs,
    getRiccatiFeedbackFeedforward_lqr unitFactors hs [] [] le_rfl (by decide) riccatiExample 1 hL
      hH hLs⟩

end Hpipm
end Ocs2
