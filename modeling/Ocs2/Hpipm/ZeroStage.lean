import Mathlib
import Ocs2.Hpipm.RiccatiGetters
import Ocs2.Hpipm.Workspace

/-!
# Ocs2.Hpipm.ZeroStage

`HpipmInterface::Impl::getRiccatiZeroStage` as the code computes it: on Eigen's dynamic objects,
with the sizes read from `ocpSize_` and hpipm's blocks `ric_P(1)`, `ric_Lr(0)`, `ric_p(1)`. The
typed closed form `Ocs2.Hpipm.getRiccatiZeroStage` of `Ocs2.Hpipm.Riccati` is what the theorems
there are about; this module shows that the code computes it.

The code resizes `K0` and `P0` with `nx0 = A0.rows()`, which is `nx[1]`, not the number of
states; Eigen's assignments that follow resize them again to the shapes of the right-hand sides,
so the outputs have the right shapes whatever those resizes did. `R0` is an argument the code
never reads: the Hessian enters only through hpipm's factor `Lr0`.

* `Impl.getRiccatiZeroStage_view`: for stage-0 data of the shapes `solve` receives, the call
  returns normally with outputs of shapes `nx0 × nx0`, `nu[0] × nx0`, `nx0` and `nu[0]`, which,
  read with those shapes, are the typed closed form of the same data.
-/

namespace Ocs2

open Finset Matrix

variable {K : Type}

/-! ## More of Eigen's dynamic operations -/

namespace MatrixT

instance [Add K] : Add (MatrixT K) :=
  ⟨fun A B => ⟨A.rows, A.cols, fun i j => A.get i j + B.get i j⟩⟩
instance [Sub K] : Sub (MatrixT K) :=
  ⟨fun A B => ⟨A.rows, A.cols, fun i j => A.get i j - B.get i j⟩⟩

/-! The shapes of the results, as Eigen's assignments take them. -/

@[simp] theorem add_rows [Add K] (A B : MatrixT K) : (A + B).rows = A.rows := rfl
@[simp] theorem add_cols [Add K] (A B : MatrixT K) : (A + B).cols = A.cols := rfl
@[simp] theorem sub_rows [Sub K] (A B : MatrixT K) : (A - B).rows = A.rows := rfl
@[simp] theorem sub_cols [Sub K] (A B : MatrixT K) : (A - B).cols = A.cols := rfl
@[simp] theorem neg_rows [Neg K] (A : MatrixT K) : (-A).rows = A.rows := rfl
@[simp] theorem neg_cols [Neg K] (A : MatrixT K) : (-A).cols = A.cols := rfl
@[simp] theorem mul_rows [CommRing K] (A B : MatrixT K) : (A * B).rows = A.rows := rfl
@[simp] theorem mul_cols [CommRing K] (A B : MatrixT K) : (A * B).cols = B.cols := rfl
@[simp] theorem transpose_rows (A : MatrixT K) : A.transpose.rows = A.cols := rfl
@[simp] theorem transpose_cols (A : MatrixT K) : A.transpose.cols = A.rows := rfl
@[simp] theorem ofMatrix_rows [Zero K] {m n : ℕ} (M : Matrix (Fin m) (Fin n) K) :
    (ofMatrix M).rows = m := rfl
@[simp] theorem ofMatrix_cols [Zero K] {m n : ℕ} (M : Matrix (Fin m) (Fin n) K) :
    (ofMatrix M).cols = n := rfl
@[simp] theorem inverse_rows [LinearOrderedField K] (A : MatrixT K) : A.inverse.rows = A.rows :=
  rfl
@[simp] theorem inverse_cols [LinearOrderedField K] (A : MatrixT K) : A.inverse.cols = A.rows :=
  rfl

theorem view_add [Add K] (A B : MatrixT K) (m n : ℕ) :
    (A + B).view m n = A.view m n + B.view m n := rfl

theorem view_sub [Sub K] (A B : MatrixT K) (m n : ℕ) :
    (A - B).view m n = A.view m n - B.view m n := rfl

end MatrixT

namespace VectorT

/-- The `n` entries hpipm reads from `v`'s storage. -/
def view (v : VectorT K) (n : ℕ) : Fin n → K := fun i => v.get i

/-- The `vector_t` holding `v`. -/
def ofVector [Zero K] {n : ℕ} (v : Fin n → K) : VectorT K :=
  ⟨n, fun i => if h : i < n then v ⟨i, h⟩ else 0⟩

@[simp] theorem view_ofVector [Zero K] {n : ℕ} (v : Fin n → K) : (ofVector v).view n = v := by
  ext i
  simp [view, ofVector]

theorem view_add [CommRing K] (a b : VectorT K) (n : ℕ) : (a + b).view n = a.view n + b.view n :=
  rfl

theorem view_sub [CommRing K] (a b : VectorT K) (n : ℕ) : (a - b).view n = a.view n - b.view n :=
  rfl

end VectorT

theorem MatrixT.view_mulVec [CommRing K] (A : MatrixT K) (x : VectorT K) (m : ℕ) :
    (A * x).view m = A.view m A.cols *ᵥ x.view A.cols := by
  ext i
  exact sum_range fun l => A.get i l * x.get l

namespace Hpipm

/-- What `getRiccatiZeroStage` writes into its output arguments `P0, K0, p0, k0`. -/
structure EigenZeroStage (K : Type) where
  P0 : MatrixT K
  K0 : MatrixT K
  p0 : VectorT K
  k0 : VectorT K

/-- The four outputs read with `nx` states and `nu` inputs. -/
def EigenZeroStage.view (z : EigenZeroStage K) (nx nu : ℕ) : ZeroStage K nx nu :=
  ⟨z.P0.view nx nx, z.K0.view nu nx, z.p0.view nx, z.k0.view nu⟩

/-- `ric_P(k)` as hpipm's `n × n` block. -/
def RiccatiFactors.PBlock (ric : RiccatiFactors K) (k n : ℕ) : Matrix (Fin n) (Fin n) K :=
  Matrix.of fun i j => ric.P k i j

/-- `ric_p(k)` as hpipm's `n` entries. -/
def RiccatiFactors.pBlock (ric : RiccatiFactors K) (k n : ℕ) : Fin n → K := fun i => ric.p k i

variable [LinearOrderedField K]

/-- `getRiccatiZeroStage`: the sizes read from `ocpSize_` (`nu[0]` for `fake_k0`, which is read
from hpipm and never used, and for `Lr0`; `nx[1]` for `P1` and `p1`), hpipm's blocks, then the
four assignments. -/
def Impl.getRiccatiZeroStage (w : Impl) (ric : RiccatiFactors K) (A0 B0 : MatrixT K)
    (b0 : VectorT K) (Q0 _R0 S0 : MatrixT K) (q0 r0 : VectorT K) :
    Except Fault (EigenZeroStage K) := do
  let (nu0, nx1) ← riccatiZeroStageSizes w.ocpSize
  let P1 : MatrixT K := ⟨nx1, nx1, ric.P 1⟩
  let Lr0 : MatrixT K := ⟨nu0, nu0, ric.Lr 0⟩
  let p1 : VectorT K := ⟨nx1, ric.p 1⟩
  let Lr0_inv := Lr0.inverse
  pure
    { K0 := -(Lr0_inv.transpose * Lr0_inv) * (S0 + B0.transpose * P1 * A0)
      k0 := -(Lr0_inv.transpose * Lr0_inv) * (r0 + B0.transpose * p1 + B0.transpose * P1 * b0)
      P0 := Q0 + A0.transpose * P1 * A0 - (S0 + B0.transpose * P1 * A0).transpose *
        (Lr0_inv.transpose * Lr0_inv) * (S0 + B0.transpose * P1 * A0)
      p0 := q0 + A0.transpose * p1 + A0.transpose * P1 * b0 -
        (S0 + B0.transpose * P1 * A0).transpose * (Lr0_inv.transpose * Lr0_inv) *
          (r0 + B0.transpose * p1 + B0.transpose * P1 * b0) }

/-- **The code computes the closed form.** For a well-formed stored shape with `N > 0`, every
output of hpipm's getters with an invertible `Lr0 = ric_Lr(0)` and stage-0 data `d` of `nx0`
states into the `nx[1]` of stage 1 with `nu[0]` inputs, `getRiccatiZeroStage` on `d`'s Eigen
objects returns normally, its outputs have the shapes `nx0 × nx0`, `nu[0] × nx0`, `nx0` and
`nu[0]`, and read with those shapes they are the typed closed form of `d` with `P1 = ric_P(1)`,
`Lr0` and `p1 = ric_p(1)`. -/
theorem Impl.getRiccatiZeroStage_view (w : Impl) (hs : w.ocpSize.WellFormed)
    (hN : 0 < w.ocpSize.N) (ric : RiccatiFactors K)
    (_ : IsUnit (ric.LrBlock 0 (w.ocpSize.nu.getD 0 0)).det) {nx0 : ℕ}
    (d : StageData K nx0 (w.ocpSize.nx.getD 1 0) (w.ocpSize.nu.getD 0 0)) :
    ∃ z, w.getRiccatiZeroStage ric (.ofMatrix d.A) (.ofMatrix d.B) (.ofVector d.b) (.ofMatrix d.Q)
        (.ofMatrix d.R) (.ofMatrix d.S) (.ofVector d.q) (.ofVector d.r) = .ok z ∧
      z.P0.rows = nx0 ∧ z.P0.cols = nx0 ∧ z.K0.rows = w.ocpSize.nu.getD 0 0 ∧ z.K0.cols = nx0 ∧
      z.p0.size = nx0 ∧ z.k0.size = w.ocpSize.nu.getD 0 0 ∧
      z.view nx0 (w.ocpSize.nu.getD 0 0) =
        Hpipm.getRiccatiZeroStage d (ric.PBlock 1 _) (ric.LrBlock 0 _) (ric.pBlock 1 _) := by
  refine ⟨_, by rw [getRiccatiZeroStage, riccatiZeroStageSizes_ok hs hN]; rfl,
    rfl, rfl, rfl, rfl, rfl, rfl, ?_⟩
  simp only [EigenZeroStage.view, Hpipm.getRiccatiZeroStage, MatrixT.view_sub,
    MatrixT.view_add, MatrixT.view_mul, MatrixT.view_neg, MatrixT.view_transpose,
    MatrixT.view_mulVec, VectorT.view_add, VectorT.view_sub, MatrixT.view_ofMatrix,
    VectorT.view_ofVector, MatrixT.mul_cols, MatrixT.transpose_cols, MatrixT.transpose_rows,
    MatrixT.neg_cols, MatrixT.add_rows, MatrixT.ofMatrix_rows, MatrixT.ofMatrix_cols,
    MatrixT.inverse_cols, MatrixT.inverse_rows, MatrixT.inverse]
  rfl

/-- The stored shape of two stages of one state and one input, in a new workspace. -/
def twoStageImpl : Impl :=
  Impl.fresh twoStageSize ⟨0, 0, ⟨0⟩, ⟨0⟩, ⟨0⟩, ⟨0⟩, ⟨0⟩, ⟨0⟩, ⟨0⟩, 0, 0, 0⟩ Heap.empty

theorem Impl.getRiccatiZeroStage_view_riccatiExample :
    twoStageImpl.ocpSize.WellFormed ∧ 0 < twoStageImpl.ocpSize.N ∧
    IsUnit (unitFactors.LrBlock 0 (twoStageImpl.ocpSize.nu.getD 0 0)).det ∧
    ∃ z, twoStageImpl.getRiccatiZeroStage unitFactors (.ofMatrix riccatiExample.A)
        (.ofMatrix riccatiExample.B) (.ofVector riccatiExample.b) (.ofMatrix riccatiExample.Q)
        (.ofMatrix riccatiExample.R) (.ofMatrix riccatiExample.S) (.ofVector riccatiExample.q)
        (.ofVector riccatiExample.r) = .ok z ∧
      z.P0.rows = 1 ∧ z.P0.cols = 1 ∧ z.K0.rows = 1 ∧ z.K0.cols = 1 ∧ z.p0.size = 1 ∧
      z.k0.size = 1 ∧
      z.view 1 1 = Hpipm.getRiccatiZeroStage riccatiExample (unitFactors.PBlock 1 1)
        (unitFactors.LrBlock 0 1) (unitFactors.pBlock 1 1) :=
  have hs : twoStageImpl.ocpSize.WellFormed := by decide
  have hN : 0 < twoStageImpl.ocpSize.N := by decide
  have hL : IsUnit (unitFactors.LrBlock 0 (twoStageImpl.ocpSize.nu.getD 0 0)).det := by
    simp [twoStageImpl, twoStageSize, Impl.fresh, RiccatiFactors.LrBlock, unitFactors, det_fin_one]
  ⟨hs, hN, hL, Impl.getRiccatiZeroStage_view twoStageImpl hs hN unitFactors hL riccatiExample⟩

end Hpipm
end Ocs2
