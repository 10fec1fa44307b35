import Mathlib.LinearAlgebra.Matrix.NonsingularInverse
import Mathlib.LinearAlgebra.Matrix.DotProduct

/-!
# Ocs2.Quadratic

Quadratic forms `a' M b` over fixed-size vectors, for ocs2's quadratic costs and Riccati steps:
moving a matrix across the inner product, a symmetric form at a sum, and completing the square.

* `quadratic_eq_of_stationary`: at a stationary point `v` of `1/2 u'Hu + u'w`, with `H`
  symmetric, the value at any `u` exceeds the value at `v` by `1/2 (u - v)'H(u - v)`.
* `gram_nonneg`, `eq_zero_of_gram`: `L L'` is positive definite when `L` is invertible.
-/

namespace Ocs2

open Matrix

section Forms

variable {K : Type} [CommRing K] {ι κ μ : Type} [Fintype ι] [Fintype κ] [Fintype μ]

/-- Moving a matrix across the inner product: `(M a)' w = a' (M' w)`. -/
theorem mulVec_dotProduct (M : Matrix κ ι K) (a : ι → K) (w : κ → K) :
    (M *ᵥ a) ⬝ᵥ w = a ⬝ᵥ (Mᵀ *ᵥ w) := by
  rw [dotProduct_comm, dotProduct_mulVec, ← mulVec_transpose, dotProduct_comm]

/-- `(M a)' P (N b) = a' (M' P N) b`. -/
theorem mulVec_dotProduct_mulVec (M : Matrix κ ι K) (P : Matrix κ κ K) (N : Matrix κ μ K)
    (a : ι → K) (b : μ → K) : (M *ᵥ a) ⬝ᵥ (P *ᵥ (N *ᵥ b)) = a ⬝ᵥ ((Mᵀ * P * N) *ᵥ b) := by
  rw [mulVec_dotProduct, mulVec_mulVec, mulVec_mulVec, Matrix.mul_assoc]

/-- `a' M b = b' M' a`. -/
theorem dotProduct_mulVec_comm (M : Matrix ι κ K) (a : ι → K) (b : κ → K) :
    a ⬝ᵥ (M *ᵥ b) = b ⬝ᵥ (Mᵀ *ᵥ a) := by
  rw [dotProduct_comm, mulVec_dotProduct]

/-- A symmetric form at a sum. -/
theorem dotProduct_mulVec_add {P : Matrix κ κ K} (hP : Pᵀ = P) (a b : κ → K) :
    (a + b) ⬝ᵥ (P *ᵥ (a + b)) = a ⬝ᵥ (P *ᵥ a) + 2 * (a ⬝ᵥ (P *ᵥ b)) + b ⬝ᵥ (P *ᵥ b) := by
  rw [mulVec_add, dotProduct_add, add_dotProduct, add_dotProduct, dotProduct_mulVec_comm P b a, hP]
  ring

/-- A square matrix whose form `a' M b` vanishes everywhere is zero. -/
theorem eq_zero_of_dotProduct_mulVec [DecidableEq ι] {M : Matrix ι ι K}
    (h : ∀ a b, a ⬝ᵥ (M *ᵥ b) = 0) : M = 0 := by
  ext i j
  simpa using h (Pi.single i 1) (Pi.single j 1)

end Forms

section Square

variable {K : Type} [LinearOrderedField K] {ι : Type} [Fintype ι]

/-- Completing the square: at a stationary point `v` (`H v = -w`) of `1/2 u'Hu + u'w`, with `H`
symmetric, the value at `u` exceeds the value at `v` by `1/2 (u - v)'H(u - v)`. -/
theorem quadratic_eq_of_stationary {H : Matrix ι ι K} (hH : Hᵀ = H) {v w : ι → K}
    (hv : H *ᵥ v = -w) (u : ι → K) :
    u ⬝ᵥ (H *ᵥ u) / 2 + u ⬝ᵥ w =
      v ⬝ᵥ (H *ᵥ v) / 2 + v ⬝ᵥ w + (u - v) ⬝ᵥ (H *ᵥ (u - v)) / 2 := by
  obtain rfl : w = -(H *ᵥ v) := by rw [hv, neg_neg]
  rw [mulVec_sub, dotProduct_sub, sub_dotProduct, sub_dotProduct, dotProduct_mulVec_comm H v u, hH,
    dotProduct_neg, dotProduct_neg]
  ring

/-- The value at the stationary point `-(M w)` of `1/2 u'Hu + u'w`, for `M` a symmetric inverse of
`H`. -/
theorem quadratic_at_stationary [DecidableEq ι] {H M : Matrix ι ι K} (hHM : H * M = 1) (hM : Mᵀ = M)
    (w : ι → K) :
    -(M *ᵥ w) ⬝ᵥ (H *ᵥ -(M *ᵥ w)) / 2 + -(M *ᵥ w) ⬝ᵥ w = -(w ⬝ᵥ (M *ᵥ w)) / 2 := by
  rw [mulVec_neg, mulVec_mulVec, hHM, one_mulVec]
  simp only [neg_dotProduct, dotProduct_neg, neg_neg]
  rw [mulVec_dotProduct, hM]
  ring

/-- `v'(L L')v = |L'v|²`: nonnegative, and zero only at `v = 0` when `L` is invertible. -/
theorem dotProduct_mulVec_gram (L : Matrix ι ι K) (v : ι → K) :
    v ⬝ᵥ ((L * Lᵀ) *ᵥ v) = (Lᵀ *ᵥ v) ⬝ᵥ (Lᵀ *ᵥ v) := by
  rw [← mulVec_mulVec, dotProduct_mulVec_comm]

theorem gram_nonneg (L : Matrix ι ι K) (v : ι → K) : 0 ≤ v ⬝ᵥ ((L * Lᵀ) *ᵥ v) := by
  rw [dotProduct_mulVec_gram]
  exact Finset.sum_nonneg fun i _ => mul_self_nonneg _

theorem eq_zero_of_gram [DecidableEq ι] {L : Matrix ι ι K} (hL : IsUnit L.det) {v : ι → K}
    (h : v ⬝ᵥ ((L * Lᵀ) *ᵥ v) = 0) : v = 0 := by
  rw [dotProduct_mulVec_gram, dotProduct_self_eq_zero] at h
  have hLt : IsUnit Lᵀ.det := by rwa [det_transpose]
  rw [← one_mulVec v, ← nonsing_inv_mul _ hLt, ← mulVec_mulVec, h, mulVec_zero]

end Square

end Ocs2
