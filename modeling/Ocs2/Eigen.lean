import Mathlib.Algebra.BigOperators.Ring
import Mathlib.Algebra.Order.Field.Basic
import Mathlib.Data.Nat.Defs
import Mathlib.Tactic.Ring

/-!
# Ocs2.Eigen

`vector_t` and `matrix_t`, ocs2's Eigen matrices of dynamic size, over a field `K` standing for
`scalar_t`: a shape and the entries, of which only those inside the shape are ever read. hpipm
receives them as raw pointers and reads them with its own dimensions, so the sums below take the
number of columns as an argument (`rowDot`) and the Eigen products use the matrix's own shape.

* `rowDot_zero`, `dot_zero_right`, ...: sums over no index or against the zero vector vanish.
* `dot_comm`, `dot_add_left`: the inner product is symmetric and linear.
-/

namespace Ocs2

open Finset

/-- `vector_t`: its size and its entries. -/
structure VectorT (K : Type) where
  size : ℕ
  get : ℕ → K

/-- `matrix_t`: its shape and its entries. -/
structure MatrixT (K : Type) where
  rows : ℕ
  cols : ℕ
  get : ℕ → ℕ → K

variable {K : Type} [CommRing K]

/-- `∑_{j < n} A(i, j) x(j)`: row `i` of `A` against `x`, over the first `n` columns. -/
def rowDot (A : ℕ → ℕ → K) (n : ℕ) (x : ℕ → K) (i : ℕ) : K :=
  ∑ j ∈ range n, A i j * x j

/-- `∑_{i < n} a(i) b(i)`. -/
def dot (n : ℕ) (a b : ℕ → K) : K :=
  ∑ i ∈ range n, a i * b i

/-- `a' M b` over `m` rows and `n` columns. -/
def bilin (m n : ℕ) (a : ℕ → K) (M : ℕ → ℕ → K) (b : ℕ → K) : K :=
  dot m a (rowDot M n b)

namespace VectorT

instance : Add (VectorT K) := ⟨fun a b => ⟨a.size, fun i => a.get i + b.get i⟩⟩
instance : Sub (VectorT K) := ⟨fun a b => ⟨a.size, fun i => a.get i - b.get i⟩⟩
instance : Neg (VectorT K) := ⟨fun a => ⟨a.size, fun i => -a.get i⟩⟩

@[simp] theorem add_get (a b : VectorT K) (i : ℕ) : (a + b).get i = a.get i + b.get i := rfl
@[simp] theorem sub_get (a b : VectorT K) (i : ℕ) : (a - b).get i = a.get i - b.get i := rfl
@[simp] theorem neg_get (a : VectorT K) (i : ℕ) : (-a).get i = -a.get i := rfl
@[simp] theorem add_size (a b : VectorT K) : (a + b).size = a.size := rfl
@[simp] theorem sub_size (a b : VectorT K) : (a - b).size = a.size := rfl
@[simp] theorem neg_size (a : VectorT K) : (-a).size = a.size := rfl

end VectorT

namespace MatrixT

/-- Eigen's `A * x`. -/
instance : HMul (MatrixT K) (VectorT K) (VectorT K) :=
  ⟨fun A x => ⟨A.rows, rowDot A.get A.cols x.get⟩⟩

@[simp] theorem mul_get (A : MatrixT K) (x : VectorT K) (i : ℕ) :
    (A * x).get i = rowDot A.get A.cols x.get i := rfl
@[simp] theorem mul_size (A : MatrixT K) (x : VectorT K) : (A * x).size = A.rows := rfl

end MatrixT

/-! Sums over no index, and against the zero vector. -/

@[simp] theorem rowDot_zero (A : ℕ → ℕ → K) (x : ℕ → K) (i : ℕ) : rowDot A 0 x i = 0 := rfl
@[simp] theorem dot_zero (a b : ℕ → K) : dot 0 a b = 0 := rfl
@[simp] theorem bilin_zero_rows (n : ℕ) (a : ℕ → K) (M : ℕ → ℕ → K) (b : ℕ → K) :
    bilin 0 n a M b = 0 := rfl
@[simp] theorem bilin_zero_cols (m : ℕ) (a : ℕ → K) (M : ℕ → ℕ → K) (b : ℕ → K) :
    bilin m 0 a M b = 0 := by
  simp [bilin, dot]

@[simp] theorem rowDot_zero_right (A : ℕ → ℕ → K) (n i : ℕ) : rowDot A n 0 i = 0 := by
  simp [rowDot]
@[simp] theorem dot_zero_left (n : ℕ) (b : ℕ → K) : dot n 0 b = 0 := by simp [dot]
@[simp] theorem dot_zero_right (n : ℕ) (a : ℕ → K) : dot n a 0 = 0 := by simp [dot]
@[simp] theorem bilin_zero_left (m n : ℕ) (M : ℕ → ℕ → K) (b : ℕ → K) : bilin m n 0 M b = 0 := by
  simp [bilin]
@[simp] theorem bilin_zero_right (m n : ℕ) (a : ℕ → K) (M : ℕ → ℕ → K) : bilin m n a M 0 = 0 := by
  simp [bilin, dot]

theorem dot_comm (n : ℕ) (a b : ℕ → K) : dot n a b = dot n b a := by
  simp only [dot, mul_comm]

/-- `a' M b = (M b)' a`. -/
theorem bilin_eq_dot (m n : ℕ) (a : ℕ → K) (M : ℕ → ℕ → K) (b : ℕ → K) :
    bilin m n a M b = dot m (rowDot M n b) a :=
  dot_comm _ _ _

theorem dot_add_left (n : ℕ) (a b c : ℕ → K) :
    dot n (fun i => a i + b i) c = dot n a c + dot n b c := by
  simp only [dot, add_mul, sum_add_distrib]

end Ocs2
