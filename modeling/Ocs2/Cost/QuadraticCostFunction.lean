import Mathlib
import Ocs2.Quadratic

/-!
# Ocs2.Cost.QuadraticCostFunction

`QuadraticCostFunction<STATE_DIM, CONTROL_DIM>`: the running cost
`1/2 (x - x_nominal)'Q(x - x_nominal) + 1/2 (u - u_nominal)'R(u - u_nominal)` and the terminal cost
`1/2 (x - x_final)'Q_final(x - x_final)`, with the derivative methods a second-order method
builds its local model from.

Mathematical meaning: the second-order model built from the methods' values is exact, at every
point and every deviation, exactly when the three weights are symmetric. The methods return
`Q (x - x_nominal)` as the gradient, which is the gradient of the cost only when `Q' = Q`; the
second derivatives enter the model only through their symmetric part.

* `evaluate_sub_secondOrderModel`, `terminalCost_sub_terminalModel`: the model's error is
  `1/2 dx'(Q' - Q)(x - x_nominal)` plus the same in the input, and the same for `Q_final`.
* `secondOrder_exact_iff`: the model is exact everywhere iff `Q`, `R` and `Q_final` are
  symmetric.
* `evaluate_add_state`: the cost's gradient in the state is `stateGradient`,
  `1/2 (Q + Q')(x - x_nominal)`; `skewCost_stateDerivative_ne_gradient`: for a skew `Q`,
  `stateDerivative` differs from it.
-/

namespace Ocs2

open Matrix

/-- A `QuadraticCostFunction` object: the constructor's weights and targets, and the members
`setCurrentStateAndControl` writes, the base class's `t_, x_, u_` and the deviations. -/
structure QuadraticCostFunction (K : Type) (nx nu : ℕ) where
  Q : Matrix (Fin nx) (Fin nx) K
  R : Matrix (Fin nu) (Fin nu) K
  xNominal : Fin nx → K
  uNominal : Fin nu → K
  xFinal : Fin nx → K
  QFinal : Matrix (Fin nx) (Fin nx) K
  t : K
  x : Fin nx → K
  u : Fin nu → K
  xDeviation : Fin nx → K
  uDeviation : Fin nu → K

namespace QuadraticCostFunction

variable {K : Type} [LinearOrderedField K] {nx nu : ℕ}

/-- The constructor. The members it leaves uninitialised are read only after
`setCurrentStateAndControl`; they start at zero here. -/
def create (Q : Matrix (Fin nx) (Fin nx) K) (R : Matrix (Fin nu) (Fin nu) K)
    (xNominal : Fin nx → K) (uNominal : Fin nu → K) (xFinal : Fin nx → K)
    (QFinal : Matrix (Fin nx) (Fin nx) K) : QuadraticCostFunction K nx nu :=
  ⟨Q, R, xNominal, uNominal, xFinal, QFinal, 0, 0, 0, 0, 0⟩

variable (c : QuadraticCostFunction K nx nu)

def setCurrentStateAndControl (t : K) (x : Fin nx → K) (u : Fin nu → K) :
    QuadraticCostFunction K nx nu :=
  { c with t := t, x := x, u := u, xDeviation := x - c.xNominal, uDeviation := u - c.uNominal }

def evaluate : K :=
  1 / 2 * (c.xDeviation ⬝ᵥ (c.Q *ᵥ c.xDeviation)) + 1 / 2 * (c.uDeviation ⬝ᵥ (c.R *ᵥ c.uDeviation))

def stateDerivative : Fin nx → K := c.Q *ᵥ c.xDeviation

def stateSecondDerivative : Matrix (Fin nx) (Fin nx) K := c.Q

def controlDerivative : Fin nu → K := c.R *ᵥ c.uDeviation

def controlSecondDerivative : Matrix (Fin nu) (Fin nu) K := c.R

def stateControlDerivative (_ : QuadraticCostFunction K nx nu) : Matrix (Fin nu) (Fin nx) K := 0

def terminalCost : K := 1 / 2 * ((c.x - c.xFinal) ⬝ᵥ (c.QFinal *ᵥ (c.x - c.xFinal)))

def terminalCostStateDerivative : Fin nx → K := c.QFinal *ᵥ (c.x - c.xFinal)

def terminalCostStateSecondDerivative : Matrix (Fin nx) (Fin nx) K := c.QFinal

/-- The gradient of `evaluate` in the state at the current point, `1/2 (Q + Q')(x - x_nominal)`:
what the documentation of `stateDerivative` ("Gets the state derivative cost") promises. -/
def stateGradient : Fin nx → K := (1 / 2 : K) • ((c.Q + c.Qᵀ) *ᵥ c.xDeviation)

/-- The second-order model of `evaluate` at the current point, built from the derivative
methods. -/
def secondOrderModel (dx : Fin nx → K) (du : Fin nu → K) : K :=
  c.evaluate + c.stateDerivative ⬝ᵥ dx + c.controlDerivative ⬝ᵥ du +
    1 / 2 * (dx ⬝ᵥ (c.stateSecondDerivative *ᵥ dx)) +
    1 / 2 * (du ⬝ᵥ (c.controlSecondDerivative *ᵥ du)) + du ⬝ᵥ (c.stateControlDerivative *ᵥ dx)

/-- The second-order model of `terminalCost` at the current state. -/
def terminalModel (dx : Fin nx → K) : K :=
  c.terminalCost + c.terminalCostStateDerivative ⬝ᵥ dx +
    1 / 2 * (dx ⬝ᵥ (c.terminalCostStateSecondDerivative *ᵥ dx))

/-- Both models are exact at every `(t, x, u)` and every deviation `(dx, du)`. -/
def SecondOrderExact : Prop :=
  ∀ t x u dx du,
    (c.setCurrentStateAndControl t (x + dx) (u + du)).evaluate =
      (c.setCurrentStateAndControl t x u).secondOrderModel dx du ∧
    (c.setCurrentStateAndControl t (x + dx) (u + du)).terminalCost =
      (c.setCurrentStateAndControl t x u).terminalModel dx

/-- `1/2 (e + d)'M(e + d) - (1/2 e'Me + (Me)'d + 1/2 d'Md) = 1/2 d'(M' - M)e`. -/
theorem half_form_add_sub (M : Matrix (Fin nx) (Fin nx) K) (e d : Fin nx → K) :
    1 / 2 * ((e + d) ⬝ᵥ (M *ᵥ (e + d))) -
        (1 / 2 * (e ⬝ᵥ (M *ᵥ e)) + (M *ᵥ e) ⬝ᵥ d + 1 / 2 * (d ⬝ᵥ (M *ᵥ d))) =
      1 / 2 * (d ⬝ᵥ ((Mᵀ - M) *ᵥ e)) := by
  rw [mulVec_add, dotProduct_add, add_dotProduct, add_dotProduct, sub_mulVec, dotProduct_sub,
    dotProduct_mulVec_comm M e d, dotProduct_comm (M *ᵥ e) d]
  ring

/-- `evaluate` expands exactly around the current state with `stateGradient` as its gradient,
so `stateGradient` is the derivative of the cost in the state. -/
theorem evaluate_add_state (t : K) (x dx : Fin nx → K) (u : Fin nu → K) :
    (c.setCurrentStateAndControl t (x + dx) u).evaluate =
      (c.setCurrentStateAndControl t x u).evaluate +
        (c.setCurrentStateAndControl t x u).stateGradient ⬝ᵥ dx + 1 / 2 * (dx ⬝ᵥ (c.Q *ᵥ dx)) := by
  have hx : x + dx - c.xNominal = (x - c.xNominal) + dx := by abel
  have hcross : (x - c.xNominal) ⬝ᵥ (c.Q *ᵥ dx) = (c.Qᵀ *ᵥ (x - c.xNominal)) ⬝ᵥ dx := by
    rw [dotProduct_mulVec, mulVec_transpose]
  have hcomm : dx ⬝ᵥ (c.Q *ᵥ (x - c.xNominal)) = (c.Q *ᵥ (x - c.xNominal)) ⬝ᵥ dx :=
    dotProduct_comm _ _
  simp only [evaluate, stateGradient, setCurrentStateAndControl, hx, mulVec_add, dotProduct_add,
    add_dotProduct, add_mulVec, smul_dotProduct, smul_eq_mul, hcross, hcomm]
  ring

theorem evaluate_sub_secondOrderModel (t : K) (x dx : Fin nx → K) (u du : Fin nu → K) :
    (c.setCurrentStateAndControl t (x + dx) (u + du)).evaluate -
        (c.setCurrentStateAndControl t x u).secondOrderModel dx du =
      1 / 2 * (dx ⬝ᵥ ((c.Qᵀ - c.Q) *ᵥ (x - c.xNominal))) +
        1 / 2 * (du ⬝ᵥ ((c.Rᵀ - c.R) *ᵥ (u - c.uNominal))) := by
  have hx : x + dx - c.xNominal = (x - c.xNominal) + dx := by abel
  have hu : u + du - c.uNominal = (u - c.uNominal) + du := by abel
  rw [← half_form_add_sub, ← half_form_add_sub]
  simp only [secondOrderModel, evaluate, setCurrentStateAndControl, stateDerivative,
    controlDerivative, stateSecondDerivative, controlSecondDerivative, stateControlDerivative,
    zero_mulVec, dotProduct_zero, hx, hu]
  ring

theorem terminalCost_sub_terminalModel (t : K) (x dx : Fin nx → K) (u du : Fin nu → K) :
    (c.setCurrentStateAndControl t (x + dx) (u + du)).terminalCost -
        (c.setCurrentStateAndControl t x u).terminalModel dx =
      1 / 2 * (dx ⬝ᵥ ((c.QFinalᵀ - c.QFinal) *ᵥ (x - c.xFinal))) := by
  have hx : x + dx - c.xFinal = (x - c.xFinal) + dx := by abel
  rw [← half_form_add_sub]
  simp only [terminalModel, terminalCost, setCurrentStateAndControl, terminalCostStateDerivative,
    terminalCostStateSecondDerivative, hx]

/-- A weight whose model error `1/2 d'(M' - M)e` vanishes for every `e` and `d` is symmetric. -/
theorem transpose_eq_of_forall {M : Matrix (Fin nx) (Fin nx) K}
    (h : ∀ e d : Fin nx → K, 1 / 2 * (d ⬝ᵥ ((Mᵀ - M) *ᵥ e)) = 0) : Mᵀ = M :=
  sub_eq_zero.mp (eq_zero_of_dotProduct_mulVec fun d e => by simpa using h e d)

/-- **The second-order model is exact iff the weights are symmetric.** -/
theorem secondOrder_exact_iff :
    c.SecondOrderExact ↔ c.Qᵀ = c.Q ∧ c.Rᵀ = c.R ∧ c.QFinalᵀ = c.QFinal := by
  constructor
  · intro h
    refine ⟨transpose_eq_of_forall fun e d => ?_, transpose_eq_of_forall fun e d => ?_,
      transpose_eq_of_forall fun e d => ?_⟩
    · have := c.evaluate_sub_secondOrderModel 0 (c.xNominal + e) d c.uNominal 0
      rw [(h 0 _ _ d 0).1, sub_self] at this
      simpa only [add_sub_cancel_left, sub_self, mulVec_zero, dotProduct_zero, mul_zero,
        add_zero] using this.symm
    · have := c.evaluate_sub_secondOrderModel 0 c.xNominal 0 (c.uNominal + e) d
      rw [(h 0 _ _ 0 d).1, sub_self] at this
      simpa only [sub_self, mulVec_zero, dotProduct_zero, mul_zero, add_sub_cancel_left,
        zero_add] using this.symm
    · have := c.terminalCost_sub_terminalModel 0 (c.xFinal + e) d 0 0
      rw [(h 0 _ _ d 0).2, sub_self] at this
      simpa only [add_sub_cancel_left] using this.symm
  · rintro ⟨hQ, hR, hQf⟩ t x u dx du
    constructor
    · rw [← sub_eq_zero, evaluate_sub_secondOrderModel, hQ, hR]
      simp only [sub_self, zero_mulVec, dotProduct_zero, mul_zero, add_zero]
    · rw [← sub_eq_zero, terminalCost_sub_terminalModel, hQf]
      simp only [sub_self, zero_mulVec, dotProduct_zero, mul_zero]

end QuadraticCostFunction

/-- The weight `Q = [[0, 1], [0, 0]]`, not symmetric, with nothing else. -/
def skewCost : QuadraticCostFunction ℚ 2 1 :=
  QuadraticCostFunction.create !![0, 1; 0, 0] 0 0 0 0 0

open QuadraticCostFunction in
/-- At `x = (1, 0)` the cost `1/2 x₀x₁` has the derivative `(0, 1/2)` in the state: it expands
exactly with that gradient. `stateDerivative` returns `Qx = (0, 0)`, so the model built from
the derivative methods predicts `0` for the deviation `dx = (0, 1)`, which costs `1/2`. -/
theorem skewCost_stateDerivative_ne_gradient :
    (skewCost.setCurrentStateAndControl 0 ![1, 0] 0).stateDerivative = ![0, 0] ∧
    (∀ dx : Fin 2 → ℚ, (skewCost.setCurrentStateAndControl 0 (![1, 0] + dx) 0).evaluate =
      (skewCost.setCurrentStateAndControl 0 ![1, 0] 0).evaluate + ![0, 1 / 2] ⬝ᵥ dx +
        1 / 2 * (dx ⬝ᵥ (skewCost.Q *ᵥ dx))) ∧
    (skewCost.setCurrentStateAndControl 0 (![1, 0] + ![0, 1]) (0 + 0)).evaluate = 1 / 2 ∧
    (skewCost.setCurrentStateAndControl 0 ![1, 0] 0).secondOrderModel ![0, 1] 0 = 0 := by
  have hgrad : (skewCost.setCurrentStateAndControl 0 ![1, 0] 0).stateGradient = ![0, 1 / 2] := by
    ext i
    fin_cases i <;> simp [skewCost, create, stateGradient, setCurrentStateAndControl, mulVec,
      dotProduct, Fin.sum_univ_two, vecHead, vecTail]
  refine ⟨?_, fun dx => by rw [skewCost.evaluate_add_state, hgrad], ?_⟩
  · ext i
    fin_cases i <;> simp [skewCost, create, stateDerivative, setCurrentStateAndControl, mulVec,
      dotProduct, Fin.sum_univ_two]
  · constructor <;> simp [skewCost, create, setCurrentStateAndControl, evaluate, secondOrderModel,
      stateDerivative, controlDerivative, stateSecondDerivative, controlSecondDerivative,
      stateControlDerivative, mulVec, dotProduct, Fin.sum_univ_two]

end Ocs2
