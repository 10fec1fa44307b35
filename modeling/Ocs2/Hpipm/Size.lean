import Mathlib.Logic.Function.Basic
import Mathlib.Tactic.Tauto
import Mathlib.Data.Nat.Defs

/-!
# Ocs2.Hpipm.Size

The key `HpipmInterface::Impl` prepares its hpipm workspace for: the problem shape `OcpSize` and
the solver `Settings`, with the two comparisons `isSizeEqual` and `isSettingsEqual` that let
`initializeMemory` skip the rebuild.

The `scalar_t` fields of `Settings` are compared with C++ `==` on `double`. `Binary64` keeps a
`double` as its bit pattern, so that `==` is IEEE-754 equality: a NaN equals nothing, not even
itself, and `+0 == -0`.

* `isSizeEqual_iff`: `isSizeEqual` compares `N` and all eight per-stage vectors, that is the whole
  shape handed to `d_ocp_qp_dim_create` and `d_ocp_qp_dim_set_all`.
* `isSettingsEqual_self`: settings compare equal to themselves exactly when no field is a NaN;
  `isSettingsEqual_of_nan`: settings with a NaN field equal no stored settings.
* `normalize_normalize`: `ocpSize.nx[0] = 0` done twice is done once.
-/

namespace Ocs2

/-- An IEEE-754 binary64 `double`, as its bit pattern. -/
structure Binary64 where
  bits : UInt64
  deriving DecidableEq, Repr

namespace Binary64

/-- Exponent all ones and a nonzero fraction. -/
def isNaN (a : Binary64) : Bool :=
  (a.bits >>> 52) &&& 0x7FF == 0x7FF && a.bits &&& 0xFFFFFFFFFFFFF != 0

/-- `+0.0` or `-0.0`. -/
def isZero (a : Binary64) : Bool := a.bits &&& 0x7FFFFFFFFFFFFFFF == 0

/-- C++ `a == b` on `double`. -/
def beq (a b : Binary64) : Bool :=
  !a.isNaN && !b.isNaN && (a.bits == b.bits || a.isZero && b.isZero)

/-- The quiet NaN `std::numeric_limits<double>::quiet_NaN()`. -/
def quietNaN : Binary64 := ⟨0x7FF8000000000000⟩

theorem beq_self {a : Binary64} : a.beq a = !a.isNaN := by
  cases h : a.isNaN <;> simp [beq, h]

theorem quietNaN_isNaN : quietNaN.isNaN = true := by decide

end Binary64

namespace Hpipm

/-- `OcpSize`: the horizon `N` and, per stage `0..N`, the numbers of states, inputs, state and
input box constraints, general constraints, and the slacks of the three. -/
structure OcpSize where
  N : ℕ
  nx : List ℕ
  nu : List ℕ
  nbx : List ℕ
  nbu : List ℕ
  ng : List ℕ
  nsbx : List ℕ
  nsbu : List ℕ
  nsg : List ℕ
  deriving DecidableEq, Repr

namespace OcpSize

/-- Every per-stage vector has one entry per stage `0..N`. -/
def WellFormed (s : OcpSize) : Prop :=
  s.nx.length = s.N + 1 ∧ s.nu.length = s.N + 1 ∧ s.nbx.length = s.N + 1 ∧
    s.nbu.length = s.N + 1 ∧ s.ng.length = s.N + 1 ∧ s.nsbx.length = s.N + 1 ∧
    s.nsbu.length = s.N + 1 ∧ s.nsg.length = s.N + 1

instance (s : OcpSize) : Decidable s.WellFormed := inferInstanceAs (Decidable (_ ∧ _))

/-- `ocpSize.nx[0] = 0`, the first line of `initializeMemory`: the initial state is eliminated,
so hpipm sees no state at stage 0. -/
def normalize (s : OcpSize) : OcpSize := { s with nx := s.nx.set 0 0 }

@[simp] theorem normalize_N (s : OcpSize) : s.normalize.N = s.N := rfl
@[simp] theorem normalize_nu (s : OcpSize) : s.normalize.nu = s.nu := rfl
@[simp] theorem normalize_ng (s : OcpSize) : s.normalize.ng = s.ng := rfl
@[simp] theorem normalize_nx (s : OcpSize) : s.normalize.nx = s.nx.set 0 0 := rfl

theorem normalize_normalize (s : OcpSize) : s.normalize.normalize = s.normalize := by
  simp [normalize]

theorem normalize_wellFormed {s : OcpSize} (h : s.WellFormed) : s.normalize.WellFormed := by
  simpa [WellFormed, normalize] using h

end OcpSize

/-- The hpipm solver settings that `applySettings` hands to `d_ocp_qp_ipm_arg_set_*`:
`hpipmMode` is the `hpipm_mode` enumerator's value, the `int` fields are integers and the
`scalar_t` fields are doubles. -/
structure Settings where
  hpipmMode : ℕ
  iterMax : ℤ
  alphaMin : Binary64
  mu0 : Binary64
  tolStat : Binary64
  tolEq : Binary64
  tolIneq : Binary64
  tolComp : Binary64
  regPrim : Binary64
  warmStart : ℤ
  predCorr : ℤ
  ricAlg : ℤ
  deriving DecidableEq, Repr

/-- No `scalar_t` field of the settings is a NaN. -/
def Settings.noNaN (st : Settings) : Bool :=
  !st.alphaMin.isNaN && !st.mu0.isNaN && !st.tolStat.isNaN && !st.tolEq.isNaN &&
    !st.tolIneq.isNaN && !st.tolComp.isNaN && !st.regPrim.isNaN

/-- `isSizeEqual`: the stored shape `cur` against the requested `s`, field by field. -/
def isSizeEqual (cur s : OcpSize) : Bool :=
  cur.N == s.N && cur.nu == s.nu && cur.nx == s.nx && cur.nbu == s.nbu && cur.nbx == s.nbx &&
    cur.ng == s.ng && cur.nsbu == s.nsbu && cur.nsbx == s.nsbx && cur.nsg == s.nsg

/-- `isSettingsEqual`: the stored settings `cur` against the requested `st`, the twelve fields
`applySettings` applies, each with its C++ `==`. -/
def isSettingsEqual (cur st : Settings) : Bool :=
  cur.hpipmMode == st.hpipmMode && cur.iterMax == st.iterMax && cur.alphaMin.beq st.alphaMin &&
    cur.mu0.beq st.mu0 && cur.tolStat.beq st.tolStat && cur.tolEq.beq st.tolEq &&
    cur.tolIneq.beq st.tolIneq && cur.tolComp.beq st.tolComp && cur.regPrim.beq st.regPrim &&
    cur.warmStart == st.warmStart && cur.predCorr == st.predCorr && cur.ricAlg == st.ricAlg

theorem isSizeEqual_iff {cur s : OcpSize} : isSizeEqual cur s = true ↔ cur = s := by
  cases cur; cases s
  simp only [isSizeEqual, Bool.and_eq_true, beq_iff_eq, OcpSize.mk.injEq]
  tauto

theorem isSettingsEqual_self (st : Settings) : isSettingsEqual st st = st.noNaN := by
  simp only [isSettingsEqual, Settings.noNaN, Binary64.beq_self, beq_self_eq_true, Bool.true_and,
    Bool.and_true, Bool.and_assoc]

/-- A NaN field compares unequal to anything, so such settings equal no stored settings. -/
theorem isSettingsEqual_of_nan (cur : Settings) {st : Settings} (h : st.noNaN = false) :
    isSettingsEqual cur st = false := by
  simp only [Settings.noNaN, Bool.and_eq_false_iff, Bool.not_eq_false'] at h
  rcases h with (((((h | h) | h) | h) | h) | h) | h <;> simp [isSettingsEqual, Binary64.beq, h]

end Hpipm
end Ocs2
