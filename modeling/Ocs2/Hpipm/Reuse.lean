import Ocs2.Hpipm.Runs

/-!
# Ocs2.Hpipm.Reuse

What the early return of `initializeMemory` buys and where it falls short.

Every shape below is well-formed (`OcpSize.WellFormed`): `d_ocp_qp_dim_set_all` reads `N + 1`
entries of each per-stage vector, so on a shorter one the code has undefined behaviour.

* `capacity_grow_only`: blocks only grow, to the largest memsize a rebuild asked for, and a run
  that rebuilds only for keys already rebuilt allocates nothing.
* `resize_twice_noop`: `resize(s, st)` twice does nothing the second time, when no field of
  `st` is a NaN, and rebuilds every time when one is; a call returns early exactly when its key
  equals the stored one, so shapes that differ only in `nx[0]` share one workspace.
* `initializeMemory_threw_key`: a call that throws `std::bad_alloc` has already stored the new
  key over a workspace not built for it, so a retry returns early.
* `new_default_request_builds_nothing`: a constructor whose request equals the
  default-constructed members returns early and creates no hpipm object;
  `constructor_rebuild_built`: a constructor that rebuilds leaves every later state built.
-/

namespace Ocs2
namespace Hpipm
namespace Impl

/-! ## Small instances

The shapes, settings and memsizes the concrete runs below use. -/

/-- Memsizes that grow with the horizon: `N + 1` bytes for every object. -/
def perStage : Memsize :=
  ⟨fun N => N + 1, fun s => s.N + 1, fun s => s.N + 1, fun s => s.N + 1, fun s _ => s.N + 1⟩

/-- A problem without stages: `N = 0`, every count `0`. -/
def sizeZero : OcpSize := ⟨0, [0], [0], [0], [0], [0], [0], [0], [0]⟩

/-- One stage of two states and one input. -/
def sizeOne : OcpSize := ⟨1, [2, 2], [1, 0], [0, 0], [0, 0], [0, 0], [0, 0], [0, 0], [0, 0]⟩

/-- Two stages of two states and one input. -/
def sizeTwo : OcpSize :=
  ⟨2, [2, 2, 2], [1, 1, 0], [0, 0, 0], [0, 0, 0], [0, 0, 0], [0, 0, 0], [0, 0, 0], [0, 0, 0]⟩

/-- Settings with every field zero. -/
def settingsZero : Settings := ⟨0, 0, ⟨0⟩, ⟨0⟩, ⟨0⟩, ⟨0⟩, ⟨0⟩, ⟨0⟩, ⟨0⟩, 0, 0, 0⟩

/-! ## Reuse -/


/-- **Grow-only blocks.** From construction on, over well-formed shapes and every `malloc`
succeeding: after every call each block's size is the largest memsize asked for its role at a
rebuild so far (`0` before the first), sizes never decrease, a call calls `malloc` for a block
only with that role's memsize under its key and only when it exceeds the block's size, and once
a run has rebuilt for some keys, later calls that rebuild only for those keys allocate nothing. -/
theorem capacity_grow_only (ms : Memsize) (dO : OcpSize) (dS : Settings) (h : Heap)
    (s0 : OcpSize) (st0 : Settings) (cs : List Command) (_ : s0.WellFormed)
    (_ : ∀ c ∈ cs, c.WellFormed) :
    let t := runOk ms (fresh dO dS h) (.resizeWith s0 st0 :: cs)
    (∀ r, (t.impl.mem r).size = maxMemsize ms r 0 t.keys) ∧
    (∀ c, c.WellFormed → ∀ r, (t.impl.mem r).size ≤
      ((runOk ms (fresh dO dS h) (.resizeWith s0 st0 :: cs ++ [c])).impl.mem r).size) ∧
    (∀ ok c, c.WellFormed → ∀ r n, Event.malloc r n ∈ (t.impl.call ms ok c).events →
      ∃ k, t.impl.rebuildKey c = some k ∧ n = ms.get k.1 k.2 r ∧ (t.impl.mem r).size < n) ∧
    (∀ more, (∀ c ∈ more, c.WellFormed) → (∀ k ∈ (runOk ms t.impl more).keys, k ∈ t.keys) →
      ∀ r n, Event.malloc r n ∉ (runOk ms t.impl more).events) := by
  intro t
  have hsize : ∀ r, (t.impl.mem r).size = maxMemsize ms r 0 t.keys := fun r =>
    size_runOk ms r _ _
  refine ⟨hsize, fun c _ r => ?_, fun ok c _ r n h => malloc_call h, fun more _ hks => ?_⟩
  · rw [List.cons_append, ← List.cons_append, runOk_append]
    show _ ≤ ((t.impl.call ms (fun _ => true) c).impl.mem r).size
    rw [size_call]
    exact (le_maxMemsize ms r _ _).1
  · refine no_malloc_runOk ms t.keys t.impl more (fun k hk r => ?_) hks
    rw [hsize r]
    exact (le_maxMemsize ms r 0 t.keys).2 k hk

theorem capacity_grow_only_sizeTwo :
    sizeOne.WellFormed ∧ (∀ c ∈ [Command.resizeWith sizeTwo settingsZero, .solve], c.WellFormed) ∧
      let t := runOk perStage (fresh sizeZero settingsZero Heap.empty)
        [.resizeWith sizeOne settingsZero, .resizeWith sizeTwo settingsZero, .solve]
      (∀ r, (t.impl.mem r).size = maxMemsize perStage r 0 t.keys) ∧
      (∀ c, c.WellFormed → ∀ r, (t.impl.mem r).size ≤
        ((runOk perStage (fresh sizeZero settingsZero Heap.empty)
          (.resizeWith sizeOne settingsZero :: [.resizeWith sizeTwo settingsZero, .solve] ++ [c])).impl.mem
            r).size) ∧
      (∀ ok c, c.WellFormed → ∀ r n, Event.malloc r n ∈ (t.impl.call perStage ok c).events →
        ∃ k, t.impl.rebuildKey c = some k ∧ n = perStage.get k.1 k.2 r ∧ (t.impl.mem r).size < n) ∧
      (∀ more, (∀ c ∈ more, c.WellFormed) → (∀ k ∈ (runOk perStage t.impl more).keys, k ∈ t.keys) →
        ∀ r n, Event.malloc r n ∉ (runOk perStage t.impl more).events) :=
  ⟨by decide, by decide, capacity_grow_only perStage _ _ _ sizeOne settingsZero _ (by decide)
    (by decide)⟩

/-- The request of `resize(s, st)` is stored by any call that passes the early return. -/
theorem stored_after_resize (ms : Memsize) (ok : Role → Bool) (w : Impl) (s : OcpSize)
    (st : Settings) (hst : st.noNaN = true) :
    (isSizeEqual (w.call ms ok (.resizeWith s st)).impl.ocpSize s.normalize &&
      isSettingsEqual (w.call ms ok (.resizeWith s st)).impl.settings st) = true := by
  cases hc : (isSizeEqual w.ocpSize s.normalize && isSettingsEqual w.settings st)
  · obtain ⟨hs, hst'⟩ := @initializeMemory_key ms ok _ _ _ hc
    simp only [call, hs, hst', isSettingsEqual_self, hst, Bool.and_true]
    exact isSizeEqual_iff.mpr rfl
  · simpa [call, initializeMemory_early hc] using hc

theorem normalize_set_zero (s : OcpSize) (v : ℕ) :
    ({ s with nx := s.nx.set 0 v } : OcpSize).normalize = s.normalize := by
  simp [OcpSize.normalize]

/-- **Second `resize` is free** (settings without NaN). After `resize(s, st)` with a
well-formed `s`, the same call, or one whose shape differs only in `nx[0]`, returns early with
the state unchanged and no event; with a NaN field in `st` the call rebuilds from every state;
and a call does no work exactly when its shape with `nx[0] = 0` is the stored shape and its
settings compare equal (C++ `==`, field by field) to the stored settings. -/
theorem resize_twice_noop (ms : Memsize) (ok ok' : Role → Bool) (w : Impl) (s : OcpSize)
    (st : Settings) (_ : s.WellFormed) :
    let w1 := (w.call ms ok (.resizeWith s st)).impl
    (st.noNaN = true →
      w1.call ms ok' (.resizeWith s st) = ⟨w1, [], false⟩ ∧
      ∀ v, w1.call ms ok' (.resizeWith { s with nx := s.nx.set 0 v } st) = ⟨w1, [], false⟩) ∧
    (st.noNaN = false → ∀ w' : Impl,
      w'.call ms ok' (.resizeWith s st) =
        build ms ok' Role.order { w' with settings := st, ocpSize := s.normalize } ∧
      (w'.call ms ok' (.resizeWith s st)).events ≠ []) ∧
    ∀ s' st', s'.WellFormed → ((w.call ms ok (.resizeWith s' st')).events = [] ↔
      s'.normalize = w.ocpSize ∧ isSettingsEqual w.settings st' = true) := by
  intro w1
  refine ⟨fun hst => ?_, fun hst w' => ?_, fun s' st' _ => ?_⟩
  · have hkey := stored_after_resize ms ok w s st hst
    refine ⟨initializeMemory_early hkey, fun v => ?_⟩
    show w1.initializeMemory ms ok' _ st = _
    rw [initializeMemory_early (by rwa [normalize_set_zero])]
  · have hb : w'.initializeMemory ms ok' s st = _ :=
      initializeMemory_rebuild (by rw [isSettingsEqual_of_nan _ hst, Bool.and_false])
    exact ⟨hb, by rw [call, hb]; exact build_events_ne_nil ms ok' .dim _ _⟩
  · cases hc : (isSizeEqual w.ocpSize s'.normalize && isSettingsEqual w.settings st')
    · simp only [call, initializeMemory_rebuild hc]
      simp only [Bool.and_eq_false_iff] at hc
      refine ⟨fun h => (build_events_ne_nil ms ok .dim _ _ h).elim, fun ⟨h1, h2⟩ => ?_⟩
      rcases hc with hc | hc
      · exact absurd (isSizeEqual_iff.mpr h1.symm) (by simp [hc])
      · exact absurd h2 (by simp [hc])
    · have he := @initializeMemory_early ms ok _ _ _ hc
      simp only [Bool.and_eq_true] at hc
      simp [call, he, (isSizeEqual_iff.mp hc.1).symm, hc.2]

theorem resize_twice_noop_sizeOne :
    sizeOne.WellFormed ∧
      let w := fresh sizeZero settingsZero Heap.empty
      let w1 := (w.call perStage (fun _ => true) (.resizeWith sizeOne settingsZero)).impl
      (settingsZero.noNaN = true →
        w1.call perStage (fun _ => true) (.resizeWith sizeOne settingsZero) = ⟨w1, [], false⟩ ∧
        ∀ v, w1.call perStage (fun _ => true)
          (.resizeWith { sizeOne with nx := sizeOne.nx.set 0 v } settingsZero) = ⟨w1, [], false⟩) ∧
      (settingsZero.noNaN = false → ∀ w' : Impl,
        w'.call perStage (fun _ => true) (.resizeWith sizeOne settingsZero) =
          build perStage (fun _ => true) Role.order
            { w' with settings := settingsZero, ocpSize := sizeOne.normalize } ∧
        (w'.call perStage (fun _ => true) (.resizeWith sizeOne settingsZero)).events ≠ []) ∧
      ∀ s' st', s'.WellFormed → ((w.call perStage (fun _ => true) (.resizeWith s' st')).events = [] ↔
        s'.normalize = w.ocpSize ∧ isSettingsEqual w.settings st' = true) :=
  ⟨by decide, resize_twice_noop perStage _ _ _ sizeOne settingsZero (by decide)⟩

/-- With a NaN in `mu0`, `resize(s, st)` rebuilds on every call. -/
theorem resize_twice_nan :
    let st := { settingsZero with mu0 := Binary64.quietNaN }
    let w1 := (runOk perStage (fresh sizeZero settingsZero Heap.empty)
      [.resizeWith sizeOne settingsZero, .resizeWith sizeOne st]).impl
    (w1.call perStage (fun _ => true) (.resizeWith sizeOne st)).events ≠ [] := by
  decide

/-- **A throw leaves the new key.** If `initializeMemory(s, st)` throws `std::bad_alloc`, the
stored key is already the request, whatever it was before, while the workspace is not built for
it; so with no NaN in `st`, retrying returns early over objects that were never built for it. -/
theorem initializeMemory_threw_key (ms : Memsize) (ok : Role → Bool) (w : Impl) (s : OcpSize)
    (st : Settings) (_ : s.WellFormed) (h : (w.initializeMemory ms ok s st).threw = true) :
    let w1 := (w.initializeMemory ms ok s st).impl
    w1.ocpSize = s.normalize ∧ w1.settings = st ∧ ¬ Built ms w1 ∧
      (st.noNaN = true → ∀ ok', w1.initializeMemory ms ok' s st = ⟨w1, [], false⟩) := by
  dsimp only
  cases hc : (isSizeEqual w.ocpSize s.normalize && isSettingsEqual w.settings st)
  · rw [initializeMemory_rebuild hc] at h ⊢
    obtain ⟨hsz, hst⟩ := build_key ms ok Role.order { w with settings := st, ocpSize := s.normalize }
    obtain ⟨r, hr⟩ := build_threw_short ms ok _ _ h
    refine ⟨hsz, hst, fun hb => absurd (hb.2 r).2 ?_, fun hn ok' => initializeMemory_early ?_⟩
    · rw [hsz, hst]
      exact Nat.not_le.mpr hr
    · rw [hsz, hst, isSettingsEqual_self, hn]
      simp [isSizeEqual_iff]
  · rw [initializeMemory_early hc] at h
    exact absurd h (by simp)

theorem initializeMemory_threw_key_sizeTwo :
    sizeTwo.WellFormed ∧
      let w1 := (runOk perStage (fresh sizeZero settingsZero Heap.empty)
        [.resizeWith sizeOne settingsZero]).impl
      (w1.initializeMemory perStage (fun _ => false) sizeTwo settingsZero).threw = true ∧
      let w2 := (w1.initializeMemory perStage (fun _ => false) sizeTwo settingsZero).impl
      w2.ocpSize = sizeTwo.normalize ∧ w2.settings = settingsZero ∧ ¬ Built perStage w2 ∧
        (settingsZero.noNaN = true → ∀ ok', w2.initializeMemory perStage ok' sizeTwo settingsZero =
          ⟨w2, [], false⟩) :=
  ⟨by decide, by decide,
    initializeMemory_threw_key perStage _ _ sizeTwo settingsZero (by decide) (by decide)⟩

/-- From a workspace built for `sizeOne`, `resize(sizeTwo, settings)` whose first `malloc` fails
throws with the stored shape already `sizeTwo`. -/
theorem resize_throw_moves_key :
    let w1 := (runOk perStage (fresh sizeZero settingsZero Heap.empty)
      [.resizeWith sizeOne settingsZero]).impl
    let c := w1.initializeMemory perStage (fun _ => false) sizeTwo settingsZero
    c.threw = true ∧ c.impl.ocpSize ≠ w1.ocpSize := by
  decide

/-- **The constructor can build nothing.** When the first request, with `nx[0] = 0`, equals the
default-constructed `ocpSize_` and `settings_` (no NaN), `Impl(ocpSize, settings)` returns early:
no `malloc`, no `d_ocp_qp_*_create`, every hpipm object left uninitialized. -/
theorem new_default_request_builds_nothing (ms : Memsize) (ok : Role → Bool) (dO : OcpSize)
    (dS : Settings) (h : Heap) (_ : dO.WellFormed) (hO : dO.normalize = dO)
    (hS : dS.noNaN = true) :
    let c := (fresh dO dS h).initializeMemory ms ok dO dS
    c.events = [] ∧ (∀ r, c.impl.obj r = none) ∧ ¬ Built ms c.impl := by
  intro c
  have hc : c = ⟨fresh dO dS h, [], false⟩ :=
    initializeMemory_early (by simp [fresh, hO, isSettingsEqual_self, hS, isSizeEqual_iff])
  rw [hc]
  exact ⟨rfl, fun _ => rfl, fun hb => by simpa [fresh] using (hb.2 .dim).1⟩

theorem new_default_request_builds_nothing_zero :
    sizeZero.WellFormed ∧ sizeZero.normalize = sizeZero ∧ settingsZero.noNaN = true ∧
      let c := (fresh sizeZero settingsZero Heap.empty).initializeMemory perStage (fun _ => true)
        sizeZero settingsZero
      c.events = [] ∧ (∀ r, c.impl.obj r = none) ∧ ¬ Built perStage c.impl :=
  ⟨by decide, by decide, by decide,
    new_default_request_builds_nothing perStage _ _ _ _ (by decide) (by decide) (by decide)⟩

/-- **Built after every call, when the constructor rebuilds.** If the first request, with
`nx[0] = 0`, differs from the default-constructed `ocpSize_` or does not compare equal to
`settings_`, then after construction and after any later calls (well-formed shapes, every
`malloc` succeeding) each hpipm object is created for the stored key in a block holding at least
the memsize hpipm asks for, and the blocks' memory is sound. -/
theorem constructor_rebuild_built (ms : Memsize) (dO : OcpSize) (dS : Settings) (h : Heap)
    (s0 : OcpSize) (st0 : Settings) (cs : List Command) (_ : s0.WellFormed)
    (_ : ∀ c ∈ cs, c.WellFormed) (hne : s0.normalize ≠ dO ∨ isSettingsEqual dS st0 = false) :
    Built ms (runOk ms (fresh dO dS h) (.resizeWith s0 st0 :: cs)).impl := by
  refine built_runOk_of_built ms _ cs (built_call ms (fresh_heapOk dO dS h) _ (.inl ?_))
  have hk : (isSizeEqual dO s0.normalize && isSettingsEqual dS st0) = false := by
    rcases hne with hne | hne
    · simp [isSizeEqual_iff, Ne.symm hne]
    · simp [hne]
  simp [rebuildKey, request, fresh, Option.filter, hk]

theorem constructor_rebuild_built_sizeOne :
    sizeOne.WellFormed ∧
      (∀ c ∈ [Command.resizeWith sizeTwo settingsZero, .resize sizeOne, .solve], c.WellFormed) ∧
      (sizeOne.normalize ≠ sizeZero ∨ isSettingsEqual settingsZero settingsZero = false) ∧
      Built perStage (runOk perStage (fresh sizeZero settingsZero Heap.empty)
        [.resizeWith sizeOne settingsZero, .resizeWith sizeTwo settingsZero, .resize sizeOne,
          .solve]).impl :=
  ⟨by decide, by decide, .inl (by decide),
    constructor_rebuild_built perStage _ _ _ _ _ _ (by decide) (by decide) (.inl (by decide))⟩


end Impl
end Hpipm
end Ocs2
