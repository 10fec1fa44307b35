import Ocs2.Hpipm.Workspace

/-!
# Ocs2.Hpipm.Runs

Runs of `HpipmInterface`: the constructor `Impl(ocpSize, settings)` (a first
`initializeMemory` on the default-constructed members) followed by calls of
`resize(ocpSize)`, `resize(ocpSize, settings)` and `solve`.

* `call_of_rebuildKey`: what one call does, in terms of the key it rebuilds for.
* `ocpSize_runOk`: the stored shape is the one the last `resize` asked for.
* `size_runOk`: when every `malloc` succeeds, each block's size after a run is the largest
  memsize asked for that role at a rebuild of the run.
* `built_call`, `built_runOk_of_built`: a rebuild builds every object for the stored key in a
  block large enough for it, and later calls keep the workspace built.
-/

namespace Ocs2
namespace Hpipm

/-- A call on `HpipmInterface` after construction. -/
inductive Command
  | resize (s : OcpSize)
  | resizeWith (s : OcpSize) (st : Settings)
  | solve
  deriving Repr

/-- The shape a call asks for has one entry per stage in every vector, as
`d_ocp_qp_dim_set_all` reads them; `solve` asks for none. -/
def Command.WellFormed : Command → Prop
  | .resize s => s.WellFormed
  | .resizeWith s _ => s.WellFormed
  | .solve => True

instance : DecidablePred Command.WellFormed
  | .resize s => inferInstanceAs (Decidable s.WellFormed)
  | .resizeWith s _ => inferInstanceAs (Decidable s.WellFormed)
  | .solve => inferInstanceAs (Decidable True)

namespace Impl

/-- `resize(ocpSize)` is `initializeMemory(ocpSize, settings_)` and `resize(ocpSize, settings)`
is `initializeMemory(ocpSize, settings)`. `solve` writes the QP data into `qp_` and the solution
into `qpSol_`, but allocates nothing, creates nothing and leaves the key and the blocks as they
are. -/
def call (ms : Memsize) (ok : Role → Bool) (w : Impl) : Command → Call
  | .resize s => w.initializeMemory ms ok s w.settings
  | .resizeWith s st => w.initializeMemory ms ok s st
  | .solve => ⟨w, [], false⟩

/-- The key a call asks for: the requested shape with `nx[0] = 0`, and the settings. -/
def request (w : Impl) : Command → Option (OcpSize × Settings)
  | .resize s => some (s.normalize, w.settings)
  | .resizeWith s st => some (s.normalize, st)
  | .solve => none

/-- The key a call rebuilds the workspace for, when it passes the early return. -/
def rebuildKey (w : Impl) (c : Command) : Option (OcpSize × Settings) :=
  (w.request c).filter fun k => !(isSizeEqual w.ocpSize k.1 && isSettingsEqual w.settings k.2)

/-- One call: it returns at once, or rebuilds for its key. -/
theorem call_of_rebuildKey (ms : Memsize) (ok : Role → Bool) (w : Impl) (c : Command) :
    w.call ms ok c = match w.rebuildKey c with
      | none => ⟨w, [], false⟩
      | some k => build ms ok Role.order { w with settings := k.2, ocpSize := k.1 } := by
  cases c with
  | solve => rfl
  | resize s =>
    by_cases h : (isSizeEqual w.ocpSize s.normalize && isSettingsEqual w.settings w.settings) <;>
      simp [call, rebuildKey, request, Option.filter, initializeMemory, h]
  | resizeWith s st =>
    by_cases h : (isSizeEqual w.ocpSize s.normalize && isSettingsEqual w.settings st) <;>
      simp [call, rebuildKey, request, Option.filter, initializeMemory, h]

/-- A run of calls from `w`, every `malloc` succeeding: the last state, the keys the calls
rebuilt for, and all events, in order. -/
structure Trace where
  impl : Impl
  keys : List (OcpSize × Settings)
  events : List Event

/-- The calls `cmds` from `w`, every `malloc` succeeding. -/
def runOk (ms : Memsize) : Impl → List Command → Trace
  | w, [] => ⟨w, [], []⟩
  | w, c :: cs =>
    let t := runOk ms (w.call ms (fun _ => true) c).impl cs
    ⟨t.impl, (w.rebuildKey c).toList ++ t.keys, (w.call ms (fun _ => true) c).events ++ t.events⟩

theorem runOk_append (ms : Memsize) :
    ∀ (w : Impl) (cs cs' : List Command),
      (runOk ms w (cs ++ cs')).impl = (runOk ms (runOk ms w cs).impl cs').impl
  | _, [], _ => rfl
  | _, _ :: cs, cs' => runOk_append ms _ cs cs'

/-- The largest memsize asked for role `r` under the keys `ks`, starting from `init`. -/
def maxMemsize (ms : Memsize) (r : Role) (init : ℕ) (ks : List (OcpSize × Settings)) : ℕ :=
  (ks.map fun k => ms.get k.1 k.2 r).foldl max init

theorem size_call (ms : Memsize) (w : Impl) (c : Command) (r : Role) :
    ((w.call ms (fun _ => true) c).impl.mem r).size =
      maxMemsize ms r (w.mem r).size (w.rebuildKey c).toList := by
  rw [call_of_rebuildKey]
  cases w.rebuildKey c with
  | none => rfl
  | some k => exact ((build_ok ms _ Role.order_nodup _).2 r).1 (Role.mem_order r) |>.1

theorem size_runOk (ms : Memsize) (r : Role) :
    ∀ (w : Impl) (cs : List Command),
      ((runOk ms w cs).impl.mem r).size = maxMemsize ms r (w.mem r).size (runOk ms w cs).keys
  | _, [] => rfl
  | _, c :: cs => by
    simp only [runOk, maxMemsize, List.map_append, List.foldl_append]
    rw [size_runOk ms r _ cs, size_call]
    rfl

theorem le_maxMemsize (ms : Memsize) (r : Role) :
    ∀ (init : ℕ) (ks : List (OcpSize × Settings)),
      init ≤ maxMemsize ms r init ks ∧ ∀ k ∈ ks, ms.get k.1 k.2 r ≤ maxMemsize ms r init ks
  | _, [] => ⟨Nat.le_refl _, fun _ h => absurd h (List.not_mem_nil _)⟩
  | init, k :: ks => by
    obtain ⟨h1, h2⟩ := le_maxMemsize ms r (max init (ms.get k.1 k.2 r)) ks
    refine ⟨Nat.le_trans (Nat.le_max_left _ _) h1, fun k' hk' => ?_⟩
    rcases List.mem_cons.mp hk' with rfl | hk'
    · exact Nat.le_trans (Nat.le_max_right _ _) h1
    · exact h2 k' hk'

theorem malloc_call {ms : Memsize} {ok : Role → Bool} {w : Impl} {c : Command} {r : Role} {n : ℕ}
    (h : Event.malloc r n ∈ (w.call ms ok c).events) :
    ∃ k, w.rebuildKey c = some k ∧ n = ms.get k.1 k.2 r ∧ (w.mem r).size < n := by
  rw [call_of_rebuildKey] at h
  cases hk : w.rebuildKey c with
  | none => rw [hk] at h; exact absurd h (List.not_mem_nil _)
  | some k =>
    rw [hk] at h
    obtain ⟨-, hn, hlt⟩ := build_malloc ms ok _ Role.order_nodup _ r n h
    exact ⟨k, rfl, hn, hlt⟩

/-- Calls whose rebuilds all ask for keys the blocks already fit allocate nothing. -/
theorem no_malloc_runOk (ms : Memsize) (K : List (OcpSize × Settings)) :
    ∀ (w : Impl) (cs : List Command), (∀ k ∈ K, ∀ r, ms.get k.1 k.2 r ≤ (w.mem r).size) →
      (∀ k ∈ (runOk ms w cs).keys, k ∈ K) → ∀ r n, Event.malloc r n ∉ (runOk ms w cs).events
  | _, [], _, _, _, _, h => absurd h (List.not_mem_nil _)
  | w, c :: cs, hK, hks, r, n, h => by
    simp only [runOk, List.mem_append, Option.mem_toList] at hks h
    have hgrow : ∀ r, (w.mem r).size ≤ ((w.call ms (fun _ => true) c).impl.mem r).size :=
      fun r => by rw [size_call]; exact (le_maxMemsize ms r _ _).1
    rcases h with h | h
    · obtain ⟨k, hk, rfl, hlt⟩ := malloc_call h
      exact absurd (hK k (hks k (.inl hk)) r) (Nat.not_le.mpr hlt)
    · exact no_malloc_runOk ms K _ cs (fun k hk r => Nat.le_trans (hK k hk r) (hgrow r))
        (fun k hk => hks k (.inr hk)) r n h

/-! ## The built workspace -/

/-- The workspace is built for the stored key: every object was created for
`(ocpSize_, settings_)` in its block, every block holds at least the bytes hpipm asks for, and
the blocks' memory is sound. -/
def Built (ms : Memsize) (w : Impl) : Prop :=
  w.HeapOk ∧ ∀ r, w.obj r = some ⟨w.ocpSize, w.settings, (w.mem r).ptr⟩ ∧
    ms.get w.ocpSize w.settings r ≤ (w.mem r).size

/-- A rebuild builds the workspace from sound memory alone; a call that returns at once keeps
it built. -/
theorem built_call (ms : Memsize) {w : Impl} (hw : w.HeapOk) (c : Command)
    (h : w.rebuildKey c ≠ none ∨ Built ms w) : Built ms (w.call ms (fun _ => true) c).impl := by
  rw [call_of_rebuildKey]
  cases hk : w.rebuildKey c with
  | none => simpa [hk] using h
  | some k =>
    obtain ⟨-, hb⟩ := build_ok ms _ Role.order_nodup { w with settings := k.2, ocpSize := k.1 }
    obtain ⟨hs, hkey⟩ := build_key ms (fun _ => true) Role.order
      { w with settings := k.2, ocpSize := k.1 }
    refine ⟨build_heapOk ms _ _ hw, fun r => ?_⟩
    obtain ⟨hsize, hobj⟩ := (hb r).1 (Role.mem_order r)
    rw [hobj, hsize, hs, hkey]
    exact ⟨rfl, Nat.le_max_right _ _⟩

theorem built_runOk_of_built (ms : Memsize) :
    ∀ (w : Impl) (cs : List Command), Built ms w → Built ms (runOk ms w cs).impl
  | _, [], hw => hw
  | _, c :: cs, hw => built_runOk_of_built ms _ cs (built_call ms hw.1 c (.inr hw))

end Impl

end Hpipm
end Ocs2
