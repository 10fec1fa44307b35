import Ocs2.Hpipm.MemoryBlock
import Mathlib.Tactic.Set

/-!
# Ocs2.Hpipm.Workspace

`HpipmInterface::Impl` as a state machine. The state is the stored key (`settings_`,
`ocpSize_`), the five `MemoryBlock`s, the five hpipm objects and the heap; a call returns the
new state, the events it caused (`malloc`, `d_ocp_qp_*_create`, `applySettings`) and whether it
threw `std::bad_alloc`. hpipm's `*_memsize` functions are a parameter (`Memsize`).

`initializeMemory` sets `nx[0] = 0`, returns early when `isSizeEqual` and `isSettingsEqual`
hold, and otherwise stores the new key first and then reserves and creates the objects one by
one (`build`), in the order `Role.order`.

* `build_ok`: when every `malloc` succeeds, `build` reserves each block to at least its memsize
  and creates each object for the stored key in that block.
* `build_malloc`: a `malloc` happens only for a block whose memsize exceeds its size.
* `build_threw_short`: a rebuild that throws leaves a block short of its memsize.
* `initializeMemory_key`: after a call that does not return early the stored key is the request,
  whether or not the call threw.
-/

namespace Ocs2
namespace Hpipm

/-- The five objects `initializeMemory` builds, each with its `MemoryBlock`: `dim_`, `qp_`,
`qpSol_`, `arg_` and `workspace_`. -/
inductive Role
  | dim | qp | qpSol | ipmArg | ipm
  deriving DecidableEq, Repr

namespace Role

/-- The order in which `initializeMemory` reserves and creates them. -/
def order : List Role := [.dim, .qp, .qpSol, .ipmArg, .ipm]

theorem mem_order (r : Role) : r ∈ order := by cases r <;> decide

theorem order_nodup : order.Nodup := by decide

end Role

/-- hpipm's `*_memsize` functions: `d_ocp_qp_dim_memsize(N)`, then `d_ocp_qp_memsize`,
`d_ocp_qp_sol_memsize` and `d_ocp_qp_ipm_arg_memsize` of the dimensions, and
`d_ocp_qp_ipm_ws_memsize` of the dimensions and the applied settings. -/
structure Memsize where
  dim : ℕ → ℕ
  qp : OcpSize → ℕ
  qpSol : OcpSize → ℕ
  ipmArg : OcpSize → ℕ
  ipmWs : OcpSize → Settings → ℕ

/-- The bytes `initializeMemory` reserves for a role under the key `(s, st)`. -/
def Memsize.get (ms : Memsize) (s : OcpSize) (st : Settings) : Role → ℕ
  | .dim => ms.dim s.N
  | .qp => ms.qp s
  | .qpSol => ms.qpSol s
  | .ipmArg => ms.ipmArg s
  | .ipm => ms.ipmWs s st

/-- An hpipm object as the workspace sees it: the shape and settings stored when
`d_ocp_qp_*_create` made it, and the memory it was made in. -/
structure Created where
  size : OcpSize
  settings : Settings
  mem : Option ℕ
  deriving DecidableEq, Repr

/-- `HpipmInterface::Impl`: the stored key, the five blocks, the five objects (`none` before
they are first created) and the heap. -/
structure Impl where
  settings : Settings
  ocpSize : OcpSize
  mem : Role → MemoryBlock
  obj : Role → Option Created
  heap : Heap

/-- What a call does that the state does not show. -/
inductive Event
  /-- `malloc` in `MemoryBlock::reserve` for a role, with the requested bytes. -/
  | malloc (r : Role) (n : ℕ)
  /-- `d_ocp_qp_*_create` (and `d_ocp_qp_dim_set_all` for `dim_`). -/
  | create (r : Role)
  | applySettings
  deriving DecidableEq, Repr

/-- The result of a call: the state it leaves, its events, and whether it threw. -/
structure Call where
  impl : Impl
  events : List Event
  threw : Bool

namespace Impl

/-- The members of a new `Impl` before its constructor body runs: `settings_` and `ocpSize_`
default-constructed (`dS`, `dO`), empty blocks, no objects. -/
def fresh (dO : OcpSize) (dS : Settings) (h : Heap) : Impl :=
  ⟨dS, dO, fun _ => MemoryBlock.empty, fun _ => none, h⟩

/-- `mem.reserve(n)` for the block of role `r`. Its `malloc` is read off what the block's
`reserve` did: a `malloc` that succeeds takes the heap's next fresh address, one that fails
throws. -/
def reserve (w : Impl) (r : Role) (n : ℕ) (ok : Bool) : Call :=
  let res := (w.mem r).reserve w.heap n ok
  ⟨{ w with heap := res.1, mem := Function.update w.mem r res.2.1 },
    if res.2.2 || res.1.next != w.heap.next then [.malloc r n] else [], res.2.2⟩

/-- `d_ocp_qp_*_create(..., mem.get())` for role `r`, under the stored key. -/
def create (w : Impl) (r : Role) : Impl :=
  { w with obj := Function.update w.obj r (some ⟨w.ocpSize, w.settings, (w.mem r).ptr⟩) }

/-- The events of creating role `r`; `applySettings(settings_)` follows
`d_ocp_qp_ipm_arg_create`. -/
def created (r : Role) : List Event :=
  .create r :: if r = .ipmArg then [.applySettings] else []

/-- The rebuild after the early return: for each role in turn, reserve its block (stopping if
that throws) and create its object. -/
def build (ms : Memsize) (ok : Role → Bool) : List Role → Impl → Call
  | [], w => ⟨w, [], false⟩
  | r :: rs, w =>
    let c := w.reserve r (ms.get w.ocpSize w.settings r) (ok r)
    if c.threw then c else
      let c' := build ms ok rs (c.impl.create r)
      ⟨c'.impl, c.events ++ created r ++ c'.events, c'.threw⟩

/-- `initializeMemory(ocpSize, settings)`; `ok r` is whether the `malloc` of role `r` would
succeed. -/
def initializeMemory (ms : Memsize) (ok : Role → Bool) (s : OcpSize) (st : Settings)
    (w : Impl) : Call :=
  let s := s.normalize
  if isSizeEqual w.ocpSize s && isSettingsEqual w.settings st then ⟨w, [], false⟩
  else build ms ok Role.order { w with settings := st, ocpSize := s }

@[simp] theorem create_mem (w : Impl) (r : Role) : (w.create r).mem = w.mem := rfl
@[simp] theorem create_heap (w : Impl) (r : Role) : (w.create r).heap = w.heap := rfl
@[simp] theorem create_ocpSize (w : Impl) (r : Role) : (w.create r).ocpSize = w.ocpSize := rfl
@[simp] theorem create_settings (w : Impl) (r : Role) : (w.create r).settings = w.settings := rfl
@[simp] theorem reserve_ocpSize (w : Impl) (r : Role) (n : ℕ) (ok : Bool) :
    (w.reserve r n ok).impl.ocpSize = w.ocpSize := rfl
@[simp] theorem reserve_settings (w : Impl) (r : Role) (n : ℕ) (ok : Bool) :
    (w.reserve r n ok).impl.settings = w.settings := rfl
@[simp] theorem reserve_obj (w : Impl) (r : Role) (n : ℕ) (ok : Bool) :
    (w.reserve r n ok).impl.obj = w.obj := rfl

theorem reserve_mem (w : Impl) (r : Role) (n : ℕ) (ok : Bool) :
    (w.reserve r n ok).impl.mem = Function.update w.mem r ((w.mem r).reserve w.heap n ok).2.1 :=
  rfl

theorem reserve_threw_ok (w : Impl) (r : Role) (n : ℕ) : (w.reserve r n true).threw = false :=
  MemoryBlock.reserve_threw_ok _ _ _

/-- The block's `reserve` calls `malloc` exactly when the request exceeds the block. -/
theorem reserve_events (w : Impl) (r : Role) (n : ℕ) (ok : Bool) :
    (w.reserve r n ok).events = if (w.mem r).size < n then [.malloc r n] else [] := by
  rcases Nat.lt_or_ge (w.mem r).size n with hlt | hle
  · cases ok
    · simp [reserve, MemoryBlock.reserve_fail _ hlt, hlt]
    · simp [reserve, MemoryBlock.reserve_grow _ hlt, hlt]
  · simp [reserve, MemoryBlock.reserve_of_le _ _ hle, Nat.not_lt.mpr hle]

theorem initializeMemory_early {ms : Memsize} {ok : Role → Bool} {s : OcpSize} {st : Settings}
    {w : Impl} (h : isSizeEqual w.ocpSize s.normalize && isSettingsEqual w.settings st) :
    w.initializeMemory ms ok s st = ⟨w, [], false⟩ := by
  simp [initializeMemory, h]

theorem initializeMemory_rebuild {ms : Memsize} {ok : Role → Bool} {s : OcpSize} {st : Settings}
    {w : Impl} (h : (isSizeEqual w.ocpSize s.normalize && isSettingsEqual w.settings st) = false) :
    w.initializeMemory ms ok s st =
      build ms ok Role.order { w with settings := st, ocpSize := s.normalize } := by
  simp [initializeMemory, h]

theorem build_key (ms : Memsize) (ok : Role → Bool) :
    ∀ (rs : List Role) (w : Impl),
      (build ms ok rs w).impl.ocpSize = w.ocpSize ∧ (build ms ok rs w).impl.settings = w.settings
  | [], _ => ⟨rfl, rfl⟩
  | r :: rs, w => by
    simp only [build]
    split
    · exact ⟨rfl, rfl⟩
    · simpa using build_key ms ok rs _

theorem initializeMemory_key {ms : Memsize} {ok : Role → Bool} {s : OcpSize} {st : Settings}
    {w : Impl} (h : (isSizeEqual w.ocpSize s.normalize && isSettingsEqual w.settings st) = false) :
    (w.initializeMemory ms ok s st).impl.ocpSize = s.normalize ∧
      (w.initializeMemory ms ok s st).impl.settings = st := by
  rw [initializeMemory_rebuild h]
  exact build_key ms ok _ _

theorem build_ok (ms : Memsize) :
    ∀ (rs : List Role), rs.Nodup → ∀ (w : Impl),
      (build ms (fun _ => true) rs w).threw = false ∧
      ∀ r, (r ∈ rs → ((build ms (fun _ => true) rs w).impl.mem r).size =
                max (w.mem r).size (ms.get w.ocpSize w.settings r) ∧
              (build ms (fun _ => true) rs w).impl.obj r =
                some ⟨w.ocpSize, w.settings, ((build ms (fun _ => true) rs w).impl.mem r).ptr⟩) ∧
           (r ∉ rs → (build ms (fun _ => true) rs w).impl.mem r = w.mem r ∧
              (build ms (fun _ => true) rs w).impl.obj r = w.obj r)
  | [], _, w => ⟨rfl, fun r => ⟨fun h => absurd h (List.not_mem_nil r), fun _ => ⟨rfl, rfl⟩⟩⟩
  | r0 :: rs, hnd, w => by
    obtain ⟨hr0, hnd⟩ := List.nodup_cons.mp hnd
    simp only [build, reserve_threw_ok, if_false, Bool.false_eq_true]
    set w1 := (w.reserve r0 (ms.get w.ocpSize w.settings r0) true).impl.create r0 with hw1
    obtain ⟨hthrew, ih⟩ := build_ok ms rs hnd w1
    refine ⟨hthrew, fun r => ?_⟩
    obtain ⟨hin, hout⟩ := ih r
    have hkey := build_key ms (fun _ => true) rs w1
    by_cases hr : r = r0
    · subst hr
      obtain ⟨hm, ho⟩ := hout hr0
      refine ⟨fun _ => ⟨?_, ?_⟩, fun h => absurd (List.mem_cons_self _ _) h⟩
      · rw [hm, hw1, create_mem, reserve_mem, Function.update_same, MemoryBlock.reserve_size_ok]
      · rw [ho, hm, hw1]; simp [create]
    · have hw1r : w1.mem r = w.mem r := by
        rw [hw1, create_mem, reserve_mem, Function.update_noteq hr]
      refine ⟨fun h => ?_, fun h => ?_⟩
      · obtain ⟨hs, ho⟩ := hin ((List.mem_cons.mp h).resolve_left hr)
        rw [hs, hw1r, ho]; simp [hw1]
      · obtain ⟨hm, ho⟩ := hout (fun h' => h (List.mem_cons_of_mem _ h'))
        rw [hm, hw1r, ho, hw1]; simp [create, Function.update_noteq hr]

/-- Every `malloc` of `build` is for a role of the list, asks for that role's memsize, and
exceeds the block's size before the call. -/
theorem build_malloc (ms : Memsize) (ok : Role → Bool) :
    ∀ (rs : List Role), rs.Nodup → ∀ (w : Impl) (r : Role) (n : ℕ),
      Event.malloc r n ∈ (build ms ok rs w).events →
        r ∈ rs ∧ n = ms.get w.ocpSize w.settings r ∧ (w.mem r).size < n
  | [], _, _, _, _, h => absurd h (List.not_mem_nil _)
  | r0 :: rs, hnd, w, r, n, h => by
    obtain ⟨hr0, hnd⟩ := List.nodup_cons.mp hnd
    have hres : ∀ {r n},
        Event.malloc r n ∈ (w.reserve r0 (ms.get w.ocpSize w.settings r0) (ok r0)).events →
        r ∈ r0 :: rs ∧ n = ms.get w.ocpSize w.settings r ∧ (w.mem r).size < n := by
      intro r n h
      rw [reserve_events] at h
      split at h
      · simp only [List.mem_singleton, Event.malloc.injEq] at h
        obtain ⟨rfl, rfl⟩ := h
        exact ⟨List.mem_cons_self _ _, rfl, by assumption⟩
      · exact absurd h (List.not_mem_nil _)
    simp only [build] at h
    split at h
    · exact hres h
    · simp only [List.mem_append] at h
      rcases h with (h | h) | h
      · exact hres h
      · simp [created] at h
      · obtain ⟨hrs, hn, hlt⟩ := build_malloc ms ok rs hnd _ r n h
        have hne : r ≠ r0 := fun e => hr0 (e ▸ hrs)
        simp only [create_ocpSize, create_settings, reserve_ocpSize, reserve_settings, create_mem,
          reserve_mem, Function.update_noteq hne] at hn hlt
        exact ⟨List.mem_cons_of_mem _ hrs, hn, hlt⟩

/-- A rebuild always does something: it calls `malloc` or creates the first object. -/
theorem build_events_ne_nil (ms : Memsize) (ok : Role → Bool) (r : Role) (rs : List Role)
    (w : Impl) : (build ms ok (r :: rs) w).events ≠ [] := by
  simp only [build]
  by_cases hlt : (w.mem r).size < ms.get w.ocpSize w.settings r
  · split <;> simp [reserve_events, hlt]
  · have hres : (w.mem r).reserve w.heap (ms.get w.ocpSize w.settings r) (ok r) =
        (w.heap, w.mem r, false) := MemoryBlock.reserve_of_le _ _ (Nat.not_lt.mp hlt)
    simp [reserve, hres, created]

/-- A rebuild that throws leaves the block of the role whose `malloc` failed below its memsize
under the stored key. -/
theorem build_threw_short (ms : Memsize) (ok : Role → Bool) :
    ∀ (rs : List Role) (w : Impl), (build ms ok rs w).threw = true →
      ∃ r, ((build ms ok rs w).impl.mem r).size < ms.get w.ocpSize w.settings r
  | [], _, h => absurd h Bool.false_ne_true
  | r :: rs, w, h => by
    simp only [build] at h ⊢
    split
    · next ht =>
      obtain ⟨hlt, hsize⟩ := MemoryBlock.reserve_threw ht
      exact ⟨r, by rwa [reserve_mem, Function.update_same, hsize]⟩
    · next ht =>
      rw [if_neg ht] at h
      simpa using build_threw_short ms ok rs _ h

/-! ## The blocks' memory -/

/-- The blocks' memory: each block keeps its representation invariant, points below the next
fresh address, and shares its pointer with no other block. -/
def HeapOk (w : Impl) : Prop :=
  ∀ r, (w.mem r).Holds w.heap ∧ (∀ a, (w.mem r).ptr = some a → a < w.heap.next) ∧
    ∀ r' a, r' ≠ r → (w.mem r).ptr = some a → (w.mem r').ptr ≠ some a

theorem fresh_heapOk (dO : OcpSize) (dS : Settings) (h : Heap) : (fresh dO dS h).HeapOk :=
  fun _ => ⟨MemoryBlock.empty_holds _, by simp [fresh, MemoryBlock.empty]⟩

/-- Growing one block frees only that block's memory and takes a fresh address. -/
theorem reserve_heapOk {w : Impl} (hw : w.HeapOk) (r : Role) (n : ℕ) :
    (w.reserve r n true).impl.HeapOk := by
  rcases Nat.lt_or_ge (w.mem r).size n with hlt | hle
  · have hm := reserve_mem w r n true
    rw [MemoryBlock.reserve_grow w.heap hlt] at hm
    have hh : (w.reserve r n true).impl.heap =
        ⟨Function.update (w.heap.free (w.mem r).ptr).live w.heap.next (some n),
          w.heap.next + 1⟩ := by
      simp [reserve, MemoryBlock.reserve_grow w.heap hlt]
    intro r1
    rw [hm, hh]
    by_cases h1 : r1 = r
    · subst h1
      refine ⟨.inr (by simp), by simp, fun r' a hr' ha => ?_⟩
      simp only [Function.update_same, Option.some.injEq] at ha
      subst ha
      rw [Function.update_noteq hr']
      intro e
      exact Nat.lt_irrefl _ ((hw r').2.1 _ e)
    · rw [Function.update_noteq h1]
      obtain ⟨hold, hlt1, hdis⟩ := hw r1
      refine ⟨?_, fun a ha => Nat.lt_succ_of_lt (hlt1 a ha), fun r' a hr' ha => ?_⟩
      · rcases hold with h0 | hl
        · exact .inl h0
        · right
          cases hp : (w.mem r1).ptr with
          | none => simp [hp] at hl
          | some a =>
            have hne : a ≠ w.heap.next := Nat.ne_of_lt (hlt1 a hp)
            have hfree : (w.mem r).ptr ≠ some a := hdis r a (Ne.symm h1) hp
            simpa [hp, Function.update_noteq hne, Heap.free_live_of_ne hfree] using hl
      · by_cases h' : r' = r
        · subst h'
          simp only [Function.update_same, ne_eq, Option.some.injEq]
          exact fun e => Nat.ne_of_lt (hlt1 a ha) e.symm
        · rw [Function.update_noteq h']
          exact hdis r' a hr' ha
  · have hm : (w.reserve r n true).impl = { w with mem := Function.update w.mem r (w.mem r) } := by
      simp [reserve, MemoryBlock.reserve_of_le w.heap true hle]
    rw [hm, Function.update_eq_self]
    exact hw

theorem build_heapOk (ms : Memsize) :
    ∀ (rs : List Role) (w : Impl), w.HeapOk → (build ms (fun _ => true) rs w).impl.HeapOk
  | [], _, hw => hw
  | r :: rs, w, hw => by
    simp only [build, reserve_threw_ok, if_false, Bool.false_eq_true]
    exact build_heapOk ms rs _ (reserve_heapOk hw r _)

end Impl

end Hpipm
end Ocs2
