import Ocs2.Hpipm.Size

/-!
# Ocs2.Hpipm.MemoryBlock

`MemoryBlock` of `HpipmInterface.cpp`: a `malloc`ed buffer that `reserve` grows when a request
exceeds it and reuses otherwise. The C heap is explicit (`Heap`): `malloc` hands out a fresh
address or `nullptr`, and whether it succeeds is an input of the call.

* `reserve_holds`: when `malloc` succeeds, `reserve` keeps the representation invariant
  `Holds` ("`size_ = 0`, or `ptr_` is a live allocation of at least `size_` bytes").
* `reserve_fail_breaks`: a failed grow of a nonempty block breaks it: `reserve` frees the block,
  `malloc` returns `nullptr` and throws, and `size_` keeps the old size.
* `reserve_after_failed_grow`: so a later smaller request returns normally with `get()` null.
-/

namespace Ocs2
namespace Hpipm

/-- The C heap: the bytes of the live allocation at each address, and the next fresh address. -/
structure Heap where
  live : ℕ → Option ℕ
  next : ℕ

namespace Heap

/-- A heap with nothing allocated. -/
def empty : Heap := ⟨fun _ => none, 0⟩

/-- `malloc(n)`; `ok` is whether the allocator has the memory. `none` is `nullptr`. -/
def malloc (h : Heap) (n : ℕ) (ok : Bool) : Option ℕ × Heap :=
  if ok then (some h.next, ⟨Function.update h.live h.next (some n), h.next + 1⟩) else (none, h)

/-- `free(p)`; `free(nullptr)` does nothing. -/
def free (h : Heap) : Option ℕ → Heap
  | none => h
  | some a => { h with live := Function.update h.live a none }

@[simp] theorem free_next (h : Heap) (p : Option ℕ) : (h.free p).next = h.next := by
  cases p <;> rfl

theorem free_live_of_ne {h : Heap} {p : Option ℕ} {a : ℕ} (hne : p ≠ some a) :
    (h.free p).live a = h.live a := by
  cases p with
  | none => rfl
  | some b => exact Function.update_noteq (fun e => hne (by rw [e])) _ _

end Heap

/-- `MemoryBlock`: `ptr_` (`none` is `nullptr`) and `size_`. -/
structure MemoryBlock where
  ptr : Option ℕ
  size : ℕ
  deriving DecidableEq, Repr

namespace MemoryBlock

/-- `MemoryBlock()`, that is `MemoryBlock(0)`: `ptr_(nullptr), size_(0)`, and `reserve(0)`
allocates nothing. -/
def empty : MemoryBlock := ⟨none, 0⟩

/-- `reserve(size)` on heap `h`: when `size > size_`, `free(ptr_)`, `ptr_ = malloc(size)`, and
either throw `std::bad_alloc` or set `size_ = size`. Returns the heap, the block and whether
the call threw. -/
def reserve (mb : MemoryBlock) (h : Heap) (size : ℕ) (ok : Bool) : Heap × MemoryBlock × Bool :=
  if size > mb.size then
    match (h.free mb.ptr).malloc size ok with
    | (none, h') => (h', ⟨none, mb.size⟩, true)
    | (some a, h') => (h', ⟨some a, size⟩, false)
  else (h, mb, false)

/-- `get()`. -/
def get (mb : MemoryBlock) : Option ℕ := mb.ptr

/-- The representation invariant: `size_ = 0`, or `ptr_` is a live allocation of at least
`size_` bytes. -/
def Holds (h : Heap) (mb : MemoryBlock) : Prop :=
  mb.size = 0 ∨ (mb.ptr.bind h.live).any (mb.size ≤ ·) = true

instance (h : Heap) (mb : MemoryBlock) : Decidable (mb.Holds h) :=
  inferInstanceAs (Decidable (_ ∨ _))

theorem empty_holds (h : Heap) : empty.Holds h := .inl rfl

theorem reserve_of_le {mb : MemoryBlock} {size : ℕ} (h : Heap) (ok : Bool) (hle : size ≤ mb.size) :
    mb.reserve h size ok = (h, mb, false) := by
  simp [reserve, Nat.not_lt.mpr hle]

/-- A grow whose `malloc` succeeds: the block is the fresh address with the requested size. -/
theorem reserve_grow {mb : MemoryBlock} {size : ℕ} (h : Heap) (hlt : mb.size < size) :
    mb.reserve h size true =
      (⟨Function.update (h.free mb.ptr).live h.next (some size), h.next + 1⟩,
        ⟨some h.next, size⟩, false) := by
  simp [reserve, hlt, Heap.malloc]

/-- A grow whose `malloc` fails: `ptr_` is null, `size_` is unchanged, and the call throws. -/
theorem reserve_fail {mb : MemoryBlock} {size : ℕ} (h : Heap) (hlt : mb.size < size) :
    mb.reserve h size false = (h.free mb.ptr, ⟨none, mb.size⟩, true) := by
  simp [reserve, hlt, Heap.malloc]

theorem reserve_size_ok (mb : MemoryBlock) (h : Heap) (size : ℕ) :
    (mb.reserve h size true).2.1.size = max mb.size size := by
  rcases Nat.lt_or_ge mb.size size with hlt | hle
  · rw [reserve_grow h hlt, Nat.max_eq_right (Nat.le_of_lt hlt)]
  · rw [reserve_of_le h true hle, Nat.max_eq_left hle]

theorem reserve_threw_ok (mb : MemoryBlock) (h : Heap) (size : ℕ) :
    (mb.reserve h size true).2.2 = false := by
  rcases Nat.lt_or_ge mb.size size with hlt | hle
  · rw [reserve_grow h hlt]
  · rw [reserve_of_le h true hle]

theorem reserve_threw {mb : MemoryBlock} {h : Heap} {size : ℕ} {ok : Bool}
    (ht : (mb.reserve h size ok).2.2 = true) :
    mb.size < size ∧ (mb.reserve h size ok).2.1.size = mb.size := by
  rcases Nat.lt_or_ge mb.size size with hlt | hle
  · cases ok
    · rw [reserve_fail h hlt]
      exact ⟨hlt, rfl⟩
    · rw [reserve_grow h hlt] at ht
      cases ht
  · rw [reserve_of_le h ok hle] at ht
    cases ht

theorem reserve_holds {mb : MemoryBlock} {h : Heap} (size : ℕ) (hold : mb.Holds h) :
    (mb.reserve h size true).2.1.Holds (mb.reserve h size true).1 := by
  rcases Nat.lt_or_ge mb.size size with hlt | hle
  · rw [reserve_grow h hlt]
    exact .inr (by simp)
  · rw [reserve_of_le h true hle]
    exact hold

theorem reserve_fail_breaks {mb : MemoryBlock} {size : ℕ} (h : Heap) (hpos : 0 < mb.size)
    (hlt : mb.size < size) :
    (mb.reserve h size false).2.2 = true ∧ ¬ (mb.reserve h size false).2.1.Holds
      (mb.reserve h size false).1 := by
  rw [reserve_fail h hlt]
  simp [Holds, Nat.pos_iff_ne_zero.mp hpos]

/-- `reserve` calls in order, each with its `malloc` outcome; the heap and the block after them. -/
def reserveAll : Heap × MemoryBlock → List (ℕ × Bool) → Heap × MemoryBlock
  | hm, [] => hm
  | (h, mb), (size, ok) :: rest =>
    let r := mb.reserve h size ok
    reserveAll (r.1, r.2.1) rest

/-- A grow to 8 bytes, then a failed grow to 16 whose `std::bad_alloc` is caught. -/
def afterFailedGrow : Heap × MemoryBlock := reserveAll (Heap.empty, empty) [(8, true), (16, false)]

/-- After `afterFailedGrow` the invariant is broken, and `reserve(4)` returns normally with
`get()` null although `size_` is 8. -/
theorem reserve_after_failed_grow :
    ¬ afterFailedGrow.2.Holds afterFailedGrow.1 ∧
      (afterFailedGrow.2.reserve afterFailedGrow.1 4 true).2.2 = false ∧
      (afterFailedGrow.2.reserve afterFailedGrow.1 4 true).2.1.get = none ∧
      (afterFailedGrow.2.reserve afterFailedGrow.1 4 true).2.1.size = 8 := by
  decide

end MemoryBlock

end Hpipm
end Ocs2
