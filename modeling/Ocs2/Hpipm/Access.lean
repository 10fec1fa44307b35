import Ocs2.Hpipm.Size

/-!
# Ocs2.Hpipm.Access

`std::vector` element access and counted `for` loops, for the code of `HpipmInterface::Impl`
that indexes its argument vectors. An index outside the vector is undefined behaviour in C++;
the model reports it as `Fault.outOfRange` instead.

* `index_ok`, `assign_ok`: access inside the vector succeeds.
* `forRange_spec`: the loop rule; a body that keeps an invariant and succeeds at every index of
  the range makes the whole loop succeed with the invariant at its end.
* `forRange_fill`, `forRange_setPair`: the loops that fill vectors entry by entry.
* `getElem?_resize`: `resize` keeps the entries below the new size.
-/

namespace Ocs2
namespace Hpipm

/-- What the model reports where the C++ code would have undefined behaviour. -/
inductive Fault
  | outOfRange
  deriving DecidableEq, Repr

variable {α σ : Type}

/-- `v[k]`. -/
def index (v : List α) (k : ℕ) : Except Fault α :=
  match v[k]? with
  | some a => .ok a
  | none => .error .outOfRange

/-- `v[k] = a`. -/
def assign (v : List α) (k : ℕ) (a : α) : Except Fault (List α) :=
  if k < v.length then .ok (v.set k a) else .error .outOfRange

/-- `v.resize(n)`: the first `n` entries kept, copies of the default-constructed `a` appended. -/
def resize (v : List α) (n : ℕ) (a : α) : List α :=
  v.take n ++ List.replicate (n - v.length) a

/-- `for (int k = lo; k < lo + n; ++k) body(k)`, the loop's variables threaded as a state. -/
def forRange (body : ℕ → σ → Except Fault σ) (lo : ℕ) : ℕ → σ → Except Fault σ
  | 0, s => .ok s
  | n + 1, s => body lo s >>= forRange body (lo + 1) n

theorem index_ok {v : List α} {k : ℕ} (hk : k < v.length) : index v k = .ok v[k] := by
  simp [index, hk]

theorem index_error {v : List α} {k : ℕ} (hk : v.length ≤ k) : index v k = .error .outOfRange := by
  simp [index, List.getElem?_eq_none hk]

theorem assign_ok {v : List α} {k : ℕ} (a : α) (hk : k < v.length) :
    assign v k a = .ok (v.set k a) := by
  simp [assign, hk]

theorem assign_error {v : List α} {k : ℕ} (a : α) (hk : v.length ≤ k) :
    assign v k a = .error .outOfRange := by
  simp [assign, Nat.not_lt.mpr hk]

@[simp] theorem resize_length (v : List α) (n : ℕ) (a : α) : (resize v n a).length = n := by
  simp only [resize, List.length_append, List.length_take, List.length_replicate]; omega

theorem getElem?_resize (v : List α) (n : ℕ) (a : α) (j : ℕ) :
    (resize v n a)[j]? = if j < n then some (v.getD j a) else none := by
  rw [List.getD_eq_getElem?_getD]
  rcases Nat.lt_or_ge j v.length with hv | hv
  · by_cases hn : j < n
    · rw [resize, List.getElem?_append_left (by simp; omega), List.getElem?_take_of_lt hn,
        if_pos hn, List.getElem?_eq_getElem hv, Option.getD_some]
    · rw [if_neg hn, List.getElem?_eq_none (by simp; omega)]
  · rw [resize, List.getElem?_append_right (by simp; omega), List.getElem?_replicate,
      List.getElem?_eq_none hv, Option.getD_none, List.length_take]
    congr 1
    simp only [eq_iff_iff]
    omega

@[simp] theorem ok_bind {β : Type} (a : α) (f : α → Except Fault β) :
    (Except.ok a >>= f) = f a := rfl

@[simp] theorem error_bind {β : Type} (e : Fault) (f : α → Except Fault β) :
    (Except.error e >>= f) = .error e := rfl

@[simp] theorem pure_eq_ok (a : α) : (pure a : Except Fault α) = .ok a := rfl

theorem bind_ok {β : Type} {x : Except Fault α} {a : α} (f : α → Except Fault β) (h : x = .ok a) :
    (x >>= f) = f a := by
  subst h; rfl

/-- The loop rule: an invariant `I k s` over the loop counter and the state. -/
theorem forRange_spec (I : ℕ → σ → Prop) (body : ℕ → σ → Except Fault σ) :
    ∀ (n lo : ℕ) (s : σ), I lo s →
      (∀ k s, lo ≤ k → k < lo + n → I k s → ∃ s', body k s = .ok s' ∧ I (k + 1) s') →
      ∃ s', forRange body lo n s = .ok s' ∧ I (lo + n) s'
  | 0, lo, s, hs, _ => ⟨s, rfl, hs⟩
  | n + 1, lo, s, hs, hstep => by
    obtain ⟨s1, h1, hs1⟩ := hstep lo s (Nat.le_refl _) (by omega) hs
    obtain ⟨s', h', hs'⟩ := forRange_spec I body n (lo + 1) s1 hs1
      (fun k s hlo hhi => hstep k s (by omega) (by omega))
    refine ⟨s', ?_, by rwa [Nat.add_assoc, Nat.add_comm 1 n] at hs'⟩
    simp only [forRange, bind_ok _ h1, h']

/-- The fill rule: a body that, at index `k`, makes what `view` shows at `k` agree with the
target `t` and changes nothing `view` shows elsewhere, run over `lo .. lo + n - 1` from a state
that agrees with `t` outside that range, ends agreeing with `t` everywhere; `P k` is what the
state keeps at counter `k`. -/
theorem forRange_fill {β : Type} (P : ℕ → σ → Prop) (view : σ → ℕ → β) (t : σ)
    (body : ℕ → σ → Except Fault σ) (n lo : ℕ) (s : σ) (hs : P lo s)
    (hout : ∀ j, j < lo ∨ lo + n ≤ j → view s j = view t j)
    (hbody : ∀ k s, lo ≤ k → k < lo + n → P k s → ∃ s', body k s = .ok s' ∧ P (k + 1) s' ∧
      view s' k = view t k ∧ ∀ j, j ≠ k → view s' j = view s j) :
    ∃ s', forRange body lo n s = .ok s' ∧ P (lo + n) s' ∧ ∀ j, view s' j = view t j := by
  obtain ⟨s', h, hP, hv⟩ := forRange_spec
    (fun k u => P k u ∧ ∀ j, j < k ∨ lo + n ≤ j → view u j = view t j) body n lo s ⟨hs, hout⟩
    (fun k u hlo hhi ⟨hPu, hvu⟩ => by
      obtain ⟨u', hb, hPu', hk, hj⟩ := hbody k u hlo hhi hPu
      refine ⟨u', hb, hPu', fun j hj' => ?_⟩
      by_cases hjk : j = k
      · subst hjk; exact hk
      · rw [hj j hjk]; exact hvu j (by omega))
  exact ⟨s', h, hP, fun j => hv j (Nat.lt_or_ge j (lo + n))⟩

/-- The rule for a loop whose body sets entry `k` of two vectors to `f k`: entries `lo` to
`lo + n - 1` end as `f` gives them, and the others as they were. -/
theorem forRange_setPair {β : Type} (body : ℕ → List α × List β → Except Fault (List α × List β))
    (f : ℕ → α × β) (lo n : ℕ) (a : List α) (b : List β)
    (hab : ∀ k, lo ≤ k → k < lo + n → k < a.length ∧ k < b.length)
    (hbody : ∀ k (a' : List α) (b' : List β), lo ≤ k → k < lo + n → a'.length = a.length →
      b'.length = b.length → body k (a', b') = .ok (a'.set k (f k).1, b'.set k (f k).2)) :
    ∃ a' b', forRange body lo n (a, b) = .ok (a', b') ∧
      (∀ j, a'[j]? = if lo ≤ j ∧ j < lo + n then some (f j).1 else a[j]?) ∧
      (∀ j, b'[j]? = if lo ≤ j ∧ j < lo + n then some (f j).2 else b[j]?) := by
  have set_step : ∀ {γ : Type} (l l' : List γ) (g : ℕ → γ) (k : ℕ), k < l'.length →
      (∀ j, l'[j]? = if lo ≤ j ∧ j < k then some (g j) else l[j]?) → lo ≤ k →
      ∀ j, (l'.set k (g k))[j]? = if lo ≤ j ∧ j < k + 1 then some (g j) else l[j]? := by
    intro γ l l' g k hk hv hlo j
    rcases eq_or_ne k j with rfl | hkj
    · simp [hk, hlo]
    · rw [List.getElem?_set_ne hkj, hv]
      exact if_congr (by omega) rfl rfl
  obtain ⟨⟨a', b'⟩, h, -, -, ha', hb'⟩ := forRange_spec
    (fun k ab => ab.1.length = a.length ∧ ab.2.length = b.length ∧
      (∀ j, ab.1[j]? = if lo ≤ j ∧ j < k then some (f j).1 else a[j]?) ∧
      (∀ j, ab.2[j]? = if lo ≤ j ∧ j < k then some (f j).2 else b[j]?))
    body n lo (a, b)
    ⟨rfl, rfl, fun j => (if_neg (by omega)).symm, fun j => (if_neg (by omega)).symm⟩
    (fun k ⟨a', b'⟩ hlo hhi ⟨hla, hlb, hva, hvb⟩ => ⟨_, hbody k a' b' hlo hhi hla hlb,
      by simp [hla], by simp [hlb],
      set_step a a' (fun j => (f j).1) k (by dsimp only at hla; have := hab k hlo hhi; omega)
        hva hlo,
      set_step b b' (fun j => (f j).2) k (by dsimp only at hlb; have := hab k hlo hhi; omega)
        hvb hlo⟩)
  exact ⟨a', b', h, ha', hb'⟩

theorem getElem?_set_of_ne {l : List α} {k j : ℕ} {a : α} (h : j ≠ k) :
    (l.set k a)[j]? = l[j]? :=
  List.getElem?_set_ne (Ne.symm h)

/-- A body that faults at the loop's first index makes the loop fault. -/
theorem forRange_error (body : ℕ → σ → Except Fault σ) (lo n : ℕ) (s : σ) (e : Fault)
    (h : body lo s = .error e) : forRange body lo (n + 1) s = .error e := by
  simp only [forRange, h]; rfl

end Hpipm
end Ocs2
