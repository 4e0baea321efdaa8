import Mathlib.Data.Nat.ModEq
import Mathlib.Data.List.Basic
import Mathlib.Tactic.Push

/-!
# Ring caches

A cache of fixed capacity `n` that overwrites its oldest slot. Slots can also be invalidated in
place, which frees the key but not the slot: the write position moves only on `add`.

The implementation is an array with a moving head; the abstract view is `recent`, the list of slots
from the youngest to the oldest. `add` pushes on the front of that list and drops its end,
`invalidate` blanks entries without moving any. Everything said about a ring is said about that
list: how far back an entry stands (`Within`) is how many additions came after it, so an entry is
found as long as fewer than `n` additions followed it and nothing invalidated it.
-/

/-- A ring of `n` slots with a write position. -/
structure RingCache (α : Type*) (n : ℕ) where
  /-- The slots; `none` is a slot never written or invalidated. -/
  slots : Vector (Option α) n
  /-- The slot written next. -/
  head : ℕ
  /-- The write position is a slot. -/
  head_lt : head < n
  deriving DecidableEq

namespace RingCache

variable {α : Type*} {n : ℕ}

/-- The ring with every slot blank. -/
def empty (n : ℕ) (h : 0 < n) : RingCache α n where
  slots := Vector.replicate n none
  head := 0
  head_lt := h

/-- Write a key at the head and move the head on. -/
def add (r : RingCache α n) (k : α) : RingCache α n where
  slots := r.slots.set r.head (some k) r.head_lt
  head := (r.head + 1) % n
  head_lt := Nat.mod_lt _ (Nat.zero_lt_of_lt r.head_lt)

/-- Blank every slot whose key satisfies `p`. -/
def invalidate (p : α → Bool) (r : RingCache α n) : RingCache α n where
  slots := r.slots.map fun o ↦ o.filter fun k ↦ !p k
  head := r.head
  head_lt := r.head_lt

instance : Membership α (RingCache α n) := ⟨fun r k ↦ some k ∈ r.slots⟩

theorem mem_def {r : RingCache α n} {k : α} : k ∈ r ↔ some k ∈ r.slots := Iff.rfl

instance [DecidableEq α] (k : α) (r : RingCache α n) : Decidable (k ∈ r) :=
  inferInstanceAs (Decidable (some k ∈ r.slots))

theorem mem_iff_getElem {r : RingCache α n} {k : α} :
    k ∈ r ↔ ∃ (i : ℕ) (h : i < n), r.slots[i] = some k := by
  rw [mem_def, Vector.mem_iff_getElem]

theorem any_slots {r : RingCache α n} {p : α → Bool} :
    (r.slots.any fun o ↦ o.any p) = true ↔ ∃ k, k ∈ r ∧ p k = true := by
  rw [Vector.any_eq_true']
  constructor
  · rintro ⟨o, ho, hp⟩
    cases o with
    | none => exact absurd hp Bool.false_ne_true
    | some k => exact ⟨k, ho, hp⟩
  · rintro ⟨k, hk, hp⟩
    exact ⟨some k, hk, hp⟩

@[simp] theorem not_mem_empty (h : 0 < n) (k : α) : k ∉ empty (α := α) n h := by
  rw [mem_def, empty, Vector.mem_replicate]
  simp

@[simp] theorem mem_add_self (r : RingCache α n) (k : α) : k ∈ r.add k :=
  mem_iff_getElem.mpr ⟨r.head, r.head_lt, by simp [add]⟩

/-- Everything in a ring after an addition was there before or is the key added. -/
theorem eq_or_mem_of_mem_add {r : RingCache α n} {k k' : α} (h : k ∈ r.add k') :
    k = k' ∨ k ∈ r := by
  obtain ⟨i, hi, heq⟩ := mem_iff_getElem.mp h
  simp only [add, Vector.getElem_set] at heq
  split at heq
  · exact Or.inl (Option.some_inj.mp heq).symm
  · exact Or.inr (mem_iff_getElem.mpr ⟨i, hi, heq⟩)

@[simp] theorem mem_invalidate {p : α → Bool} {r : RingCache α n} {k : α} :
    k ∈ r.invalidate p ↔ k ∈ r ∧ p k = false := by
  rw [mem_iff_getElem, mem_iff_getElem]
  constructor
  · rintro ⟨i, hi, heq⟩
    simp only [invalidate, Vector.getElem_map, Option.filter_eq_some_iff] at heq
    exact ⟨⟨i, hi, heq.1⟩, by simpa using heq.2⟩
  · rintro ⟨⟨i, hi, heq⟩, hp⟩
    exact ⟨i, hi, by simp [invalidate, heq, hp, Option.filter]⟩

/-! ## From the youngest slot to the oldest -/

/-- The position written `j` additions before the last one. -/
def back (r : RingCache α n) (j : Fin n) : Fin n :=
  ⟨if j.val < r.head then r.head - 1 - j else r.head + n - 1 - j, by
    have hh := r.head_lt
    have hj := j.isLt
    split <;> omega⟩

theorem back_val (r : RingCache α n) (j : Fin n) :
    (r.back j).val = if j.val < r.head then r.head - 1 - j else r.head + n - 1 - j := rfl

theorem exists_back (r : RingCache α n) (i : Fin n) : ∃ j, r.back j = i := by
  have hh := r.head_lt
  have hi := i.isLt
  refine ⟨⟨if i.val < r.head then r.head - 1 - i else r.head + n - 1 - i, ?_⟩, Fin.ext ?_⟩
  · split <;> omega
  · rw [back_val]
    dsimp only
    split <;> split <;> omega

/-- The slots from the youngest to the oldest. -/
def recent (r : RingCache α n) : List (Option α) := List.ofFn fun j ↦ r.slots[r.back j]

@[simp] theorem length_recent (r : RingCache α n) : r.recent.length = n := by
  rw [recent, List.length_ofFn]

theorem getElem_recent (r : RingCache α n) {j : ℕ} (h : j < r.recent.length) :
    r.recent[j] = r.slots[r.back ⟨j, by simpa using h⟩] := by
  simp [recent]

theorem mem_iff_recent {r : RingCache α n} {k : α} : k ∈ r ↔ some k ∈ r.recent := by
  rw [mem_iff_getElem, recent, List.mem_ofFn]
  constructor
  · rintro ⟨i, hi, heq⟩
    obtain ⟨j, hj⟩ := r.exists_back ⟨i, hi⟩
    exact ⟨j, by simpa only [hj, Fin.getElem_fin] using heq⟩
  · rintro ⟨j, heq⟩
    exact ⟨r.back j, (r.back j).isLt, heq⟩

theorem head_add (r : RingCache α n) (k : α) :
    (r.add k).head = if r.head + 1 = n then 0 else r.head + 1 := by
  have hh := r.head_lt
  change (r.head + 1) % n = _
  by_cases h : r.head + 1 = n
  · rw [if_pos h, h, Nat.mod_self]
  · rw [if_neg h, Nat.mod_eq_of_lt (by omega)]

/-- **The queue law of `add`**: the new key goes in front, the oldest slot falls off. -/
theorem recent_add (r : RingCache α n) (k : α) :
    (r.add k).recent = some k :: r.recent.dropLast := by
  have hh := r.head_lt
  have hhead := r.head_add k
  apply List.ext_getElem
  · rw [length_recent, List.length_cons, List.length_dropLast, length_recent]
    omega
  · intro j h₁ h₂
    rw [length_recent] at h₁
    rw [getElem_recent]
    cases j with
    | zero =>
      have hback : ((r.add k).back ⟨0, h₁⟩).val = r.head := by
        rw [back_val, hhead]
        dsimp only
        split <;> split <;> omega
      simp only [Fin.getElem_fin, hback, List.getElem_cons_zero]
      simp [add]
    | succ j =>
      have hj : j < n := by omega
      have hback : ((r.add k).back ⟨j + 1, h₁⟩).val = (r.back ⟨j, hj⟩).val := by
        rw [back_val, back_val, hhead]
        dsimp only
        split <;> split <;> split <;> omega
      have hne : r.head ≠ (r.back ⟨j, hj⟩).val := by
        rw [back_val]
        dsimp only
        split <;> omega
      simp only [Fin.getElem_fin, hback, List.getElem_cons_succ, List.getElem_dropLast,
        getElem_recent]
      simp [add, hne]

theorem recent_invalidate (p : α → Bool) (r : RingCache α n) :
    (r.invalidate p).recent = r.recent.map fun o ↦ o.filter fun k ↦ !p k := by
  apply List.ext_getElem
  · simp
  · intro j h₁ h₂
    have hj : j < n := by simpa using h₁
    have hback : (r.invalidate p).back ⟨j, hj⟩ = r.back ⟨j, hj⟩ := rfl
    rw [getElem_recent, List.getElem_map, getElem_recent]
    simp only [Fin.getElem_fin, hback]
    simp [invalidate]

/-! ## How far back an entry stands -/

/-- The key stands among the `j` youngest slots. -/
def Within (r : RingCache α n) (k : α) (j : ℕ) : Prop := some k ∈ r.recent.take j

theorem Within.mem {r : RingCache α n} {k : α} {j : ℕ} (h : r.Within k j) : k ∈ r :=
  mem_iff_recent.mpr (List.mem_of_mem_take h)

theorem within_add_self (r : RingCache α n) (k : α) : (r.add k).Within k 1 := by
  simp [Within, recent_add]

/-- One addition moves an entry one place back, unless it was the oldest. -/
theorem Within.add {r : RingCache α n} {k k' : α} {j : ℕ} (h : r.Within k j) (hj : j < n) :
    (r.add k').Within k (j + 1) := by
  rw [Within, recent_add, List.take_succ_cons, List.dropLast_eq_take, length_recent,
    List.take_take, Nat.min_eq_left (by omega)]
  exact List.mem_cons_of_mem _ h

theorem Within.invalidate {r : RingCache α n} {k : α} {j : ℕ} {p : α → Bool} (h : r.Within k j)
    (hp : p k = false) : (r.invalidate p).Within k j := by
  rw [Within, recent_invalidate, ← List.map_take, List.mem_map]
  exact ⟨some k, h, by simp [Option.filter, hp]⟩

theorem Within.mono {r : RingCache α n} {k : α} {i j : ℕ} (h : r.Within k i) (hij : i ≤ j) :
    r.Within k j :=
  (List.take_subset_take_left _ hij) h

end RingCache
