import Mathlib.Data.List.Infix
import Mathlib.Data.List.Nodup

/-!
# A book of names

A book gives every name that is asked for a place, counted from the first one on. As long as the
name stays, it keeps its place; renewing the book lets all names go, but not their places, so that a
name that is asked for again gets a new one. A book has room for a number of names at a time.

All that is needed of places is that they are never taken back: the names in the order of their
places only grow (`names_prefix_intern`, `names_renew`), hence the name at a place is the name at
this place for good (`At.mono`).
-/

variable {κ : Type*}

/-- The names that were let go, and those that the book has now, in the order of their places. -/
structure Book (κ : Type*) where
  past : List κ
  live : List κ

namespace Book

def empty : Book κ := ⟨[], []⟩

/-- All names, in the order of their places. -/
def names (b : Book κ) : List κ := b.past ++ b.live

/-- The names that the book has now, with their places. -/
def entries (b : Book κ) : List (κ × ℕ) := b.live.zipIdx b.past.length

/-- The place `n` was given to the name `k`. -/
def At (b : Book κ) (n : ℕ) (k : κ) : Prop := b.names[n]? = some k

/-- A new name gets the next place, if there is room. -/
def intern [DecidableEq κ] (b : Book κ) (room : ℕ) (k : κ) : Book κ :=
  if k ∈ b.live ∨ room ≤ b.live.length then b else { b with live := b.live ++ [k] }

def renew (b : Book κ) : Book κ := ⟨b.names, []⟩

/-! ## Places -/

theorem mem_entries_iff {b : Book κ} {k : κ} {n : ℕ} :
    (k, n) ∈ b.entries ↔ b.past.length ≤ n ∧ b.At n k := by
  rw [entries, List.mk_mem_zipIdx_iff_le_and_getElem?_sub, At, names]
  refine and_congr_right fun hle ↦ ?_
  rw [List.getElem?_append_right hle]

theorem At.lt {b : Book κ} {n : ℕ} {k : κ} (h : b.At n k) : n < b.names.length :=
  (List.getElem?_eq_some_iff.mp h).1

theorem At.unique {b : Book κ} {n : ℕ} {k k' : κ} (h : b.At n k) (h' : b.At n k') : k = k' :=
  Option.some.inj (h.symm.trans h')

/-- **The name at a place is the name at this place for good.** -/
theorem At.mono {b b' : Book κ} (hle : b.names <+: b'.names) {n : ℕ} {k : κ} (h : b.At n k) :
    b'.At n k :=
  (List.prefix_iff_getElem?.mp hle n h.lt).trans ((List.getElem?_eq_getElem h.lt).symm.trans h)

theorem names_renew (b : Book κ) : b.renew.names = b.names := List.append_nil _

section Interning

variable [DecidableEq κ] (b : Book κ) (room : ℕ) (k : κ)

/-- Either the book stays as it is, or there was room for a new name and it has the last place. -/
theorem intern_cases : b.intern room k = b ∨
    k ∉ b.live ∧ b.live.length < room ∧ b.intern room k = ⟨b.past, b.live ++ [k]⟩ := by
  rw [intern]
  split
  · exact Or.inl rfl
  · rename_i h
    rw [not_or, not_le] at h
    exact Or.inr ⟨h.1, h.2, rfl⟩

theorem names_prefix_intern : b.names <+: (b.intern room k).names := by
  rcases b.intern_cases room k with h | ⟨-, -, h⟩
  · rw [h]
  · rw [h, names, names, ← List.append_assoc]
    exact List.prefix_append _ _

end Interning

/-! ## One operation -/

/-- The book is as it was, is renewed, or has been asked for a name. -/
def Step [DecidableEq κ] (b b' : Book κ) : Prop :=
  b' = b ∨ b' = b.renew ∨ ∃ room k, b' = b.intern room k

section Stepping

variable [DecidableEq κ] {b b' : Book κ}

theorem Step.refl (b : Book κ) : b.Step b := Or.inl rfl

theorem Step.names_prefix (h : b.Step b') : b.names <+: b'.names := by
  rcases h with rfl | rfl | ⟨room, k, rfl⟩
  · exact List.prefix_refl _
  · rw [names_renew]
  · exact b.names_prefix_intern room k

theorem Step.length_names_le (h : b.Step b') : b'.names.length ≤ b.names.length + 1 := by
  rcases h with rfl | rfl | ⟨room, k, rfl⟩
  · exact Nat.le_succ _
  · rw [names_renew]
    exact Nat.le_succ _
  · rcases b.intern_cases room k with h | ⟨-, -, h⟩
    · rw [h]
      exact Nat.le_succ _
    · rw [h, names, names, ← List.append_assoc, List.length_append]
      exact Nat.le_refl _

end Stepping

end Book
