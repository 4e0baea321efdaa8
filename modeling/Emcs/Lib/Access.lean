import Mathlib.Data.List.Range
import Mathlib.Tactic.TypeStar

/-!
# Computations that read a memory

An `Access β α` computes a value from a memory of cells, and the only way it has to look at the
memory is to read one cell after another. On a memory it has a value and a list of the cells it
reads; which cells these are may depend on what it has read before.

The cells that a computation reads decide everything about it (`val_congr`). This is what a
statement about the cells read is worth: a computation that stays inside a part of the memory
depends on that part only.
-/

inductive Access (β α : Type) where
  | done (a : α)
  | read (i : ℕ) (next : β → Access β α)

namespace Access

variable {β α γ : Type}

def bind : Access β α → (α → Access β γ) → Access β γ
  | .done a, f => f a
  | .read i next, f => .read i fun b ↦ (next b).bind f

instance instMonad : Monad (Access β) where
  pure := .done
  bind := bind

/-- Read one cell. -/
def cell (i : ℕ) : Access β β := .read i .done

/-- Read `n` cells from `i` on. -/
def cells : ℕ → ℕ → Access β (List β)
  | _, 0 => pure []
  | i, n + 1 => do
    let b ← cell i
    let bs ← cells (i + 1) n
    pure (b :: bs)

/-- The value on the memory `m`. -/
def val (m : ℕ → β) : Access β α → α
  | .done a => a
  | .read i next => (next (m i)).val m

/-- The cells read on the memory `m`. -/
def reads (m : ℕ → β) : Access β α → List ℕ
  | .done _ => []
  | .read i next => i :: (next (m i)).reads m

section Rules

variable (m : ℕ → β)

@[simp] theorem val_pure (a : α) : (pure a : Access β α).val m = a := rfl

@[simp] theorem reads_pure (a : α) : (pure a : Access β α).reads m = [] := rfl

@[simp] theorem val_cell (i : ℕ) : (cell i : Access β β).val m = m i := rfl

@[simp] theorem reads_cell (i : ℕ) : (cell i : Access β β).reads m = [i] := rfl

@[simp] theorem val_bind (x : Access β α) (f : α → Access β γ) :
    (x >>= f).val m = (f (x.val m)).val m := by
  induction x with
  | done a => rfl
  | read i next ih => exact ih (m i)

@[simp] theorem reads_bind (x : Access β α) (f : α → Access β γ) :
    (x >>= f).reads m = x.reads m ++ (f (x.val m)).reads m := by
  induction x with
  | done a => rfl
  | read i next ih => exact congrArg (i :: ·) (ih (m i))

@[simp] theorem val_ite (p : Prop) [Decidable p] (x y : Access β α) :
    (if p then x else y).val m = if p then x.val m else y.val m :=
  apply_ite (val m) p x y

theorem val_cells (i n : ℕ) : (cells i n).val m = (List.range' i n).map m := by
  induction n generalizing i with
  | zero => rfl
  | succ n ih => simp [cells, ih, List.range'_succ]

theorem reads_cells (i n : ℕ) : (cells i n).reads m = List.range' i n := by
  induction n generalizing i with
  | zero => rfl
  | succ n ih => simp [cells, ih, List.range'_succ]

end Rules

/-- **The cells read decide the value**, and which cells are read. -/
theorem val_congr {x : Access β α} {m m' : ℕ → β} (h : ∀ i ∈ x.reads m, m i = m' i) :
    x.val m' = x.val m ∧ x.reads m' = x.reads m := by
  induction x with
  | done a => exact ⟨rfl, rfl⟩
  | read i next ih =>
    have hi : m i = m' i := h i List.mem_cons_self
    obtain ⟨hval, hreads⟩ := ih (m i) fun j hj ↦ h j (List.mem_cons_of_mem i hj)
    simp only [val, reads, ← hi]
    exact ⟨hval, congrArg (i :: ·) hreads⟩

end Access
