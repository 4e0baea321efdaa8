import Mathlib.Data.List.Basic

/-!
# A queue that several owners share

Every item of the queue belongs to an owner. An owner sees its own items, in their order (`mine`);
what is done to the items of one owner is not seen by another. A queue may have room for a number of
items or for any number, and the items that find it full are lost (`post`).

## The rules

Posting for one owner appends to what it sees, as far as there is room, and leaves what the others
see as it is. So a machine in which many parties share a queue can be looked at from one of them:
its own queue loses items at the end, and all else it does not notice. `OwnedBy` says that no item
belongs to a party that does not exist.
-/

namespace SharedQueue

variable {κ α : Type*}

/-- Items are put behind the others as long as there is room. A room of 0 has no end. -/
def post (room : ℕ) (q : List α) : List α → List α
  | [] => q
  | a :: as => post room (if room = 0 ∨ q.length < room then q ++ [a] else q) as

/-- So many of `m` items find room behind `n` others. -/
def admitted (room n m : ℕ) : ℕ := if room = 0 then m else room - n

/-- **The items that are lost are the last ones.** -/
theorem post_eq (room : ℕ) (q as : List α) :
    post room q as = q ++ as.take (admitted room q.length as.length) := by
  induction as generalizing q with
  | nil => rw [post, List.take_nil, List.append_nil]
  | cons a as ih =>
    rw [post, ih, admitted, admitted]
    by_cases hend : room = 0
    · rw [if_pos (Or.inl hend), if_pos hend, if_pos hend, List.take_length, List.take_length,
        List.append_assoc, List.singleton_append]
    rw [if_neg hend, if_neg hend]
    split
    · rename_i hlt
      obtain ⟨n, hn⟩ := Nat.exists_eq_add_of_lt (hlt.resolve_left hend)
      have hroom : room - q.length = n + 1 := by omega
      have hrest : room - (q ++ [a]).length = n := by
        rw [List.length_append, List.length_singleton]
        omega
      rw [hroom, hrest, List.take_succ_cons, List.append_assoc, List.singleton_append]
    · rename_i hge
      rw [Nat.sub_eq_zero_of_le (Nat.not_lt.mp fun hlt ↦ hge (Or.inr hlt)), List.take_zero,
        List.take_zero]

section Owners

variable [DecidableEq κ]

/-- The items of an owner. -/
def mine (k : κ) (q : List (κ × α)) : List α :=
  q.filterMap fun x ↦ if x.1 = k then some x.2 else none

@[simp] theorem mine_nil (k : κ) : mine k ([] : List (κ × α)) = [] := rfl

theorem mine_append (k : κ) (q q' : List (κ × α)) : mine k (q ++ q') = mine k q ++ mine k q' :=
  List.filterMap_append

@[simp] theorem mine_cons_self (k : κ) (a : α) (q : List (κ × α)) :
    mine k ((k, a) :: q) = a :: mine k q :=
  List.filterMap_cons_some (if_pos rfl)

theorem mine_cons_of_ne {k j : κ} (h : j ≠ k) (a : α) (q : List (κ × α)) :
    mine k ((j, a) :: q) = mine k q :=
  List.filterMap_cons_none (if_neg h)

@[simp] theorem mine_map_self (k : κ) (as : List α) : mine k (as.map (k, ·)) = as := by
  induction as with
  | nil => rfl
  | cons a as ih => rw [List.map_cons, mine_cons_self, ih]

theorem mine_map_of_ne {k j : κ} (h : j ≠ k) (as : List α) : mine k (as.map (j, ·)) = [] := by
  induction as with
  | nil => rfl
  | cons a as ih => rw [List.map_cons, mine_cons_of_ne h, ih]

theorem mine_post_of_ne {k j : κ} (h : j ≠ k) (room : ℕ) (q : List (κ × α)) (as : List α) :
    mine k (post room q (as.map (j, ·))) = mine k q := by
  rw [post_eq, mine_append, ← List.map_take, mine_map_of_ne h, List.append_nil]

theorem mine_post_self (k : κ) (room : ℕ) (q : List (κ × α)) (as : List α) :
    mine k (post room q (as.map (k, ·)))
      = mine k q ++ as.take (admitted room q.length as.length) := by
  rw [post_eq, mine_append, ← List.map_take, mine_map_self, List.length_map]

theorem mine_eq_nil {k : κ} {q : List (κ × α)} (h : ∀ x ∈ q, x.1 ≠ k) : mine k q = [] :=
  List.filterMap_eq_nil_iff.mpr fun x hx ↦ if_neg (h x hx)

end Owners

/-! ## Owners of a kind -/

/-- Only such owners have items in the queue. -/
def OwnedBy (P : κ → Prop) (q : List (κ × α)) : Prop := ∀ x ∈ q, P x.1

namespace OwnedBy

variable {P Q : κ → Prop} {q q' : List (κ × α)}

theorem nil (P : κ → Prop) : OwnedBy P ([] : List (κ × α)) := fun _ h ↦ absurd h List.not_mem_nil

theorem mono (h : OwnedBy P q) (hPQ : ∀ k, P k → Q k) : OwnedBy Q q := fun x hx ↦ hPQ _ (h x hx)

theorem append (h : OwnedBy P q) (h' : OwnedBy P q') : OwnedBy P (q ++ q') := fun x hx ↦
  (List.mem_append.mp hx).elim (h x) (h' x)

theorem map {k : κ} (hk : P k) (as : List α) : OwnedBy P (as.map (k, ·)) := by
  intro x hx
  obtain ⟨a, -, rfl⟩ := List.mem_map.mp hx
  exact hk

theorem post (h : OwnedBy P q) {k : κ} (hk : P k) (room : ℕ) (as : List α) :
    OwnedBy P (SharedQueue.post room q (as.map (k, ·))) := by
  rw [post_eq, ← List.map_take]
  exact h.append (map hk _)

theorem tail {x : κ × α} (h : OwnedBy P (x :: q)) : OwnedBy P q := fun y hy ↦
  h y (List.mem_cons_of_mem _ hy)

end OwnedBy

end SharedQueue
