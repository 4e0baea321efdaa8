import Mathlib.Data.Fin.Basic
import Mathlib.Data.List.FinRange
import Mathlib.Data.List.Perm.Subperm

/-!
# Tables of slots

A fixed table is searched from its first slot on: `Slots.first p v` is the first slot whose content
satisfies `p`. It stands for the search loops over fixed arrays; what a loop does with the slot it
finds is up to the program.

## Keys

A slot may have a key, and a table in which no key occurs twice (`Distinct`) can be read as a
partial function from keys to slots. The rules say when a write keeps it so, and that a table with
fewer keys than slots has a slot without one.
-/

namespace Slots

variable {α : Type*} {n : ℕ} {p : α → Bool} {v : Vector α n}

/-- The number of a slot is in bounds by its type. -/
instance instGetElemFin : GetElem (Vector α n) (Fin n) α fun _ _ ↦ True where
  getElem v i _ := v.get i

@[simp] theorem getElem_fin (v : Vector α n) (i : Fin n) : v[i] = getElem v i.val i.isLt := rfl

/-- The first slot that satisfies `p`, where the condition depends on the slot itself. -/
def firstAt (p : Fin n → Bool) : Option (Fin n) := (List.finRange n).find? p

theorem of_firstAt_eq_some {p : Fin n → Bool} {i : Fin n} (h : firstAt p = some i) : p i = true :=
  List.find?_some h

/-- The first slot whose content satisfies `p`. -/
def first (p : α → Bool) (v : Vector α n) : Option (Fin n) :=
  (List.finRange n).find? fun i ↦ p v[i]

theorem of_first_eq_some {i : Fin n} (h : first p v = some i) : p v[i] = true := by
  rw [first] at h
  exact List.find?_some (p := fun i ↦ p v[i]) h

theorem first_eq_none_iff : first p v = none ↔ ∀ i : Fin n, p v[i] = false := by
  rw [first, List.find?_eq_none]
  constructor
  · intro h i
    exact Bool.not_eq_true _ ▸ h i (List.mem_finRange i)
  · intro h i _
    rw [h i]
    exact Bool.false_ne_true

theorem exists_first {i : Fin n} (h : p v[i] = true) : ∃ j, first p v = some j := by
  cases hf : first p v with
  | none => rw [first_eq_none_iff.mp hf i] at h; exact absurd h Bool.false_ne_true
  | some j => exact ⟨j, rfl⟩

theorem get_set_self (v : Vector α n) (i : Fin n) (a : α) : (v.set i a i.isLt)[i] = a := by
  simp

theorem get_set_of_ne (v : Vector α n) {i j : Fin n} (a : α) (h : i ≠ j) :
    (v.set i a i.isLt)[j] = v[j] := by
  have hval : i.val ≠ j.val := fun heq ↦ h (Fin.ext heq)
  simp [hval]

theorem toList_eq_map (v : Vector α n) : v.toList = (List.finRange n).map fun i ↦ v[i] := by
  refine List.ext_getElem ?_ fun k hk hk' ↦ ?_
  · rw [Vector.length_toList, List.length_map, List.length_finRange]
  · simp

/-! ## Keys -/

section Keys

variable {κ : Type*} {key : α → Option κ}

/-- No two slots have the same key. A slot need not have one. -/
def Distinct (key : α → Option κ) (v : Vector α n) : Prop :=
  ∀ (i j : Fin n) (k : κ), key v[i] = some k → key v[j] = some k → i = j

theorem distinct_replicate {a : α} (h : key a = none) : Distinct key (Vector.replicate n a) := by
  intro i j k hi
  rw [getElem_fin, Vector.getElem_replicate, h] at hi
  contradiction

theorem Distinct.mono {w : Vector α n} (h : Distinct key v)
    (hkey : ∀ i : Fin n, key w[i] = key v[i] ∨ key w[i] = none) : Distinct key w := by
  have hold : ∀ (i : Fin n) (k : κ), key w[i] = some k → key v[i] = some k := by
    intro i k hi
    rcases hkey i with heq | hnone
    · exact heq.symm.trans hi
    · rw [hnone] at hi
      contradiction
  exact fun i j k hi hj ↦ h i j k (hold i k hi) (hold j k hj)

/-- A slot may be overwritten under a key that no slot has. -/
theorem Distinct.set {i : Fin n} {a : α} {k : κ} (h : Distinct key v) (ha : key a = some k)
    (hfresh : ∀ j : Fin n, key v[j] ≠ some k) : Distinct key (v.set i a i.isLt) := by
  intro j j' k' hj hj'
  by_cases hij : i = j
  · by_cases hij' : i = j'
    · exact hij.symm.trans hij'
    · subst hij
      rw [get_set_self, ha] at hj
      rw [get_set_of_ne v a hij', ← hj] at hj'
      exact absurd hj' (hfresh j')
  · by_cases hij' : i = j'
    · subst hij'
      rw [get_set_self, ha] at hj'
      rw [get_set_of_ne v a hij, ← hj'] at hj
      exact absurd hj (hfresh j)
    · rw [get_set_of_ne v a hij] at hj
      rw [get_set_of_ne v a hij'] at hj'
      exact h j j' k' hj hj'

/-- A table with more slots than there are keys has a slot without one. -/
theorem Distinct.exists_none {l : List κ} (h : Distinct key v)
    (hkeys : ∀ (i : Fin n) (k : κ), key v[i] = some k → k ∈ l) (hlen : l.length < n) :
    ∃ i : Fin n, key v[i] = none := by
  by_contra hall
  have hsome : ∀ i : Fin n, ∃ k, key v[i] = some k := fun i ↦
    Option.ne_none_iff_exists'.mp fun hnone ↦ hall ⟨i, hnone⟩
  choose f hf using hsome
  have hinj : Function.Injective f := fun i j hij ↦ h i j (f i) (hf i) (hij ▸ hf j)
  have hsub : (List.finRange n).map f ⊆ l := by
    intro k hk
    obtain ⟨i, -, rfl⟩ := List.mem_map.mp hk
    exact hkeys i (f i) (hf i)
  have hle := ((List.nodup_finRange n).map hinj).subperm hsub |>.length_le
  rw [List.length_map, List.length_finRange] at hle
  exact absurd hlen (Nat.not_lt.mpr hle)

end Keys

end Slots
