import Mathlib.Data.Finset.Card
import Mathlib.Data.Int.ConditionallyCompleteOrder
import Mathlib.Data.Int.Interval
import Mathlib.Data.List.Sort
import Mathlib.Data.Set.Card

/-!
# Numbers in the order of their arrival

Numbers arrive one after the other; some more than once, some late, some never. `count P` counts the
arrivals for which `P` holds of what came before and the arrival itself. It is monotone in `P`, and
counts agree exactly where the predicates agree at every arrival (`count_eq_iff`). The two
predicates of interest are that the number has arrived before (`repeats`) and that one at least as
large has (`stale`), which is all that the largest number tells; they count the same exactly if new
numbers arrive in increasing order (`NewInOrder`).

The second half is about the sorted list: its ends are the smallest and the largest number, and its
gaps count the numbers that are missing, `lost`.
-/

namespace Arrivals

/-! ## Counting arrivals -/

section Count

variable {α : Type*} (P Q : List α → α → Prop) [∀ p x, Decidable (P p x)]
  [∀ p x, Decidable (Q p x)]

/-- How many arrivals of the list satisfy `P`, when the elements of `p` came before. -/
def countAfter : List α → List α → ℕ
  | _, [] => 0
  | p, x :: xs => (if P p x then 1 else 0) + countAfter (p ++ [x]) xs

def count (xs : List α) : ℕ := countAfter P [] xs

variable {P Q}

theorem countAfter_concat (p xs : List α) (x : α) :
    countAfter P p (xs ++ [x]) = countAfter P p xs + if P (p ++ xs) x then 1 else 0 := by
  induction xs generalizing p with
  | nil => simp [countAfter]
  | cons y xs ih => simp [countAfter, ih, Nat.add_assoc]

theorem count_concat (xs : List α) (x : α) :
    count P (xs ++ [x]) = count P xs + if P xs x then 1 else 0 :=
  countAfter_concat [] xs x

theorem count_mono (h : ∀ p x, P p x → Q p x) (xs : List α) : count P xs ≤ count Q xs := by
  induction xs using List.reverseRecOn with
  | nil => exact Nat.le_refl _
  | append_singleton xs x ih =>
    rw [count_concat, count_concat]
    by_cases hP : P xs x
    · rw [if_pos hP, if_pos (h xs x hP)]
      exact Nat.succ_le_succ ih
    · rw [if_neg hP]
      exact Nat.le_add_right_of_le ih

/-- A split of a list with one more element is a split of the list or the one at the end. -/
private theorem forall_split_concat {R : List α → α → Prop} {xs : List α} {x : α} :
    (∀ p y s, xs ++ [x] = p ++ y :: s → R p y) ↔ (∀ p y s, xs = p ++ y :: s → R p y) ∧ R xs x := by
  constructor
  · intro h
    refine ⟨fun p y s hs ↦ ?_, h xs x [] rfl⟩
    exact h p y (s ++ [x]) (by rw [hs, List.append_assoc, List.cons_append])
  · rintro ⟨h, hlast⟩ p y s hs
    rcases List.eq_nil_or_concat' s with rfl | ⟨s, z, rfl⟩
    · obtain ⟨rfl, hx⟩ := List.append_inj' hs rfl
      rw [← List.singleton_inj.mp hx]
      exact hlast
    · rw [← List.cons_append, ← List.append_assoc] at hs
      exact h p y s (List.append_inj' hs rfl).1

/-- **Counts agree exactly if the predicates agree at every arrival.** -/
theorem count_eq_iff (h : ∀ p x, P p x → Q p x) (xs : List α) :
    count P xs = count Q xs ↔ ∀ p x s, xs = p ++ x :: s → Q p x → P p x := by
  induction xs using List.reverseRecOn with
  | nil => exact iff_of_true rfl fun p x s hs ↦ by simp at hs
  | append_singleton xs x ih =>
    have hle := count_mono h xs
    rw [forall_split_concat, ← ih, count_concat, count_concat]
    by_cases hQ : Q xs x
    · by_cases hP : P xs x
      · rw [if_pos hP, if_pos hQ, Nat.add_right_cancel_iff]
        exact (and_iff_left fun _ ↦ hP).symm
      · rw [if_neg hP, if_pos hQ]
        refine iff_of_false (by omega) fun hboth ↦ hP (hboth.2 hQ)
    · rw [if_neg hQ, if_neg fun hP ↦ hQ (h xs x hP), Nat.add_right_cancel_iff]
      exact (and_iff_left fun hQ' ↦ absurd hQ' hQ).symm

end Count

/-! ## Repeated and stale arrivals -/

section Order

variable {α : Type*} [LinearOrder α]

/-- The arrivals of numbers that have arrived before. -/
def repeats (xs : List α) : ℕ := count (fun p x ↦ x ∈ p) xs

/-- The arrivals of numbers that are not larger than all before. -/
def stale (xs : List α) : ℕ := count (fun p x ↦ ∃ y ∈ p, x ≤ y) xs

/-- New numbers arrive in increasing order: what is not larger than all before, was there before. -/
def NewInOrder (xs : List α) : Prop :=
  ∀ p x s, xs = p ++ x :: s → (∃ y ∈ p, x ≤ y) → x ∈ p

theorem repeats_concat (xs : List α) (x : α) :
    repeats (xs ++ [x]) = repeats xs + if x ∈ xs then 1 else 0 :=
  count_concat xs x

theorem stale_concat (xs : List α) (x : α) :
    stale (xs ++ [x]) = stale xs + if ∃ y ∈ xs, x ≤ y then 1 else 0 :=
  count_concat xs x

/-- **The largest number tells the repeated arrivals exactly if new numbers arrive in order.** -/
theorem stale_eq_repeats_iff (xs : List α) : stale xs = repeats xs ↔ NewInOrder xs := by
  rw [eq_comm]
  exact count_eq_iff (fun p x hx ↦ ⟨x, hx, le_rfl⟩) xs

theorem repeats_add_card (xs : List α) : repeats xs + xs.toFinset.card = xs.length := by
  induction xs using List.reverseRecOn with
  | nil => rfl
  | append_singleton xs x ih =>
    have hset : (xs ++ [x]).toFinset = insert x xs.toFinset := by
      ext y
      simp
    rw [repeats_concat, hset, List.length_append, List.length_singleton, ← ih]
    by_cases hx : x ∈ xs
    · rw [if_pos hx, Finset.insert_eq_of_mem (List.mem_toFinset.mpr hx)]
      omega
    · rw [if_neg hx, Finset.card_insert_of_notMem (fun h ↦ hx (List.mem_toFinset.mp h))]
      omega

theorem NewInOrder.head_le {x : α} {xs : List α} (h : NewInOrder (x :: xs)) {y : α}
    (hy : y ∈ x :: xs) : x ≤ y := by
  by_contra hlt
  obtain ⟨p, s, hs, hp⟩ := List.eq_append_cons_of_mem hy
  cases p with
  | nil =>
    obtain ⟨rfl, -⟩ := List.cons_eq_cons.mp hs
    exact hlt le_rfl
  | cons z p =>
    obtain ⟨rfl, -⟩ := List.cons_eq_cons.mp hs
    exact hp (h _ y s hs ⟨x, List.mem_cons_self, (not_le.mp hlt).le⟩)

end Order

/-! ## The ends of the sorted list -/

section Ends

variable {α : Type*} [LinearOrder α] {xs : List α}

theorem isLeast_headD_insertionSort (h : xs ≠ []) (d : α) :
    IsLeast {x | x ∈ xs} ((xs.insertionSort (· ≤ ·)).headD d) := by
  have hperm := List.perm_insertionSort (· ≤ ·) xs
  have hsort := List.pairwise_insertionSort (· ≤ ·) xs
  generalize xs.insertionSort (· ≤ ·) = ys at hperm hsort
  cases ys with
  | nil => exact absurd (List.nil_perm.mp hperm) h
  | cons a ys =>
    refine ⟨hperm.mem_iff.mp List.mem_cons_self, fun x hx ↦ ?_⟩
    rcases List.mem_cons.mp (hperm.mem_iff.mpr hx) with rfl | hx
    · exact le_rfl
    · exact (List.pairwise_cons.mp hsort).1 x hx

theorem isGreatest_getLastD_insertionSort (h : xs ≠ []) (d : α) :
    IsGreatest {x | x ∈ xs} ((xs.insertionSort (· ≤ ·)).getLastD d) := by
  have hperm := List.perm_insertionSort (· ≤ ·) xs
  have hsort := List.pairwise_insertionSort (· ≤ ·) xs
  generalize xs.insertionSort (· ≤ ·) = ys at hperm hsort
  cases ys with
  | nil => exact absurd (List.nil_perm.mp hperm) h
  | cons a ys =>
    refine ⟨hperm.mem_iff.mp (List.getLast_mem _), fun x hx ↦ ?_⟩
    exact hsort.rel_getLast (hperm.mem_iff.mpr hx)

/-- The sorted list starts and ends with the same element if it has no other. -/
theorem getLastD_eq_headD_iff (h : xs ≠ []) (d : α) :
    (xs.insertionSort (· ≤ ·)).getLastD d = (xs.insertionSort (· ≤ ·)).headD d ↔
      ∀ x ∈ xs, ∀ y ∈ xs, x = y := by
  have hleast := isLeast_headD_insertionSort h d
  have hgreatest := isGreatest_getLastD_insertionSort h d
  constructor
  · intro heq x hx y hy
    rw [heq] at hgreatest
    have hx := le_antisymm (hgreatest.2 hx) (hleast.2 hx)
    have hy := le_antisymm (hgreatest.2 hy) (hleast.2 hy)
    exact hx.trans hy.symm
  · intro hall
    exact hall _ hgreatest.1 _ hleast.1

end Ends

/-! ## Missing numbers -/

/-- The numbers between the smallest and the largest that never arrived. -/
def lost (xs : List ℤ) : Set ℤ := {n | n ∉ xs ∧ (∃ a ∈ xs, a ≤ n) ∧ ∃ b ∈ xs, n ≤ b}

@[simp] theorem lost_nil : lost [] = ∅ := by
  ext n
  simp [lost]

theorem lost_congr {xs ys : List ℤ} (h : ∀ x, x ∈ xs ↔ x ∈ ys) : lost xs = lost ys := by
  simp only [lost, h]

theorem two_le_length_of_lost {xs : List ℤ} (h : (lost xs).Nonempty) : 2 ≤ xs.length := by
  obtain ⟨n, hn, ⟨a, ha, han⟩, b, hb, hnb⟩ := h
  have hne : a ≠ b := by
    rintro rfl
    exact hn (le_antisymm hnb han ▸ ha)
  by_contra hlt
  obtain ⟨x, hx⟩ : ∃ x, xs = [x] := by
    rw [← List.length_eq_one_iff]
    have hpos := List.length_pos_of_mem ha
    omega
  rw [hx, List.mem_singleton] at ha hb
  exact hne (ha.trans hb.symm)

theorem lost_eq_sdiff {xs : List ℤ} {lo hi : ℤ} (hlo : IsLeast {x | x ∈ xs} lo)
    (hhi : IsGreatest {x | x ∈ xs} hi) : lost xs = ↑(Finset.Icc lo hi \ xs.toFinset) := by
  ext n
  rw [Finset.mem_coe, Finset.mem_sdiff, Finset.mem_Icc, List.mem_toFinset]
  constructor
  · rintro ⟨hn, ⟨a, ha, han⟩, b, hb, hnb⟩
    exact ⟨⟨(hlo.2 ha).trans han, hnb.trans (hhi.2 hb)⟩, hn⟩
  · rintro ⟨⟨hlon, hnhi⟩, hn⟩
    exact ⟨hn, ⟨lo, hlo.1, hlon⟩, hi, hhi.1, hnhi⟩

theorem finite_lost (xs : List ℤ) : (lost xs).Finite := by
  by_cases h : xs = []
  · rw [h, lost_nil]
    exact Set.finite_empty
  · rw [lost_eq_sdiff (isLeast_headD_insertionSort h 0) (isGreatest_getLastD_insertionSort h 0)]
    exact Finset.finite_toSet _

theorem ncard_lost_ne_zero_iff {xs : List ℤ} : (lost xs).ncard ≠ 0 ↔ (lost xs).Nonempty := by
  rw [Ne, Set.ncard_eq_zero (finite_lost xs), Set.nonempty_iff_ne_empty]

/-- What is between the smallest and the largest number has arrived or is lost. -/
theorem ncard_lost_add_card {xs : List ℤ} {lo hi : ℤ} (hlo : IsLeast {x | x ∈ xs} lo)
    (hhi : IsGreatest {x | x ∈ xs} hi) :
    ((lost xs).ncard : ℤ) + xs.toFinset.card = hi - lo + 1 := by
  have hsub : xs.toFinset ⊆ Finset.Icc lo hi := by
    intro x hx
    rw [List.mem_toFinset] at hx
    exact Finset.mem_Icc.mpr ⟨hlo.2 hx, hhi.2 hx⟩
  have hle : lo ≤ hi := hlo.2 hhi.1
  rw [lost_eq_sdiff hlo hhi, Set.ncard_coe_finset, ← Nat.cast_add,
    Finset.card_sdiff_add_card_eq_card hsub, Int.card_Icc]
  omega

/-- The sum of the gaps between neighbours. -/
def gapSum : List ℤ → ℕ
  | a :: b :: xs => (b - a - 1).toNat + gapSum (b :: xs)
  | _ => 0

theorem gapSum_add_card {a : ℤ} {xs : List ℤ} (h : (a :: xs).Pairwise (· ≤ ·)) :
    (gapSum (a :: xs) : ℤ) + (a :: xs).toFinset.card = (a :: xs).getLast (by simp) - a + 1 := by
  induction xs generalizing a with
  | nil => simp [gapSum]
  | cons b xs ih =>
    have hab : a ≤ b := (List.pairwise_cons.mp h).1 b List.mem_cons_self
    have hrest := ih (List.pairwise_cons.mp h).2
    rw [gapSum, List.getLast_cons_cons, List.toFinset_cons]
    rcases hab.eq_or_lt with rfl | hlt
    · rw [Finset.insert_eq_of_mem (by simp)]
      omega
    · have hnew : a ∉ (b :: xs).toFinset := by
        intro ha
        have hle : ∀ y ∈ b :: xs, b ≤ y := by
          intro y hy
          rcases List.mem_cons.mp hy with rfl | hy
          · exact le_rfl
          · exact (List.pairwise_cons.mp (List.pairwise_cons.mp h).2).1 y hy
        exact absurd (hle a (List.mem_toFinset.mp ha)) (not_le.mpr hlt)
      rw [Finset.card_insert_of_notMem hnew]
      omega

/-- **The gaps of the sorted list are the lost numbers.** -/
theorem gapSum_insertionSort (xs : List ℤ) :
    gapSum (xs.insertionSort (· ≤ ·)) = (lost xs).ncard := by
  by_cases hxs : xs = []
  · rw [hxs, lost_nil, Set.ncard_empty]
    rfl
  have hleast := isLeast_headD_insertionSort hxs 0
  have hgreatest := isGreatest_getLastD_insertionSort hxs 0
  have hlost := ncard_lost_add_card hleast hgreatest
  have hperm := List.perm_insertionSort (· ≤ ·) xs
  have hsort := List.pairwise_insertionSort (· ≤ ·) xs
  generalize xs.insertionSort (· ≤ ·) = ys at hperm hsort hlost
  cases ys with
  | nil => exact absurd (List.nil_perm.mp hperm) hxs
  | cons a ys =>
    have hset : (a :: ys).toFinset = xs.toFinset := List.toFinset_eq_of_perm _ _ hperm
    have hgap := gapSum_add_card hsort
    rw [hset] at hgap
    rw [List.headD_cons] at hlost
    change _ = (a :: ys).getLast _ - a + 1 at hlost
    omega

end Arrivals
