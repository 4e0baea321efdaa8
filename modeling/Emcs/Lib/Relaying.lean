import Emcs.Lib.Trace
import Mathlib.Algebra.BigOperators.Group.List.Basic
import Mathlib.Algebra.Ring.GeomSum
import Mathlib.Data.Finset.Card
import Mathlib.Data.Fintype.Card

/-!
# Copies of a message among listeners

A message is put into the air once. Every listener hears every copy of it at most once, at any time
and in any order, and answers with another copy or with nothing. What the answer depends on besides
the copy is left open: it is part of the event.

Where an answer is always one hop short of what it answers, the copies run out. With `n` listeners
and `t` hops there are at most `n + n² + ⋯ + nᵗ` of them: each hearing that is still to come is
worth the copies it can lead to, and a hearing never leads to more.
-/

namespace Relaying

variable {α ι ε : Type*}

/-- A copy, the copies it answers, the latest first, and the listeners that have yet to hear it. -/
structure Copy (α ι : Type*) where
  item : α
  trail : List α
  unheard : Finset ι

/-- A listener hears one of the copies. -/
structure Hearing (ι ε : Type*) where
  copy : ℕ
  listener : ι
  circumstance : ε

variable [Fintype ι] (reply : ε → ι → α → Option α)

/-- One copy is in the air. -/
def inject (a : α) : List (Copy α ι) := [⟨a, [], Finset.univ⟩]

/-- What a listener answers to a copy. -/
def answers (x : ε) (r : ι) (c : Copy α ι) : List (Copy α ι) :=
  ((reply x r c.item).map fun b ↦ ⟨b, c.item :: c.trail, Finset.univ⟩).toList

variable {reply} in
theorem mem_answers {x : ε} {r : ι} {c c' : Copy α ι} (h : c' ∈ answers reply x r c) :
    reply x r c.item = some c'.item ∧ c'.trail = c.item :: c.trail ∧ c'.unheard = Finset.univ := by
  rw [answers, Option.mem_toList, Option.map_eq_some_iff] at h
  obtain ⟨b, hb, rfl⟩ := h
  exact ⟨hb, rfl, rfl⟩

theorem length_answers_le (x : ε) (r : ι) (c : Copy α ι) : (answers reply x r c).length ≤ 1 := by
  rw [answers]
  cases reply x r c.item with
  | none => exact Nat.zero_le 1
  | some b => exact Nat.le_refl 1

variable [DecidableEq ι]

def Copy.heardBy (c : Copy α ι) (r : ι) : Copy α ι := { c with unheard := c.unheard.erase r }

def step (s : List (Copy α ι)) (e : Hearing ι ε) : List (Copy α ι) :=
  match s[e.copy]? with
  | none => s
  | some c =>
    if e.listener ∈ c.unheard then
      s.set e.copy (c.heardBy e.listener) ++ answers reply e.circumstance e.listener c
    else s

/-- **What a hearing does**: nothing, or one copy is heard and answered. -/
theorem step_cases (s : List (Copy α ι)) (e : Hearing ι ε) :
    step reply s e = s ∨ ∃ l₁ c l₂, s = l₁ ++ c :: l₂ ∧ l₁.length = e.copy ∧
      e.listener ∈ c.unheard ∧ step reply s e
        = l₁ ++ c.heardBy e.listener :: l₂ ++ answers reply e.circumstance e.listener c := by
  rw [step]
  cases hget : s[e.copy]? with
  | none => exact Or.inl rfl
  | some c =>
    obtain ⟨hlt, rfl⟩ := List.getElem?_eq_some_iff.mp hget
    dsimp only
    split
    · rename_i hmem
      have hsplit : ∃ l₁ l₂, s = l₁ ++ s[e.copy] :: l₂ ∧ l₁.length = e.copy ∧
          s.set e.copy (s[e.copy].heardBy e.listener)
            = l₁ ++ s[e.copy].heardBy e.listener :: l₂ := List.exists_of_set hlt
      obtain ⟨l₁, l₂, hs, hlen, hset⟩ := hsplit
      exact Or.inr ⟨l₁, s[e.copy], l₂, hs, hlen, hmem, by rw [hset]⟩
    · exact Or.inl rfl

variable {reply}

/-- **What is at a place after a hearing**: the copy that was there, or a new one at the end. -/
theorem getElem?_step {s : List (Copy α ι)} {e : Hearing ι ε} {i : ℕ} {c' : Copy α ι}
    (h : (step reply s e)[i]? = some c') :
    (∃ c, s[i]? = some c ∧ c'.item = c.item ∧ c'.trail = c.trail ∧ c'.unheard ⊆ c.unheard ∧
        (i = e.copy → e.listener ∉ c'.unheard)) ∨
      i = s.length ∧ ∃ c, s[e.copy]? = some c ∧ e.listener ∈ c.unheard ∧
        c' ∈ answers reply e.circumstance e.listener c := by
  rw [step] at h
  cases hget : s[e.copy]? with
  | none =>
    rw [hget] at h
    refine Or.inl ⟨c', h, rfl, rfl, subset_rfl, fun hi ↦ ?_⟩
    rw [hi, hget] at h
    exact nomatch h
  | some c =>
    rw [hget] at h
    dsimp only at h
    split at h
    · rename_i hmem
      rcases Nat.lt_or_ge i s.length with hlt | hge
      · rw [List.getElem?_append_left (by rw [List.length_set]; exact hlt), List.getElem?_set] at h
        split at h
        · rename_i hi
          rw [if_pos (hi ▸ hlt)] at h
          rw [← Option.some_inj.mp h, ← hi]
          exact Or.inl ⟨c, hget, rfl, rfl, Finset.erase_subset _ _, fun _ ↦ Finset.notMem_erase _ _⟩
        · rename_i hi
          exact Or.inl ⟨c', h, rfl, rfl, subset_rfl, fun h' ↦ absurd h'.symm hi⟩
      · rw [List.getElem?_append_right (by rw [List.length_set]; exact hge), List.length_set] at h
        have hlt := (List.getElem?_eq_some_iff.mp h).1
        have hone := length_answers_le reply e.circumstance e.listener c
        exact Or.inr ⟨by omega, c, rfl, hmem, List.mem_of_getElem? h⟩
    · rename_i hmem
      refine Or.inl ⟨c', h, rfl, rfl, subset_rfl, fun hi ↦ ?_⟩
      rw [hi, hget] at h
      exact Option.some_inj.mp h ▸ hmem

/-- The copies grow in number only when a copy is answered. -/
theorem answered_of_length_lt {s : List (Copy α ι)} {e : Hearing ι ε}
    (h : s.length < (step reply s e).length) : (step reply s e).length = s.length + 1 ∧
      ∃ c b, s[e.copy]? = some c ∧ e.listener ∈ c.unheard ∧
        reply e.circumstance e.listener c.item = some b := by
  rw [step] at h ⊢
  cases hget : s[e.copy]? with
  | none =>
    rw [hget] at h
    exact absurd h (Nat.lt_irrefl _)
  | some c =>
    rw [hget] at h
    dsimp only at h ⊢
    split at h
    · rename_i hmem
      rw [if_pos hmem]
      rw [List.length_append, List.length_set, answers] at h ⊢
      cases hb : reply e.circumstance e.listener c.item with
      | none =>
        rw [hb] at h
        exact absurd h (Nat.lt_irrefl _)
      | some b => exact ⟨rfl, c, b, rfl, hmem, hb⟩
    · exact absurd h (Nat.lt_irrefl _)

variable (reply) in
/-- **The rule of copies**: what holds of the first copy, and of every answer to a copy of which it
holds, holds of every copy. -/
theorem mem_run_rule {P : α → List α → Prop} {a : α} (hinject : P a [])
    (hreply : ∀ x r b l b', P b l → reply x r b = some b' → P b' (b :: l)) (es : List (Hearing ι ε))
    {c : Copy α ι} (h : c ∈ Trace.run (step reply) (inject a) es) : P c.item c.trail := by
  have hrun : ∀ c ∈ Trace.run (step reply) (inject a) es, P c.item c.trail := by
    refine Trace.run_invariant' (P := fun s : List (Copy α ι) ↦ ∀ c ∈ s, P c.item c.trail)
      (fun s e hs c hc ↦ ?_) es fun c hc ↦ ?_
    · rcases step_cases reply s e with heq | ⟨l₁, c₀, l₂, rfl, -, -, heq⟩
      · exact hs c (heq ▸ hc)
      · rw [heq, List.mem_append, List.mem_append, List.mem_cons] at hc
        rcases hc with (hc | rfl | hc) | hc
        · exact hs c (List.mem_append_left _ hc)
        · exact hs c₀ (List.mem_append_right _ List.mem_cons_self)
        · exact hs c (List.mem_append_right _ (List.mem_cons_of_mem _ hc))
        · obtain ⟨hitem, htrail, -⟩ := mem_answers hc
          rw [htrail]
          exact hreply _ _ _ _ _ (hs c₀ (List.mem_append_right _ List.mem_cons_self)) hitem
    · rw [List.mem_singleton.mp hc]
      exact hinject
  exact hrun c h

/-! ## The number of copies -/

section Count

variable (hops : α → ℕ)

/-- How many copies the hearings of a copy that are still to come can lead to. -/
def Copy.worth (c : Copy α ι) : ℕ :=
  c.unheard.card * ∑ d ∈ Finset.range (hops c.item), Fintype.card ι ^ d

def worth (s : List (Copy α ι)) : ℕ := (s.map (Copy.worth hops)).sum

variable {hops}

theorem worth_heardBy (hops : α → ℕ) {c : Copy α ι} {r : ι} (hr : r ∈ c.unheard) :
    (c.heardBy r).worth hops + ∑ d ∈ Finset.range (hops c.item), Fintype.card ι ^ d
      = c.worth hops := by
  have hcard : (c.unheard.erase r).card + 1 = c.unheard.card := Finset.card_erase_add_one hr
  rw [Copy.worth, Copy.worth, ← hcard, Nat.succ_mul]
  rfl

omit [DecidableEq ι] in
theorem length_add_worth_answers (hreply : ∀ x r b b', reply x r b = some b' → hops b' + 1 = hops b)
    (x : ε) (r : ι) (c : Copy α ι) :
    (answers reply x r c).length + worth hops (answers reply x r c)
      ≤ ∑ d ∈ Finset.range (hops c.item), Fintype.card ι ^ d := by
  rw [answers]
  cases hb : reply x r c.item with
  | none => exact Nat.zero_le _
  | some b =>
    rw [← hreply x r c.item b hb, geom_sum_succ]
    refine Eq.le ?_
    rw [Option.map_some, Option.toList_some, worth,
      List.map_singleton, List.sum_singleton, Copy.worth,
      List.length_singleton, Finset.card_univ, Nat.add_comm]

/-- **A hearing never leads to more than it was worth.** -/
theorem length_add_worth_step (hreply : ∀ x r b b', reply x r b = some b' → hops b' + 1 = hops b)
    (s : List (Copy α ι)) (e : Hearing ι ε) :
    (step reply s e).length + worth hops (step reply s e) ≤ s.length + worth hops s := by
  rcases step_cases reply s e with heq | ⟨l₁, c, l₂, rfl, -, hmem, heq⟩
  · rw [heq]
  · have hheard := worth_heardBy hops hmem
    have hanswers := length_add_worth_answers hreply e.circumstance e.listener c
    rw [heq]
    simp only [worth, List.map_append, List.map_cons, List.sum_append, List.sum_cons,
      List.length_append, List.length_cons] at hanswers ⊢
    omega

/-- **The copies run out**: what is answered to `n` listeners within `t` hops. -/
theorem length_run_le (hreply : ∀ x r b b', reply x r b = some b' → hops b' + 1 = hops b) (a : α)
    (es : List (Hearing ι ε)) :
    (Trace.run (step reply) (inject (ι := ι) a) es).length
      ≤ 1 + ∑ d ∈ Finset.range (hops a), Fintype.card ι ^ (d + 1) := by
  have hrun : (Trace.run (step reply) (inject (ι := ι) a) es).length
      + worth hops (Trace.run (step reply) (inject (ι := ι) a) es)
      ≤ (inject (ι := ι) a).length + worth hops (inject (ι := ι) a) := by
    generalize inject (ι := ι) a = s
    induction es generalizing s with
    | nil => exact Nat.le_refl _
    | cons e es ih => exact (ih (step reply s e)).trans (length_add_worth_step hreply s e)
  have hworth : worth hops (inject (ι := ι) a)
      = ∑ d ∈ Finset.range (hops a), Fintype.card ι ^ (d + 1) := by
    rw [inject, worth, List.map_singleton, List.sum_singleton, Copy.worth, Finset.card_univ,
      Finset.mul_sum]
    exact Finset.sum_congr rfl fun d _ ↦ (pow_succ' _ d).symm
  rw [hworth] at hrun
  exact (Nat.le_add_right _ _).trans hrun

end Count

end Relaying
