import Mathlib.Data.List.Basic

/-!
# Filters for names with levels

A name is cut into levels at each separator. A filter is matched with a name level by level: one
mark stands for any one level, another one, at the end of the filter, for any number of levels,
also for none. Names are treated alike, whatever they begin with: the rule that keeps the names with
a `$` in front from filters that begin with a mark is none of this library's.
-/

namespace TopicFilter

section Levels

variable {α : Type*} [DecidableEq α] (sep : α)

/-- What comes before the first separator, and what comes after it. -/
def cut : List α → List α × Option (List α)
  | [] => ([], none)
  | a :: l => if a = sep then ([], some l) else (a :: (cut l).1, (cut l).2)

/-- The levels of a name. -/
def levels : List α → List (List α)
  | [] => [[]]
  | a :: l => if a = sep then [] :: levels l else
    match levels l with
    | [] => [[a]]
    | s :: ss => (a :: s) :: ss

variable {sep}

theorem length_lt_of_cut {l s r : List α} (h : cut sep l = (s, some r)) :
    r.length < l.length := by
  induction l generalizing s with
  | nil => cases h
  | cons a l ih =>
    rw [cut] at h
    split at h
    · rw [← Option.some.inj (congrArg Prod.snd h)]
      exact Nat.lt_succ_self _
    · exact Nat.lt_succ_of_lt (ih (Prod.ext rfl (Prod.mk.inj h).2))

theorem levels_of_cut_none {l s : List α} (h : cut sep l = (s, none)) : levels sep l = [s] := by
  induction l generalizing s with
  | nil =>
    cases h
    rfl
  | cons a l ih =>
    rw [cut] at h
    split at h
    · cases h
    · rename_i hne
      rw [levels, if_neg hne, ih (Prod.ext rfl (Prod.mk.inj h).2), ← (Prod.mk.inj h).1]

/-- **The levels are cut one after the other.** -/
theorem levels_of_cut_some {l s r : List α} (h : cut sep l = (s, some r)) :
    levels sep l = s :: levels sep r := by
  induction l generalizing s with
  | nil => cases h
  | cons a l ih =>
    rw [cut] at h
    split at h
    · rename_i heq
      cases h
      rw [levels, if_pos heq]
    · rename_i hne
      rw [levels, if_neg hne, ih (Prod.ext rfl (Prod.mk.inj h).2), ← (Prod.mk.inj h).1]

theorem levels_ne_nil (l : List α) : levels sep l ≠ [] := by
  cases hcut : cut sep l with
  | mk s r =>
    cases r with
    | none =>
      rw [levels_of_cut_none hcut]
      exact List.cons_ne_nil _ _
    | some r =>
      rw [levels_of_cut_some hcut]
      exact List.cons_ne_nil _ _

theorem cut_of_notMem {l : List α} (h : sep ∉ l) : cut sep l = (l, none) := by
  induction l with
  | nil => rfl
  | cons a l ih =>
    rw [List.mem_cons, not_or] at h
    obtain ⟨hne, hmem⟩ := h
    rw [cut, if_neg (Ne.symm hne), ih hmem]

/-- Where there is only one level, it is the name. -/
theorem levels_eq_singleton_iff {l s : List α} (hs : sep ∉ s) : levels sep l = [s] ↔ l = s := by
  constructor
  · induction l generalizing s with
    | nil => exact fun h ↦ List.singleton_inj.mp h
    | cons a l ih =>
      intro h
      rw [levels] at h
      split at h
      · exact absurd (List.cons.inj h).2 (levels_ne_nil l)
      · cases hl : levels sep l with
        | nil => exact absurd hl (levels_ne_nil l)
        | cons t ts =>
          rw [hl] at h
          obtain ⟨rfl, rfl⟩ := List.cons.inj h
          rw [ih (fun hmem ↦ hs (List.mem_cons_of_mem a hmem)) hl]
  · rintro rfl
    exact levels_of_cut_none (cut_of_notMem hs)

end Levels

/-! ## Matching -/

variable {β : Type*} (single multi : β)

/-- The filter, given first, matches the name. -/
inductive Matches : List β → List β → Prop
  | nil : Matches [] []
  | multi (ss : List β) : Matches [multi] ss
  | single {t : β} {ts ss : List β} (s : β) (h : Matches ts ss) (ht : t = single) :
    Matches (t :: ts) (s :: ss)
  | level {ts ss : List β} (s : β) (h : Matches ts ss) : Matches (s :: ts) (s :: ss)

/-- The mark for any number of levels stands at the end only. -/
def WellFormed (ts : List β) : Prop := multi ∉ ts.dropLast

instance [DecidableEq β] (ts : List β) : Decidable (WellFormed multi ts) :=
  inferInstanceAs (Decidable (multi ∉ ts.dropLast))

variable {single multi}

theorem WellFormed.tail {t t' : β} {ts : List β} (h : WellFormed multi (t :: t' :: ts)) :
    t ≠ multi ∧ WellFormed multi (t' :: ts) := by
  rw [WellFormed, List.dropLast_cons_cons, List.mem_cons, not_or] at h
  exact ⟨Ne.symm h.1, h.2⟩

/-- A level that is no mark for many levels is matched by the level beside it. -/
theorem matches_cons_iff {t s : β} {ts ss : List β} (ht : t ≠ multi) :
    Matches single multi (t :: ts) (s :: ss) ↔
      (t = single ∨ t = s) ∧ Matches single multi ts ss := by
  constructor
  · intro h
    cases h with
    | multi => exact absurd rfl ht
    | single _ h ht => exact ⟨Or.inl ht, h⟩
    | level _ h => exact ⟨Or.inr rfl, h⟩
  · rintro ⟨rfl | rfl, h⟩
    · exact .single s h rfl
    · exact .level t h

/-- The mark for many levels is all that matches the end of a name. -/
theorem matches_nil_right_iff {ts : List β} (hts : ts ≠ []) (hwf : WellFormed multi ts) :
    Matches single multi ts [] ↔ ts = [multi] := by
  constructor
  · intro h
    cases h with
    | nil => exact absurd rfl hts
    | multi => rfl
  · rintro rfl
    exact .multi []

end TopicFilter
