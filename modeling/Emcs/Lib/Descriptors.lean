import Mathlib.Data.List.Basic
import Mathlib.Logic.Function.Basic

/-!
# Descriptor tables

A process names what it has open by numbers. `openFile` takes the lowest number that is free, and
`close` frees a number for the next file. A number says nothing about the file it stood for earlier.

A program keeps the numbers in variables of its own, `h : ι → Option ℕ`. As long as every number it
keeps is open and is kept in one place only, it is as if each place had a file of its own, `held t
h`: opening, closing and changing a file change it in one place. This is `Owned` with its rules.
-/

/-- What is open under each number. -/
abbrev Descriptors (α : Type*) := List (Option α)

namespace Descriptors

variable {α ι : Type*} {t : Descriptors α} {d d' : ℕ} {a : α}

/-- What is open under the number `d`. -/
def file (t : Descriptors α) (d : ℕ) : Option α := t.getD d none

/-- The lowest number that is free. -/
def free (t : Descriptors α) : ℕ := t.findIdx Option.isNone

/-- A file is opened under the lowest number that is free. -/
def openFile (t : Descriptors α) (a : α) : Descriptors α :=
  if t.free < t.length then t.set t.free (some a) else t ++ [some a]

def close (t : Descriptors α) (d : ℕ) : Descriptors α := t.set d none

/-- The file under the number `d` changes. -/
def modify (t : Descriptors α) (d : ℕ) (f : α → α) : Descriptors α := List.modify t d (Option.map f)

theorem file_free (t : Descriptors α) : t.file t.free = none := by
  rw [file, List.getD_eq_getElem?_getD]
  by_cases h : t.free < t.length
  · rw [List.getElem?_eq_getElem h, Option.getD_some]
    exact Option.isNone_iff_eq_none.mp (List.findIdx_getElem (p := Option.isNone) (w := h))
  · rw [List.getElem?_eq_none (Nat.not_lt.mp h), Option.getD_none]

theorem free_le (h : t.file d = none) : t.free ≤ d := by
  by_contra hlt
  rw [Nat.not_le] at hlt
  have hlen : d < t.length := Nat.lt_of_lt_of_le hlt List.findIdx_le_length
  rw [file, List.getD_eq_getElem?_getD, List.getElem?_eq_getElem hlen, Option.getD_some] at h
  have hnot := List.not_of_lt_findIdx hlt
  rw [h] at hnot
  exact absurd hnot (by simp)

theorem file_openFile_self (t : Descriptors α) (a : α) : (t.openFile a).file t.free = some a := by
  rw [openFile, file, List.getD_eq_getElem?_getD]
  split
  · rename_i h
    rw [List.getElem?_set_self h, Option.getD_some]
  · rename_i h
    have hlen : t.free = t.length := Nat.le_antisymm List.findIdx_le_length (Nat.not_lt.mp h)
    rw [hlen, List.getElem?_concat_length, Option.getD_some]

theorem file_openFile_of_ne (a : α) (h : d ≠ t.free) : (t.openFile a).file d = t.file d := by
  rw [openFile, file, file, List.getD_eq_getElem?_getD, List.getD_eq_getElem?_getD]
  split
  · rw [List.getElem?_set_ne (Ne.symm h)]
  · rename_i hfree
    have hlen : t.free = t.length := Nat.le_antisymm List.findIdx_le_length (Nat.not_lt.mp hfree)
    rcases Nat.lt_or_ge d t.length with hlt | hge
    · rw [List.getElem?_append_left hlt]
    · have hgt : t.length < d := Nat.lt_of_le_of_ne hge fun heq ↦ h (hlen.trans heq).symm
      rw [List.getElem?_eq_none hge, List.getElem?_eq_none]
      rw [List.length_append]
      exact hgt

theorem file_close_self (t : Descriptors α) (d : ℕ) : (t.close d).file d = none := by
  rw [close, file, List.getD_eq_getElem?_getD]
  by_cases h : d < t.length
  · rw [List.getElem?_set_self h, Option.getD_some]
  · rw [List.getElem?_eq_none, Option.getD_none]
    rw [List.length_set]
    exact Nat.not_lt.mp h

theorem file_close_of_ne (t : Descriptors α) (h : d' ≠ d) : (t.close d).file d' = t.file d' := by
  rw [close, file, file, List.getD_eq_getElem?_getD, List.getD_eq_getElem?_getD,
    List.getElem?_set_ne (Ne.symm h)]

theorem file_modify_self (t : Descriptors α) (d : ℕ) (f : α → α) :
    (t.modify d f).file d = (t.file d).map f := by
  rw [modify, file, file, List.getD_eq_getElem?_getD, List.getD_eq_getElem?_getD,
    List.getElem?_modify_eq]
  cases t[d]? <;> rfl

theorem file_modify_of_ne (t : Descriptors α) (f : α → α) (h : d' ≠ d) :
    (t.modify d f).file d' = t.file d' := by
  rw [modify, file, file, List.getD_eq_getElem?_getD, List.getD_eq_getElem?_getD,
    List.getElem?_modify_ne _ _ (Ne.symm h)]

/-! ## Numbers that are kept -/

/-- The numbers that a program keeps are open, each of them kept in one place. -/
structure Owned (t : Descriptors α) (h : ι → Option ℕ) : Prop where
  isOpen : ∀ {i d}, h i = some d → t.file d ≠ none
  unique : ∀ {i j d}, h i = some d → h j = some d → i = j

/-- The file of each place, with its number. -/
def held (t : Descriptors α) (h : ι → Option ℕ) (i : ι) : Option (ℕ × α) :=
  (h i).bind fun d ↦ (t.file d).map (d, ·)

variable {h : ι → Option ℕ} {i j : ι}

theorem held_eq_none (hi : h i = none) : held t h i = none := by
  rw [held, hi, Option.bind_none]

theorem held_eq_file (hi : h i = some d) : held t h i = (t.file d).map (d, ·) := by
  rw [held, hi, Option.bind_some]

theorem held_eq_some_iff : held t h i = some (d, a) ↔ h i = some d ∧ t.file d = some a := by
  constructor
  · intro heq
    obtain ⟨d', hd', hmap⟩ := Option.bind_eq_some_iff.mp heq
    obtain ⟨a', ha', hpair⟩ := Option.map_eq_some_iff.mp hmap
    obtain ⟨rfl, rfl⟩ := Prod.mk.inj hpair
    exact ⟨hd', ha'⟩
  · rintro ⟨hd, ha⟩
    rw [held_eq_file hd, ha, Option.map_some]

theorem Owned.ne_free (ho : Owned t h) (hi : h i = some d) : d ≠ t.free := by
  rintro rfl
  exact ho.isOpen hi (file_free t)

/-- What a place has does not change while its number stands for the same. -/
theorem held_congr {t' : Descriptors α} {h' : ι → Option ℕ} (hi : h' i = h i)
    (hfile : ∀ d, h i = some d → t'.file d = t.file d) : held t' h' i = held t h i := by
  rw [held, held, hi]
  cases hd : h i with
  | none => rfl
  | some d => rw [Option.bind_some, Option.bind_some, hfile d hd]

theorem Owned.of_modify (ho : Owned t h) (d : ℕ) (f : α → α) : Owned (t.modify d f) h := by
  refine ⟨?_, ho.unique⟩
  intro i d' hi
  by_cases hne : d' = d
  · rw [hne, file_modify_self]
    intro hnone
    exact ho.isOpen hi (hne ▸ Option.map_eq_none_iff.mp hnone)
  · rw [file_modify_of_ne t f hne]
    exact ho.isOpen hi

theorem Owned.openFile_close (ho : Owned t h) (a : α) : Owned ((t.openFile a).close t.free) h := by
  refine ⟨?_, ho.unique⟩
  intro i d hi
  have hne := ho.ne_free hi
  rw [file_close_of_ne _ hne, file_openFile_of_ne a hne]
  exact ho.isOpen hi

theorem held_openFile_close (ho : Owned t h) (a : α) :
    held ((t.openFile a).close t.free) h = held t h := by
  funext i
  refine held_congr rfl fun d hd ↦ ?_
  rw [file_close_of_ne _ (ho.ne_free hd), file_openFile_of_ne a (ho.ne_free hd)]

section Update

variable [DecidableEq ι]

theorem Owned.forget (ho : Owned t h) (i : ι) : Owned t (Function.update h i none) := by
  have hold : ∀ {j d}, Function.update h i none j = some d → h j = some d := by
    intro j d hj
    by_cases hji : j = i
    · rw [hji, Function.update_self] at hj
      exact nomatch hj
    · rwa [Function.update_of_ne hji] at hj
  exact ⟨fun hj ↦ ho.isOpen (hold hj), fun hj hk ↦ ho.unique (hold hj) (hold hk)⟩

theorem held_forget (i : ι) :
    held t (Function.update h i none) = Function.update (held t h) i none := by
  funext j
  by_cases hji : j = i
  · rw [hji, Function.update_self, held_eq_none (Function.update_self i none h)]
  · rw [Function.update_of_ne hji]
    exact held_congr (Function.update_of_ne hji _ _) fun _ _ ↦ rfl

theorem Owned.close (ho : Owned t h) (hi : h i = some d) :
    Owned (t.close d) (Function.update h i none) := by
  have hforget := ho.forget i
  refine ⟨?_, hforget.unique⟩
  intro j d' hj
  by_cases hji : j = i
  · rw [hji, Function.update_self] at hj
    exact nomatch hj
  · have hne : d' ≠ d := by
      rintro rfl
      rw [Function.update_of_ne hji] at hj
      exact hji (ho.unique hj hi)
    rw [file_close_of_ne t hne]
    exact hforget.isOpen hj

theorem held_close (ho : Owned t h) (hi : h i = some d) :
    held (t.close d) (Function.update h i none) = Function.update (held t h) i none := by
  funext j
  by_cases hji : j = i
  · rw [hji, Function.update_self, held_eq_none (Function.update_self i none h)]
  · rw [Function.update_of_ne hji]
    refine held_congr (Function.update_of_ne hji _ _) fun d' hd' ↦ file_close_of_ne t ?_
    rintro rfl
    exact hji (ho.unique hd' hi)

/-- A place opens a file. -/
theorem Owned.openFile (ho : Owned t h) (i : ι) (a : α) :
    Owned (t.openFile a) (Function.update h i (some t.free)) := by
  refine ⟨?_, ?_⟩
  · intro j d hj
    by_cases hji : j = i
    · rw [hji, Function.update_self, Option.some_inj] at hj
      rw [← hj, file_openFile_self]
      exact Option.some_ne_none a
    · rw [Function.update_of_ne hji] at hj
      rw [file_openFile_of_ne a (ho.ne_free hj)]
      exact ho.isOpen hj
  · intro j k d hj hk
    by_cases hji : j = i <;> by_cases hki : k = i
    · rw [hji, hki]
    · rw [hji, Function.update_self, Option.some_inj] at hj
      rw [Function.update_of_ne hki] at hk
      exact absurd hj.symm (ho.ne_free hk)
    · rw [hki, Function.update_self, Option.some_inj] at hk
      rw [Function.update_of_ne hji] at hj
      exact absurd hk.symm (ho.ne_free hj)
    · rw [Function.update_of_ne hji] at hj
      rw [Function.update_of_ne hki] at hk
      exact ho.unique hj hk

theorem held_openFile (ho : Owned t h) (i : ι) (a : α) :
    held (t.openFile a) (Function.update h i (some t.free))
      = Function.update (held t h) i (some (t.free, a)) := by
  funext j
  by_cases hji : j = i
  · rw [hji, Function.update_self, held_eq_file (Function.update_self i _ h), file_openFile_self,
      Option.map_some]
  · rw [Function.update_of_ne hji]
    exact held_congr (Function.update_of_ne hji _ _) fun d hd ↦
      file_openFile_of_ne a (ho.ne_free hd)

end Update

end Descriptors
