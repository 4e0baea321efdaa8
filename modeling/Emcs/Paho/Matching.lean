import Emcs.Lib.TopicFilter
import Emcs.Paho.Topics

/-!
# Topic filters

`Topic::isMatch`, with which the gateway decides whether a client that gets a message under an
unknown topic name has subscribed to it with wildcards. Its filters are the topic names of the
client's table, so names without wildcards among them.

It follows the rules of MQTT but for one case: `#` does not stand for no level where the level
before it is a `+` (`isMatch_iff`). So a subscription to `+/#` has no messages of one level.

## What is left out

The rule that a filter with a wildcard in front does not match a name that begins with `$` is not
part of `Matches`, and `isMatch` does not know it.
-/

namespace Emcs.Paho

open TopicFilter

/-- The bytes of `/`, `#` and `+`. -/
def slash : UInt8 := 0x2F

def wildcard : List UInt8 := [0x23]

def wildcards : List UInt8 := [0x2B]

/-- The loop of `isMatch`, from the places `pos` and `tpos` on. -/
def isMatchFrom (topicName filter : List UInt8) : Bool :=
  match cut slash topicName with
  | (subtopic, some topicRest) =>
    match _h : cut slash filter with
    | (subtopict, some filterRest) =>
      if subtopict = wildcard then true
      else if subtopict = wildcards then isMatchFrom topicRest filterRest
      else if subtopic ≠ subtopict then false
      else isMatchFrom topicRest filterRest
    | (subtopict, none) => subtopict == wildcard
  | (subtopic, none) =>
    match cut slash filter with
    | (subtopict, some filterRest) =>
      if subtopic ≠ subtopict then false else filterRest == wildcard
    | (subtopict, none) => subtopict == wildcard || subtopict == wildcards || subtopic == subtopict
termination_by filter.length
decreasing_by all_goals exact length_lt_of_cut _h

def Topic.isMatch (p : Topic) (topicName : List UInt8) : Bool := isMatchFrom topicName p.topicName

/-- `match`. -/
def Topics.matchTopic (t : Topics) (type : UInt8) (topicName : List UInt8) : Option Topic :=
  if type ≠ MQTTSN_TOPIC_TYPE_NORMAL then none else t.first.find? (·.isMatch topicName)

/-! ## Level by level -/

/-- What `isMatch` does with the levels of the name and of the filter. -/
def matchLevels : List (List UInt8) → List (List UInt8) → Bool
  | [], _ => false
  | _ :: _, [] => false
  | [s], [t] => t == wildcard || t == wildcards || s == t
  | [s], t :: t' :: ts => s == t && t' :: ts == [wildcard]
  | _ :: _ :: _, [t] => t == wildcard
  | s :: s' :: ss, t :: t' :: ts =>
    if t = wildcard then true
    else if t = wildcards then matchLevels (s' :: ss) (t' :: ts)
    else s == t && matchLevels (s' :: ss) (t' :: ts)

theorem matchLevels_cons_cons {s t : List UInt8} {ss ts : List (List UInt8)} (hss : ss ≠ [])
    (hts : ts ≠ []) : matchLevels (s :: ss) (t :: ts) =
      if t = wildcard then true
      else if t = wildcards then matchLevels ss ts
      else s == t && matchLevels ss ts := by
  obtain ⟨s', ss', rfl⟩ := List.exists_cons_of_ne_nil hss
  obtain ⟨t', ts', rfl⟩ := List.exists_cons_of_ne_nil hts
  rw [matchLevels]

theorem matchLevels_cons_singleton {s t : List UInt8} {ss : List (List UInt8)} (hss : ss ≠ []) :
    matchLevels (s :: ss) [t] = (t == wildcard) := by
  obtain ⟨s', ss', rfl⟩ := List.exists_cons_of_ne_nil hss
  rw [matchLevels]

theorem matchLevels_singleton_cons {s t : List UInt8} {ts : List (List UInt8)} (hts : ts ≠ []) :
    matchLevels [s] (t :: ts) = (s == t && ts == [wildcard]) := by
  obtain ⟨t', ts', rfl⟩ := List.exists_cons_of_ne_nil hts
  rw [matchLevels]

/-- **The loop goes through the levels.** -/
theorem isMatchFrom_eq (topicName filter : List UInt8) :
    isMatchFrom topicName filter = matchLevels (levels slash topicName) (levels slash filter) := by
  fun_induction isMatchFrom topicName filter with
  | case1 topicName filter subtopic topicRest htopic filterRest hfilter =>
    rw [levels_of_cut_some htopic, levels_of_cut_some hfilter,
      matchLevels_cons_cons (levels_ne_nil _) (levels_ne_nil _), if_pos rfl]
  | case2 topicName filter subtopic topicRest htopic filterRest hfilter hne ih =>
    rw [levels_of_cut_some htopic, levels_of_cut_some hfilter,
      matchLevels_cons_cons (levels_ne_nil _) (levels_ne_nil _), if_neg hne, if_pos rfl, ih]
  | case3 topicName filter subtopic topicRest htopic subtopict filterRest hfilter hne hne' hlevel =>
    rw [levels_of_cut_some htopic, levels_of_cut_some hfilter,
      matchLevels_cons_cons (levels_ne_nil _) (levels_ne_nil _), if_neg hne, if_neg hne',
      beq_false_of_ne hlevel, Bool.false_and]
  | case4 topicName filter subtopic topicRest htopic subtopict filterRest hfilter hne hne' hlevel
      ih =>
    rw [levels_of_cut_some htopic, levels_of_cut_some hfilter,
      matchLevels_cons_cons (levels_ne_nil _) (levels_ne_nil _), if_neg hne, if_neg hne',
      not_ne_iff.mp hlevel, beq_self_eq_true, Bool.true_and, ih]
  | case5 topicName filter subtopic topicRest htopic subtopict hfilter =>
    rw [levels_of_cut_some htopic, levels_of_cut_none hfilter,
      matchLevels_cons_singleton (levels_ne_nil _)]
  | case6 topicName filter subtopic htopic subtopict filterRest hfilter hlevel =>
    rw [levels_of_cut_none htopic, levels_of_cut_some hfilter,
      matchLevels_singleton_cons (levels_ne_nil _), beq_false_of_ne hlevel, Bool.false_and]
  | case7 topicName filter subtopic htopic subtopict filterRest hfilter hlevel =>
    have hrest : (levels slash filterRest == [wildcard]) = (filterRest == wildcard) := by
      rw [Bool.eq_iff_iff, beq_iff_eq, beq_iff_eq]
      exact levels_eq_singleton_iff (by decide)
    rw [levels_of_cut_none htopic, levels_of_cut_some hfilter,
      matchLevels_singleton_cons (levels_ne_nil _), not_ne_iff.mp hlevel, beq_self_eq_true,
      Bool.true_and, hrest]
  | case8 topicName filter subtopic htopic subtopict hfilter =>
    rw [levels_of_cut_none htopic, levels_of_cut_none hfilter, matchLevels]

/-! ## The rules of MQTT -/

/-- The filter ends in `+/#`, and the name in the level of the `+`. -/
def ParentOfAny (ts ss : List (List UInt8)) : Prop :=
  ∃ front back s, ts = front ++ [wildcards, wildcard] ∧ ss = back ++ [s] ∧
    back.length = front.length ∧ s ≠ wildcards

theorem not_parentOfAny_singleton (t : List UInt8) (ss : List (List UInt8)) :
    ¬ParentOfAny [t] ss := by
  rintro ⟨front, back, s, hts, -⟩
  have hlen := congrArg List.length hts
  rw [List.length_append] at hlen
  simp at hlen

theorem parentOfAny_singleton_iff {s t : List UInt8} {ts : List (List UInt8)} :
    ParentOfAny (t :: ts) [s] ↔ t = wildcards ∧ ts = [wildcard] ∧ s ≠ wildcards := by
  constructor
  · rintro ⟨front, back, s', hts, hss, hlen, hs⟩
    have hback : back.length = 0 := by
      have h := congrArg List.length hss
      rw [List.length_append] at h
      exact (Nat.succ.inj h).symm
    rw [List.eq_nil_of_length_eq_zero hback] at hss
    rw [List.eq_nil_of_length_eq_zero (hlen.symm.trans hback)] at hts
    obtain ⟨rfl, rfl⟩ := List.cons.inj hts
    exact ⟨rfl, rfl, List.singleton_inj.mp hss ▸ hs⟩
  · rintro ⟨rfl, rfl, hs⟩
    exact ⟨[], [], s, rfl, rfl, rfl, hs⟩

theorem parentOfAny_cons_iff {s t : List UInt8} {ss ts : List (List UInt8)} (hss : ss ≠ []) :
    ParentOfAny (t :: ts) (s :: ss) ↔ ParentOfAny ts ss := by
  constructor
  · rintro ⟨front, back, s', hts, hss', hlen, hs⟩
    cases back with
    | nil => exact absurd (List.cons.inj hss').2 hss
    | cons b back =>
      cases front with
      | nil => exact absurd hlen (Nat.succ_ne_zero _)
      | cons f front =>
        exact ⟨front, back, s', (List.cons.inj hts).2, (List.cons.inj hss').2,
          Nat.succ.inj hlen, hs⟩
  · rintro ⟨front, back, s', rfl, rfl, hlen, hs⟩
    exact ⟨t :: front, s :: back, s', rfl, rfl, congrArg Nat.succ hlen, hs⟩

/-- The last level of a filter. -/
theorem matchLevels_singleton_iff {t : List UInt8} {ss : List (List UInt8)} (hss : ss ≠ []) :
    matchLevels ss [t] = true ↔ Matches wildcards wildcard [t] ss := by
  obtain ⟨s, ss, rfl⟩ := List.exists_cons_of_ne_nil hss
  by_cases ht : t = wildcard
  · subst ht
    refine iff_of_true ?_ (.multi _)
    cases ss with
    | nil => rfl
    | cons s' ss => exact matchLevels_cons_singleton (List.cons_ne_nil s' ss)
  · rw [matches_cons_iff ht]
    cases ss with
    | nil =>
      rw [matchLevels, beq_false_of_ne ht, Bool.false_or, Bool.or_eq_true, beq_iff_eq, beq_iff_eq,
        eq_comm (a := s)]
      exact (and_iff_left .nil).symm
    | cons s' ss =>
      rw [matchLevels_cons_singleton (List.cons_ne_nil s' ss), beq_iff_eq]
      refine iff_of_false ht fun h ↦ ?_
      cases h.2

/-- The levels of a filter that is in order, by induction on the filter. -/
theorem matchLevels_iff {ss ts : List (List UInt8)} (hss : ss ≠ []) (hts : ts ≠ [])
    (hwf : WellFormed wildcard ts) : matchLevels ss ts = true ↔
      Matches wildcards wildcard ts ss ∧ ¬ParentOfAny ts ss := by
  induction ts generalizing ss with
  | nil => exact absurd rfl hts
  | cons t ts ih =>
    cases ts with
    | nil =>
      rw [matchLevels_singleton_iff hss]
      exact (and_iff_left (not_parentOfAny_singleton t ss)).symm
    | cons t' ts =>
      obtain ⟨ht, hwf'⟩ := hwf.tail
      have hcons := List.cons_ne_nil t' ts
      obtain ⟨s, ss, rfl⟩ := List.exists_cons_of_ne_nil hss
      rw [matches_cons_iff ht]
      cases ss with
      | nil =>
        -- the name ends here: a `#` for no level is all that may follow
        rw [matchLevels_singleton_cons hcons, Bool.and_eq_true, beq_iff_eq, beq_iff_eq,
          matches_nil_right_iff hcons hwf', parentOfAny_singleton_iff]
        constructor
        · rintro ⟨rfl, hrest⟩
          exact ⟨⟨Or.inr rfl, hrest⟩, fun h ↦ h.2.2 h.1⟩
        · rintro ⟨⟨rfl | rfl, hrest⟩, hnot⟩
          · exact ⟨not_not.mp fun hs ↦ hnot ⟨rfl, hrest, hs⟩, hrest⟩
          · exact ⟨rfl, hrest⟩
      | cons s' ss =>
        have hss' := List.cons_ne_nil s' ss
        rw [matchLevels_cons_cons hss' hcons, if_neg ht, parentOfAny_cons_iff hss', and_assoc,
          ← ih hss' hcons hwf']
        by_cases hplus : t = wildcards
        · rw [if_pos hplus]
          exact (and_iff_right (Or.inl hplus)).symm
        · rw [if_neg hplus, Bool.and_eq_true, beq_iff_eq, eq_comm (a := s)]
          exact and_congr_left fun _ ↦ (or_iff_right hplus).symm

/-- **`isMatch` follows the rules of MQTT** for the two wildcards, but for names that end where a
filter has `+/#`. -/
theorem isMatch_iff (p : Topic) (topicName : List UInt8)
    (hwf : WellFormed wildcard (levels slash p.topicName)) : p.isMatch topicName = true ↔
      Matches wildcards wildcard (levels slash p.topicName) (levels slash topicName) ∧
        ¬ParentOfAny (levels slash p.topicName) (levels slash topicName) := by
  rw [Topic.isMatch, isMatchFrom_eq]
  exact matchLevels_iff (levels_ne_nil _) (levels_ne_nil _) hwf

/-- The filter `dev/+/#` has messages about `dev/a/b`, and none about `dev/a`. -/
theorem isMatch_iff_dev :
    let p : Topic := ⟨MQTTSN_TOPIC_TYPE_NORMAL, 1, Mqttsn.cstr "dev/+/#"⟩
    (p.isMatch (Mqttsn.cstr "dev/a") = true ↔
      Matches wildcards wildcard (levels slash p.topicName) (levels slash (Mqttsn.cstr "dev/a")) ∧
        ¬ParentOfAny (levels slash p.topicName) (levels slash (Mqttsn.cstr "dev/a"))) ∧
      matchLevels (levels slash (Mqttsn.cstr "dev/a")) (levels slash p.topicName) = false ∧
      matchLevels (levels slash (Mqttsn.cstr "dev/a/b")) (levels slash p.topicName) = true :=
  ⟨isMatch_iff _ _ (by decide), by decide, by decide⟩

end Emcs.Paho
