import Emcs.Arduino.Effects
import Emcs.Lib.Trace

/-!
# Adding topics

The topic table under everything that touches it: additions, packets, invalidation and registration
passes, in any order. The names in use are different from each other in every state, so after an
addition that reports success there is one entry of the name.

Both functions look for the name before they look for a free entry, and they report success for a
name that is there, whatever it was added for. So an addition decides role and QoS of a name only
when the name is new.

## The invariant

The names in use are different (`NamesDistinct`). Additions keep this because they look for the name
first; packets, invalidation and registration passes never change a name, and a wiped table has
none. With it, "the entry of the name" is well defined, and what an addition means can be said in
four clauses about one entry.
-/

namespace Emcs.Arduino

open Mqttsn Trace

/-- What happens to the topic table. -/
inductive TableOp where
  | register (topicName : List UInt8)
  | subscribe (topicName : List UInt8) (qos : UInt8)
  | packet (rx : Rx)
  | invalidate
  | process (now : UInt32) (reply : Option Rx)

def TableOp.step (c : Client) : TableOp → Client
  | .register topicName => (mqttSnAddTopicForRegistration c topicName).1
  | .subscribe topicName qos => (mqttSnAddTopicForSubscription c topicName qos).1
  | .packet rx => (udpRecvCallbackArduino c rx).1
  | .invalidate => mqttSnInvalidateAllTopics c
  | .process now reply => (mqttSnProcessTopicRegistrations c now reply).1

/-- The name of an entry in use. -/
def TopicEntry.name (e : TopicEntry) : Option (List UInt8) :=
  if e.inUse then some e.topicName.val else none

theorem name_eq_some_iff {e : TopicEntry} {s : List UInt8} :
    e.name = some s ↔ e.inUse = true ∧ e.topicName.val = s := by
  rw [TopicEntry.name, Option.ite_none_right_eq_some, Option.some_inj]

/-! ## One addition -/

/-- What a topic is added for. -/
inductive Role where
  | sender
  | subscriber (qos : UInt8)
  deriving DecidableEq

namespace Role

def ValidQos : Role → Prop
  | sender => True
  | subscriber qos => qos ≤ 2

/-- The entry has the role. -/
def Holds (e : TopicEntry) : Role → Prop
  | sender => e.isSender = true
  | subscriber qos => e.isSender = false ∧ e.qos = qos

/-- The function that adds a topic for the role. -/
def add (c : Client) (topicName : List UInt8) : Role → Client × Bool
  | sender => mqttSnAddTopicForRegistration c topicName
  | subscriber qos => mqttSnAddTopicForSubscription c topicName qos

/-- What the function makes of a free entry. -/
def fill (topicName : List UInt8) (e : TopicEntry) : Role → TopicEntry
  | sender => { e with
    topicName := TopicName.copy topicName, topicId := 0, pendingMsgId := 0,
    qos := 0, isRegistered := false, isSender := true, lastAttemptMs := 0, inUse := true }
  | subscriber qos => { e with
    topicName := TopicName.copy topicName, topicId := 0,
    qos := qos, isRegistered := false, isSender := false, lastAttemptMs := 0, inUse := true }

theorem add_eq {role : Role} (h : role.ValidQos) (c : Client) (topicName : List UInt8) :
    role.add c topicName = if !validName topicName then (c, false)
      else addTopic c topicName fun e ↦ role.fill topicName e := by
  cases role with
  | sender => rfl
  | subscriber qos => exact if_neg (UInt8.not_lt.mpr h)

theorem holds_fill (role : Role) (topicName : List UInt8) (e : TopicEntry) :
    role.Holds (role.fill topicName e) := by
  cases role with
  | sender => rfl
  | subscriber qos => exact ⟨rfl, rfl⟩

/-- The name that is stored is the name as far as the entry holds it. -/
theorem name_fill (role : Role) (topicName : List UInt8) (e : TopicEntry) :
    (role.fill topicName e).name = some (topicName.take (TOPIC_NAME_MAX_LEN - 1)) := by
  cases role with
  | sender => rfl
  | subscriber qos => rfl

end Role

/-- The search looks for the name as far as an entry holds it. -/
theorem matches_iff {e : TopicEntry} {topicName : List UInt8} :
    (e.inUse && sameName e.topicName.val topicName) = true ↔
      e.name = some (topicName.take (TOPIC_NAME_MAX_LEN - 1)) := by
  rw [Bool.and_eq_true, sameName, beq_iff_eq, List.take_of_length_le e.topicName.property,
    name_eq_some_iff]

/-- **What an addition does**: the name is there, or there is no room, or it takes a free entry. -/
theorem addTopic_cases (c : Client) (topicName : List UInt8) (fill : TopicEntry → TopicEntry) :
    let stored := topicName.take (TOPIC_NAME_MAX_LEN - 1)
    ((∃ i : Fin MAX_CUSTOM_TOPICS, c.customTopics[i].name = some stored) ∧
      addTopic c topicName fill = (c, true)) ∨
    ((∀ i : Fin MAX_CUSTOM_TOPICS, c.customTopics[i].name ≠ some stored) ∧
      (addTopic c topicName fill = (c, false) ∨
      ∃ i : Fin MAX_CUSTOM_TOPICS, c.customTopics[i].inUse = false ∧ addTopic c topicName fill =
        ({ c with customTopics :=
            c.customTopics.set i (fill c.customTopics[i]) i.isLt }, true))) := by
  intro stored
  rw [addTopic]
  split
  · rename_i hany
    obtain ⟨i, hi, h⟩ := Vector.any_eq_true.mp hany
    exact Or.inl ⟨⟨⟨i, hi⟩, matches_iff.mp h⟩, rfl⟩
  · rename_i hany
    refine Or.inr ⟨fun i h ↦ hany ?_, ?_⟩
    · exact Vector.any_eq_true.mpr ⟨i, i.isLt, matches_iff.mpr h⟩
    · split
      · exact Or.inl rfl
      · rename_i i hi
        have hfree := Slots.of_first_eq_some hi
        rw [Bool.not_eq_true'] at hfree
        exact Or.inr ⟨i, hfree, rfl⟩

/-! ## The names in use -/

/-- The invariant of the table: no two entries in use have the same name. -/
def NamesDistinct (c : Client) : Prop := Slots.Distinct TopicEntry.name c.customTopics

theorem namesDistinct_boot : NamesDistinct Client.boot := Slots.distinct_replicate rfl

theorem namesDistinct_addTopic {c : Client} (h : NamesDistinct c) (role : Role)
    (topicName : List UInt8) :
    NamesDistinct (addTopic c topicName fun e ↦ role.fill topicName e).1 := by
  rcases addTopic_cases c topicName fun e ↦ role.fill topicName e with
      ⟨-, heq⟩ | ⟨hfresh, heq | ⟨i, -, heq⟩⟩
  · rw [heq]
    exact h
  · rw [heq]
    exact h
  · rw [heq]
    exact Slots.Distinct.set h (role.name_fill topicName _) hfresh

theorem namesDistinct_packet {c : Client} (h : NamesDistinct c) (rx : Rx) :
    NamesDistinct (udpRecvCallbackArduino c rx).1 := by
  rw [NamesDistinct, customTopics_udpRecv]
  refine Slots.Distinct.mono h fun i ↦ ?_
  rcases get_onTopics rx c.customTopics i with ⟨-, heq⟩ | ⟨-, heq | ⟨_, _, _, -, -, heq⟩⟩
  · rw [heq]
    exact Or.inr rfl
  · rw [heq]
    exact Or.inl rfl
  · rw [heq]
    exact Or.inl rfl

theorem namesDistinct_attempt {c : Client} (h : NamesDistinct c) (i : Fin MAX_CUSTOM_TOPICS)
    (now : UInt32) : NamesDistinct (attempt c i now) := by
  refine Slots.Distinct.mono h fun j ↦ Or.inl ?_
  rcases get_attempt c i j now with ⟨rfl, heq⟩ | heq
  · rw [heq]
    rfl
  · rw [heq]

theorem namesDistinct_process {c : Client} (h : NamesDistinct c)
    (now : UInt32) (reply : Option Rx) :
    NamesDistinct (mqttSnProcessTopicRegistrations c now reply).1 := by
  rcases mqttSnProcessTopicRegistrations_cases c now with ⟨-, heq⟩ | ⟨i, -, heq⟩
  · rw [heq]
    exact h
  · rw [heq]
    exact deliver_invariant (P := NamesDistinct) (fun _ rx hc ↦ namesDistinct_packet hc rx)
      (namesDistinct_attempt h i now) reply.toList

theorem namesDistinct_add {c : Client} (h : NamesDistinct c)
    (role : Role) (topicName : List UInt8) :
    NamesDistinct (role.add c topicName).1 := by
  have hadd := namesDistinct_addTopic h role topicName
  cases role with
  | sender =>
    rw [Role.add, mqttSnAddTopicForRegistration]
    split
    · exact h
    · exact hadd
  | subscriber qos =>
    rw [Role.add, mqttSnAddTopicForSubscription]
    split
    · exact h
    split
    · exact h
    · exact hadd

/-- **The names in use stay different.** -/
theorem namesDistinct_step (c : Client) (op : TableOp) (h : NamesDistinct c) :
    NamesDistinct (op.step c) := by
  cases op with
  | register topicName => exact namesDistinct_add h .sender topicName
  | subscribe topicName qos => exact namesDistinct_add h (.subscriber qos) topicName
  | packet rx => exact namesDistinct_packet h rx
  | invalidate =>
    refine Slots.Distinct.mono h fun i ↦ Or.inl ?_
    rw [TableOp.step, mqttSnInvalidateAllTopics, Slots.getElem_fin, Vector.getElem_map]
    split <;> rfl
  | process now reply => exact namesDistinct_process h now reply

/-! ## What an addition means -/

/-- The table has one entry of the name in use. It has the role if the name is new; if it is not,
the addition changes nothing. -/
def Meant (c c' : Client) (topicName : List UInt8) (role : Role) : Prop :=
  ∃ i : Fin MAX_CUSTOM_TOPICS, c'.customTopics[i].name = some topicName ∧
    (∀ j : Fin MAX_CUSTOM_TOPICS, c'.customTopics[j].name = some topicName → j = i) ∧
    ((∀ j : Fin MAX_CUSTOM_TOPICS, c.customTopics[j].name ≠ some topicName) →
      role.Holds c'.customTopics[i]) ∧
    ((∃ j : Fin MAX_CUSTOM_TOPICS, c.customTopics[j].name = some topicName) → c' = c)

theorem meant_addTopic {c : Client} (h : NamesDistinct c) {topicName : List UInt8}
    (hlen : topicName.length < TOPIC_NAME_MAX_LEN) {role : Role}
    (htrue : (addTopic c topicName fun e ↦ role.fill topicName e).2 = true) :
    Meant c (addTopic c topicName fun e ↦ role.fill topicName e).1 topicName role := by
  have hdistinct := namesDistinct_addTopic h role topicName
  have htake : topicName.take (TOPIC_NAME_MAX_LEN - 1) = topicName :=
    List.take_of_length_le (Nat.le_sub_one_of_lt hlen)
  have hname := fun e ↦ role.name_fill topicName e
  have hcases := addTopic_cases c topicName fun e ↦ role.fill topicName e
  dsimp only at hcases
  rw [htake] at hname hcases
  rcases hcases with ⟨⟨i, hi⟩, heq⟩ | ⟨hfresh, heq | ⟨i, -, heq⟩⟩
  · rw [heq] at hdistinct ⊢
    exact ⟨i, hi, fun j hj ↦ hdistinct j i topicName hj hi,
      fun hnew ↦ absurd hi (hnew i), fun _ ↦ rfl⟩
  · rw [heq] at htrue
    exact absurd htrue Bool.false_ne_true
  · rw [heq] at hdistinct ⊢
    have hget := Slots.get_set_self c.customTopics i (role.fill topicName c.customTopics[i])
    have hi : (c.customTopics.set i (role.fill topicName c.customTopics[i]) i.isLt)[i].name
        = some topicName := by
      rw [hget]
      exact hname _
    refine ⟨i, hi, fun j hj ↦ hdistinct j i topicName hj hi, fun _ ↦ ?_, ?_⟩
    · rw [show Client.customTopics _ = c.customTopics.set i _ i.isLt from rfl, hget]
      exact role.holds_fill topicName _
    · rintro ⟨j, hj⟩
      exact absurd hj (hfresh j)

/-- **What adding a topic means**, in every state of the table. An empty name and a name of 24 or
more characters are refused; a name that is accepted has one entry, in the requested role if it is
new. -/
theorem add_means (ops : List TableOp) {topicName : List UInt8} {role : Role} (hqos : role.ValidQos)
    (hlen : 24 ≤ topicName.length → topicName.length % 256 = 0 ∨ 24 ≤ topicName.length % 256) :
    let c := run TableOp.step Client.boot ops
    (topicName.length = 0 ∨ 24 ≤ topicName.length → role.add c topicName = (c, false)) ∧
      ((role.add c topicName).2 = true → Meant c (role.add c topicName).1 topicName role) := by
  intro c
  have hdistinct : NamesDistinct c :=
    run_invariant' (fun c op h ↦ namesDistinct_step c op h) ops namesDistinct_boot
  have hrefused : topicName.length = 0 ∨ 24 ≤ topicName.length →
      role.add c topicName = (c, false) := by
    intro h
    have hinvalid : validName topicName = false := by
      have hbyte : topicName.length % 256 = 0 ∨ 24 ≤ topicName.length % 256 := by omega
      rw [validName, Bool.and_eq_false_iff]
      rcases hbyte with hzero | hlong
      · exact Or.inl (bne_eq_false_iff_eq.mpr hzero)
      · exact Or.inr (decide_eq_false (Nat.not_lt.mpr hlong))
    rw [Role.add_eq hqos, hinvalid]
    rfl
  refine ⟨hrefused, fun htrue ↦ ?_⟩
  have hshort : topicName.length < TOPIC_NAME_MAX_LEN := by
    by_contra hlong
    rw [hrefused (Or.inr (Nat.not_lt.mp hlong))] at htrue
    exact absurd htrue Bool.false_ne_true
  rw [Role.add_eq hqos] at htrue ⊢
  split at htrue
  · exact absurd htrue Bool.false_ne_true
  · rename_i hvalid
    rw [if_neg hvalid]
    exact meant_addTopic hdistinct hshort htrue

/-- A subscription beside the name of a sender, which has been sent to the gateway. -/
theorem add_means_subscription :
    let c := run TableOp.step Client.boot [.register TOPIC_DATA_1, .process 5000 none]
    Meant c (mqttSnAddTopicForSubscription c TOPIC_CMD_1 1).1 TOPIC_CMD_1 (.subscriber 1) := by
  have hqos : (Role.subscriber 1).ValidQos := show (1 : UInt8) ≤ 2 by decide
  have hshort : ¬24 ≤ TOPIC_CMD_1.length := by decide +kernel
  refine (add_means [.register TOPIC_DATA_1, .process 5000 none] hqos
    (fun h ↦ absurd h hshort)).2 ?_
  decide +kernel

/-- The name of a sender reports success as a subscription, and its entry stays that of a sender. -/
theorem add_existing_name :
    let c := run TableOp.step Client.boot [.register TOPIC_DATA_1]
    let r := mqttSnAddTopicForSubscription c TOPIC_DATA_1 1
    r.2 = true ∧ ¬∃ i : Fin MAX_CUSTOM_TOPICS, r.1.customTopics[i].name = some TOPIC_DATA_1 ∧
      (Role.subscriber 1).Holds r.1.customTopics[i] := by
  have hsender : ∀ i : Fin MAX_CUSTOM_TOPICS,
      (mqttSnAddTopicForSubscription (run TableOp.step Client.boot [.register TOPIC_DATA_1])
        TOPIC_DATA_1 1).1.customTopics[i].name = some TOPIC_DATA_1 →
      (mqttSnAddTopicForSubscription (run TableOp.step Client.boot [.register TOPIC_DATA_1])
        TOPIC_DATA_1 1).1.customTopics[i].isSender = true := by
    decide +kernel
  refine ⟨by decide +kernel, ?_⟩
  rintro ⟨i, hname, hrole, -⟩
  exact Bool.false_ne_true (hrole.symm.trans (hsender i hname))

end Emcs.Arduino
