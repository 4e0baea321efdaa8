import Emcs.Pico.Machine

/-!
# Which topic an acknowledgement completes

The client of the Pico does not look at the message id of a REGACK or SUBACK. It completes the first
entry of the role that is not registered and was attempted less than two seconds ago, and a
registration pass attempts all its entries at once. So the topic ids agree with the gateway in
exactly the runs in which every acknowledgement finds, first of all, an entry for the topic that it
answers.

## The invariant

`TopicsAgree` says of the table that no topic has the id that the gateway gave to another name, in
an entry or when it is looked up. An acknowledgement keeps it exactly if the entry it completes is
for the topic it answers, or there is none; every other event keeps it, because nothing else writes
an id. The equivalence for runs follows from the one for a step, since a wrong id shows at once.
-/

namespace Emcs.Pico

open Bytes Mqttsn

/-! ## The gateway and the channel -/

/-- The requests that went out. -/
def State.requests (s : State) : List Request := s.sent.filterMap Request.parse

variable (assign : Assignment)

/-- A packet that cannot arrive does not. -/
def State.arrives (s : State) : Event → Bool
  | .receive rx => deliverable assign s.requests rx.data rx.len
  | _ => true

def State.gatewayStep (s : State) (e : Event) : State :=
  if s.arrives assign e then s.step e else s

/-- The entry has no other topic's id. -/
def TopicEntry.Agrees (e : TopicEntry) : Prop :=
  e.inUse = true → e.isRegistered = true → e.topicId = assign e.topicName.val

/-- No topic has another topic's id, in the table or looked up. -/
structure TopicsAgree (c : Client) : Prop where
  entry : ∀ i : Fin MAX_CUSTOM_TOPICS, c.customTopics[i].Agrees assign
  lookup : ∀ topicName, mqttSnGetTopicId c topicName = 0 ∨
    mqttSnGetTopicId c topicName = assign topicName

/-- An accepted acknowledgement finds first of all, if it finds one, an entry for the topic that it
answers, or for one with the same id. -/
def FindsOwnTopic (s : State) : Event → Prop
  | .receive rx => ∀ r ∈ s.requests, r.answeredBy assign rx.data rx.len = true →
      ∀ tid, rx.topicAck = some (r.sender, tid) →
      ∀ i, rx.picks r.sender s.client.customTopics = some i →
        assign s.client.customTopics[i].topicName.val = assign r.topicName
  | _ => True

variable {assign}

/-! ## Acknowledgements -/

/-- An accepted acknowledgement has the type of its role and shows its topic id. -/
theorem of_topicAck {rx : Rx} {sender : Bool} {tid : UInt16}
    (h : rx.topicAck = some (sender, tid)) :
    sender = true ∧ rx.data.getD 1 0 = MQTTSN_MSG_TYPE_REGACK ∧
      be16 (rx.data.getD 2 0) (rx.data.getD 3 0) = tid ∨
    sender = false ∧ rx.data.getD 1 0 = MQTTSN_MSG_TYPE_SUBACK ∧
      be16 (rx.data.getD 3 0) (rx.data.getD 4 0) = tid := by
  rw [Rx.topicAck] at h
  split at h
  · contradiction
  split at h
  · split at h
    · contradiction
    · obtain ⟨rfl, rfl⟩ := Option.some.inj h
      exact Or.inr ⟨rfl, ‹_›, rfl⟩
  split at h
  · split at h
    · contradiction
    · obtain ⟨rfl, rfl⟩ := Option.some.inj h
      exact Or.inl ⟨rfl, ‹_›, rfl⟩
  · contradiction

/-- **An acknowledgement that arrives carries the id of the topic that it answers.** -/
theorem topicAck_of_deliverable {rx : Rx} {requests : List Request} {sender : Bool} {tid : UInt16}
    (h : deliverable assign requests rx.data rx.len = true)
    (hack : rx.topicAck = some (sender, tid)) :
    ∃ r ∈ requests, r.answeredBy assign rx.data rx.len = true ∧ r.sender = sender ∧
      assign r.topicName = tid := by
  have hne : MQTTSN_MSG_TYPE_REGACK ≠ MQTTSN_MSG_TYPE_SUBACK := by decide
  rcases of_topicAck hack with ⟨rfl, htype, htid⟩ | ⟨rfl, htype, htid⟩
  · obtain ⟨r, hr, hans⟩ := exists_of_deliverable h (Or.inl htype)
    refine ⟨r, hr, hans, ?_⟩
    cases hs : r.sender with
    | true => exact ⟨rfl, (r.answeredBy_regack hans hs).2.1.symm.trans htid⟩
    | false => exact absurd (htype.symm.trans (r.answeredBy_suback hans hs).1) hne
  · obtain ⟨r, hr, hans⟩ := exists_of_deliverable h (Or.inr htype)
    refine ⟨r, hr, hans, ?_⟩
    cases hs : r.sender with
    | true => exact absurd ((r.answeredBy_regack hans hs).1.symm.trans htype) hne
    | false => exact ⟨rfl, (r.answeredBy_suback hans hs).2.1.symm.trans htid⟩

theorem tid_of_answeredBy {rx : Rx} {r : Request} {tid : UInt16}
    (hans : r.answeredBy assign rx.data rx.len = true)
    (hack : rx.topicAck = some (r.sender, tid)) : assign r.topicName = tid := by
  rcases of_topicAck hack with ⟨hs, -, htid⟩ | ⟨hs, -, htid⟩
  · exact (r.answeredBy_regack hans hs).2.1.symm.trans htid
  · exact (r.answeredBy_suback hans hs).2.1.symm.trans htid

theorem get_onTopics_of_picks {rx : Rx} {v : Vector TopicEntry MAX_CUSTOM_TOPICS} {sender : Bool}
    {tid : UInt16} (hack : rx.topicAck = some (sender, tid)) {i : Fin MAX_CUSTOM_TOPICS}
    (hpick : rx.picks sender v = some i) :
    (rx.onTopics v)[i] = { v[i] with isRegistered := true, topicId := tid } := by
  have hconnack : rx.acceptedConnack = false := by
    have htype : rx.data.getD 1 0 ≠ MQTTSN_MSG_TYPE_CONNACK := by
      rcases of_topicAck hack with ⟨-, htype, -⟩ | ⟨-, htype, -⟩
      · exact htype ▸ by decide
      · exact htype ▸ by decide
    rw [Rx.acceptedConnack, beq_false_of_ne htype, Bool.and_false, Bool.false_and]
  rw [Rx.onTopics, hconnack, if_neg Bool.false_ne_true, hack]
  rw [Rx.picks] at hpick
  simp only [completeTopic, hpick]
  exact Slots.get_set_self v i _

/-! ## The table -/

theorem agrees_of_not_complete {e : TopicEntry} (h : (e.inUse && e.isRegistered) = false) :
    e.Agrees assign := by
  intro huse hreg
  rw [huse, hreg] at h
  exact absurd h.symm Bool.false_ne_true

theorem agrees_addTopic {c : Client} {topicName : List UInt8} {fill : TopicEntry → TopicEntry}
    (hfill : ∀ e, (fill e).isRegistered = false) {i : Fin MAX_CUSTOM_TOPICS}
    (h : c.customTopics[i].Agrees assign) :
    (addTopic c topicName fill).1.customTopics[i].Agrees assign := by
  rcases get_addTopic c topicName fill i with heq | heq
  · exact heq ▸ h
  · refine agrees_of_not_complete ?_
    rw [heq, hfill, Bool.and_false]

theorem agrees_attempt {c : Client} {i j : Fin MAX_CUSTOM_TOPICS} (now : ℕ)
    (h : c.customTopics[j].Agrees assign) :
    (attempt c i now).customTopics[j].Agrees assign := by
  by_cases hij : i = j
  · subst hij
    have hset : (attempt c i now).customTopics[i] = { c.customTopics[i] with lastAttempt := now } :=
      Slots.get_set_self c.customTopics i _
    rw [hset]
    exact h
  · have hset : (attempt c i now).customTopics[j] = c.customTopics[j] :=
      Slots.get_set_of_ne c.customTopics _ hij
    rw [hset]
    exact h

/-- No part of a function of the main loop breaks the agreement. -/
theorem agrees_exec {s : Control} {e : Event} (he : ∀ rx, e ≠ .receive rx)
    {i : Fin MAX_CUSTOM_TOPICS} (h : s.client.customTopics[i].Agrees assign) :
    (s.exec e).1.client.customTopics[i].Agrees assign := by
  unfold Control.exec
  split
  · exact absurd rfl (he _)
  · exact h
  · rw [mqttSnAddTopicForRegistration]
    split
    · exact h
    · exact agrees_addTopic (fun _ ↦ rfl) h
  · rw [mqttSnAddTopicForSubscription]
    split
    · exact h
    split
    · exact h
    · exact agrees_addTopic (fun _ ↦ rfl) h
  · simp only [mqttSnInvalidateAllTopics, Slots.getElem_fin, Vector.getElem_map]
    split
    · exact agrees_of_not_complete (Bool.and_false _)
    · exact h
  · exact h
  · exact h
  · exact h
  · exact h
  · exact h
  · exact h
  · exact h
  · split
    · exact agrees_attempt _ h
    · exact h
  · exact h
  · exact h

theorem topicsAgree_of_entries {c : Client}
    (h : ∀ i : Fin MAX_CUSTOM_TOPICS, c.customTopics[i].Agrees assign) : TopicsAgree assign c := by
  refine ⟨h, fun topicName ↦ ?_⟩
  rw [mqttSnGetTopicId]
  split
  · exact Or.inl rfl
  · rename_i i hi
    have hfound := Slots.of_first_eq_some hi
    rw [Bool.and_eq_true, Bool.and_eq_true, beq_iff_eq] at hfound
    obtain ⟨⟨huse, hreg⟩, rfl⟩ := hfound
    exact Or.inr (h i huse hreg)

/-! ## Runs -/

theorem topicsAgree_boot : TopicsAgree assign State.boot.client := by
  refine topicsAgree_of_entries fun i ↦ agrees_of_not_complete ?_
  simp only [State.boot, Client.boot, Slots.getElem_fin, Vector.getElem_replicate]
  rfl

/-- **The step rule**: an acknowledgement that finds its own topic keeps the agreement. -/
theorem TopicsAgree.step {s : State} (h : TopicsAgree assign s.client) {e : Event}
    (hfinds : FindsOwnTopic assign s e) : TopicsAgree assign (s.gatewayStep assign e).client := by
  by_cases harrives : s.arrives assign e = true
  swap
  · rw [State.gatewayStep, if_neg harrives]
    exact h
  rw [State.gatewayStep, if_pos harrives]
  refine topicsAgree_of_entries fun i ↦ ?_
  by_cases he : ∃ rx, e = .receive rx
  swap
  · exact agrees_exec (fun rx hrx ↦ he ⟨rx, hrx⟩) (h.entry i)
  obtain ⟨rx, rfl⟩ := he
  change (udpRecvCallback s.client rx).1.customTopics[i].Agrees assign
  rw [customTopics_udpRecv]
  rcases get_onTopics rx s.client.customTopics i with
      ⟨-, heq⟩ | ⟨-, heq | ⟨sender, tid, hack, hpick, heq⟩⟩
  · rw [heq]
    exact agrees_of_not_complete rfl
  · rw [heq]
    exact h.entry i
  · obtain ⟨r, hr, hans, rfl, rfl⟩ := topicAck_of_deliverable harrives hack
    rw [heq]
    exact fun _ _ ↦ (hfinds r hr hans _ hack i hpick).symm

/-- An acknowledgement that finds another topic's entry breaks it. -/
theorem findsOwnTopic_of_topicsAgree {s : State} {e : Event}
    (h : TopicsAgree assign (s.gatewayStep assign e).client) : FindsOwnTopic assign s e := by
  cases e with
  | receive rx =>
    intro r hr hans tid hack i hpick
    have harrives : s.arrives assign (.receive rx) = true := by
      rw [State.arrives, deliverable, Bool.or_eq_true]
      exact Or.inr (List.any_eq_true.mpr ⟨r, hr, hans⟩)
    rw [State.gatewayStep, if_pos harrives] at h
    have hentry := h.entry i
    change (udpRecvCallback s.client rx).1.customTopics[i].Agrees assign at hentry
    rw [customTopics_udpRecv, get_onTopics_of_picks hack hpick] at hentry
    have hmatch := Slots.of_firstAt_eq_some hpick
    rw [TopicEntry.matches, Bool.and_eq_true, Bool.and_eq_true, Bool.and_eq_true] at hmatch
    exact (hentry hmatch.1.1.1 rfl).symm.trans (tid_of_answeredBy hans hack).symm
  | _ => trivial

/-- **Topic ids agree with the gateway** in exactly the runs in which every acknowledgement finds
its own topic. -/
theorem topicsAgree_iff (assign : Assignment) (es : List Event) :
    Trace.Always (State.gatewayStep assign)
        (fun s e ↦ TopicsAgree assign (s.gatewayStep assign e).client) State.boot es ↔
      Trace.Always (State.gatewayStep assign) (FindsOwnTopic assign) State.boot es := by
  constructor
  · exact fun h ↦ h.mono fun s e ↦ findsOwnTopic_of_topicsAgree
  · exact Trace.always_of_invariant (P := fun s ↦ TopicsAgree assign s.client)
      (fun s e hs hfinds ↦ hs.step hfinds) (fun s e hs hfinds ↦ hs.step hfinds) topicsAgree_boot

/-! ## Two topics in one pass -/

/-- Two topics are asked for in one pass, one second after boot. -/
def asksForTwo : List Event :=
  [.addForRegistration (cstr "sensors/data"), .addForRegistration (cstr "sensors/cmd"),
    .processRegistrations 1000000, .attempt, .request true, .attempt, .request true]

/-- The answer to the second request. -/
def secondRegack : Rx where
  data := regackPacket (byLength (cstr "sensors/cmd")) 2 MQTTSN_RETURN_ACCEPTED
  len := 7
  clock := fun _ ↦ 1100000
  ok := true

/-- **The second answer arrives first**, and the first topic gets the id of the second. -/
theorem second_regack_completes_first :
    ¬Trace.Always (State.gatewayStep byLength)
      (fun s e ↦ TopicsAgree byLength (s.gatewayStep byLength e).client) State.boot
      (asksForTwo ++ [.receive secondRegack]) := by
  intro h
  have hentry := h.at.entry ⟨0, by decide⟩
  have hid := hentry (by decide +kernel) (by decide +kernel)
  exact absurd hid (by decide +kernel)

end Emcs.Pico
