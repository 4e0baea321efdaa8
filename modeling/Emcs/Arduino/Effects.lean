import Emcs.Arduino.Loop
import Mathlib.Data.Fintype.EquivFin

/-!
# What the functions of the Arduino client do

Every function of `mqtt-sn-udp.cpp` touches the topic table, the table of pending messages and the
radio in few ways, and each way is said here once. A packet wipes the topic table (an accepted
CONNACK), completes at most one entry of it (an accepted REGACK or SUBACK), or leaves it alone; it
frees or marks pending messages (PUBACK, PUBCOMP, PUBREC), or leaves them alone; and it makes the
client send at most a PUBREL.
-/

namespace Emcs.Arduino

open Bytes Mqttsn

/-! ## Packets -/

/-- The handlers see a packet of this type. -/
def Rx.Is (rx : Rx) (mt : UInt8) : Prop :=
  ¬rx.length.toNat < MQTTSN_HEADER_SIZE ∧ rx.data.getD 1 0 = mt

theorem handleRegack_eq (c : Client) (d : List UInt8) (length : UInt8) :
    ∃ v, handleRegack c d length = { c with customTopics := v } := by
  rw [handleRegack]
  split
  · exact ⟨_, rfl⟩
  split
  · exact ⟨_, rfl⟩
  · exact ⟨_, rfl⟩

theorem handleSuback_eq (c : Client) (d : List UInt8) :
    ∃ v, handleSuback c d = { c with customTopics := v } := by
  rw [handleSuback]
  split
  · exact ⟨_, rfl⟩
  · exact ⟨_, rfl⟩

/-- **The packet rule**: what holds of every handler holds of a received packet. -/
theorem udpRecv_rule {P : Client × List Action → Prop} {c : Client} {rx : Rx} (hnone : P (c, []))
    (hconnack : rx.Is MQTTSN_MSG_TYPE_CONNACK → P (handleConnack c rx.data, []))
    (htopics : ∀ v, P ({ c with customTopics := v }, []))
    (hpuback : rx.Is MQTTSN_MSG_TYPE_PUBACK → P (handlePuback c rx.data, []))
    (hpubrec : rx.Is MQTTSN_MSG_TYPE_PUBREC → P (handlePubrec c rx.data rx.now))
    (hpubcomp : rx.Is MQTTSN_MSG_TYPE_PUBCOMP → P (handlePubcomp c rx.data, []))
    (hpubrel : rx.Is MQTTSN_MSG_TYPE_PUBREL → P (handlePubrel c rx.data, []))
    (hpublish : rx.Is MQTTSN_MSG_TYPE_PUBLISH → P (handlePublish c rx.data rx.length))
    (hpingresp : rx.Is MQTTSN_MSG_TYPE_PINGRESP → P (handlePingresp c rx.now, [])) :
    P (udpRecvCallbackArduino c rx) := by
  obtain ⟨v, hregack⟩ := handleRegack_eq c rx.data rx.length
  obtain ⟨v', hsuback⟩ := handleSuback_eq c rx.data
  unfold udpRecvCallbackArduino
  refine iteInduction (fun _ ↦ hnone) fun hlen ↦ ?_
  refine iteInduction (fun _ ↦ hnone) fun _ ↦ ?_
  refine iteInduction (fun h ↦ hconnack ⟨hlen, h⟩) fun _ ↦ ?_
  refine iteInduction (fun _ ↦ hregack ▸ htopics v) fun _ ↦ ?_
  refine iteInduction (fun _ ↦ hsuback ▸ htopics v') fun _ ↦ ?_
  refine iteInduction (fun h ↦ hpuback ⟨hlen, h⟩) fun _ ↦ ?_
  refine iteInduction (fun h ↦ hpubrec ⟨hlen, h⟩) fun _ ↦ ?_
  refine iteInduction (fun h ↦ hpubcomp ⟨hlen, h⟩) fun _ ↦ ?_
  refine iteInduction (fun h ↦ hpubrel ⟨hlen, h⟩) fun _ ↦ ?_
  refine iteInduction (fun h ↦ hpublish ⟨hlen, h⟩) fun _ ↦ ?_
  exact iteInduction (fun h ↦ hpingresp ⟨hlen, h⟩) fun _ ↦ hnone

/-! ## Packets and the topic table -/

/-- The handlers see this packet as an accepted CONNACK. -/
def Rx.acceptedConnack (rx : Rx) : Bool :=
  decide (MQTTSN_HEADER_SIZE ≤ rx.length.toNat) && rx.data.getD 1 0 == MQTTSN_MSG_TYPE_CONNACK &&
    rx.data.getD 2 0 == MQTTSN_RETURN_ACCEPTED

/-- What the handlers see of an accepted REGACK (`true`) or SUBACK (`false`): the message id and the
topic id. -/
def Rx.topicAck (rx : Rx) : Option (Bool × UInt16 × UInt16) :=
  if rx.length.toNat < MQTTSN_HEADER_SIZE then none
  else if rx.data.getD 1 0 = MQTTSN_MSG_TYPE_REGACK then
    if rx.length < 7 ∨ rx.data.getD 6 0 ≠ MQTTSN_RETURN_ACCEPTED then none
    else some (true, be16 (rx.data.getD 4 0) (rx.data.getD 5 0),
      be16 (rx.data.getD 2 0) (rx.data.getD 3 0))
  else if rx.data.getD 1 0 = MQTTSN_MSG_TYPE_SUBACK then
    if rx.data.getD 7 0 ≠ MQTTSN_RETURN_ACCEPTED then none
    else some (false, be16 (rx.data.getD 5 0) (rx.data.getD 6 0),
      be16 (rx.data.getD 3 0) (rx.data.getD 4 0))
  else none

/-- The topic table after a packet. -/
def Rx.onTopics (rx : Rx) (v : Vector TopicEntry MAX_CUSTOM_TOPICS) :
    Vector TopicEntry MAX_CUSTOM_TOPICS :=
  if rx.acceptedConnack then Vector.replicate _ TopicEntry.zero
  else match rx.topicAck with
    | none => v
    | some (sender, mid, tid) => completeTopic sender mid tid v

theorem handlePublish_frame (c : Client) (d : List UInt8) (length : UInt8) :
    (handlePublish c d length).1.customTopics = c.customTopics ∧
      (handlePublish c d length).1.pendingMsgs = c.pendingMsgs ∧
      (handlePublish c d length).1.nextMsgId = c.nextMsgId ∧
      (handlePublish c d length).1.pingAckReceived = c.pingAckReceived := by
  rw [handlePublish]
  split
  · exact ⟨rfl, rfl, rfl, rfl⟩
  · dsimp only
    split
    · exact ⟨rfl, rfl, rfl, rfl⟩
    · split <;> exact ⟨rfl, rfl, rfl, rfl⟩

/-- **What a packet does to the topic table.** -/
theorem customTopics_udpRecv (c : Client) (rx : Rx) :
    (udpRecvCallbackArduino c rx).1.customTopics = rx.onTopics c.customTopics := by
  rw [udpRecvCallbackArduino, Rx.onTopics, Rx.acceptedConnack, Rx.topicAck]
  by_cases hlen : rx.length.toNat < MQTTSN_HEADER_SIZE
  · rw [if_pos hlen, if_pos hlen, decide_eq_false (Nat.not_le.mpr hlen)]
    rfl
  rw [if_neg hlen, if_neg hlen, decide_eq_true (Nat.not_lt.mp hlen), Bool.true_and]
  generalize rx.data.getD 1 0 = mt
  by_cases hdrop : (c.dropAcks && isQosAck mt) = true
  · rw [if_pos hdrop]
    rw [Bool.and_eq_true, isQosAck_iff] at hdrop
    obtain ⟨-, rfl | rfl | rfl⟩ := hdrop <;> rfl
  rw [if_neg hdrop]
  by_cases h : mt = MQTTSN_MSG_TYPE_CONNACK
  · subst h
    rw [if_pos rfl, handleConnack, beq_self_eq_true, Bool.true_and]
    by_cases hrc : rx.data.getD 2 0 = MQTTSN_RETURN_ACCEPTED
    · rw [if_pos hrc, if_pos (beq_iff_eq.mpr hrc)]
    · rw [if_neg hrc, beq_false_of_ne hrc]
      rfl
  rw [if_neg h, beq_false_of_ne h, Bool.false_and, if_neg Bool.false_ne_true]
  by_cases h₁ : mt = MQTTSN_MSG_TYPE_REGACK
  · rw [if_pos h₁, if_pos h₁, handleRegack]
    by_cases hshort : rx.length < 7
    · rw [if_pos hshort, if_pos (Or.inl hshort)]
    · by_cases hrc : rx.data.getD 6 0 = MQTTSN_RETURN_ACCEPTED
      · rw [if_neg hshort, if_neg (not_not.mpr hrc), if_neg (not_or.mpr ⟨hshort, not_not.mpr hrc⟩)]
      · rw [if_neg hshort, if_pos hrc, if_pos (Or.inr hrc)]
  rw [if_neg h₁, if_neg h₁]
  by_cases h₂ : mt = MQTTSN_MSG_TYPE_SUBACK
  · rw [if_pos h₂, if_pos h₂, handleSuback]
    by_cases hrc : rx.data.getD 7 0 = MQTTSN_RETURN_ACCEPTED
    · rw [if_neg (not_not.mpr hrc), if_neg (not_not.mpr hrc)]
    · rw [if_pos hrc, if_pos hrc]
  rw [if_neg h₂, if_neg h₂]
  -- no other handler touches the table
  split
  · rfl
  split
  · rfl
  split
  · rfl
  split
  · rfl
  split
  · exact (handlePublish_frame c rx.data rx.length).1
  split <;> rfl

theorem customTopics_deliver (c : Client) (rxs : List Rx) :
    (deliver c rxs).1.customTopics = rxs.foldl (fun v rx ↦ rx.onTopics v) c.customTopics := by
  induction rxs generalizing c with
  | nil => rfl
  | cons rx rxs ih =>
    rw [deliver, ih, customTopics_udpRecv]
    rfl

theorem get_completeTopic (sender : Bool) (mid tid : UInt16)
    (v : Vector TopicEntry MAX_CUSTOM_TOPICS) (i : Fin MAX_CUSTOM_TOPICS) :
    (completeTopic sender mid tid v)[i] = v[i] ∨
      v[i].awaits sender mid = true ∧ (completeTopic sender mid tid v)[i]
        = { v[i] with isRegistered := true, topicId := tid, pendingMsgId := 0 } := by
  rw [completeTopic]
  split
  · exact Or.inl rfl
  · rename_i j hj
    by_cases hij : j = i
    · subst hij
      exact Or.inr ⟨Slots.of_first_eq_some hj, Slots.get_set_self v j _⟩
    · exact Or.inl (Slots.get_set_of_ne v _ hij)

theorem awaits_iff {sender : Bool} {mid : UInt16} {e : TopicEntry} : e.awaits sender mid = true ↔
    e.inUse = true ∧ e.isSender = sender ∧ e.isRegistered = false ∧ e.pendingMsgId = mid := by
  rw [TopicEntry.awaits, Bool.and_eq_true, Bool.and_eq_true, Bool.and_eq_true, beq_iff_eq,
    beq_iff_eq, Bool.not_eq_true', and_assoc, and_assoc]

/-- A packet wipes an entry, leaves it alone, or completes it because it waits for that. -/
theorem get_onTopics (rx : Rx) (v : Vector TopicEntry MAX_CUSTOM_TOPICS)
    (i : Fin MAX_CUSTOM_TOPICS) :
    rx.acceptedConnack = true ∧ (rx.onTopics v)[i] = TopicEntry.zero ∨
    rx.acceptedConnack = false ∧ ((rx.onTopics v)[i] = v[i] ∨
      ∃ sender mid tid, rx.topicAck = some (sender, mid, tid) ∧ v[i].awaits sender mid = true ∧
        (rx.onTopics v)[i]
          = { v[i] with isRegistered := true, topicId := tid, pendingMsgId := 0 }) := by
  rw [Rx.onTopics]
  split
  · rename_i hconnack
    exact Or.inl ⟨hconnack, Vector.getElem_replicate _⟩
  rename_i hconnack
  refine Or.inr ⟨Bool.not_eq_true _ ▸ hconnack, ?_⟩
  split
  · exact Or.inl rfl
  · rename_i sender mid tid hack
    rcases get_completeTopic sender mid tid v i with heq | ⟨hawaits, heq⟩
    · exact Or.inl heq
    · exact Or.inr ⟨sender, mid, tid, hack, hawaits, heq⟩

/-! ## Packets and the pending messages -/

/-- The pending messages after a packet. -/
def Rx.onPending (rx : Rx) (dropAcks : Bool) (v : Vector (QosMsg UInt32) MAX_PENDING_QOS_MSGS) :
    Vector (QosMsg UInt32) MAX_PENDING_QOS_MSGS :=
  if rx.length.toNat < MQTTSN_HEADER_SIZE ∨ dropAcks = true then v else onPacket rx.data rx.now v

/-- **What a packet does to the pending messages.** -/
theorem pendingMsgs_udpRecv (c : Client) (rx : Rx) :
    (udpRecvCallbackArduino c rx).1.pendingMsgs = rx.onPending c.dropAcks c.pendingMsgs := by
  rw [Rx.onPending]
  by_cases hlen : rx.length.toNat < MQTTSN_HEADER_SIZE
  · rw [if_pos (Or.inl hlen), udpRecvCallbackArduino, if_pos hlen]
  by_cases hack : isQosAck (rx.data.getD 1 0) = true
  · by_cases hdrop : c.dropAcks = true
    · rw [if_pos (Or.inr hdrop), udpRecvCallbackArduino, if_neg hlen,
        if_pos (Bool.and_eq_true_iff.mpr ⟨hdrop, hack⟩)]
    · rw [if_neg (not_or.mpr ⟨hlen, hdrop⟩), udpRecvCallbackArduino, if_neg hlen, hack,
        Bool.and_true, if_neg hdrop, onPacket, finishedId, receivedId]
      generalize rx.data.getD 1 0 = mt at hack
      rcases isQosAck_iff.mp hack with rfl | rfl | rfl <;> rfl
  · -- the handlers of other types do not touch the pending messages
    have hnot := fun {p : Prop} h ↦ absurd (b := p) (isQosAck_iff.mpr h) hack
    rw [onPacket_of_not_isQosAck hack, ite_self]
    exact udpRecv_rule (P := fun r ↦ r.1.pendingMsgs = c.pendingMsgs) rfl (fun _ ↦ rfl)
      (fun _ ↦ rfl) (fun h ↦ hnot (Or.inl h.2)) (fun h ↦ hnot (Or.inr (Or.inl h.2)))
      (fun h ↦ hnot (Or.inr (Or.inr h.2))) (fun _ ↦ rfl)
      (fun _ ↦ (handlePublish_frame c rx.data rx.length).2.1) fun _ ↦ rfl

/-- No packet draws a message id. -/
theorem nextMsgId_udpRecv (c : Client) (rx : Rx) :
    (udpRecvCallbackArduino c rx).1.nextMsgId = c.nextMsgId :=
  udpRecv_rule (P := fun r ↦ r.1.nextMsgId = c.nextMsgId) rfl (fun _ ↦ rfl) (fun _ ↦ rfl)
    (fun _ ↦ rfl) (fun _ ↦ rfl) (fun _ ↦ rfl) (fun _ ↦ rfl)
    (fun _ ↦ (handlePublish_frame c rx.data rx.length).2.2.1) fun _ ↦ rfl

/-- **What a packet makes the client send**: a PUBREL at most. -/
theorem actions_udpRecv (c : Client) (rx : Rx) : ∀ a ∈ (udpRecvCallbackArduino c rx).2,
    (∃ mid, a = .send (pubrelPacket mid)) ∨ ∃ msg, a = .showCmd msg := by
  have hnil : ∀ a ∈ ([] : List Action), (∃ mid, a = .send (pubrelPacket mid)) ∨
      ∃ msg, a = .showCmd msg := fun _ h ↦ absurd h List.not_mem_nil
  refine udpRecv_rule (P := fun r ↦ ∀ a ∈ r.2, (∃ mid, a = .send (pubrelPacket mid)) ∨
    ∃ msg, a = .showCmd msg) hnil (fun _ ↦ hnil) (fun _ ↦ hnil) (fun _ ↦ hnil) (fun _ a h ↦ ?_)
    (fun _ ↦ hnil) (fun _ ↦ hnil) (fun _ a h ↦ ?_) fun _ ↦ hnil
  · rw [handlePubrec, List.mem_singleton] at h
    exact Or.inl ⟨_, h⟩
  · rw [handlePublish] at h
    split at h
    · exact absurd h List.not_mem_nil
    · rw [List.mem_singleton] at h
      exact Or.inr ⟨_, h⟩

theorem deliver_invariant {P : Client → Prop}
    (hstep : ∀ c rx, P c → P (udpRecvCallbackArduino c rx).1) {c : Client} (hc : P c)
    (rxs : List Rx) : P (deliver c rxs).1 := by
  induction rxs generalizing c with
  | nil => exact hc
  | cons rx rxs ih => exact ih (hstep c rx hc)

theorem actions_deliver (c : Client) (rxs : List Rx) {a : Action} (h : a ∈ (deliver c rxs).2) :
    (∃ mid, a = .send (pubrelPacket mid)) ∨ ∃ msg, a = .showCmd msg := by
  induction rxs generalizing c with
  | nil => exact absurd h List.not_mem_nil
  | cons rx rxs ih =>
    rcases List.mem_append.mp h with h | h
    · exact actions_udpRecv c rx a h
    · exact ih _ h

/-! ## Publishing and the topic table -/

@[simp] theorem customTopics_publish (c : Client) (topicId : UInt16) (payload : List UInt8)
    (qos : ℤ)
    (msgId : UInt16) (isRetransmit : Bool) (now : UInt32) (ok : Bool) :
    (mqttSnPublishTopicId c topicId payload qos msgId isRetransmit now ok).1.customTopics
      = c.customTopics := by
  rw [mqttSnPublishTopicId]
  split
  · rfl
  dsimp only
  split
  · rfl
  split
  · rfl
  split <;> rfl

@[simp] theorem customTopics_publishAuto (c : Client) (topicId : UInt16) (payload : List UInt8)
    (qos : ℤ) (now : UInt32) (ok : Bool) :
    (mqttSnPublishTopicIdAuto c topicId payload qos now ok).1.customTopics = c.customTopics :=
  customTopics_publish _ topicId payload qos _ false now ok

/-- A publish takes a slot for its message, or leaves the pending messages alone. -/
theorem pendingMsgs_publish (c : Client) (topicId : UInt16) (payload : List UInt8) (qos : ℤ)
    (msgId : UInt16) (isRetransmit : Bool) (now : UInt32) (ok : Bool) :
    let r := mqttSnPublishTopicId c topicId payload qos msgId isRetransmit now ok
    r.1.pendingMsgs = c.pendingMsgs ∨ (0 < qos ∧ qos ≤ 2) ∧ r.1.pendingMsgs
      = storePending ⟨msgId, UInt8.ofNat qos.toNat, 0, now, 0, topicId,
          payload.take MQTTSN_RETRY_PAYLOAD_SIZE, true⟩ c.pendingMsgs := by
  intro r
  have hr : r = mqttSnPublishTopicId c topicId payload qos msgId isRetransmit now ok := rfl
  rw [hr, mqttSnPublishTopicId]
  split
  · exact Or.inl rfl
  rename_i hqos
  dsimp only
  split
  · exact Or.inl rfl
  split
  · exact Or.inl rfl
  split
  · rename_i htracked
    rw [Bool.and_eq_true, decide_eq_true_iff] at htracked
    exact Or.inr ⟨⟨htracked.1, Int.not_lt.mp (not_or.mp hqos).2⟩, rfl⟩
  · exact Or.inl rfl

/-! ## Publishing and the radio -/

theorem nextMsgId_publish (c : Client) (topicId : UInt16) (payload : List UInt8) (qos : ℤ)
    (msgId : UInt16) (isRetransmit : Bool) (now : UInt32) (ok : Bool) :
    (mqttSnPublishTopicId c topicId payload qos msgId isRetransmit now ok).1.nextMsgId
      = c.nextMsgId := by
  rw [mqttSnPublishTopicId]
  split
  · rfl
  dsimp only
  split
  · rfl
  split
  · rfl
  split <;> rfl

/-- A publish sends a PUBLISH, as far as its length as a byte reaches, and nothing else. -/
theorem actions_publish {c : Client} {topicId : UInt16} {payload : List UInt8} {qos : ℤ}
    {msgId : UInt16} {isRetransmit : Bool} {now : UInt32} {ok : Bool} {a : Action}
    (h : a ∈ (mqttSnPublishTopicId c topicId payload qos msgId isRetransmit now ok).2) :
    a = .send ((publishPacket topicId payload qos msgId).take
      ((MQTTSN_PUBLISH_HEADER_LEN + payload.length) % 256)) := by
  rw [mqttSnPublishTopicId] at h
  dsimp only at h
  split at h
  · exact absurd h List.not_mem_nil
  split at h
  · exact absurd h List.not_mem_nil
  split at h
  · exact List.mem_singleton.mp h
  split at h <;> exact List.mem_singleton.mp h

/-! ## The timeout check -/

theorem get_checkQosTimeouts (c : Client) (now : UInt32) (ok : Bool)
    (i : Fin MAX_PENDING_QOS_MSGS) : (checkQosTimeouts c now ok).1.pendingMsgs[i]
      = (c.pendingMsgs[i].retry (qosExpired now) now).1 := by
  simp [checkQosTimeouts]

theorem exists_of_mem_checkQosTimeouts {c : Client} {now : UInt32} {ok : Bool} {a : Action}
    (h : a ∈ (checkQosTimeouts c now ok).2) :
    ∃ i : Fin MAX_PENDING_QOS_MSGS, (c.pendingMsgs[i].retry (qosExpired now) now).2 = true ∧
      a ∈ resend c (c.pendingMsgs[i].retry (qosExpired now) now).1 now ok := by
  rw [checkQosTimeouts, List.mem_flatMap] at h
  obtain ⟨r, hr, ha⟩ := h
  obtain ⟨i, hi, rfl⟩ := Vector.mem_iff_getElem.mp (Vector.mem_toList_iff.mp hr)
  rw [Vector.getElem_map] at ha
  split at ha
  · exact ⟨⟨i, hi⟩, ‹_›, ha⟩
  · exact absurd ha List.not_mem_nil

/-! ## Registration -/

/-- The request sent for an entry. -/
def request (e : TopicEntry) (mid : UInt16) : List UInt8 :=
  if e.isSender then registerPacket mid e.topicName.val
  else subscribePacket e.qos mid e.topicName.val

/-- **What a registration pass does**: nothing, or an attempt for one entry and the wait after
it. -/
theorem mqttSnProcessTopicRegistrations_cases (c : Client) (now : UInt32) :
    (Slots.first (TopicEntry.due now) c.customTopics = none ∧
      ∀ reply, mqttSnProcessTopicRegistrations c now reply = (c, [])) ∨
    ∃ i, Slots.first (TopicEntry.due now) c.customTopics = some i ∧
      ∀ reply, mqttSnProcessTopicRegistrations c now reply = awaitReply (attempt c i now)
        (request c.customTopics[i] (attemptId c.customTopics[i] c.nextMsgId).1) reply := by
  cases hfirst : Slots.first (TopicEntry.due now) c.customTopics with
  | none =>
    refine Or.inl ⟨rfl, fun reply ↦ ?_⟩
    rw [mqttSnProcessTopicRegistrations, hfirst]
  | some i =>
    refine Or.inr ⟨i, rfl, fun reply ↦ ?_⟩
    rw [mqttSnProcessTopicRegistrations, hfirst, request]
    dsimp only
    by_cases hs : c.customTopics[i].isSender = true
    · rw [if_pos hs, if_pos hs, mqttSnRegisterTopic]
    · rw [if_neg hs, if_neg hs, mqttSnSubscribeTopicName]

theorem inUse_of_due {now : UInt32} {e : TopicEntry} (h : e.due now = true) :
    e.inUse = true ∧ e.isRegistered = false := by
  rw [TopicEntry.due, Bool.and_eq_true, Bool.and_eq_true, Bool.not_eq_true'] at h
  exact h.1

theorem get_attempt (c : Client) (i j : Fin MAX_CUSTOM_TOPICS) (now : UInt32) :
    (j = i ∧ (attempt c i now).customTopics[j] = { c.customTopics[i] with
      pendingMsgId := (attemptId c.customTopics[i] c.nextMsgId).1, lastAttemptMs := now }) ∨
    (attempt c i now).customTopics[j] = c.customTopics[j] := by
  by_cases hij : i = j
  · subst hij
    exact Or.inl ⟨rfl, Slots.get_set_self c.customTopics i _⟩
  · exact Or.inr (Slots.get_set_of_ne c.customTopics _ hij)

/-- Adding a topic fills a free entry, or leaves the table alone. -/
theorem get_addTopic (c : Client) (topicName : List UInt8) (fill : TopicEntry → TopicEntry)
    (i : Fin MAX_CUSTOM_TOPICS) :
    (addTopic c topicName fill).1.customTopics[i] = c.customTopics[i] ∨
      c.customTopics[i].inUse = false ∧
        (addTopic c topicName fill).1.customTopics[i] = fill c.customTopics[i] := by
  rw [addTopic]
  split
  · exact Or.inl rfl
  split
  · exact Or.inl rfl
  · rename_i j hj
    by_cases hij : j = i
    · subst hij
      have hfree := Slots.of_first_eq_some hj
      rw [Bool.not_eq_true'] at hfree
      exact Or.inr ⟨hfree, Slots.get_set_self c.customTopics j _⟩
    · exact Or.inl (Slots.get_set_of_ne c.customTopics _ hij)

/-- `add_all_topics` fills entries of the topic table, and touches nothing else. -/
theorem addAllTopics_eq (c : Client) : ∃ v, addAllTopics c = { c with customTopics := v } := by
  have hadd : ∀ (c : Client) (name : List UInt8) (fill : TopicEntry → TopicEntry),
      ∃ v, (addTopic c name fill).1 = { c with customTopics := v } := by
    intro c name fill
    rw [addTopic]
    split
    · exact ⟨_, rfl⟩
    split
    · exact ⟨_, rfl⟩
    · exact ⟨_, rfl⟩
  have hregistration : ∀ (c : Client) (name : List UInt8),
      ∃ v, (mqttSnAddTopicForRegistration c name).1 = { c with customTopics := v } := by
    intro c name
    rw [mqttSnAddTopicForRegistration]
    split
    · exact ⟨_, rfl⟩
    · exact hadd c name _
  have hsubscription : ∀ (c : Client) (name : List UInt8) (qos : UInt8),
      ∃ v, (mqttSnAddTopicForSubscription c name qos).1 = { c with customTopics := v } := by
    intro c name qos
    rw [mqttSnAddTopicForSubscription]
    split
    · exact ⟨_, rfl⟩
    split
    · exact ⟨_, rfl⟩
    · exact hadd c name _
  rw [addAllTopics]
  obtain ⟨v₁, h₁⟩ := hregistration c TOPIC_DATA_1
  obtain ⟨v₂, h₂⟩ := hregistration { c with customTopics := v₁ } TOPIC_DATA_2
  obtain ⟨v₃, h₃⟩ := hsubscription { c with customTopics := v₂ } TOPIC_CMD_1 1
  obtain ⟨v₄, h₄⟩ := hsubscription { c with customTopics := v₃ } TOPIC_CMD_2 2
  rw [h₁, h₂, h₃, h₄]
  exact ⟨v₄, rfl⟩

end Emcs.Arduino
