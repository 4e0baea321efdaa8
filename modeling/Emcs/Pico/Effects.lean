import Emcs.Pico.Client

/-!
# What the functions of the Pico client do

As for the Arduino: a packet wipes the topic table, completes at most one entry of it or leaves it
alone; it frees or marks pending messages or leaves them alone; and what it makes the client send is
no PUBLISH.

## How the lemmas are used

`udpRecv_rule` reduces a property of a received packet to its nine handlers, and all else about
packets follows from it. The lemmas on publishing, on the snapshot and on adding a topic say what
becomes of the entry or slot at a place. The invariants of later modules are about single entries
and slots, so each of them needs no more than these.
-/

namespace Emcs.Pico

open Bytes Mqttsn

/-! ## Packets -/

/-- **The packet rule**: what holds of every handler holds of a received packet. -/
theorem udpRecv_rule {P : Client × List Action → Prop} {c : Client} {rx : Rx} (hnone : P (c, []))
    (hpingresp : P (handlePingresp c (rx.clock 0), [])) (hconnack : P (handleConnack c rx.data, []))
    (hsuback : P (handleSuback c rx.data rx.clock, []))
    (hregack : P (handleRegack c rx.data (rx.data.getD 0 0) rx.clock, []))
    (hpublish : P (c, handlePublishReceived rx.data (rx.data.getD 0 0) rx.ok))
    (hpuback : rx.data.getD 1 0 = MQTTSN_MSG_TYPE_PUBACK → P (handlePubackReceived c rx.data, []))
    (hpubcomp : rx.data.getD 1 0 = MQTTSN_MSG_TYPE_PUBCOMP →
      P (handlePubcompReceived c rx.data, []))
    (hpubrec : rx.data.getD 1 0 = MQTTSN_MSG_TYPE_PUBREC →
      P (handlePubrecReceived c rx.data (rx.clock 0) rx.ok))
    (hpubrel : P (c, handlePubrelReceived rx.data rx.ok)) : P (udpRecvCallback c rx) := by
  unfold udpRecvCallback
  refine iteInduction (fun _ ↦ hnone) fun _ ↦ ?_
  refine iteInduction (fun _ ↦ hnone) fun _ ↦ ?_
  refine iteInduction (fun _ ↦ hpingresp) fun _ ↦ ?_
  refine iteInduction (fun _ ↦ hconnack) fun _ ↦ ?_
  refine iteInduction (fun _ ↦ hsuback) fun _ ↦ ?_
  refine iteInduction (fun _ ↦ hregack) fun _ ↦ ?_
  refine iteInduction (fun _ ↦ hpublish) fun _ ↦ ?_
  refine iteInduction hpuback fun _ ↦ ?_
  refine iteInduction hpubcomp fun _ ↦ ?_
  refine iteInduction hpubrec fun _ ↦ ?_
  exact iteInduction (fun _ ↦ hpubrel) fun _ ↦ hnone

/-! ## Packets and the topic table -/

/-- The handlers see this packet as an accepted CONNACK. -/
def Rx.acceptedConnack (rx : Rx) : Bool :=
  decide (MQTTSN_HEADER_SIZE ≤ rx.len) && rx.data.getD 1 0 == MQTTSN_MSG_TYPE_CONNACK &&
    rx.data.getD 2 0 == MQTTSN_RETURN_ACCEPTED

/-- What the handlers use of an accepted REGACK (`true`) or SUBACK (`false`): the topic id. -/
def Rx.topicAck (rx : Rx) : Option (Bool × UInt16) :=
  if rx.len < MQTTSN_HEADER_SIZE then none
  else if rx.data.getD 1 0 = MQTTSN_MSG_TYPE_SUBACK then
    if rx.data.getD 7 0 ≠ MQTTSN_RETURN_ACCEPTED then none
    else some (false, be16 (rx.data.getD 3 0) (rx.data.getD 4 0))
  else if rx.data.getD 1 0 = MQTTSN_MSG_TYPE_REGACK then
    if rx.data.getD 0 0 < 7 ∨ rx.data.getD 6 0 ≠ MQTTSN_RETURN_ACCEPTED then none
    else some (true, be16 (rx.data.getD 2 0) (rx.data.getD 3 0))
  else none

/-- The topic table after a packet. -/
def Rx.onTopics (rx : Rx) (v : Vector TopicEntry MAX_CUSTOM_TOPICS) :
    Vector TopicEntry MAX_CUSTOM_TOPICS :=
  if rx.acceptedConnack then Vector.replicate _ TopicEntry.zero
  else match rx.topicAck with
    | none => v
    | some (sender, tid) => completeTopic sender rx.clock tid v

/-- **What a packet does to the topic table.** -/
theorem customTopics_udpRecv (c : Client) (rx : Rx) :
    (udpRecvCallback c rx).1.customTopics = rx.onTopics c.customTopics := by
  rw [udpRecvCallback, Rx.onTopics, Rx.acceptedConnack, Rx.topicAck]
  by_cases hlen : rx.len < MQTTSN_HEADER_SIZE
  · rw [if_pos hlen, if_pos hlen, decide_eq_false (Nat.not_le.mpr hlen)]
    rfl
  rw [if_neg hlen, if_neg hlen, decide_eq_true (Nat.not_lt.mp hlen), Bool.true_and]
  generalize rx.data.getD 1 0 = mt
  by_cases hdrop : (c.dropAcks && isQosAck mt) = true
  · rw [if_pos hdrop]
    rw [Bool.and_eq_true, isQosAck_iff] at hdrop
    obtain ⟨-, rfl | rfl | rfl⟩ := hdrop <;> rfl
  rw [if_neg hdrop]
  by_cases h₀ : mt = MQTTSN_MSG_TYPE_PINGRESP
  · subst h₀
    rfl
  rw [if_neg h₀]
  by_cases h : mt = MQTTSN_MSG_TYPE_CONNACK
  · subst h
    rw [if_pos rfl, handleConnack, beq_self_eq_true, Bool.true_and]
    by_cases hrc : rx.data.getD 2 0 = MQTTSN_RETURN_ACCEPTED
    · rw [if_pos hrc, if_pos (beq_iff_eq.mpr hrc)]
    · rw [if_neg hrc, beq_false_of_ne hrc]
      rfl
  rw [if_neg h, beq_false_of_ne h, Bool.false_and, if_neg Bool.false_ne_true]
  by_cases h₁ : mt = MQTTSN_MSG_TYPE_SUBACK
  · rw [if_pos h₁, if_pos h₁, handleSuback]
    by_cases hrc : rx.data.getD 7 0 = MQTTSN_RETURN_ACCEPTED
    · rw [if_neg (not_not.mpr hrc), if_neg (not_not.mpr hrc)]
    · rw [if_pos hrc, if_pos hrc]
  rw [if_neg h₁, if_neg h₁]
  by_cases h₂ : mt = MQTTSN_MSG_TYPE_REGACK
  · rw [if_pos h₂, if_pos h₂, handleRegack]
    by_cases hshort : rx.data.getD 0 0 < 7
    · rw [if_pos hshort, if_pos (Or.inl hshort)]
    · by_cases hrc : rx.data.getD 6 0 = MQTTSN_RETURN_ACCEPTED
      · rw [if_neg hshort, if_neg (not_not.mpr hrc), if_neg (not_or.mpr ⟨hshort, not_not.mpr hrc⟩)]
      · rw [if_neg hshort, if_pos hrc, if_pos (Or.inr hrc)]
  rw [if_neg h₂, if_neg h₂]
  -- no other handler touches the table
  change _ = c.customTopics
  split
  · rfl
  split
  · rfl
  split
  · rfl
  split
  · rfl
  split <;> rfl

/-- The entry that an acknowledgement completes. -/
def Rx.picks (rx : Rx) (sender : Bool) (v : Vector TopicEntry MAX_CUSTOM_TOPICS) :
    Option (Fin MAX_CUSTOM_TOPICS) :=
  Slots.firstAt fun i ↦ v[i].matches sender (rx.clock i)

/-- A packet wipes an entry, leaves it alone, or completes it because it picks that. -/
theorem get_onTopics (rx : Rx) (v : Vector TopicEntry MAX_CUSTOM_TOPICS)
    (i : Fin MAX_CUSTOM_TOPICS) :
    rx.acceptedConnack = true ∧ (rx.onTopics v)[i] = TopicEntry.zero ∨
    rx.acceptedConnack = false ∧ ((rx.onTopics v)[i] = v[i] ∨
      ∃ sender tid, rx.topicAck = some (sender, tid) ∧ rx.picks sender v = some i ∧
        (rx.onTopics v)[i] = { v[i] with isRegistered := true, topicId := tid }) := by
  rw [Rx.onTopics]
  split
  · rename_i hconnack
    exact Or.inl ⟨hconnack, Vector.getElem_replicate _⟩
  rename_i hconnack
  refine Or.inr ⟨Bool.not_eq_true _ ▸ hconnack, ?_⟩
  split
  · exact Or.inl rfl
  · rename_i sender tid hack
    rw [completeTopic]
    split
    · exact Or.inl rfl
    · rename_i j hj
      by_cases hij : j = i
      · subst hij
        exact Or.inr ⟨sender, tid, hack, hj, Slots.get_set_self v j _⟩
      · exact Or.inl (Slots.get_set_of_ne v _ hij)

/-! ## Packets and the pending messages -/

/-- The pending messages after a packet. -/
def Rx.onPending (rx : Rx) (dropAcks : Bool) (v : Vector (QosMsg ℕ) MAX_PENDING_QOS_MSGS) :
    Vector (QosMsg ℕ) MAX_PENDING_QOS_MSGS :=
  if rx.len < MQTTSN_HEADER_SIZE ∨ dropAcks = true then v else onPacket rx.data (rx.clock 0) v

theorem handleSuback_frame (c : Client) (d : List UInt8) (clock : ℕ → ℕ) :
    (handleSuback c d clock).pendingMsgs = c.pendingMsgs ∧
      (handleSuback c d clock).nextMsgId = c.nextMsgId := by
  rw [handleSuback]
  split <;> exact ⟨rfl, rfl⟩

theorem handleRegack_frame (c : Client) (d : List UInt8) (length : UInt8) (clock : ℕ → ℕ) :
    (handleRegack c d length clock).pendingMsgs = c.pendingMsgs ∧
      (handleRegack c d length clock).nextMsgId = c.nextMsgId := by
  rw [handleRegack]
  split
  · exact ⟨rfl, rfl⟩
  · split <;> exact ⟨rfl, rfl⟩

/-- **What a packet does to the pending messages.** -/
theorem pendingMsgs_udpRecv (c : Client) (rx : Rx) :
    (udpRecvCallback c rx).1.pendingMsgs = rx.onPending c.dropAcks c.pendingMsgs := by
  rw [Rx.onPending]
  by_cases hlen : rx.len < MQTTSN_HEADER_SIZE
  · rw [if_pos (Or.inl hlen), udpRecvCallback, if_pos hlen]
  by_cases hack : isQosAck (rx.data.getD 1 0) = true
  · by_cases hdrop : c.dropAcks = true
    · rw [if_pos (Or.inr hdrop), udpRecvCallback, if_neg hlen,
        if_pos (Bool.and_eq_true_iff.mpr ⟨hdrop, hack⟩)]
    · rw [if_neg (not_or.mpr ⟨hlen, hdrop⟩), udpRecvCallback, if_neg hlen, hack,
        Bool.and_true, if_neg hdrop, onPacket, finishedId, receivedId]
      generalize rx.data.getD 1 0 = mt at hack
      rcases isQosAck_iff.mp hack with rfl | rfl | rfl <;> rfl
  · -- the handlers of other types do not touch the pending messages
    have hnot := fun {p : Prop} h ↦ absurd (b := p) (isQosAck_iff.mpr h) hack
    rw [onPacket_of_not_isQosAck hack, ite_self]
    exact udpRecv_rule (P := fun r ↦ r.1.pendingMsgs = c.pendingMsgs) rfl rfl rfl
      (handleSuback_frame c rx.data rx.clock).1
      (handleRegack_frame c rx.data (rx.data.getD 0 0) rx.clock).1 rfl (fun h ↦ hnot (Or.inl h))
      (fun h ↦ hnot (Or.inr (Or.inr h))) (fun h ↦ hnot (Or.inr (Or.inl h))) rfl

/-- No packet draws a message id. -/
theorem nextMsgId_udpRecv (c : Client) (rx : Rx) :
    (udpRecvCallback c rx).1.nextMsgId = c.nextMsgId :=
  udpRecv_rule (P := fun r ↦ r.1.nextMsgId = c.nextMsgId) rfl rfl rfl
    (handleSuback_frame c rx.data rx.clock).2
    (handleRegack_frame c rx.data (rx.data.getD 0 0) rx.clock).2 rfl (fun _ ↦ rfl) (fun _ ↦ rfl)
    (fun _ ↦ rfl) rfl

/-! ## Packets and the network -/

/-- None of the actions sends a PUBLISH. -/
def SendNoPublish (as : List Action) : Prop :=
  ∀ buf ok, Action.send buf ok ∈ as → buf.getD 1 0 ≠ MQTTSN_MSG_TYPE_PUBLISH

theorem sendNoPublish_nil : SendNoPublish [] := fun _ _ h ↦ absurd h List.not_mem_nil

theorem sendNoPublish_singleton {buf : List UInt8} {ok : Bool}
    (h : buf.getD 1 0 ≠ MQTTSN_MSG_TYPE_PUBLISH) : SendNoPublish [.send buf ok] := by
  intro buf' ok' hmem
  obtain ⟨rfl, -⟩ := Action.send.inj (List.mem_singleton.mp hmem)
  exact h

/-- The types of the packets that handlers send. -/
def ACK_TYPES : List UInt8 :=
  [MQTTSN_MSG_TYPE_PUBACK, MQTTSN_MSG_TYPE_PUBREC, MQTTSN_MSG_TYPE_PUBREL, MQTTSN_MSG_TYPE_PUBCOMP]

/-- What the actions send are acknowledgements of a QoS handshake. -/
def SendAcks (as : List Action) : Prop :=
  ∀ buf ok, Action.send buf ok ∈ as → buf.getD 1 0 ∈ ACK_TYPES

theorem sendAcks_nil : SendAcks [] := fun _ _ h ↦ absurd h List.not_mem_nil

theorem sendAcks_singleton {buf : List UInt8} {ok : Bool} (h : buf.getD 1 0 ∈ ACK_TYPES) :
    SendAcks [.send buf ok] := by
  intro buf' ok' hmem
  obtain ⟨rfl, -⟩ := Action.send.inj (List.mem_singleton.mp hmem)
  exact h

theorem sendAcks_handlePublish (d : List UInt8) (length : UInt8) (ok : Bool) :
    SendAcks (handlePublishReceived d length ok) := by
  have hled : ∀ {on : Bool} {as : List Action}, SendAcks as → SendAcks (Action.led on :: as) := by
    intro on as h buf ok' hmem
    rcases List.mem_cons.mp hmem with hmem | hmem
    · exact nomatch hmem
    · exact h buf ok' hmem
  have hack : ∀ qos topicId msgId, SendAcks (sendQosAck qos topicId msgId ok) := by
    have hpuback : MQTTSN_MSG_TYPE_PUBACK ∈ ACK_TYPES := by decide
    have hpubrec : MQTTSN_MSG_TYPE_PUBREC ∈ ACK_TYPES := by decide
    intro qos topicId msgId
    rw [sendQosAck]
    split
    · exact sendAcks_singleton hpuback
    split
    · exact sendAcks_singleton hpubrec
    · exact sendAcks_nil
  rw [handlePublishReceived]
  split
  · exact sendAcks_nil
  dsimp only
  split
  · exact hled (hack _ _ _)
  split
  · exact hled (hack _ _ _)
  · exact hack _ _ _

/-- **What a packet makes the client send**: acknowledgements. -/
theorem sendAcks_udpRecv (c : Client) (rx : Rx) : SendAcks (udpRecvCallback c rx).2 := by
  have hpubrel : MQTTSN_MSG_TYPE_PUBREL ∈ ACK_TYPES := by decide
  have hpubcomp : MQTTSN_MSG_TYPE_PUBCOMP ∈ ACK_TYPES := by decide
  exact udpRecv_rule (P := fun r ↦ SendAcks r.2) sendAcks_nil sendAcks_nil sendAcks_nil
    sendAcks_nil sendAcks_nil (sendAcks_handlePublish _ _ _) (fun _ ↦ sendAcks_nil)
    (fun _ ↦ sendAcks_nil) (fun _ ↦ sendAcks_singleton hpubrel) (sendAcks_singleton hpubcomp)

theorem sendNoPublish_udpRecv (c : Client) (rx : Rx) : SendNoPublish (udpRecvCallback c rx).2 := by
  intro buf ok hmem htype
  have hack := sendAcks_udpRecv c rx buf ok hmem
  rw [htype] at hack
  exact absurd hack (by decide)

theorem sendNoPublish_requestTopic (c : Client) (i : Fin MAX_CUSTOM_TOPICS) (msgId : UInt16)
    (ok : Bool) : SendNoPublish (requestTopic c i msgId ok) := by
  have hregister : MQTTSN_MSG_TYPE_REGISTER ≠ MQTTSN_MSG_TYPE_PUBLISH := by decide
  have hsubscribe : MQTTSN_MSG_TYPE_SUBSCRIBE ≠ MQTTSN_MSG_TYPE_PUBLISH := by decide
  rw [requestTopic]
  split
  · rw [mqttSnRegisterTopic]
    split
    · exact sendNoPublish_nil
    · exact sendNoPublish_singleton hregister
  · rw [mqttSnSubscribeTopicName]
    split
    · exact sendNoPublish_nil
    · exact sendNoPublish_singleton hsubscribe

/-! ## Publishing -/

theorem qos_of_tracked {p : Publish} {isRetransmit ok : Bool}
    (h : p.tracked isRetransmit ok = true) : 0 < p.qos ∧ p.qos ≤ 2 := by
  rw [Publish.tracked, Publish.accepted, Bool.and_eq_true, Bool.and_eq_true, Bool.and_eq_true,
    Bool.and_eq_true, Bool.and_eq_true] at h
  exact ⟨of_decide_eq_true h.1.2, of_decide_eq_true h.1.1.1.1.2⟩

/-! ## The snapshot of a check -/

theorem get_snapshot (c : Client) (now : ℕ) (stamp : ℕ → ℕ) (i : Fin MAX_PENDING_QOS_MSGS) :
    (snapshot c now stamp).1.pendingMsgs[i]
      = (c.pendingMsgs[i].retry (qosExpired now) (stamp i)).1 := by
  simp [snapshot, retrySlots]

theorem exists_of_mem_snapshot {c : Client} {now : ℕ} {stamp : ℕ → ℕ} {r : RetryEntry}
    (h : r ∈ (snapshot c now stamp).2) : ∃ i : Fin MAX_PENDING_QOS_MSGS,
      c.pendingMsgs[i].inUse = true ∧ r = RetryEntry.copy c.pendingMsgs[i] := by
  rw [snapshot, List.mem_filterMap] at h
  obtain ⟨m, hm, hr⟩ := h
  obtain ⟨i, hi, rfl⟩ := Vector.mem_iff_getElem.mp (Vector.mem_toList_iff.mp hm)
  rw [retrySlots, Vector.getElem_ofFn] at hr
  refine ⟨⟨i, hi⟩, ?_⟩
  generalize (⟨i, hi⟩ : Fin MAX_PENDING_QOS_MSGS) = j at hr ⊢
  obtain ⟨hretry, hr⟩ := Option.ite_none_right_eq_some.mp hr
  obtain ⟨huse, _, _, heq⟩ := QosMsg.of_inUse_retry (QosMsg.inUse_retry hretry)
  rw [heq] at hr
  exact ⟨huse, (Option.some.inj hr).symm⟩

/-! ## Adding topics -/

theorem get_addTopic (c : Client) (topicName : List UInt8) (fill : TopicEntry → TopicEntry)
    (i : Fin MAX_CUSTOM_TOPICS) :
    (addTopic c topicName fill).1.customTopics[i] = c.customTopics[i] ∨
      (addTopic c topicName fill).1.customTopics[i] = fill c.customTopics[i] := by
  rw [addTopic]
  split
  · exact Or.inl rfl
  split
  · exact Or.inl rfl
  · rename_i j hj
    by_cases hij : j = i
    · subst hij
      exact Or.inr (Slots.get_set_self c.customTopics j _)
    · exact Or.inl (Slots.get_set_of_ne c.customTopics _ hij)

theorem pendingMsgs_addTopic (c : Client) (topicName : List UInt8)
    (fill : TopicEntry → TopicEntry) :
    (addTopic c topicName fill).1.pendingMsgs = c.pendingMsgs := by
  rw [addTopic]
  split
  · rfl
  · split <;> rfl

end Emcs.Pico
