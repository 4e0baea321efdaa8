import Emcs.System.Station

/-!
# What the sketch sends

The functions of the client that the `switch` of `loop` calls, one after the other, and the `switch`
itself: each keeps a station in order.

A reading fits the send buffer if the client id has at most 10 characters, as those of the sketch
have. Message ids are not drawn twice as long as less than 65534 have been drawn.

## The proof

The `switch` calls a few functions one after the other. Each is a step of the station with the ids
drawn and the datagrams sent in it, and such steps can be put together (`after_after`). The one
place where a topic id gets into a datagram is the publish of a reading, which takes it from an
entry of the table that is complete, or takes 0.
-/

namespace Emcs.System

open Bytes Mqttsn Arduino

variable {known : UInt16 → List UInt8 → Prop} {clientId : List UInt8}

theorem length_cstr (s : String) : (cstr s).length = s.length := by
  rw [cstr, List.length_map, String.length_toList]

/-- A reading fits the buffer that it is sent from, and the slot in which it waits. -/
theorem length_reading_le (hid : clientId.length ≤ 10) (count : UInt16) :
    (reading clientId count).length ≤ MQTTSN_RETRY_PAYLOAD_SIZE := by
  have hdigits : (toString count.toNat).length ≤ 5 :=
    (Nat.length_repr_le_iff (by decide)).mpr (count.toNat_lt.trans (by decide))
  have hspace : (cstr " ").length = 1 := by decide
  rw [reading, List.length_take, List.length_append, List.length_append, length_cstr (toString _),
    hspace]
  change min 47 _ ≤ 16
  omega

/-- The id under which the sketch publishes is the one of the topic, or none. -/
theorem names_getTopicId {c : Client} (h : ∀ i : Fin MAX_CUSTOM_TOPICS,
      c.customTopics[i].complete = true →
        Names known c.customTopics[i].topicId c.customTopics[i].topicName.val)
    {topicName : List UInt8} (hlen : topicName.length ≤ TOPIC_NAME_MAX_LEN - 1) :
    Names known (mqttSnGetTopicId c topicName) topicName := by
  rw [mqttSnGetTopicId]
  split
  · exact Or.inl rfl
  · rename_i i hi
    have hfound := Slots.of_first_eq_some hi
    rw [Bool.and_eq_true] at hfound
    have hname : c.customTopics[i].topicName.val = topicName := by
      have hsame := hfound.2
      rw [sameName, beq_iff_eq, List.take_of_length_le hlen,
        List.take_of_length_le c.customTopics[i].topicName.property] at hsame
      exact hsame
    exact hname ▸ h i hfound.1

theorem after_after (s : Station) {r r' : Client × List Action}
    (hnext : r.1.nextMsgId = s.client.nextMsgId) :
    (s.after r).after r' = s.after (r'.1, r.2 ++ r'.2) := by
  rw [Station.after, Station.after, Station.after, datagrams_append, ← List.append_assoc]
  dsimp only
  rw [if_pos hnext, hnext, Nat.add_zero]

theorem after_after_of_kept (s : Station) {r r' : Client × List Action}
    (hnext : r'.1.nextMsgId = r.1.nextMsgId) :
    (s.after r).after r' = s.after (r'.1, r.2 ++ r'.2) := by
  rw [Station.after, Station.after, Station.after, datagrams_append, ← List.append_assoc]
  dsimp only
  rw [if_pos hnext, hnext, Nat.add_zero]

/-- An addition leaves the client alone, or fills a free entry. -/
theorem role_add_cases (role : Role) (c : Client) (topicName : List UInt8) :
    (role.add c topicName).1 = c ∨ ∃ i : Fin MAX_CUSTOM_TOPICS, (role.add c topicName).1
      = { c with customTopics :=
          c.customTopics.set i (role.fill topicName c.customTopics[i]) i.isLt } := by
  have hadd : (Arduino.addTopic c topicName fun e ↦ role.fill topicName e).1 = c ∨
      ∃ i : Fin MAX_CUSTOM_TOPICS,
        (Arduino.addTopic c topicName fun e ↦ role.fill topicName e).1
          = { c with customTopics :=
              c.customTopics.set i (role.fill topicName c.customTopics[i]) i.isLt } := by
    rcases addTopic_cases c topicName fun e ↦ role.fill topicName e with
      ⟨-, heq⟩ | ⟨-, heq | ⟨i, -, heq⟩⟩
    · exact Or.inl (congrArg Prod.fst heq)
    · exact Or.inl (congrArg Prod.fst heq)
    · exact Or.inr ⟨i, congrArg Prod.fst heq⟩
  cases role with
  | sender =>
    rw [Role.add, mqttSnAddTopicForRegistration]
    split
    · exact Or.inl rfl
    · exact hadd
  | subscriber qos =>
    rw [Role.add, mqttSnAddTopicForSubscription]
    split
    · exact Or.inl rfl
    split
    · exact Or.inl rfl
    · exact hadd

theorem complete_fill (role : Role) (topicName : List UInt8) (e : TopicEntry) :
    (role.fill topicName e).complete = false := by
  cases role <;> rfl

namespace Station.Ok

variable {s : Station}

/-- A topic is added to the table. -/
theorem addTopic (h : s.Ok known clientId) (role : Role) (topicName : List UInt8) :
    (s.after ((role.add s.client topicName).1, [])).Ok known clientId where
  agrees := by
    obtain ⟨assign, hagrees⟩ := h.agrees
    refine ⟨assign, ?_⟩
    rw [session_after]
    cases role with
    | sender => exact hagrees.addForRegistration topicName
    | subscriber qos => exact hagrees.addForSubscription topicName qos
  names := namesDistinct_add h.names role topicName
  ids j hj := by
    change (role.add s.client topicName).1.customTopics[j].complete = true at hj
    change Names known (role.add s.client topicName).1.customTopics[j].topicId
      (role.add s.client topicName).1.customTopics[j].topicName.val
    rcases role_add_cases role s.client topicName with heq | ⟨i, heq⟩
    · rw [heq] at hj ⊢
      exact h.ids j hj
    · rw [heq] at hj ⊢
      dsimp only at hj ⊢
      by_cases hij : i = j
      · subst hij
        rw [Slots.get_set_self, complete_fill] at hj
        exact absurd hj Bool.false_ne_true
      · rw [Slots.get_set_of_ne _ _ hij] at hj ⊢
        exact h.ids j hj
  pending j hj := by
    change (role.add s.client topicName).1.pendingMsgs[j].inUse = true at hj
    change Tracks known clientId (role.add s.client topicName).1.pendingMsgs[j]
    rcases role_add_cases role s.client topicName with heq | ⟨i, heq⟩
    · rw [heq] at hj ⊢
      exact h.pending j hj
    · rw [heq] at hj ⊢
      exact h.pending j hj
  sent := h.sent_after fun _ hd ↦ absurd hd List.not_mem_nil

/-- The topics of the sketch are added. -/
theorem addAllTopics (h : s.Ok known clientId) :
    (s.after (Arduino.addAllTopics s.client, [])).Ok known clientId := by
  have hadd {c : Client} (hc : (s.after (c, [])).Ok known clientId)
      (hnext : c.nextMsgId = s.client.nextMsgId) (role : Role) (topicName : List UInt8) :
      (s.after ((role.add c topicName).1, [])).Ok known clientId ∧
        (role.add c topicName).1.nextMsgId = s.client.nextMsgId := by
    have hc := hc.addTopic role topicName
    rw [after_after s hnext] at hc
    refine ⟨hc, ?_⟩
    rcases role_add_cases role c topicName with heq | ⟨i, heq⟩
    · rw [heq, hnext]
    · rw [heq, ← hnext]
  have h₀ : (s.after (s.client, [])).Ok known clientId :=
    h.kept rfl rfl rfl rfl fun _ hd ↦ absurd hd List.not_mem_nil
  obtain ⟨h₁, hnext₁⟩ := hadd h₀ rfl .sender TOPIC_DATA_1
  obtain ⟨h₂, hnext₂⟩ := hadd h₁ hnext₁ .sender TOPIC_DATA_2
  obtain ⟨h₃, hnext₃⟩ := hadd h₂ hnext₂ (.subscriber 1) TOPIC_CMD_1
  exact (hadd h₃ hnext₃ (.subscriber 2) TOPIC_CMD_2).1

/-- A topic is asked for. -/
theorem attempt (h : s.Ok known clientId) {i : Fin MAX_CUSTOM_TOPICS} {now : UInt32}
    (hdue : s.client.customTopics[i].due now = true) (hdraws : s.draws < 65534) :
    (s.after (Arduino.attempt s.client i now, [.send (Arduino.request s.client.customTopics[i]
      (attemptId s.client.customTopics[i] s.client.nextMsgId).1)])).Ok known clientId where
  agrees := by
    obtain ⟨assign, hagrees⟩ := h.agrees
    refine ⟨assign, ?_⟩
    rw [session_after]
    exact hagrees.attempted hdue hdraws
  names := namesDistinct_attempt h.names i now
  ids j hj := by
    change (Arduino.attempt s.client i now).customTopics[j].complete = true at hj
    change Names known (Arduino.attempt s.client i now).customTopics[j].topicId
      (Arduino.attempt s.client i now).customTopics[j].topicName.val
    rw [complete_attempt] at hj
    rcases get_attempt s.client i j now with ⟨rfl, heq⟩ | heq
    · rw [heq]
      exact h.ids j hj
    · rw [heq]
      exact h.ids j hj
  pending := h.pending
  sent := h.sent_after fun d hd ↦ by
    cases List.mem_singleton.mp hd
    exact .request _ _

theorem invalidate (h : s.Ok known clientId) :
    (s.after (mqttSnInvalidateAllTopics s.client, [])).Ok known clientId where
  agrees := by
    obtain ⟨assign, hagrees⟩ := h.agrees
    refine ⟨assign, ?_⟩
    rw [session_after]
    exact hagrees.invalidate
  names := namesDistinct_step s.client .invalidate h.names
  ids i hi := by
    change (mqttSnInvalidateAllTopics s.client).customTopics[i].complete = true at hi
    simp only [mqttSnInvalidateAllTopics, Slots.getElem_fin, Vector.getElem_map] at hi
    split at hi
    · rw [TopicEntry.complete, Bool.and_false] at hi
      exact absurd hi Bool.false_ne_true
    · rename_i hfree
      rw [TopicEntry.complete, Bool.and_eq_true] at hi
      exact absurd hi.1 hfree
  pending := h.pending
  sent := h.sent_after fun _ hd ↦ absurd hd List.not_mem_nil

/-- A reading is published. -/
theorem publish (h : s.Ok known clientId) (hdraws : s.draws < 65534) {topicId : UInt16}
    {payload : List UInt8} {qos : ℤ} (hqos : qos = 0 ∨ qos = 1)
    (hlen : payload.length ≤ MQTTSN_RETRY_PAYLOAD_SIZE)
    (hpub : ∀ msgId, (qos = 1 → msgId ≠ 0) → Publishes known clientId topicId payload qos msgId)
    (now : UInt32) (ok : Bool) :
    (s.after (mqttSnPublishTopicIdAuto s.client topicId payload qos now ok)).Ok known clientId := by
  have htopics := customTopics_publishAuto s.client topicId payload qos now ok
  have hid : qos = 1 → (publishId s.client qos).1 ≠ 0 := by
    rintro rfl
    exact getNextMsgId_ne_zero _
  refine ⟨?_, ?_, fun i hi ↦ ?_, fun i hi ↦ ?_, h.sent_after fun d hd ↦ ?_⟩
  · obtain ⟨assign, hagrees⟩ := h.agrees
    refine ⟨assign, ?_⟩
    rw [session_after]
    exact hagrees.publish hdraws topicId payload qos now ok
  · change Slots.Distinct TopicEntry.name _
    rw [show (s.after _).client.customTopics = s.client.customTopics from htopics]
    exact h.names
  · rw [show (s.after _).client.customTopics = s.client.customTopics from htopics] at hi ⊢
    exact h.ids i hi
  · change (mqttSnPublishTopicIdAuto s.client topicId payload qos now ok).1.pendingMsgs[i].inUse
      = true at hi
    change Tracks known clientId
      (mqttSnPublishTopicIdAuto s.client topicId payload qos now ok).1.pendingMsgs[i]
    have hstored : (mqttSnPublishTopicIdAuto s.client topicId payload qos now ok).1.pendingMsgs
        = s.client.pendingMsgs ∨ (0 < qos ∧ qos ≤ 2) ∧
          (mqttSnPublishTopicIdAuto s.client topicId payload qos now ok).1.pendingMsgs
            = storePending ⟨(publishId s.client qos).1, UInt8.ofNat qos.toNat, 0, now, 0, topicId,
                payload.take MQTTSN_RETRY_PAYLOAD_SIZE, true⟩ s.client.pendingMsgs :=
      pendingMsgs_publish _ topicId payload qos _ false now ok
    rcases hstored with heq | ⟨hpos, heq⟩
    · rw [heq] at hi ⊢
      exact h.pending i hi
    · have hone : qos = 1 := hqos.resolve_left (ne_of_gt hpos.1)
      subst hone
      rw [heq] at hi ⊢
      rcases get_storePending _ s.client.pendingMsgs i with heq | ⟨-, heq⟩
      · rw [heq] at hi ⊢
        exact h.pending i hi
      · rw [heq, List.take_of_length_le hlen]
        exact ⟨rfl, hpub _ hid⟩
  · have hd := Action.send.inj (actions_publish hd)
    have hwhole : MQTTSN_PUBLISH_HEADER_LEN + payload.length
        ≤ (MQTTSN_PUBLISH_HEADER_LEN + payload.length) % 256 := by
      change 7 + payload.length ≤ (7 + payload.length) % 256
      change payload.length ≤ 16 at hlen
      omega
    rw [hd, take_publishPacket _ _ _ hwhole]
    exact .publish (hpub _ hid)

/-- Readings and PUBRELs are sent again. -/
theorem checkTimeouts (h : s.Ok known clientId) (hid : clientId.length ≤ 10) (now : UInt32)
    (ok : Bool) : (s.after (checkQosTimeouts s.client now ok)).Ok known clientId where
  agrees := by
    obtain ⟨assign, hagrees⟩ := h.agrees
    refine ⟨assign, ?_⟩
    rw [session_after]
    exact hagrees.checkTimeouts now ok
  names := h.names
  ids := h.ids
  pending i hi := by
    change (checkQosTimeouts s.client now ok).1.pendingMsgs[i].inUse = true at hi
    change Tracks known clientId (checkQosTimeouts s.client now ok).1.pendingMsgs[i]
    rw [get_checkQosTimeouts] at hi ⊢
    obtain ⟨huse, count, time, heq⟩ := QosMsg.of_inUse_retry hi
    have htracks := h.pending i huse
    rw [heq]
    exact ⟨htracks.qos, htracks.publishes⟩
  sent := h.sent_after fun d hd ↦ by
    obtain ⟨i, hretry, hd⟩ := exists_of_mem_checkQosTimeouts hd
    obtain ⟨huse, count, time, heq⟩ := QosMsg.of_inUse_retry (QosMsg.inUse_retry hretry)
    have htracks := h.pending i huse
    rw [heq, resend] at hd
    dsimp only at hd
    split at hd
    · obtain ⟨number, hpayload⟩ := htracks.publishes.payload
      have hlen := length_reading_le hid number
      rw [← hpayload] at hlen
      have hwhole : MQTTSN_PUBLISH_HEADER_LEN + s.client.pendingMsgs[i].payload.length
          ≤ (MQTTSN_PUBLISH_HEADER_LEN + s.client.pendingMsgs[i].payload.length) % 256 := by
        change 7 + _ ≤ (7 + _) % 256
        change _ ≤ 16 at hlen
        omega
      have hone : (s.client.pendingMsgs[i].qos.toNat : ℤ) = 1 := by
        rw [htracks.qos]
        rfl
      rw [Action.send.inj (actions_publish hd), take_publishPacket _ _ _ hwhole, hone]
      exact .publish htracks.publishes
    · cases List.mem_singleton.mp hd
      exact .pubrel _

/-- **The `switch` keeps the order**, where it asks for no topic. -/
theorem loopSwitch (h : s.Ok known clientId) (hid : clientId.length ≤ 10) (hdraws : s.draws < 65534)
    {sk : Sketch} (hclient : sk.client = s.client) (x : Inputs)
    (hasks : ∀ c, sk.passes = some c → asksForTopic c x.regNow = false) :
    (s.after ((Arduino.loopSwitch clientId sk x).1.client,
      (Arduino.loopSwitch clientId sk x).2)).Ok known clientId := by
  have hnothing {c : Client} (hc : c.customTopics = s.client.customTopics)
      (hpending : c.pendingMsgs = s.client.pendingMsgs) (hnext : c.nextMsgId = s.client.nextMsgId) :
      (s.after (c, [])).Ok known clientId :=
    h.kept hc hpending hnext rfl fun _ hd ↦ absurd hd List.not_mem_nil
  have hack {c : Client} {d : List UInt8} (hc : c.customTopics = s.client.customTopics)
      (hpending : c.pendingMsgs = s.client.pendingMsgs) (hnext : c.nextMsgId = s.client.nextMsgId)
      (hreq : Request.parse d = none) (hd : Sends known clientId d) :
      (s.after (c, [.send d])).Ok known clientId := by
    refine h.kept hc hpending hnext ?_ fun d' hd' ↦ ?_
    · exact List.filterMap_cons_none hreq
    · cases List.mem_singleton.mp hd'
      exact hd
  have hpass {c : Client} (hpasses : sk.passes = some c)
      (hc : (s.after (c, [])).Ok known clientId) :
      (s.after (mqttSnProcessTopicRegistrations c x.regNow x.reply)).Ok known clientId := by
    rcases mqttSnProcessTopicRegistrations_eq c x.regNow x.reply with ⟨-, heq⟩ | ⟨_, _, hyes, -⟩
    · rw [heq]
      exact hc
    · exact absurd ((hasks c hpasses).symm.trans hyes) Bool.false_ne_true
  have hreading (count : UInt16) := length_reading_le hid count
  refine loopSwitch_rule clientId (P := fun r ↦ (s.after r).Ok known clientId) ?_ (fun _ ↦ ?_)
    (fun hstate hping ↦ ?_) (fun hstate hfree hwaits ↦ ?_) (fun r hr ↦ ?_) (fun _ ↦ ?_)
    (fun _ ↦ ?_) (fun _ ↦ ?_) ?_ (fun _ ↦ ?_) ?_
  · exact hnothing (by rw [hclient]) (by rw [hclient]) (by rw [hclient])
  · rw [hclient]
    exact hack rfl rfl rfl rfl .connect
  · rw [hclient]
    refine hpass ?_ h.addAllTopics
    rw [Sketch.passes, hstate, ← hclient]
    exact if_pos hping
  · rw [hclient]
    refine hpass ?_ (hnothing rfl rfl rfl)
    rw [Sketch.passes, hstate, ← hclient]
    exact if_pos (by rw [hfree, hwaits]; rfl)
  · have hr := hr.invalidate
    rw [after_after_of_kept s (by rfl), List.append_nil] at hr
    exact hr
  · rw [hclient]
    exact hack rfl rfl rfl rfl (.puback _ _)
  · rw [hclient]
    exact hack rfl rfl rfl rfl (.pubrec _)
  · rw [hclient]
    exact hack rfl rfl rfl rfl (.pubcomp _)
  · rw [hclient]
    refine h.publish hdraws (Or.inl rfl) (hreading _)
      (fun msgId _ ↦ ⟨⟨_, rfl⟩, Or.inl ⟨rfl, ?_⟩⟩) _ _
    exact names_getTopicId h.ids (by decide)
  · rw [hclient]
    refine h.publish hdraws (Or.inr rfl) (hreading _)
      (fun msgId hne ↦ ⟨⟨_, rfl⟩, Or.inr ⟨rfl, hne rfl, ?_⟩⟩) _ _
    exact names_getTopicId h.ids (by decide)
  · rw [hclient]
    exact h.checkTimeouts hid _ _

end Station.Ok

end Emcs.System
