import Emcs.Arduino.LifeCycle
import Emcs.Arduino.Moments
import Emcs.Arduino.Ready
import Emcs.Mqttsn.AtLeastOnce

/-!
# The publishes of the sketch

The sketch publishes with QoS 1 in one phase of `STATE_READY`. The slot of the message, what is sent
for it and what is sent again for it stand for that call: the call is known from then on, and
nothing else in a run of `loop` publishes under a message id.
-/

namespace Emcs.Arduino

open Mqttsn

variable (clientId : List UInt8)

/-- The publish of QoS 1 that a moment makes. -/
def Moment.call (s : Sketch) : Moment → Option Call
  | .receive _ => none
  | .iterate x =>
    if publishesQos1 s x then
      some ⟨mqttSnGetTopicId s.client TOPIC_DATA_1, reading clientId (s.pubCountQos1 + 1), 1,
        (publishId s.client 1).1⟩
    else none

/-- The sketch as a client that publishes. -/
def publisher : Publisher Sketch Moment UInt32 MAX_PENDING_QOS_MSGS where
  step := Sketch.step clientId
  sent s e := (s.exec clientId e).2.filterMap Action.buffer
  slots s := s.client.pendingMsgs
  call s e := e.call clientId s
  packet s e := (e.packet s).map Rx.data

/-- Every PUBLISH with a message id that is sent stands for a call. -/
def SendsKnown (calls : List Call) (as : List Action) : Prop :=
  ∀ buf, Action.send buf ∈ as → Covered calls buf

variable {calls : List Call}

/-! ## Packets -/

theorem known_udpRecv (c : Client) (rx : Rx) (h : Known calls c.pendingMsgs) :
    Known calls (udpRecvCallbackArduino c rx).1.pendingMsgs := by
  rw [pendingMsgs_udpRecv, Rx.onPending]
  split
  · exact h
  exact h.onPacket rx.data rx.now

theorem sendsKnown_nil : SendsKnown calls [] := fun _ h ↦ absurd h List.not_mem_nil

theorem sendsKnown_send {len mt : UInt8} {rest : List UInt8} (h : mt ≠ MQTTSN_MSG_TYPE_PUBLISH) :
    SendsKnown calls [.send (len :: mt :: rest)] := by
  intro buf hbuf
  rw [Action.send.inj (List.mem_singleton.mp hbuf)]
  exact covered_of_type calls h

theorem sendsKnown_udpRecv (c : Client) (rx : Rx) :
    SendsKnown calls (udpRecvCallbackArduino c rx).2 := by
  intro buf hbuf
  have htype : MQTTSN_MSG_TYPE_PUBREL ≠ MQTTSN_MSG_TYPE_PUBLISH := by decide
  rcases actions_udpRecv c rx _ hbuf with ⟨mid, heq⟩ | ⟨msg, heq⟩
  · rw [Action.send.inj heq]
    exact covered_of_type calls htype
  · exact nomatch heq

theorem sendsKnown_deliver (c : Client) (rxs : List Rx) : SendsKnown calls (deliver c rxs).2 := by
  induction rxs generalizing c with
  | nil => exact sendsKnown_nil
  | cons rx rxs ih =>
    intro buf hbuf
    rcases List.mem_append.mp hbuf with hfirst | hrest
    · exact sendsKnown_udpRecv c rx buf hfirst
    · exact ih _ buf hrest

theorem known_processTopicRegistrations {c : Client} (h : Known calls c.pendingMsgs) (now : UInt32)
    (reply : Option Rx) :
    Known calls (mqttSnProcessTopicRegistrations c now reply).1.pendingMsgs ∧
      SendsKnown calls (mqttSnProcessTopicRegistrations c now reply).2 := by
  rcases mqttSnProcessTopicRegistrations_eq c now reply with ⟨-, heq⟩ | ⟨i, mid, -, heq⟩
  · rw [heq]
    exact ⟨h, sendsKnown_nil⟩
  · rw [heq]
    refine ⟨deliver_invariant (P := fun c ↦ Known calls c.pendingMsgs)
      (fun c rx ↦ known_udpRecv c rx) (c := attempt c i now) h reply.toList, fun buf hbuf ↦ ?_⟩
    rcases List.mem_cons.mp hbuf with hrequest | hreply
    · rw [Action.send.inj hrequest, request]
      split
      · exact covered_of_type calls (by change MQTTSN_MSG_TYPE_REGISTER ≠ _; decide)
      · exact covered_of_type calls (by change MQTTSN_MSG_TYPE_SUBSCRIBE ≠ _; decide)
    · exact sendsKnown_deliver (attempt c i now) reply.toList buf hreply

/-! ## Publishing -/

theorem sendsKnown_publish {call : Call} (hcall : call ∈ calls) (c : Client) {payload : List UInt8}
    (hpayload : payload <+: call.payload) (isRetransmit : Bool) (now : UInt32) (ok : Bool) :
    SendsKnown calls
      (mqttSnPublishTopicId c call.topicId payload call.qos call.msgId isRetransmit now ok).2 := by
  intro buf hbuf
  rw [Action.send.inj (actions_publish hbuf)]
  exact Call.Sends.covered ⟨payload, _, hpayload, rfl⟩ hcall

theorem known_publish {call : Call} (hcall : call ∈ calls) {c : Client}
    (h : Known calls c.pendingMsgs)
    (isRetransmit : Bool) (now : UInt32) (ok : Bool) :
    Known calls (mqttSnPublishTopicId c call.topicId call.payload call.qos call.msgId isRetransmit
      now ok).1.pendingMsgs := by
  rcases pendingMsgs_publish c call.topicId call.payload call.qos call.msgId
      isRetransmit now ok with heq | ⟨hqos, heq⟩
  · rw [heq]
    exact h
  · rw [heq]
    exact h.store hcall hqos now MQTTSN_RETRY_PAYLOAD_SIZE

theorem known_publishAuto {c : Client} (h : Known calls c.pendingMsgs) {topicId : UInt16}
    {payload : List UInt8} {qos : ℤ} (hcall : ⟨topicId, payload, qos, (publishId c qos).1⟩ ∈ calls)
    (now : UInt32) (ok : Bool) :
    Known calls (mqttSnPublishTopicIdAuto c topicId payload qos now ok).1.pendingMsgs ∧
      SendsKnown calls (mqttSnPublishTopicIdAuto c topicId payload qos now ok).2 :=
  ⟨known_publish hcall (c := { c with nextMsgId := (publishId c qos).2 }) h false now ok,
    sendsKnown_publish hcall { c with nextMsgId := (publishId c qos).2 } (List.prefix_refl _) false
      now ok⟩

theorem sendsKnown_publishQos0 (c : Client) (topicId : UInt16) (payload : List UInt8) (now : UInt32)
    (ok : Bool) : SendsKnown calls (mqttSnPublishTopicIdAuto c topicId payload 0 now ok).2 := by
  intro buf hbuf
  rw [Action.send.inj (actions_publish hbuf)]
  exact covered_of_qos0 calls topicId payload _ _

/-- The timeout check frees slots, and sends for a slot what stands for its call. -/
theorem known_checkQosTimeouts {c : Client} (h : Known calls c.pendingMsgs) (now : UInt32)
    (ok : Bool) : Known calls (checkQosTimeouts c now ok).1.pendingMsgs ∧
      SendsKnown calls (checkQosTimeouts c now ok).2 := by
  refine ⟨h.retry (qosExpired now) (fun _ ↦ now) (get_checkQosTimeouts c now ok), fun buf hbuf ↦ ?_⟩
  obtain ⟨i, hretry, hbuf⟩ := exists_of_mem_checkQosTimeouts hbuf
  obtain ⟨hold, _, _, heq⟩ := QosMsg.of_inUse_retry (QosMsg.inUse_retry hretry)
  obtain ⟨call, hcall, hstores⟩ := h i hold
  rw [heq, resend] at hbuf
  split at hbuf
  · dsimp only at hbuf
    rw [hstores.topicId, hstores.qos, hstores.msgId] at hbuf
    exact sendsKnown_publish hcall c hstores.payload true now ok buf hbuf
  · rw [Action.send.inj (List.mem_singleton.mp hbuf)]
    exact covered_of_type calls (by change MQTTSN_MSG_TYPE_PUBREL ≠ _; decide)

/-! ## The moments of `loop` -/

theorem known_publishQos0 {c : Client} (h : Known calls c.pendingMsgs) (topicId : UInt16)
    (payload : List UInt8) (now : UInt32) (ok : Bool) :
    Known calls (mqttSnPublishTopicIdAuto c topicId payload 0 now ok).1.pendingMsgs := by
  rcases pendingMsgs_publish { c with nextMsgId := (publishId c 0).2 } topicId
      payload 0 (publishId c 0).1 false now ok with heq | ⟨hqos, -⟩
  · rw [mqttSnPublishTopicIdAuto, heq]
    exact h
  · exact absurd hqos.1 (Int.lt_irrefl 0)

/-- **Every moment keeps the books.** -/
theorem known_exec {s : Sketch} (h : Known calls s.client.pendingMsgs) (e : Moment) :
    Known (calls ++ (e.call clientId s).toList) (s.exec clientId e).1.client.pendingMsgs ∧
      SendsKnown (calls ++ (e.call clientId s).toList) (s.exec clientId e).2 := by
  have hcalls := h.append (e.call clientId s).toList
  cases e with
  | receive rx =>
    exact ⟨known_udpRecv s.client rx hcalls, sendsKnown_udpRecv s.client rx⟩
  | iterate x =>
    have hcall : publishesQos1 s x = true →
        ⟨mqttSnGetTopicId s.client TOPIC_DATA_1, reading clientId (s.pubCountQos1 + 1), 1,
            (publishId s.client 1).1⟩
          ∈ calls ++ ((Moment.iterate x).call clientId s).toList := by
      intro hpub
      rw [Moment.call, if_pos hpub]
      exact List.mem_append_right _ (List.mem_singleton_self _)
    generalize calls ++ ((Moment.iterate x).call clientId s).toList = calls' at hcalls hcall ⊢
    refine loopSwitch_rule clientId
      (P := fun r ↦ Known calls' r.1.pendingMsgs ∧ SendsKnown calls' r.2)
      ⟨hcalls, sendsKnown_nil⟩ (fun _ ↦ ⟨hcalls, sendsKnown_send (by decide)⟩) (fun _ _ ↦ ?_)
      (fun _ _ _ ↦ known_processTopicRegistrations hcalls x.regNow x.reply) (fun _ hr ↦ hr)
      (fun _ ↦ ⟨hcalls, sendsKnown_send (by decide)⟩)
      (fun _ ↦ ⟨hcalls, sendsKnown_send (by decide)⟩)
      (fun _ ↦ ⟨hcalls, sendsKnown_send (by decide)⟩)
      ⟨known_publishQos0 hcalls _ _ _ _, sendsKnown_publishQos0 _ _ _ _ _⟩ (fun hpub ↦ ?_)
      (known_checkQosTimeouts hcalls x.qosNow x.qosOk)
    · refine known_processTopicRegistrations ?_ x.regNow x.reply
      rw [pendingMsgs_addAllTopics]
      exact hcalls
    · exact known_publishAuto hcalls (hcall hpub) x.pubNow x.pubOk

/-- What a moment that handles a packet does to the pending messages. -/
theorem pendingMsgs_of_packet {s : Sketch} {e : Moment} {rx : Rx} (h : e.packet s = some rx) :
    ∃ dropAcks, (s.exec clientId e).1.client.pendingMsgs
      = rx.onPending dropAcks s.client.pendingMsgs := by
  cases e with
  | receive rx' =>
    obtain rfl := Option.some.inj h
    exact ⟨s.client.dropAcks, pendingMsgs_udpRecv s.client rx'⟩
  | iterate x =>
    obtain ⟨c, i, mid, hc, -, hclient⟩ := loopSwitch_of_packet clientId h
    have hsame : c.pendingMsgs = s.client.pendingMsgs := by
      rcases hc with rfl | rfl
      · rfl
      · exact pendingMsgs_addAllTopics s.client
    refine ⟨c.dropAcks, ?_⟩
    have hpending : (udpRecvCallbackArduino (attempt c i x.regNow) rx).1.pendingMsgs
        = rx.onPending c.dropAcks s.client.pendingMsgs := by
      rw [pendingMsgs_udpRecv, ← hsame]
      rfl
    rcases hclient with heq | heq
    · exact (congrArg Client.pendingMsgs heq).trans hpending
    · exact (congrArg Client.pendingMsgs heq).trans hpending

/-- **The sketch keeps books of its publishes.** -/
theorem keeps_publisher :
    (publisher clientId).Keeps (fun calls s ↦ Known calls s.client.pendingMsgs) setup where
  init := by
    rw [setup, pendingMsgs_addAllTopics]
    exact known_of_free [] rfl
  step e h := (known_exec clientId h e).1
  sent e h buf hbuf := by
    obtain ⟨a, ha, hbuffer⟩ := List.mem_filterMap.mp hbuf
    cases a with
    | send buf' =>
      obtain rfl := Option.some.inj hbuffer
      exact (known_exec clientId h e).2 buf' ha
    | showCmd msg => cases hbuffer
  slot h := h
  freed s e data hdata htype i huse hfree := by
    obtain ⟨rx, hrx, rfl⟩ := Option.mem_map.mp hdata
    obtain ⟨dropAcks, heq⟩ := pendingMsgs_of_packet clientId hrx
    change (s.exec clientId e).1.client.pendingMsgs[i].inUse = false at hfree
    rw [heq, Rx.onPending] at hfree
    split at hfree
    · exact absurd (hfree.symm.trans huse) Bool.false_ne_true
    · exact of_freed_onPacket htype huse hfree

end Emcs.Arduino
