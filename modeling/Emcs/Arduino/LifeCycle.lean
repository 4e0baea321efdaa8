import Emcs.Arduino.Effects
import Emcs.Mqttsn.LifeCycle

/-!
# Pending messages of the Arduino client

The client publishes, receives packets and checks for timeouts, in any order and at any times. What
each of these does to the table is what may happen to a pending message; payloads of up to 16 bytes
are stored whole. The clock plays no part: a check may find any slot expired, so the values of
`millis` are arbitrary, and with them where they wrap.
-/

namespace Emcs.Arduino

open Mqttsn

/-- A call that concerns the pending messages. -/
inductive QosEvent where
  | publish (topicId : UInt16) (payload : List UInt8) (qos : ℤ) (now : UInt32) (ok : Bool)
  | receive (rx : Rx)
  | checkTimeouts (now : UInt32) (ok : Bool)

def Client.exec (c : Client) : QosEvent → Client × List Action
  | .publish topicId payload qos now ok => mqttSnPublishTopicIdAuto c topicId payload qos now ok
  | .receive rx => udpRecvCallbackArduino c rx
  | .checkTimeouts now ok => checkQosTimeouts c now ok

/-- The buffer that the action hands to the transport. -/
def Action.buffer : Action → Option (List UInt8)
  | .send buf => some buf
  | .showCmd _ => none

def QosEvent.kind (c : Client) : QosEvent → Kind
  | .publish topicId payload qos _ _ => .publish ⟨topicId, payload, qos, (publishId c qos).1⟩
  | .receive rx =>
    if rx.length.toNat < MQTTSN_HEADER_SIZE ∨ c.dropAcks = true then .other else .ofPacket rx.data
  | .checkTimeouts _ _ => .check

/-- What the check sends for slot `i`. -/
def QosEvent.resent (c : Client) : QosEvent → Fin MAX_PENDING_QOS_MSGS → List (List UInt8)
  | .checkTimeouts now ok, i =>
    if (c.pendingMsgs[i].retry (qosExpired now) now).2 then
      (resend c (c.pendingMsgs[i].retry (qosExpired now) now).1 now ok).filterMap Action.buffer
    else []
  | _, _ => []

theorem sent_checkTimeouts (c : Client) (now : UInt32) (ok : Bool) :
    (checkQosTimeouts c now ok).2.filterMap Action.buffer
      = (List.finRange MAX_PENDING_QOS_MSGS).flatMap
        (QosEvent.resent c (.checkTimeouts now ok)) := by
  rw [checkQosTimeouts, List.filterMap_flatMap, Slots.toList_eq_map, List.flatMap_map]
  congr 1
  funext i
  rw [QosEvent.resent, Slots.getElem_fin, Vector.getElem_map, ← Slots.getElem_fin]
  split
  · rfl
  · rfl

/-- The Arduino client as one that has a table of pending messages. -/
def sender : Sender Client QosEvent UInt32 MAX_PENDING_QOS_MSGS where
  step c e := (c.exec e).1
  sent c e := (c.exec e).2.filterMap Action.buffer
  slots := Client.pendingMsgs
  kind c e := e.kind c
  resent c e := e.resent c
  sent_check := by
    intro c e hkind
    cases e with
    | publish => exact nomatch hkind
    | receive rx =>
      change (if _ then _ else _) = Kind.check at hkind
      split at hkind
      · exact nomatch hkind
      · exact absurd hkind (Kind.ofPacket_ne_check rx.data)
    | checkTimeouts now ok => exact sent_checkTimeouts c now ok

/-! ## What the events do to a slot -/

theorem packetLen_of_fits {payload : List UInt8} (h : payload.length ≤ MQTTSN_RETRY_PAYLOAD_SIZE) :
    (MQTTSN_PUBLISH_HEADER_LEN + payload.length) % 256
      = MQTTSN_PUBLISH_HEADER_LEN + payload.length := by
  have hsize : payload.length ≤ 16 := h
  have hheader : MQTTSN_PUBLISH_HEADER_LEN = 7 := rfl
  rw [hheader]
  omega

/-- A PUBLISH that fits is handed to the transport whole. -/
theorem sent_publish (c : Client) (topicId : UInt16) {payload : List UInt8} {qos : ℤ}
    (hqos : ¬(qos < 0 ∨ qos > 2)) (msgId : UInt16) (isRetransmit : Bool) (now : UInt32) (ok : Bool)
    (h : payload.length ≤ MQTTSN_RETRY_PAYLOAD_SIZE) :
    (mqttSnPublishTopicId c topicId payload qos msgId isRetransmit now ok).2
      = [.send (publishPacket topicId payload qos msgId)] := by
  have hlen := packetLen_of_fits h
  have hmax : ¬MQTTSN_PUBLISH_HEADER_LEN + payload.length > MQTTSN_MAX_PACKET_LEN := by
    have hsize : payload.length ≤ 16 := h
    change ¬7 + payload.length > 255
    omega
  rw [mqttSnPublishTopicId, if_neg hqos, hlen]
  dsimp only
  rw [if_neg hmax, take_publishPacket topicId qos msgId (Nat.le_refl _)]
  split
  · rfl
  split <;> rfl

theorem slotStep_publish (c : Client) (topicId : UInt16) (payload : List UInt8) (qos : ℤ)
    (now : UInt32) (ok : Bool) (i : Fin MAX_PENDING_QOS_MSGS) :
    SlotStep MQTTSN_RETRY_PAYLOAD_SIZE (.publish ⟨topicId, payload, qos, (publishId c qos).1⟩)
      ((mqttSnPublishTopicIdAuto c topicId payload qos now ok).2.filterMap Action.buffer)
      c.pendingMsgs[i] (mqttSnPublishTopicIdAuto c topicId payload qos now ok).1.pendingMsgs[i]
      [] := by
  rw [mqttSnPublishTopicIdAuto]
  rcases pendingMsgs_publish { c with nextMsgId := (publishId c qos).2 }
      topicId payload qos (publishId c qos).1 false now ok with heq | ⟨hqos, heq⟩
  · rw [heq]
    exact .kept
  · rw [heq]
    refine .ofPublish ⟨topicId, payload, qos, (publishId c qos).1⟩ now c.pendingMsgs i hqos
      fun hfits ↦ ⟨List.take_of_length_le hfits, ?_⟩
    have hvalid : ¬(qos < 0 ∨ qos > 2) := by omega
    rw [sent_publish _ topicId hvalid _ false now ok hfits]
    rfl

theorem lawful_sender : sender.Lawful MQTTSN_RETRY_PAYLOAD_SIZE := by
  intro c e i
  cases e with
  | publish topicId payload qos now ok => exact slotStep_publish c topicId payload qos now ok i
  | receive rx =>
    change SlotStep _ (if _ then _ else _) _ _ (udpRecvCallbackArduino c rx).1.pendingMsgs[i] []
    rw [pendingMsgs_udpRecv, Rx.onPending]
    split
    · exact .kept
    · exact .ofPacket rx.data rx.now c.pendingMsgs i
  | checkTimeouts now ok =>
    change SlotStep _ .check _ _ (checkQosTimeouts c now ok).1.pendingMsgs[i] _
    rw [get_checkQosTimeouts]
    refine .ofCheck (qosExpired now) now c.pendingMsgs[i]
      (fun m ↦ (resend c m now ok).filterMap Action.buffer) fun hqos hfits ↦ ?_
    rw [resend]
    split
    · rename_i hstep
      have hvalid :
          ¬((c.pendingMsgs[i].qos.toNat : ℤ) < 0 ∨ (c.pendingMsgs[i].qos.toNat : ℤ) > 2) := by
        rcases hqos with hone | htwo
        · rw [hone]
          decide
        · rw [htwo]
          decide
      refine ⟨c.pendingMsgs[i].packet, ?_, Or.inl ⟨rfl, fun _ ↦ hstep⟩⟩
      rw [sent_publish c c.pendingMsgs[i].topicId hvalid c.pendingMsgs[i].msgId true now ok hfits]
      rfl
    · rename_i hstep
      exact ⟨pubrelPacket c.pendingMsgs[i].msgId, rfl, Or.inr ⟨rfl, hstep⟩⟩

end Emcs.Arduino
