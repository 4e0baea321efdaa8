import Emcs.Arduino.Client
import Emcs.Lib.Buffers
import Emcs.Pico.Encoding

/-!
# The send buffer of a PUBLISH

`mqtt_sn_publish_topic_id` with the array on its stack, which has room for the header and 16 bytes
of payload. The length is cast to a byte before it is compared with 255, so the comparison refuses
nothing, and 255 is not the size of the array. A payload of up to 16 bytes is sent as the layout
says and reads back at the gateway; a longer one is copied past the end of the array.

## The two halves

Inside the array the checked function is the function of the client, so everything known of it
carries over, and the packet is read back field by field. Outside it the copy of the payload fails
at the first byte that does not fit, whatever the state and the QoS.
-/

namespace Emcs.Arduino

open Bytes Mqttsn Pico

/-- The array of `mqtt_sn_publish_topic_id`. -/
abbrev SendBuffer := Buffer UInt8 (MQTTSN_PUBLISH_HEADER_LEN + MQTTSN_RETRY_PAYLOAD_SIZE)

/-- What a call of `mqtt_sn_publish_topic_id` leaves behind. -/
structure Published where
  client : Client
  buf : SendBuffer
  actions : List Action

/-- The part of `mqtt_sn_publish_topic_id` that builds the packet, with the `plen` bytes that
`mqttsn_transport_send` reads. -/
def buildPublish (buf : SendBuffer) (topicId : UInt16) (payload : List UInt8) (qos : ℤ)
    (msgId : UInt16) (plen : ℕ) : Option (SendBuffer × List UInt8) := do
  let buf ← buf.storeEach 0 [UInt8.ofNat plen, MQTTSN_MSG_TYPE_PUBLISH,
    getQosFlags qos MQTTSN_FLAG_TOPIC_NORMAL, hi8 topicId, lo8 topicId,
    if qos > 0 then hi8 msgId else 0x00, if qos > 0 then lo8 msgId else 0x00]
  let buf ← buf.store MQTTSN_PUBLISH_HEADER_LEN payload
  let sent ← buf.read 0 plen
  return (buf, sent)

/-- `mqtt_sn_publish_topic_id` on its array, which it finds as `buf`. -/
def checkedPublishTopicId (c : Client) (buf : SendBuffer) (topicId : UInt16) (payload : List UInt8)
    (qos : ℤ) (msgId : UInt16) (isRetransmit : Bool) (now : UInt32) (ok : Bool) :
    Option Published :=
  if qos < 0 ∨ qos > 2 then some ⟨c, buf, []⟩
  else
    let plen := (MQTTSN_PUBLISH_HEADER_LEN + payload.length) % 256
    if plen > MQTTSN_MAX_PACKET_LEN then some ⟨c, buf, []⟩
    else do
      let packet ← buildPublish buf topicId payload qos msgId plen
      let sent := [Action.send packet.2]
      if !ok then some ⟨c, packet.1, sent⟩
      else if qos > 0 && !isRetransmit then
        let m : QosMsg UInt32 := ⟨msgId, UInt8.ofNat qos.toNat, 0, now, 0, topicId,
          payload.take MQTTSN_RETRY_PAYLOAD_SIZE, true⟩
        some ⟨{ c with pendingMsgs := storePending m c.pendingMsgs }, packet.1, sent⟩
      else some ⟨c, packet.1, sent⟩

section Calls

variable {c : Client} {buf : SendBuffer} {topicId msgId : UInt16} {payload : List UInt8} {qos : ℤ}
  {isRetransmit ok : Bool} {now : UInt32}

theorem length_le_of_fits (h : payload.length ≤ 16) :
    (MQTTSN_PUBLISH_HEADER_LEN + payload.length) % 256
      = MQTTSN_PUBLISH_HEADER_LEN + payload.length ∧
      MQTTSN_PUBLISH_HEADER_LEN + payload.length ≤ 23 := by
  change (7 + payload.length) % 256 = 7 + payload.length ∧ 7 + payload.length ≤ 23
  omega

theorem buildPublish_rule (h : payload.length ≤ 16) :
    Safe (buildPublish buf topicId payload qos msgId (MQTTSN_PUBLISH_HEADER_LEN + payload.length))
      fun r ↦ r.2 = publishPacket topicId payload qos msgId := by
  have hheader := Buffer.storeEach_start buf
    ([UInt8.ofNat (MQTTSN_PUBLISH_HEADER_LEN + payload.length), MQTTSN_MSG_TYPE_PUBLISH,
      getQosFlags qos MQTTSN_FLAG_TOPIC_NORMAL, hi8 topicId, lo8 topicId,
      if qos > 0 then hi8 msgId else 0x00, if qos > 0 then lo8 msgId else 0x00])
    (show 7 ≤ 23 by decide)
  rw [buildPublish]
  refine hheader.bind fun b₁ h₁ ↦ ?_
  refine (Buffer.store_end h₁ rfl (length_le_of_fits h).2).bind fun b₂ h₂ ↦ ?_
  refine (Buffer.read_start h₂ (by rw [List.length_append]; rfl)).bind fun sent hsent ↦ ?_
  rw [hsent]
  exact Safe.pure rfl

/-- A longer payload is copied past the end of the array. -/
theorem buildPublish_eq_none {plen : ℕ} (h : 16 < payload.length) :
    buildPublish buf topicId payload qos msgId plen = none := by
  have hheader := Buffer.storeEach_start buf
    ([UInt8.ofNat plen, MQTTSN_MSG_TYPE_PUBLISH,
      getQosFlags qos MQTTSN_FLAG_TOPIC_NORMAL, hi8 topicId, lo8 topicId,
      if qos > 0 then hi8 msgId else 0x00, if qos > 0 then lo8 msgId else 0x00])
    (show 7 ≤ 23 by decide)
  obtain ⟨b, hb, -⟩ := hheader
  have hout : MQTTSN_PUBLISH_HEADER_LEN + MQTTSN_RETRY_PAYLOAD_SIZE <
      MQTTSN_PUBLISH_HEADER_LEN + payload.length := Nat.add_lt_add_left h _
  rw [buildPublish, hb]
  change (b.store MQTTSN_PUBLISH_HEADER_LEN payload).bind _ = none
  rw [Buffer.store_eq_none hout]
  rfl

theorem not_gt_max (n : ℕ) : ¬n % 256 > MQTTSN_MAX_PACKET_LEN :=
  Nat.not_lt.mpr (Nat.le_of_lt_succ (Nat.mod_lt n (by decide)))

/-- **A payload that fits**: the call stays inside its array and does what `mqttSnPublishTopicId`
says, on the whole packet. -/
theorem checkedPublishTopicId_of_le (h0 : 0 ≤ qos) (h2 : qos ≤ 2) (h : payload.length ≤ 16) :
    Safe (checkedPublishTopicId c buf topicId payload qos msgId isRetransmit now ok) fun r ↦
      (r.client, r.actions) = mqttSnPublishTopicId c topicId payload qos msgId isRetransmit now ok ∧
        r.actions = [.send (publishPacket topicId payload qos msgId)] := by
  have hqos : ¬(qos < 0 ∨ qos > 2) := by omega
  have hmod := (length_le_of_fits h).1
  have hmax := not_gt_max (MQTTSN_PUBLISH_HEADER_LEN + payload.length)
  rw [hmod] at hmax
  simp only [checkedPublishTopicId, mqttSnPublishTopicId, hmod]
  rw [if_neg hqos, if_neg hqos, if_neg hmax, if_neg hmax, take_publishPacket _ _ _ (Nat.le_refl _)]
  refine (buildPublish_rule h).bind fun packet hpacket ↦ ?_
  rw [hpacket]
  split
  · exact Safe.pure ⟨rfl, rfl⟩
  split
  · exact Safe.pure ⟨rfl, rfl⟩
  · exact Safe.pure ⟨rfl, rfl⟩

theorem checkedPublishTopicId_of_lt (h0 : 0 ≤ qos) (h2 : qos ≤ 2) (h : 16 < payload.length) :
    checkedPublishTopicId c buf topicId payload qos msgId isRetransmit now ok = none := by
  have hqos : ¬(qos < 0 ∨ qos > 2) := by omega
  rw [checkedPublishTopicId, if_neg hqos]
  dsimp only
  rw [if_neg (not_gt_max _), buildPublish_eq_none h]
  rfl

end Calls

/-! ## At the gateway -/

/-- The buffer is a PUBLISH: its length byte is the length of header and payload, and the gateway
reads topic id, message id, QoS and payload from it, whatever stands around it in memory. -/
structure Encodes (p : Publish) (d : List UInt8) : Prop where
  length : d.head?.map UInt8.toNat = some (7 + p.payload.length)
  read : ∀ mem, Paho.Stores mem d → (Outgoing.publish p).Read mem d.length

/-- The call stays inside its array. It is refused, and neither the pending table nor the array
changes, or it sends one buffer that encodes its arguments. -/
def PublishSound (c : Client) (buf : SendBuffer) (p : Publish) (isRetransmit : Bool) (now : UInt32)
    (ok : Bool) : Prop :=
  Safe (checkedPublishTopicId c buf p.topicId p.payload p.qos p.msgId isRetransmit now ok) fun r ↦
    (r.actions = [] ∧ r.client.pendingMsgs = c.pendingMsgs ∧ r.buf = buf) ∨
      ∃ d, r.actions = [.send d] ∧ Encodes p d

theorem encodes_publishPacket {p : Publish} (h0 : 0 ≤ p.qos) (h2 : p.qos ≤ 2)
    (h : p.payload.length ≤ 16) : Encodes p (publishPacket p.topicId p.payload p.qos p.msgId) := by
  have hlen : (publishPacket p.topicId p.payload p.qos p.msgId).length = 7 + p.payload.length := by
    rw [publishPacket, List.length_append]
    rfl
  refine ⟨?_, fun mem hmem ↦ ?_⟩
  · have hbyte : (UInt8.ofNat (MQTTSN_PUBLISH_HEADER_LEN + p.payload.length)).toNat =
        7 + p.payload.length := by
      rw [UInt8.toNat_ofNat']
      exact (length_le_of_fits h).1
    exact congrArg some hbyte
  · rw [hlen]
    exact read_publishPacket h0 h2 rfl (by omega) hmem

/-- **When a PUBLISH of the Arduino is encoded soundly.** -/
theorem publishSound_iff {c : Client} {buf : SendBuffer} {p : Publish} {isRetransmit : Bool}
    {now : UInt32} {ok : Bool} (h0 : 0 ≤ p.qos) (h2 : p.qos ≤ 2) :
    PublishSound c buf p isRetransmit now ok ↔ p.payload.length ≤ 16 := by
  constructor
  · intro hsafe
    by_contra hlt
    exact hsafe.ne_none (checkedPublishTopicId_of_lt h0 h2 (Nat.not_le.mp hlt))
  · intro h
    refine (checkedPublishTopicId_of_le h0 h2 h).mono fun r hr ↦ Or.inr ⟨_, hr.2, ?_⟩
    exact encodes_publishPacket h0 h2 h

/-- An array that holds zeros. -/
def SendBuffer.zero : SendBuffer := Buffer.fill _ 0

theorem publishSound_hi :
    PublishSound Client.boot SendBuffer.zero ⟨5, [104, 105], 1, 1⟩ false 0 true :=
  (publishSound_iff (p := ⟨5, [104, 105], 1, 1⟩) (by decide) (by decide)).mpr (by decide)

/-- A payload of 17 bytes is written past the end of the array. -/
theorem not_publishSound : ¬PublishSound Client.boot SendBuffer.zero
    ⟨5, List.replicate 17 48, 0, 0⟩ false 0 true :=
  fun h ↦ h.ne_none (checkedPublishTopicId_of_lt (by decide) (by decide) (by decide))

end Emcs.Arduino
