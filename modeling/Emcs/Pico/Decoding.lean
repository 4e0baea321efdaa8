import Emcs.Paho.Packet
import Emcs.Pico.Client

/-!
# The packets of the gateway at the Pico

The serializers of the gateway's library against `udp_recv_callback`. A handler takes some fields
from the packet and acts on them; the callback is the one after the other (`udpRecvCallback_eq`).

The library writes a length of 255 and more into three bytes. The client knows the form with one
byte only: it takes the first byte for the length and the second for the type. Every packet but a
long PUBLISH has the short form.

## The proof

Each serializer is brought to a closed form, a list of bytes, from which both the fields taken and
the discarding by `drop_acks` can be read. The bytes behind the packet matter only to a PUBLISH,
whose payload ends at the length that the first byte gives. That a long PUBLISH is not covered is no
accident of the proof: the client takes its first byte, a 1, for the length (`extract_long`).
-/

namespace Emcs.Pico

open Bytes Mqttsn Paho

/-! ## Fields -/

/-- What the handler of a type takes from a packet. -/
inductive Received where
  | pingresp
  | connack (returnCode : UInt8)
  | suback (flags : UInt8) (topicId msgId : UInt16) (returnCode : UInt8)
  | regack (topicId msgId : UInt16) (returnCode : UInt8)
  | publish (qos : UInt8) (topicId msgId : UInt16) (payload : List UInt8)
  | puback (msgId : UInt16)
  | pubcomp (msgId : UInt16)
  | pubrec (msgId : UInt16)
  | pubrel (msgId : UInt16)
  deriving DecidableEq

/-- The handler that the packet is dispatched to, with the fields that it takes. There is none for
an unknown type, and a handler may return at its check of the length. -/
def extract (d : List UInt8) : Option Received :=
  let length := d.getD 0 0
  let mt := d.getD 1 0
  if mt = MQTTSN_MSG_TYPE_PINGRESP then some .pingresp
  else if mt = MQTTSN_MSG_TYPE_CONNACK then some (.connack (d.getD 2 0))
  else if mt = MQTTSN_MSG_TYPE_SUBACK then
    some (.suback (d.getD 2 0) (be16 (d.getD 3 0) (d.getD 4 0)) (be16 (d.getD 5 0) (d.getD 6 0))
      (d.getD 7 0))
  else if mt = MQTTSN_MSG_TYPE_REGACK then
    if length < 7 then none
    else
      some (.regack (be16 (d.getD 2 0) (d.getD 3 0)) (be16 (d.getD 4 0) (d.getD 5 0)) (d.getD 6 0))
  else if mt = MQTTSN_MSG_TYPE_PUBLISH then
    if length < 7 then none
    else
      let qos := (d.getD 2 0 >>> MQTTSN_QOS_SHIFT) &&& MQTTSN_FLAG_QOS_MASK
      some (.publish qos (be16 (d.getD 3 0) (d.getD 4 0)) (be16 (d.getD 5 0) (d.getD 6 0))
        ((d.drop 7).take (length - 7).toNat))
  else if mt = MQTTSN_MSG_TYPE_PUBACK then some (.puback (be16 (d.getD 4 0) (d.getD 5 0)))
  else if mt = MQTTSN_MSG_TYPE_PUBCOMP then some (.pubcomp (be16 (d.getD 2 0) (d.getD 3 0)))
  else if mt = MQTTSN_MSG_TYPE_PUBREC then some (.pubrec (be16 (d.getD 2 0) (d.getD 3 0)))
  else if mt = MQTTSN_MSG_TYPE_PUBREL then some (.pubrel (be16 (d.getD 2 0) (d.getD 3 0)))
  else none

/-- What the handlers do with the fields. -/
def Received.handle (c : Client) (clock : ℕ → ℕ) (ok : Bool) : Received → Client × List Action
  | .pingresp => (handlePingresp c (clock 0), [])
  | .connack returnCode =>
    ({ c with
      pingAckReceived := true
      customTopics :=
        if returnCode = MQTTSN_RETURN_ACCEPTED then Vector.replicate _ TopicEntry.zero
        else c.customTopics }, [])
  | .suback _ topicId _ returnCode =>
    (if returnCode ≠ MQTTSN_RETURN_ACCEPTED then c
      else { c with customTopics := completeTopic false clock topicId c.customTopics }, [])
  | .regack topicId _ returnCode =>
    (if returnCode ≠ MQTTSN_RETURN_ACCEPTED then c
      else { c with customTopics := completeTopic true clock topicId c.customTopics }, [])
  | .publish qos topicId msgId payload =>
    (c, (if payload = cstr "led on" then [Action.led true]
      else if payload = cstr "led off" then [Action.led false]
      else []) ++ sendQosAck qos topicId msgId ok)
  | .puback msgId => (removePendingQosMsg c msgId, [])
  | .pubcomp msgId => (removePendingQosMsg c msgId, [])
  | .pubrec msgId =>
    ({ c with pendingMsgs := markReceived msgId (clock 0) c.pendingMsgs },
      [.send (pubrelPacket msgId) ok])
  | .pubrel msgId => (c, [.send (pubcompPacket msgId) ok])

/-- The rest of the callback after the header. -/
def respond (c : Client) (clock : ℕ → ℕ) (ok : Bool) : Option Received → Client × List Action
  | none => (c, [])
  | some r => r.handle c clock ok

/-- **The callback takes the fields and acts on them**, where the packet has a header and the
`drop_acks` hook lets it through. -/
theorem udpRecvCallback_eq (c : Client) (rx : Rx) : udpRecvCallback c rx =
    if rx.len < MQTTSN_HEADER_SIZE then (c, [])
    else if c.dropAcks && isQosAck (rx.data.getD 1 0) then (c, [])
    else respond c rx.clock rx.ok (extract rx.data) := by
  have hregack : (handleRegack c rx.data (rx.data.getD 0 0) rx.clock, ([] : List Action)) =
      if rx.data.getD 0 0 < 7 then respond c rx.clock rx.ok none
      else respond c rx.clock rx.ok (some (.regack (be16 (rx.data.getD 2 0) (rx.data.getD 3 0))
        (be16 (rx.data.getD 4 0) (rx.data.getD 5 0)) (rx.data.getD 6 0))) := by
    rw [handleRegack]
    split
    · rfl
    · rfl
  have hpublish : (c, handlePublishReceived rx.data (rx.data.getD 0 0) rx.ok) =
      if rx.data.getD 0 0 < 7 then respond c rx.clock rx.ok none
      else respond c rx.clock rx.ok (some (.publish
        ((rx.data.getD 2 0 >>> MQTTSN_QOS_SHIFT) &&& MQTTSN_FLAG_QOS_MASK)
        (be16 (rx.data.getD 3 0) (rx.data.getD 4 0)) (be16 (rx.data.getD 5 0) (rx.data.getD 6 0))
        ((rx.data.drop 7).take (rx.data.getD 0 0 - 7).toNat))) := by
    rw [handlePublishReceived]
    split
    · rfl
    · rfl
  simp only [udpRecvCallback, extract, apply_ite (respond c rx.clock rx.ok), ← hregack, ← hpublish]
  rfl

/-! ## From the gateway -/

/-- A call of a serializer, with the fields that the packet is to carry. -/
inductive Incoming where
  | publish (dup : UInt8) (qos : ℤ) (retained : UInt8) (topicId msgId : UInt16)
      (payload : List UInt8)
  | puback (topicId msgId : UInt16) (returnCode : UInt8)
  | pubrec (msgId : UInt16)
  | pubrel (msgId : UInt16)
  | pubcomp (msgId : UInt16)
  | regack (topicId msgId : UInt16) (returnCode : UInt8)
  | suback (qos : ℤ) (topicId msgId : UInt16) (returnCode : UInt8)
  | connack (returnCode : UInt8)

/-- A normal topic id; what the other members of the union hold does not matter. -/
def normalTopic (topicId : UInt16) : Topicid := ⟨MQTTSN_TOPIC_TYPE_NORMAL, topicId, (0, 0), []⟩

def Incoming.serialize (buflen : ℤ) : Incoming → Except ℤ (List UInt8)
  | .publish dup qos retained topicId msgId payload =>
    mqttsnSerializePublish buflen dup qos retained msgId (normalTopic topicId) payload
  | .puback topicId msgId returnCode => mqttsnSerializePuback buflen topicId msgId returnCode
  | .pubrec msgId => mqttsnSerializePubrec buflen msgId
  | .pubrel msgId => mqttsnSerializePubrel buflen msgId
  | .pubcomp msgId => mqttsnSerializePubcomp buflen msgId
  | .regack topicId msgId returnCode => mqttsnSerializeRegack buflen topicId msgId returnCode
  | .suback qos topicId msgId returnCode =>
    mqttsnSerializeSuback buflen qos topicId msgId returnCode
  | .connack returnCode => mqttsnSerializeConnack buflen returnCode.toNat

def Incoming.ValidQos : Incoming → Prop
  | .publish _ qos .. => 0 ≤ qos ∧ qos ≤ 2
  | .suback qos .. => 0 ≤ qos ∧ qos ≤ 2
  | _ => True

/-- The fields as the handler of the type has to take them. The handler of PUBACK takes the message
id only, and that of SUBACK the flags as they are. -/
def Incoming.received : Incoming → Received
  | .publish _ qos _ topicId msgId payload => .publish (UInt8.ofNat qos.toNat) topicId msgId payload
  | .puback _ msgId _ => .puback msgId
  | .pubrec msgId => .pubrec msgId
  | .pubrel msgId => .pubrel msgId
  | .pubcomp msgId => .pubcomp msgId
  | .regack topicId msgId returnCode => .regack topicId msgId returnCode
  | .suback qos topicId msgId returnCode => .suback (getQosFlags qos 0) topicId msgId returnCode
  | .connack returnCode => .connack returnCode

/-- The packet has the short form. -/
def Incoming.Short : Incoming → Prop
  | .publish _ _ _ _ _ payload => payload.length ≤ 247
  | _ => True

/-- The `drop_acks` hook discards the packet. -/
def Incoming.dropped (c : Client) : Incoming → Bool
  | .puback .. => c.dropAcks
  | .pubrec .. => c.dropAcks
  | .pubcomp .. => c.dropAcks
  | _ => false

theorem named_normalTopic {qos : ℤ} (h2 : qos ≤ 2) (topicId : UInt16) :
    (normalTopic topicId).named qos = false := by
  have hne : qos ≠ 3 := by omega
  rw [Topicid.named, beq_false_of_ne hne, Bool.and_false]

/-- The whole packet of a PUBLISH to a normal topic id. -/
theorem serializePublish_eq {buflen : ℤ} {dup retained : UInt8} {qos : ℤ} {topicId msgId : UInt16}
    {payload d : List UInt8} (h2 : qos ≤ 2)
    (h : mqttsnSerializePublish buflen dup qos retained msgId (normalTopic topicId) payload =
      .ok d) :
    d = mqttsnPacketEncode (mqttsnPacketLen (payload.length + 6)) ++
      [MQTTSN_PUBLISH, Flags.all ⟨MQTTSN_TOPIC_TYPE_NORMAL, 0, 0, retained, UInt8.ofInt qos, dup⟩,
        hi8 topicId, lo8 topicId, hi8 msgId, lo8 msgId] ++ payload := by
  rw [mqttsnSerializePublish, mqttsnSerializePublishLength, named_normalTopic h2] at h
  rw [serialize_eq h]
  simp [normalTopic, writeInt_eq]

theorem extract_of_publish {d : List UInt8} (h : d.getD 1 0 = MQTTSN_MSG_TYPE_PUBLISH) :
    extract d = if d.getD 0 0 < 7 then none else
      some (.publish ((d.getD 2 0 >>> MQTTSN_QOS_SHIFT) &&& MQTTSN_FLAG_QOS_MASK)
        (be16 (d.getD 3 0) (d.getD 4 0)) (be16 (d.getD 5 0) (d.getD 6 0))
        ((d.drop 7).take (d.getD 0 0 - 7).toNat)) := by
  rw [extract, h]
  rfl

/-- The short form of a PUBLISH, with what stands behind it. -/
theorem extract_short {qos : ℤ} {dup retained : UInt8} {topicId msgId : UInt16}
    {payload behind : List UInt8} (h0 : 0 ≤ qos) (h2 : qos ≤ 2) (hlen : payload.length ≤ 247) :
    extract (UInt8.ofNat (payload.length + 7) :: MQTTSN_PUBLISH ::
      Flags.all ⟨MQTTSN_TOPIC_TYPE_NORMAL, 0, 0, retained, UInt8.ofInt qos, dup⟩ ::
      hi8 topicId :: lo8 topicId :: hi8 msgId :: lo8 msgId :: (payload ++ behind)) =
      some (.publish (UInt8.ofNat qos.toNat) topicId msgId payload) := by
  have hto : (UInt8.ofNat (payload.length + 7)).toNat = payload.length + 7 := by
    rw [UInt8.toNat_ofNat', Nat.mod_eq_of_lt (by omega)]
  have hlt : ¬ UInt8.ofNat (payload.length + 7) < 7 := by
    rw [UInt8.lt_iff_toNat_lt, hto]
    change ¬ _ < 7
    omega
  have hsub : (UInt8.ofNat (payload.length + 7) - 7).toNat = payload.length := by
    rw [UInt8.toNat_sub_of_le _ _ (UInt8.not_lt.mp hlt), hto]
    rfl
  rw [extract_of_publish rfl]
  refine (if_neg hlt).trans (congrArg some ?_)
  change Received.publish _ (be16 (hi8 topicId) (lo8 topicId)) (be16 (hi8 msgId) (lo8 msgId))
    ((payload ++ behind).take (UInt8.ofNat (payload.length + 7) - 7).toNat) = _
  rw [be16_hi8_lo8, be16_hi8_lo8, hsub, List.take_left']
  · exact congrArg (Received.publish · topicId msgId payload) (qos_all h0 h2 retained dup)
  · rfl

/-- In the long form the client reads a length of one: no handler takes a PUBLISH from it. -/
theorem extract_long (rest : List UInt8) (qos : UInt8) (topicId msgId : UInt16)
    (payload : List UInt8) : extract (1 :: rest) ≠ some (.publish qos topicId msgId payload) := by
  intro h
  by_cases htype : (1 :: rest).getD 1 0 = MQTTSN_MSG_TYPE_PUBLISH
  -- the second byte of the long form may happen to be the type: then the length check fails
  · rw [extract_of_publish htype] at h
    exact Option.some_ne_none _ (h.symm.trans (if_pos (by decide : (1 : UInt8) < 7)))
  · rw [extract] at h
    simp only [htype, if_false] at h
    grind

theorem callback_of_extract {c : Client} {rx : Rx} {r : Received} (hlen : 2 ≤ rx.len)
    (hdrop : (c.dropAcks && isQosAck (rx.data.getD 1 0)) = false) (h : extract rx.data = some r) :
    udpRecvCallback c rx = r.handle c rx.clock rx.ok := by
  have hheader : ¬ rx.len < MQTTSN_HEADER_SIZE := by
    rw [MQTTSN_HEADER_SIZE]
    omega
  rw [udpRecvCallback_eq, if_neg hheader, hdrop, if_neg Bool.false_ne_true, h]
  rfl

theorem serializeAck_eq {buflen : ℤ} {type : UInt8} {msgId : UInt16} {d : List UInt8}
    (h : mqttsnSerializeAck buflen type msgId = .ok d) : d = [4, type, hi8 msgId, lo8 msgId] := by
  rw [serialize_eq h, writeInt_eq]
  rfl

/-- The library writes the QoS of a SUBACK to the bits where the client has it. -/
theorem flags_suback {qos : ℤ} (h0 : 0 ≤ qos) (h2 : qos ≤ 2) :
    Flags.all ⟨0, 0, 0, 0, UInt8.ofInt qos, 0⟩ = getQosFlags qos 0 := by
  have hcases : qos = 0 ∨ qos = 1 ∨ qos = 2 := by omega
  rcases hcases with rfl | rfl | rfl
  all_goals decide

theorem ofInt_toNat (a : UInt8) : UInt8.ofInt a.toNat = a := by
  have hlt := a.toNat_lt
  have hmod : ((a.toNat : ℤ) % 2 ^ 8).toNat = a.toNat := by omega
  rw [UInt8.ofInt, hmod]
  exact UInt8.ofNat_toNat

/-- The fields of every packet, and what the `drop_acks` hook makes of it. -/
theorem extract_of_serialize {x : Incoming} {buflen : ℤ} {d : List UInt8} (behind : List UInt8)
    (hqos : x.ValidQos) (h : x.serialize buflen = .ok d) (hshort : x.Short) :
    2 ≤ d.length ∧ extract (d ++ behind) = some x.received ∧
      ∀ c : Client, (c.dropAcks && isQosAck ((d ++ behind).getD 1 0)) = x.dropped c := by
  cases x with
  | publish dup qos retained topicId msgId payload =>
    have hlen : payload.length ≤ 247 := hshort
    have hd := serializePublish_eq hqos.2 h
    rw [mqttsnPacketLen, if_neg (by omega), mqttsnPacketEncode, if_neg (by omega)] at hd
    rw [hd]
    refine ⟨by simp, ?_, fun c ↦ Bool.and_false _⟩
    rw [List.append_assoc]
    exact extract_short hqos.1 hqos.2 hlen
  | puback topicId msgId returnCode =>
    have hd : d = pubackPacket topicId msgId returnCode := by
      rw [serialize_eq h, writeInt_eq, writeInt_eq]
      rfl
    rw [hd]
    refine ⟨by simp [pubackPacket], ?_, fun c ↦ Bool.and_true _⟩
    exact congrArg (fun mid ↦ some (Received.puback mid)) (be16_hi8_lo8 msgId)
  | pubrec msgId =>
    rw [serializeAck_eq h]
    refine ⟨by simp, ?_, fun c ↦ Bool.and_true _⟩
    exact congrArg (fun mid ↦ some (Received.pubrec mid)) (be16_hi8_lo8 msgId)
  | pubrel msgId =>
    rw [serializeAck_eq h]
    refine ⟨by simp, ?_, fun c ↦ Bool.and_false _⟩
    exact congrArg (fun mid ↦ some (Received.pubrel mid)) (be16_hi8_lo8 msgId)
  | pubcomp msgId =>
    rw [serializeAck_eq h]
    refine ⟨by simp, ?_, fun c ↦ Bool.and_true _⟩
    exact congrArg (fun mid ↦ some (Received.pubcomp mid)) (be16_hi8_lo8 msgId)
  | regack topicId msgId returnCode =>
    have hd : d = regackPacket topicId msgId returnCode := by
      rw [serialize_eq h, writeInt_eq, writeInt_eq]
      rfl
    have hextract : extract (regackPacket topicId msgId returnCode ++ behind) =
        some (.regack (be16 (hi8 topicId) (lo8 topicId)) (be16 (hi8 msgId) (lo8 msgId))
          returnCode) := rfl
    rw [hd]
    refine ⟨by simp [regackPacket], ?_, fun c ↦ Bool.and_false _⟩
    rw [hextract, be16_hi8_lo8, be16_hi8_lo8]
    rfl
  | suback qos topicId msgId returnCode =>
    have hd : d = subackPacket (getQosFlags qos 0) topicId msgId returnCode := by
      rw [serialize_eq h, writeInt_eq, writeInt_eq, flags_suback hqos.1 hqos.2]
      rfl
    have hextract : extract (subackPacket (getQosFlags qos 0) topicId msgId returnCode ++ behind) =
        some (.suback (getQosFlags qos 0) (be16 (hi8 topicId) (lo8 topicId))
          (be16 (hi8 msgId) (lo8 msgId)) returnCode) := rfl
    rw [hd]
    refine ⟨by simp [subackPacket], ?_, fun c ↦ Bool.and_false _⟩
    rw [hextract, be16_hi8_lo8, be16_hi8_lo8]
    rfl
  | connack returnCode =>
    have hd : d = [3, MQTTSN_CONNACK, returnCode] := by
      rw [serialize_eq h, ofInt_toNat]
      rfl
    rw [hd]
    exact ⟨by simp, rfl, fun c ↦ Bool.and_false _⟩

/-- **The Pico takes from a packet of the gateway the fields that it was made of**, if the packet
has the short form and is not discarded on purpose. -/
theorem extract_serialize (c : Client) (x : Incoming) (buflen : ℤ) (d behind : List UInt8)
    (clock : ℕ → ℕ) (ok : Bool) (hqos : x.ValidQos) (h : x.serialize buflen = .ok d)
    (hshort : x.Short) (hdropped : x.dropped c = false) :
    extract (d ++ behind) = some x.received ∧
      udpRecvCallback c ⟨d ++ behind, d.length, clock, ok⟩ = x.received.handle c clock ok := by
  obtain ⟨hlen, hextract, hdrop⟩ := extract_of_serialize behind hqos h hshort
  exact ⟨hextract, callback_of_extract hlen ((hdrop c).trans hdropped) hextract⟩

/-- A PUBLISH with QoS 1 switches the light on and is acknowledged; what stands behind it in the
buffer does not matter. -/
theorem extract_serialize_publish :
    let d := [13, 0x0C, 0x20, 0, 5, 1, 2, 0x6C, 0x65, 0x64, 0x20, 0x6F, 0x6E]
    extract (d ++ [0xFF, 0x0C]) = some (.publish 1 5 0x0102 (cstr "led on")) ∧
      udpRecvCallback Client.boot ⟨d ++ [0xFF, 0x0C], 13, id, true⟩ =
        (Client.boot, .led true :: sendQosAck 1 5 0x0102 true) :=
  extract_serialize Client.boot (.publish 0 1 0 5 0x0102 (cstr "led on")) 255
    [13, 0x0C, 0x20, 0, 5, 1, 2, 0x6C, 0x65, 0x64, 0x20, 0x6F, 0x6E] [0xFF, 0x0C] id true
    ⟨by decide, by decide⟩ (by decide +kernel) (show 6 ≤ 247 by decide) rfl

/-- The long form. Its length field counts two bytes less than the packet has where the payload has
248 bytes. -/
theorem serializePublish_long {buflen : ℤ} {dup retained : UInt8} {qos : ℤ}
    {topicId msgId : UInt16} {payload d : List UInt8} (h2 : qos ≤ 2)
    (hlen : 248 ≤ payload.length)
    (h : (Incoming.publish dup qos retained topicId msgId payload).serialize buflen = .ok d) :
    ∃ rest, d = 1 :: rest ∧ rest.length = payload.length + 8 := by
  have hd := serializePublish_eq h2 h
  have hlong : 255 ≤ mqttsnPacketLen (payload.length + 6) := by
    rw [mqttsnPacketLen]
    split <;> omega
  rw [mqttsnPacketEncode, if_pos hlong] at hd
  exact ⟨_, hd, by simp [writeInt]⟩

theorem exists_serializePublish {buflen : ℤ} {qos : ℤ} {payload : List UInt8} (h2 : qos ≤ 2)
    (hle : (payload.length : ℤ) + 9 ≤ buflen) (dup retained : UInt8) (topicId msgId : UInt16) :
    ∃ d, (Incoming.publish dup qos retained topicId msgId payload).serialize buflen = .ok d := by
  have hcount : mqttsnSerializePublishLength payload.length (normalTopic topicId) qos =
      payload.length + 6 := by
    rw [mqttsnSerializePublishLength, named_normalTopic h2]
    rfl
  have hlen : mqttsnPacketLen (payload.length + 6) ≤ payload.length + 9 := by
    rw [mqttsnPacketLen]
    split
    · omega
    · omega
  refine ⟨_, if_neg ?_⟩
  rw [hcount]
  omega

/-- The client with one message in flight, told to drop acknowledgements. -/
def droppingAcks : Client :=
  { (mqttSnPublishTopicId Client.boot ⟨5, [104, 105], 1, 1⟩ false true 0).1 with dropAcks := true }

/-- A PUBLISH with a payload of 249 bytes reaches no handler, and the `drop_acks` hook keeps a
PUBACK from its handler. -/
theorem long_publish_not_extracted :
    (¬ ∀ (c : Client) (x : Incoming) (buflen : ℤ) (d behind : List UInt8) (clock : ℕ → ℕ)
        (ok : Bool), x.ValidQos → x.serialize buflen = .ok d → d.length ≤ 65507 →
      extract (d ++ behind) = some x.received ∧
        udpRecvCallback c ⟨d ++ behind, d.length, clock, ok⟩ = x.received.handle c clock ok) ∧
    (Incoming.puback 5 1 0).serialize 7 = .ok [7, 0x0D, 0, 5, 0, 1, 0] ∧
    udpRecvCallback droppingAcks ⟨[7, 0x0D, 0, 5, 0, 1, 0], 7, id, true⟩ ≠
      (Received.puback 1).handle droppingAcks id true := by
  refine ⟨fun h ↦ ?_, by decide, fun h ↦ ?_⟩
  · let payload : List UInt8 := List.replicate 249 97
    have hpayload : payload.length = 249 := List.length_replicate
    have hqos : (0 : ℤ) ≤ 1 ∧ (1 : ℤ) ≤ 2 := by decide
    have hle : (payload.length : ℤ) + 9 ≤ 300 := by omega
    obtain ⟨d, hd⟩ := exists_serializePublish hqos.2 hle 0 0 5 1
    obtain ⟨rest, rfl, hrest⟩ := serializePublish_long hqos.2 (by omega) hd
    have hlength : (1 :: rest).length ≤ 65507 := by
      rw [List.length_cons]
      omega
    have hextract := (h Client.boot (.publish 0 1 0 5 1 payload) 300 _ [] id true hqos hd hlength).1
    exact extract_long _ _ _ _ _ hextract
  · have hslot := congrArg (fun r ↦ r.1.pendingMsgs[0].inUse) h
    exact absurd hslot (by decide +kernel)

end Emcs.Pico
