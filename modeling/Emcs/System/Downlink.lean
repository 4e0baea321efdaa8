import Emcs.Paho.Runs
import Emcs.System.Uplink

/-!
# From the gateway to an Arduino

What an Arduino sees in a datagram of the gateway: an acknowledgement with the ids that the gateway
wrote, or a command. A datagram that does not fit the length byte of the Arduino does not arrive;
one that does has its own length in one byte, too.

## The proof

A reply is written by its serializer and read by the handlers of the Arduino at fixed places. For
the acknowledgements the fields at these places are the arguments of the serializer; for a PUBLISH
the payload is what stands behind the header, as far as the display has room. A datagram longer than
the length byte is not among those that arrive, so the form with three bytes for the length plays no
part.
-/

namespace Emcs.System

open Bytes Mqttsn Arduino Paho

/-- The packet that is delivered is the datagram of the reply. -/
def carries (rx : Rx) (reply : SnReply) : Bool :=
  match reply.serialize with
  | .ok d => rx.length.toNat == d.length && rx.data.take d.length == d
  | .error _ => false

theorem carries_iff {rx : Rx} {reply : SnReply} : carries rx reply = true ↔
    ∃ d, reply.serialize = .ok d ∧ rx.length.toNat = d.length ∧ rx.data.take d.length = d := by
  rw [carries]
  split
  · rename_i d hd
    rw [Bool.and_eq_true, beq_iff_eq, beq_iff_eq]
    constructor
    · exact fun h ↦ ⟨d, hd, h⟩
    · rintro ⟨d', hd', h⟩
      cases Except.ok.inj (hd.symm.trans hd')
      exact h
  · rename_i code hcode
    refine iff_of_false Bool.false_ne_true ?_
    rintro ⟨d, hd, -⟩
    exact absurd (hcode.symm.trans hd) (by simp)

/-! ## Datagrams -/

def replyType : SnReply → UInt8
  | .connack _ => MQTTSN_CONNACK
  | .willTopicReq => MQTTSN_WILLTOPICREQ
  | .willMsgReq => MQTTSN_WILLMSGREQ
  | .register .. => MQTTSN_REGISTER
  | .regack .. => MQTTSN_REGACK
  | .publish .. => MQTTSN_PUBLISH
  | .puback .. => MQTTSN_PUBACK
  | .ack type _ => type
  | .suback .. => MQTTSN_SUBACK
  | .unsuback _ => MQTTSN_UNSUBACK
  | .pingresp => MQTTSN_PINGRESP
  | .disconnect => MQTTSN_DISCONNECT
  | .willTopicResp _ => MQTTSN_WILLTOPICRESP
  | .willMsgResp _ => MQTTSN_WILLMSGRESP

/-- A datagram of at most 255 bytes has its length in one byte. -/
theorem bytes_of_serialize {buflen : ℤ} {len : ℕ} {body d : List UInt8}
    (h : Paho.serialize buflen len body = .ok d) (hlen : len = mqttsnPacketLen body.length)
    (h255 : d.length ≤ 255) : d = UInt8.ofNat (body.length + 1) :: body := by
  have heq := serialize_eq h
  have hshort : len = body.length + 1 ∧ ¬len ≥ 255 := by
    rw [heq, List.length_append, mqttsnPacketEncode] at h255
    rw [mqttsnPacketLen] at hlen
    split at hlen <;> split at h255 <;>
      simp only [writeInt, List.length_cons, List.length_nil] at h255 <;> omega
  rw [heq, mqttsnPacketEncode, if_neg hshort.2, hshort.1]
  rfl

/-- The bytes of a PUBLISH. -/
theorem bytes_of_publish {dup retain : Bool} {qos : QoS} {msgId : UInt16} {topic : Topicid}
    {payload d : List UInt8}
    (h : (SnReply.publish dup qos retain msgId topic payload).serialize = .ok d)
    (h255 : d.length ≤ 255) : ∃ n flags first second, d = n :: MQTTSN_PUBLISH :: flags :: first ::
      second :: hi8 msgId :: lo8 msgId :: ((if topic.named qos.val then topic.long else []) ++
        payload) := by
  rw [SnReply.serialize, mqttsnSerializePublish, mqttsnSerializePublishLength, writeInt_eq,
    writeInt_eq] at h
  have hplace : ∃ first second, (if topic.named qos.val = true then writeInt topic.long.length
      else if topic.type = MQTTSN_TOPIC_TYPE_NORMAL ∨ topic.type = MQTTSN_TOPIC_TYPE_PREDEFINED then
        [hi8 topic.id, lo8 topic.id]
      else [topic.shortName.1, topic.shortName.2]) = [first, second] := by
    split
    · exact ⟨_, _, rfl⟩
    split
    · exact ⟨_, _, rfl⟩
    · exact ⟨_, _, rfl⟩
  obtain ⟨first, second, hplace⟩ := hplace
  have hname : (if topic.named qos.val = true then 6 + topic.long.length else 6)
      = 6 + (if topic.named qos.val = true then topic.long else []).length := by
    split
    · rfl
    · rfl
  rw [hplace, hname, List.append_assoc] at h
  refine ⟨_, _, first, second, bytes_of_serialize h ?_ h255⟩
  simp only [List.length_append, List.length_cons]
  congr 1
  omega

/-- **The type of a datagram** is the type of the reply. -/
theorem type_of_serialize {reply : SnReply} {d : List UInt8} (h : reply.serialize = .ok d)
    (h255 : d.length ≤ 255) : ∃ n rest, d = n :: replyType reply :: rest := by
  have hshape {buflen : ℤ} {len : ℕ} {body : List UInt8}
      (hs : Paho.serialize buflen len body = .ok d)
      (hlen : len = mqttsnPacketLen body.length) : ∃ n, d = n :: body :=
    ⟨_, bytes_of_serialize hs hlen h255⟩
  cases reply with
  | register topicId msgId topicName =>
    rw [SnReply.serialize, mqttsnSerializeRegister] at h
    obtain ⟨n, heq⟩ := hshape h (by simp [writeInt])
    exact ⟨n, _, heq⟩
  | publish dup qos retain msgId topic payload =>
    obtain ⟨n, flags, first, second, heq⟩ := bytes_of_publish h h255
    exact ⟨n, _, heq⟩
  | _ =>
    simp only [SnReply.serialize, mqttsnSerializeConnack, mqttsnSerializeEmpty,
      mqttsnSerializeRegack, mqttsnSerializePuback, mqttsnSerializeAck, mqttsnSerializeSuback,
      mqttsnSerializeUnsuback, mqttsnSerializeDisconnect, mqttsnSerializeResp] at h
    obtain ⟨n, heq⟩ := hshape h rfl
    exact ⟨n, _, heq⟩

theorem bytes_of_regack {topicId msgId : UInt16} {rc : UInt8} {d : List UInt8}
    (h : (SnReply.regack topicId msgId rc).serialize = .ok d) :
    d = regackPacket topicId msgId rc := by
  rw [SnReply.serialize, mqttsnSerializeRegack, writeInt_eq, writeInt_eq] at h
  exact serialize_eq h

theorem bytes_of_suback {qos : QoS} {topicId msgId : UInt16} {rc : UInt8} {d : List UInt8}
    (h : (SnReply.suback qos topicId msgId rc).serialize = .ok d) :
    ∃ flags, d = subackPacket flags topicId msgId rc := by
  rw [SnReply.serialize, mqttsnSerializeSuback, writeInt_eq, writeInt_eq] at h
  exact ⟨_, serialize_eq h⟩

/-! ## What arrives -/

theorem data_of_carries {rx : Rx} {reply : SnReply} (h : carries rx reply = true) :
    ∃ d, reply.serialize = .ok d ∧ d.length ≤ 255 ∧ rx.length.toNat = d.length ∧
      ∀ k < d.length, rx.data.getD k 0 = d.getD k 0 := by
  obtain ⟨d, hd, hlen, htake⟩ := carries_iff.mp h
  refine ⟨d, hd, ?_, hlen, fun k hk ↦ getD_of_take htake hk⟩
  rw [← hlen]
  exact Nat.le_of_lt_succ rx.length.toNat_lt

theorem type_of_carries {rx : Rx} {reply : SnReply} (h : carries rx reply = true) :
    rx.data.getD 1 0 = replyType reply := by
  obtain ⟨d, hd, h255, -, hdata⟩ := data_of_carries h
  obtain ⟨n, rest, rfl⟩ := type_of_serialize hd h255
  exact hdata 1 (by simp)

variable {common : CommonTopics} {heard : Heard} {b : TopicBook} {reply : SnReply} {rx : Rx}

theorem toSn_ne (t : AckType) :
    t.toSn ≠ MQTTSN_REGACK ∧ t.toSn ≠ MQTTSN_SUBACK ∧ t.toSn ≠ MQTTSN_PUBLISH := by
  cases t <;> decide

theorem regack_of_type (hfits : reply.Fits common heard b) (h : replyType reply = MQTTSN_REGACK) :
    ∃ topicId msgId rc, reply = .regack topicId msgId rc := by
  cases reply with
  | regack topicId msgId rc => exact ⟨topicId, msgId, rc, rfl⟩
  | ack type msgId =>
    obtain ⟨t, rfl, -⟩ := hfits
    exact absurd h (toSn_ne t).1
  | _ => exact absurd h (by simp only [replyType]; decide)

theorem suback_of_type (hfits : reply.Fits common heard b) (h : replyType reply = MQTTSN_SUBACK) :
    ∃ qos topicId msgId rc, reply = .suback qos topicId msgId rc := by
  cases reply with
  | suback qos topicId msgId rc => exact ⟨qos, topicId, msgId, rc, rfl⟩
  | ack type msgId =>
    obtain ⟨t, rfl, -⟩ := hfits
    exact absurd h (toSn_ne t).2.1
  | _ => exact absurd h (by simp only [replyType]; decide)

theorem publish_of_type (hfits : reply.Fits common heard b) (h : replyType reply = MQTTSN_PUBLISH) :
    ∃ dup qos retain msgId topic payload, reply = .publish dup qos retain msgId topic payload := by
  cases reply with
  | publish dup qos retain msgId topic payload =>
    exact ⟨dup, qos, retain, msgId, topic, payload, rfl⟩
  | ack type msgId =>
    obtain ⟨t, rfl, -⟩ := hfits
    exact absurd h (toSn_ne t).2.2
  | _ => exact absurd h (by simp only [replyType]; decide)

/-! ## Acknowledgements -/

/-- The gateway knows the id for the name, or for what a C string shows of the name. -/
def Known (b : TopicBook) (topicId : UInt16) (topicName : List UInt8) : Prop :=
  IdOf .none b topicId topicName ∨ IdOf .none b topicId (cString topicName)

theorem Known.mono {b b' : TopicBook} (hle : b.names <+: b'.names) (topicId : UInt16)
    (topicName : List UInt8) (h : Known b topicId topicName) : Known b' topicId topicName :=
  h.imp (IdOf.mono hle) (IdOf.mono hle)

theorem accepted_of_topicAck {mid tid : UInt16} (h : rx.topicAck = some (false, mid, tid)) :
    rx.data.getD 7 0 = MQTTSN_RETURN_ACCEPTED := by
  rw [Rx.topicAck] at h
  split at h
  · cases h
  split at h
  · split at h <;> cases h
  split at h
  · split at h
    · cases h
    · exact not_not.mp ‹_›
  · cases h

/-- **An acknowledgement of the gateway answers a request**, if the gateway was told nothing but
requests that were made. -/
theorem answers_of_carries {clientId : List UInt8} {requests : List Request}
    (h : carries rx reply = true) (hfits : reply.Fits .none heard b)
    (htold : ∀ packet ∈ heard.client, Told (Known b) clientId requests packet) :
    Answers (Known b) requests rx := by
  intro sender mid tid hack
  obtain ⟨d, hd, -, -, hdata⟩ := data_of_carries h
  have htype := type_of_carries h
  rcases of_topicAck hack with ⟨rfl, hregack, hmid, htid⟩ | ⟨rfl, hsuback, hmid, htid⟩
  · obtain ⟨topicId, msgId, rc, rfl⟩ := regack_of_type hfits (htype.symm.trans hregack)
    have hbytes := bytes_of_regack hd
    subst hbytes
    have hbyte (k : ℕ) (hk : k < 7) :
        rx.data.getD k 0 = (regackPacket topicId msgId rc).getD k 0 := hdata k hk
    have hmsgId : be16 (hi8 msgId) (lo8 msgId) = mid := by
      rw [← hmid, hbyte 4 (by decide), hbyte 5 (by decide)]
      rfl
    have htopicId : be16 (hi8 topicId) (lo8 topicId) = tid := by
      rw [← htid, hbyte 2 (by decide), hbyte 3 (by decide)]
      rfl
    rw [be16_hi8_lo8] at hmsgId htopicId
    obtain ⟨_, name, hmem, hid⟩ := hfits
    exact ⟨_, htold _ hmem, rfl, hmsgId, Or.inr (htopicId ▸ hid)⟩
  · obtain ⟨qos, topicId, msgId, rc, rfl⟩ := suback_of_type hfits (htype.symm.trans hsuback)
    obtain ⟨flags, rfl⟩ := bytes_of_suback hd
    have hbyte (k : ℕ) (hk : k < 8) :
        rx.data.getD k 0 = (subackPacket flags topicId msgId rc).getD k 0 := hdata k hk
    have hmsgId : be16 (hi8 msgId) (lo8 msgId) = mid := by
      rw [← hmid, hbyte 5 (by decide), hbyte 6 (by decide)]
      rfl
    have htopicId : be16 (hi8 topicId) (lo8 topicId) = tid := by
      rw [← htid, hbyte 3 (by decide), hbyte 4 (by decide)]
      rfl
    rw [be16_hi8_lo8] at hmsgId htopicId
    have hrc : rc = MQTTSN_RETURN_ACCEPTED := by
      rw [← accepted_of_topicAck hack, hbyte 7 (by decide)]
      rfl
    obtain ⟨⟨_, topicFilter, _, hmem, hid⟩, -⟩ := hfits hrc
    obtain ⟨hnormal, hrequest⟩ := htold _ hmem
    exact ⟨_, hrequest, rfl, hmsgId, htopicId ▸ hid hnormal⟩

/-! ## Commands -/

/-- The command that a message has: what fits the buffer of the sketch, up to its first NUL. -/
def command (payload : List UInt8) : List UInt8 := (payload.take 31).takeWhile (· != 0)

/-- The packet that shows a command is a PUBLISH. -/
theorem shown_of_udpRecv {c : Arduino.Client} {msg : List UInt8}
    (h : .showCmd msg ∈ (udpRecvCallbackArduino c rx).2) :
    rx.data.getD 1 0 = MQTTSN_MSG_TYPE_PUBLISH ∧
      msg = ((rx.data.drop 7).take (min (rx.length.toNat - 7) 31)).takeWhile (· != 0) := by
  revert h
  have hnone {Q : Prop} (h : .showCmd msg ∈ ([] : List Action)) : Q := absurd h List.not_mem_nil
  refine udpRecv_rule (P := fun r ↦ .showCmd msg ∈ r.2 →
    rx.data.getD 1 0 = MQTTSN_MSG_TYPE_PUBLISH ∧
    msg = ((rx.data.drop 7).take (min (rx.length.toNat - 7) 31)).takeWhile (· != 0))
    hnone (fun _ ↦ hnone) (fun _ ↦ hnone) (fun _ ↦ hnone) (fun _ h ↦ ?_) (fun _ ↦ hnone)
    (fun _ ↦ hnone) (fun hpublish h ↦ ?_) (fun _ ↦ hnone)
  · rw [handlePubrec, List.mem_singleton] at h
    cases h
  · rw [Arduino.handlePublish] at h
    split at h
    · exact hnone h
    · rename_i hlong
      have hle : 7 ≤ rx.length := UInt8.not_lt.mp hlong
      rw [List.mem_singleton] at h
      rw [Action.showCmd.inj h, UInt8.toNat_sub_of_le _ _ hle]
      exact ⟨hpublish.2, rfl⟩

/-- **A command that is shown is one of a message of the broker.** -/
theorem exists_publish_of_shown {c : Arduino.Client} {msg : List UInt8}
    (hshown : .showCmd msg ∈ (udpRecvCallbackArduino c rx).2) (h : carries rx reply = true)
    (hfits : reply.Fits common heard b) :
    ∃ pub, .publish pub ∈ heard.broker ∧ msg = command pub.payload := by
  obtain ⟨hpublish, hmsg⟩ := shown_of_udpRecv hshown
  obtain ⟨d, hd, hlen, htake⟩ := carries_iff.mp h
  have h255 : d.length ≤ 255 := hlen ▸ Nat.le_of_lt_succ rx.length.toNat_lt
  obtain ⟨dup, qos, retain, msgId, topic, payload, rfl⟩ :=
    publish_of_type hfits ((type_of_carries h).symm.trans hpublish)
  obtain ⟨n, flags, first, second, hbytes⟩ := bytes_of_publish hd h255
  obtain ⟨pub, hmem, topicid, hreply, hlong, -⟩ := hfits
  cases hreply
  refine ⟨pub, hmem, ?_⟩
  have hdrop : (rx.data.drop 7).take (d.length - 7) = pub.payload := by
    rw [← List.drop_take, htake, hbytes, hlong, ite_self]
    rfl
  rw [hmsg, hlen, Nat.min_comm, ← List.take_take, hdrop]
  rfl

end Emcs.System
