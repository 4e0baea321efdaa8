import Emcs.Paho.Client

/-!
# Datagrams of the gateway

What `MQTTSNPacket` in `MQTTSNGWPacket.cpp` reads in a datagram of a client and writes into one for
a client, over `MQTTSNConnectServer.c`, `MQTTSNUnsubscribeServer.c` and the rest of the packet
library.

A packet is copied to the heap, where its length may lead a deserializer to the byte behind it, and
`strchr` farther. Left out are packets with a string or payload of negative length, that is,
packets whose length ends before it begins; and what follows when a packet is too long for the
buffer of a serializer, whose error code the gateway takes for a length.

## The construction

`SnPacket.read` goes by the type of the datagram and calls the deserializer for it on the memory
that `Around` describes: the datagram with arbitrary bytes before and behind it. So nothing is
assumed of what a heap block is surrounded by, and a result that depends on it shows that it does.
`SnReply.serialize` is the other way. For the packets of this system, which are short, both have
closed forms in the last section.
-/

namespace Emcs.Paho

open Bytes

def MQTTSNGW_MAX_PACKET_SIZE : ℤ := 1024

def MQTTSN_PROTOCOL_VERSION : UInt8 := 0x01

def MQTTSN_WILLTOPICREQ : UInt8 := 0x06

def MQTTSN_WILLMSGREQ : UInt8 := 0x08

def MQTTSN_UNSUBACK : UInt8 := 0x15

def MQTTSN_WILLTOPICRESP : UInt8 := 0x1B

def MQTTSN_WILLMSGRESP : UInt8 := 0x1D

/-! ## Reading -/

structure ConnectData where
  cleansession : UInt8
  willFlag : UInt8
  duration : UInt16
  clientID : Slice
  deriving DecidableEq

/-- `MQTTSNDeserialize_connect`, which does not compare the length in the packet with `len`. -/
def mqttsnDeserializeConnect (buf : Memory) (len : ℤ) : Option ConnectData :=
  let r := mqttsnPacketDecode buf len 0
  if r.2 - r.1 < 2 then none
  else if buf r.1 ≠ MQTTSN_CONNECT then none
  else if buf (r.1 + 2) ≠ MQTTSN_PROTOCOL_VERSION then none
  else
    let flags := Flags.ofAll (buf (r.1 + 1))
    some ⟨flags.cleanSession, flags.will, readShort buf (r.1 + 3), ⟨r.1 + 5, r.2 - (r.1 + 5)⟩⟩

/-- `MQTTSNDeserialize_disconnect`. -/
def mqttsnDeserializeDisconnect (buf : Memory) (buflen : ℤ) : Option UInt16 :=
  let r := mqttsnPacketDecode buf buflen 0
  if r.2 - r.1 < 1 then none
  else if buf r.1 ≠ MQTTSN_DISCONNECT then none
  else if r.2 - (r.1 + 1) = 2 then some (readShort buf (r.1 + 1))
  else if r.2 ≠ r.1 + 1 then none
  else some 0

structure WilltopicData where
  willQoS : UInt8
  willRetain : UInt8
  willTopic : Slice
  deriving DecidableEq

def mqttsnDeserializeWilltopic (buf : Memory) (len : ℤ) : Option WilltopicData :=
  let r := mqttsnPacketDecode buf len 0
  if r.2 > len then none
  else if buf r.1 ≠ MQTTSN_WILLTOPIC then none
  else
    let flags := Flags.ofAll (buf (r.1 + 1))
    some ⟨flags.qos, flags.retain, ⟨r.1 + 2, r.2 - (r.1 + 2)⟩⟩

def mqttsnDeserializeWillmsg (buf : Memory) (len : ℤ) : Option Slice :=
  let r := mqttsnPacketDecode buf len 0
  if r.2 > len then none
  else if buf r.1 ≠ MQTTSN_WILLMSG then none
  else some ⟨r.1 + 1, r.2 - (r.1 + 1)⟩

/-- `MQTTSNDeserialize_regack`, which reads the fields of a PUBACK. -/
def mqttsnDeserializeRegack (buf : Memory) (buflen : ℤ) : Option PubackData :=
  (readHeader buf buflen (· == MQTTSN_REGACK)).map fun (cur, _) ↦
    ⟨readShort buf cur, readShort buf (cur + 2), buf (cur + 4)⟩

structure UnsubscribeData where
  packetid : UInt16
  topicType : UInt8
  topicFilter : TopicData
  deriving DecidableEq

def mqttsnDeserializeUnsubscribe (buf : Memory) (buflen : ℤ) : Option UnsubscribeData :=
  (readHeader buf buflen (· == MQTTSN_UNSUBSCRIBE)).map fun (cur, enddata) ↦
    let flags := Flags.ofAll (buf cur)
    let topicFilter := if flags.topicIdType = MQTTSN_TOPIC_TYPE_NORMAL then
        TopicData.long ⟨cur + 3, enddata - (cur + 3)⟩
      else if flags.topicIdType = MQTTSN_TOPIC_TYPE_PREDEFINED then .id (readShort buf (cur + 3))
      else if flags.topicIdType = MQTTSN_TOPIC_TYPE_SHORT then
        .shortName (buf (cur + 3)) (buf (cur + 4))
      else .unset
    ⟨readShort buf (cur + 1), flags.topicIdType, topicFilter⟩

/-! ## A packet on the heap -/

/-- What the memory holds around a packet: the byte in front of it, and the bytes behind it up to
the next NUL. A pointer to the name in it has the low half `pointer`, and a `MQTTSN_topicid` on the
stack that is not filled in has the low half `stale`. -/
structure Around where
  before : UInt8
  beyond : List UInt8
  pointer : UInt16
  stale : UInt16

def Around.memory (a : Around) (datagram : List UInt8) : Memory := fun i ↦
  if i < 0 then a.before else (datagram ++ a.beyond).getD i.toNat 0

/-- `getType`. -/
def mqttsnPacketGetType (buf : Memory) (len : ℤ) : UInt8 := buf (mqttsnPacketDecode buf len 0).1

/-- A string of the packet. -/
def Slice.string (s : Slice) (buf : Memory) : Option (List UInt8) :=
  if s.len < 0 then none else some (s.bytes buf)

/-- The union of `MQTTSN_topicid`, of which the first member is the low half of each other. -/
def TopicData.topicid (t : TopicData) (type : UInt8) (a : Around) (buf : Memory) : Option Topicid :=
  let view (id : UInt16) (long : List UInt8) : Topicid := ⟨type, id, (lo8 id, hi8 id), long⟩
  match t with
  | .id topicId => some (view topicId [])
  | .shortName first second => some ⟨type, be16 second first, (first, second), []⟩
  | .long name => (name.string buf).map (view a.pointer)
  | .unset => some (view a.stale [])

/-- The bytes from a string of the packet on, behind it. -/
def TopicData.beyond (t : TopicData) (a : Around) (datagram : List UInt8) : List UInt8 :=
  match t with
  | .long name => (datagram ++ a.beyond).drop (name.start + name.len).toNat
  | _ => []

/-- A QoS of the flags. -/
def QoS.ofFlags (qos : UInt8) : QoS := .ofNat 4 qos.toNat

/-- What the handlers read in a datagram. A packet that its function refuses is `malformed`, and so
is one that has no handler. A string or payload that gets a negative length gives `none`; what the
handlers do with one is left out. -/
def SnPacket.read (datagram : List UInt8) (a : Around) : Option SnPacket :=
  let buf := a.memory datagram
  let len : ℤ := datagram.length
  let type := mqttsnPacketGetType buf len
  let refused := some (SnPacket.malformed type)
  if type = MQTTSN_CONNECT then
    match mqttsnDeserializeConnect buf len with
    | none => refused
    | some d => some (.connect (d.cleansession ≠ 0) (d.willFlag ≠ 0) d.duration)
  else if type = MQTTSN_WILLTOPIC then
    match mqttsnDeserializeWilltopic buf len with
    | none => refused
    | some d => (d.willTopic.string buf).map (.willTopic (.ofFlags d.willQoS) (d.willRetain ≠ 0))
  else if type = MQTTSN_WILLMSG then
    match mqttsnDeserializeWillmsg buf len with
    | none => refused
    | some willmsg => (willmsg.string buf).map .willMsg
  else if type = MQTTSN_DISCONNECT then
    some (.disconnect ((mqttsnDeserializeDisconnect buf len).getD 0))
  else if type = MQTTSN_WILLTOPICUPD then some .willTopicUpd
  else if type = MQTTSN_WILLMSGUPD then some .willMsgUpd
  else if type = MQTTSN_PINGREQ then some .pingreq
  else if type = MQTTSN_PUBLISH then
    match mqttsnDeserializePublish buf len with
    | none => refused
    | some d => do
      let topicid ← d.topic.topicid d.topicType a buf
      let payload ← d.payload.string buf
      some (.publish (d.dup ≠ 0) (.ofFlags d.qos) (d.retained ≠ 0) d.packetid topicid payload)
  else if type = MQTTSN_PUBACK then
    match mqttsnDeserializePuback buf len with
    | none => refused
    | some d => some (.puback d.topicid d.packetid d.returncode)
  else if type = MQTTSN_PUBREC ∨ type = MQTTSN_PUBREL ∨ type = MQTTSN_PUBCOMP then
    match mqttsnDeserializeAck buf len with
    | none => refused
    | some d => some (.ack type d.packetid)
  else if type = MQTTSN_REGISTER then
    match mqttsnDeserializeRegister buf len with
    | none => refused
    | some d => (d.topicname.string buf).map (.register d.topicid d.packetid)
  else if type = MQTTSN_REGACK then
    match mqttsnDeserializeRegack buf len with
    | none => refused
    | some d => some (.regAck d.topicid d.packetid d.returncode)
  else if type = MQTTSN_SUBSCRIBE then
    match mqttsnDeserializeSubscribe buf len with
    | none => refused
    | some d => (d.topicFilter.topicid d.topicType a buf).map fun topicFilter ↦
        .subscribe (.ofFlags d.qos) d.packetid topicFilter (d.topicFilter.beyond a datagram)
  else if type = MQTTSN_UNSUBSCRIBE then
    match mqttsnDeserializeUnsubscribe buf len with
    | none => refused
    | some d => (d.topicFilter.topicid d.topicType a buf).map (.unsubscribe d.packetid)
  else refused

/-! ## Writing -/

def mqttsnSerializeRegister (buflen : ℤ) (topicid packetid : UInt16) (topicname : List UInt8) :
    Except ℤ (List UInt8) :=
  serialize buflen (mqttsnPacketLen (topicname.length + 5))
    (MQTTSN_REGISTER :: writeInt topicid.toNat ++ writeInt packetid.toNat ++ topicname)

def mqttsnSerializeUnsuback (buflen : ℤ) (packetid : UInt16) : Except ℤ (List UInt8) :=
  serialize buflen (mqttsnPacketLen 3) (MQTTSN_UNSUBACK :: writeInt packetid.toNat)

/-- A duration of 0 is not sent. -/
def mqttsnSerializeDisconnect (buflen : ℤ) (duration : UInt16) : Except ℤ (List UInt8) :=
  serialize buflen (mqttsnPacketLen (if duration > 0 then 3 else 1))
    (MQTTSN_DISCONNECT :: if duration > 0 then writeInt duration.toNat else [])

/-- A packet without fields, such as a WILLTOPICREQ. -/
def mqttsnSerializeEmpty (buflen : ℤ) (type : UInt8) : Except ℤ (List UInt8) :=
  serialize buflen 2 [type]

/-- A packet with a return code only, such as a WILLTOPICRESP. -/
def mqttsnSerializeResp (buflen : ℤ) (type rc : UInt8) : Except ℤ (List UInt8) :=
  serialize buflen 3 [type, rc]

def bit (b : Bool) : UInt8 := if b then 1 else 0

/-- The `set` functions, each with a buffer of its own size. -/
def SnReply.serialize : SnReply → Except ℤ (List UInt8)
  | .connack rc => mqttsnSerializeConnack 3 rc.toNat
  | .willTopicReq => mqttsnSerializeEmpty 2 MQTTSN_WILLTOPICREQ
  | .willMsgReq => mqttsnSerializeEmpty 2 MQTTSN_WILLMSGREQ
  | .register topicId msgId topicName =>
    mqttsnSerializeRegister MQTTSNGW_MAX_PACKET_SIZE topicId msgId topicName
  | .regack topicId msgId rc => mqttsnSerializeRegack 7 topicId msgId rc
  | .publish dup qos retain msgId topic payload =>
    mqttsnSerializePublish MQTTSNGW_MAX_PACKET_SIZE (bit dup) qos.val (bit retain) msgId topic
      payload
  | .puback topicId msgId rc => mqttsnSerializePuback 7 topicId msgId rc
  | .ack type msgId => mqttsnSerializeAck 4 type msgId
  | .suback qos topicId msgId rc => mqttsnSerializeSuback 8 qos.val topicId msgId rc
  | .unsuback msgId => mqttsnSerializeUnsuback 4 msgId
  | .pingresp => mqttsnSerializeEmpty 32 MQTTSN_PINGRESP
  | .disconnect => mqttsnSerializeDisconnect 4 0
  | .willTopicResp rc => mqttsnSerializeResp MQTTSNGW_MAX_PACKET_SIZE MQTTSN_WILLTOPICRESP rc
  | .willMsgResp rc => mqttsnSerializeResp MQTTSNGW_MAX_PACKET_SIZE MQTTSN_WILLMSGRESP rc

/-! ## Short packets -/

section Short

variable {buf : Memory} {type : UInt8} {rest : List UInt8} {n : ℕ}

theorem stores_memory (a : Around) (d : List UInt8) : Stores (a.memory d) d := by
  intro i hi
  have hneg : ¬(i : ℤ) < 0 := Int.not_lt.mpr (Int.natCast_nonneg i)
  rw [Around.memory, if_neg hneg, Int.toNat_natCast, List.getD_append _ _ _ _ hi]

theorem packetDecode_short (h : Stores buf (UInt8.ofNat n :: type :: rest))
    (hn : n = rest.length + 2) (h255 : n ≤ 255) : mqttsnPacketDecode buf n 0 = (1, (n : ℤ)) := by
  have hto : (UInt8.ofNat n).toNat = n := by
    rw [UInt8.toNat_ofNat', Nat.mod_eq_of_lt (by omega)]
  have hne : UInt8.ofNat n ≠ 1 := by
    intro heq
    rw [heq] at hto
    change 1 = n at hto
    omega
  have h0 : buf 0 = UInt8.ofNat n := h.byte []
  have hpos : ¬ (n : ℤ) ≤ 0 := by omega
  rw [mqttsnPacketDecode, if_neg hpos, h0, if_neg hne, hto]

theorem packetGetType_short (h : Stores buf (UInt8.ofNat n :: type :: rest))
    (hn : n = rest.length + 2) (h255 : n ≤ 255) : mqttsnPacketGetType buf n = type := by
  rw [mqttsnPacketGetType, packetDecode_short h hn h255]
  exact h.byte [UInt8.ofNat n]

end Short

end Emcs.Paho
