import Emcs.Lib.Bytes
import Mathlib.Data.Int.Notation

/-!
# The packets of MQTT-SN

Message types, flags and packet layouts, which the headers `mqtt-sn-udp.h` of both clients define
alike. Strings are lists of characters without the terminating NUL. A length byte is the length
modulo 256, as the casts of both clients make it.
-/

namespace Emcs.Mqttsn

open Bytes

/-! ## Constants -/

def MQTTSN_HEADER_SIZE : ℕ := 2

def MQTTSN_MAX_PACKET_LEN : ℕ := 255

def MQTTSN_PUBLISH_HEADER_LEN : ℕ := 7

def MQTTSN_MSG_TYPE_CONNECT : UInt8 := 0x04

def MQTTSN_MSG_TYPE_CONNACK : UInt8 := 0x05

def MQTTSN_MSG_TYPE_REGISTER : UInt8 := 0x0A

def MQTTSN_MSG_TYPE_REGACK : UInt8 := 0x0B

def MQTTSN_MSG_TYPE_PUBLISH : UInt8 := 0x0C

def MQTTSN_MSG_TYPE_PUBACK : UInt8 := 0x0D

def MQTTSN_MSG_TYPE_PUBCOMP : UInt8 := 0x0E

def MQTTSN_MSG_TYPE_PUBREC : UInt8 := 0x0F

def MQTTSN_MSG_TYPE_PUBREL : UInt8 := 0x10

def MQTTSN_MSG_TYPE_SUBSCRIBE : UInt8 := 0x12

def MQTTSN_MSG_TYPE_SUBACK : UInt8 := 0x13

def MQTTSN_MSG_TYPE_PINGREQ : UInt8 := 0x16

def MQTTSN_MSG_TYPE_PINGRESP : UInt8 := 0x17

def MQTTSN_FLAG_CLEAN_SESSION : UInt8 := 0x04

def MQTTSN_FLAG_TOPIC_NORMAL : UInt8 := 0x00

def MQTTSN_FLAG_QOS1 : UInt8 := 0x20

def MQTTSN_FLAG_QOS2 : UInt8 := 0x40

def MQTTSN_FLAG_QOS_MASK : UInt8 := 0x03

def MQTTSN_QOS_SHIFT : UInt8 := 5

def MQTTSN_PROTOCOL_ID : UInt8 := 0x01

def MQTTSN_RETURN_ACCEPTED : UInt8 := 0x00

def KEEPALIVE_INTERVAL_SEC : UInt16 := 60

/-- A string of the source. -/
def cstr (s : String) : List UInt8 := s.toList.map fun c ↦ UInt8.ofNat c.toNat

/-- `get_qos_flags`. -/
def getQosFlags (qos : ℤ) (base : UInt8) : UInt8 :=
  if qos = 1 then base ||| MQTTSN_FLAG_QOS1
  else if qos = 2 then base ||| MQTTSN_FLAG_QOS2
  else base

/-- `get_next_msg_id`: the number drawn and the next value of `s_next_msg_id`. -/
def getNextMsgId (next : UInt16) : UInt16 × UInt16 :=
  let next := if next = 0 ∨ next = 0xFFFF then 1 else next
  (next, next + 1)

/-! ## From a client -/

def connectPacket (clientId : List UInt8) : List UInt8 :=
  [UInt8.ofNat (6 + clientId.length), MQTTSN_MSG_TYPE_CONNECT, MQTTSN_FLAG_CLEAN_SESSION,
    MQTTSN_PROTOCOL_ID, hi8 KEEPALIVE_INTERVAL_SEC, lo8 KEEPALIVE_INTERVAL_SEC] ++ clientId

def registerPacket (msgId : UInt16) (topicName : List UInt8) : List UInt8 :=
  [UInt8.ofNat (6 + topicName.length), MQTTSN_MSG_TYPE_REGISTER, 0x00, 0x00, hi8 msgId, lo8 msgId]
    ++ topicName

def subscribePacket (qos : UInt8) (msgId : UInt16) (topicName : List UInt8) : List UInt8 :=
  [UInt8.ofNat (5 + topicName.length), MQTTSN_MSG_TYPE_SUBSCRIBE, getQosFlags qos.toNat 0x00,
    hi8 msgId, lo8 msgId] ++ topicName

/-- The message id of a PUBLISH is zero at QoS 0. -/
def publishPacket (topicId : UInt16) (payload : List UInt8) (qos : ℤ) (msgId : UInt16) :
    List UInt8 :=
  [UInt8.ofNat (MQTTSN_PUBLISH_HEADER_LEN + payload.length), MQTTSN_MSG_TYPE_PUBLISH,
    getQosFlags qos MQTTSN_FLAG_TOPIC_NORMAL, hi8 topicId, lo8 topicId,
    if qos > 0 then hi8 msgId else 0x00, if qos > 0 then lo8 msgId else 0x00] ++ payload

def pingreqPacket : List UInt8 := [2, MQTTSN_MSG_TYPE_PINGREQ]

def pubackPacket (topicId msgId : UInt16) (returnCode : UInt8) : List UInt8 :=
  [7, MQTTSN_MSG_TYPE_PUBACK, hi8 topicId, lo8 topicId, hi8 msgId, lo8 msgId, returnCode]

def pubrecPacket (msgId : UInt16) : List UInt8 :=
  [5, MQTTSN_MSG_TYPE_PUBREC, hi8 msgId, lo8 msgId, MQTTSN_RETURN_ACCEPTED]

def pubcompPacket (msgId : UInt16) : List UInt8 :=
  [5, MQTTSN_MSG_TYPE_PUBCOMP, hi8 msgId, lo8 msgId, MQTTSN_RETURN_ACCEPTED]

def pubrelPacket (msgId : UInt16) : List UInt8 :=
  [4, MQTTSN_MSG_TYPE_PUBREL, hi8 msgId, lo8 msgId]

/-! ## From a gateway -/

def regackPacket (topicId msgId : UInt16) (returnCode : UInt8) : List UInt8 :=
  [7, MQTTSN_MSG_TYPE_REGACK, hi8 topicId, lo8 topicId, hi8 msgId, lo8 msgId, returnCode]

def subackPacket (flags : UInt8) (topicId msgId : UInt16) (returnCode : UInt8) : List UInt8 :=
  [8, MQTTSN_MSG_TYPE_SUBACK, flags, hi8 topicId, lo8 topicId, hi8 msgId, lo8 msgId, returnCode]

/-! ## Facts about message ids -/

/-- Where the counter is not at its end, a draw takes its value and moves it on. -/
theorem getNextMsgId_of_lt {next : UInt16} (hpos : next ≠ 0) (hlt : next ≠ 0xFFFF) :
    getNextMsgId next = (next, next + 1) := by
  rw [getNextMsgId, if_neg]
  rintro (h | h)
  · exact hpos h
  · exact hlt h

theorem getNextMsgId_ne_zero (next : UInt16) : (getNextMsgId next).1 ≠ 0 := by
  rw [getNextMsgId]
  split
  · decide
  · rename_i h
    exact fun hzero ↦ h (Or.inl hzero)

theorem succ_ne_self (next : UInt16) : next + 1 ≠ next := by
  intro h
  exact absurd (UInt16.add_eq_left.mp h) (by decide)

theorem getNextMsgId_moves (next : UInt16) : (getNextMsgId next).2 ≠ next := by
  rw [getNextMsgId]
  split
  · rename_i h
    rcases h with rfl | rfl
    · decide
    · decide
  · exact succ_ne_self next

theorem take_publishPacket (topicId : UInt16) {payload : List UInt8} (qos : ℤ) (msgId : UInt16)
    {k : ℕ} (h : MQTTSN_PUBLISH_HEADER_LEN + payload.length ≤ k) :
    (publishPacket topicId payload qos msgId).take k = publishPacket topicId payload qos msgId := by
  refine List.take_of_length_le ?_
  rw [publishPacket, List.length_append]
  exact h

/-- However much of a PUBLISH is sent, its type is that of a PUBLISH, or cut off. -/
theorem type_take_publishPacket (topicId : UInt16) (payload : List UInt8) (qos : ℤ) (msgId : UInt16)
    (k : ℕ) :
    ((publishPacket topicId payload qos msgId).take k).getD 1 0 = MQTTSN_MSG_TYPE_PUBLISH ∨
      ((publishPacket topicId payload qos msgId).take k).getD 1 0 = 0 := by
  rcases k with _ | _ | k
  · exact Or.inr rfl
  · exact Or.inr rfl
  · exact Or.inl rfl

end Emcs.Mqttsn
