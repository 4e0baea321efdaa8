import Emcs.Lib.Bytes
import Mathlib.Data.Int.Notation
import Mathlib.Data.List.GetD
import Mathlib.Data.List.Range

/-!
# The packet library of the gateway

`MQTTSNPacket.c` and, for the packets that the clients exchange with a gateway,
`MQTTSNSerializePublish.c`, `MQTTSNDeserializePublish.c`, `MQTTSNSubscribeServer.c` and
`MQTTSNConnectServer.c`.

A serializer returns the bytes that it writes from `buf` on, or its error code. It compares the
length that it computes with `buflen`, not the bytes that it writes.

A deserializer follows the length in the packet, which may lead it out of the buffer. It is
therefore given the memory around the buffer, by the distance from `buf`, and a string that it
returns is a place in this memory.

## The construction

A serializer is one function, `serialize`, applied to the length it computes and the fields it
writes, as the source has it for each type. What it writes is closed under appending, so a proof
about reading it back goes through the fields in order. On the other side `Slice.Holds` says that a
string that was read is these bytes, wherever they lie, and no proof looks at a place in memory
beyond that.
-/

namespace Emcs.Paho

open Bytes

/-! ## Constants -/

def MQTTSNPACKET_BUFFER_TOO_SHORT : ℤ := -2

def MQTTSNPACKET_READ_ERROR : ℤ := -1

def MAX_NO_OF_LENGTH_BYTES : ℤ := 3

def MQTTSN_CONNACK : UInt8 := 0x05

def MQTTSN_REGISTER : UInt8 := 0x0A

def MQTTSN_REGACK : UInt8 := 0x0B

def MQTTSN_PUBLISH : UInt8 := 0x0C

def MQTTSN_PUBACK : UInt8 := 0x0D

def MQTTSN_PUBCOMP : UInt8 := 0x0E

def MQTTSN_PUBREC : UInt8 := 0x0F

def MQTTSN_PUBREL : UInt8 := 0x10

def MQTTSN_SUBSCRIBE : UInt8 := 0x12

def MQTTSN_SUBACK : UInt8 := 0x13

def MQTTSN_TOPIC_TYPE_NORMAL : UInt8 := 0

def MQTTSN_TOPIC_TYPE_PREDEFINED : UInt8 := 1

def MQTTSN_TOPIC_TYPE_SHORT : UInt8 := 2

/-! ## Flags -/

/-- The bit fields of `MQTTSNFlags`, from the lowest bit on. -/
structure Flags where
  topicIdType : UInt8
  cleanSession : UInt8
  will : UInt8
  retain : UInt8
  qos : UInt8
  dup : UInt8

/-- `flags.all`; each field keeps the bits that it has room for. -/
def Flags.all (f : Flags) : UInt8 :=
  let wide (x : UInt8) : UInt8 := x &&& 3
  let narrow (x : UInt8) : UInt8 := x &&& 1
  wide f.topicIdType ||| narrow f.cleanSession <<< 2 ||| narrow f.will <<< 3
    ||| narrow f.retain <<< 4 ||| wide f.qos <<< 5 ||| narrow f.dup <<< 7

def Flags.ofAll (all : UInt8) : Flags where
  topicIdType := all &&& 3
  cleanSession := all >>> 2 &&& 1
  will := all >>> 3 &&& 1
  retain := all >>> 4 &&& 1
  qos := all >>> 5 &&& 3
  dup := all >>> 7 &&& 1

/-! ## Writing -/

/-- `writeInt`. -/
def writeInt (anInt : ℕ) : List UInt8 := [UInt8.ofNat (anInt / 256), UInt8.ofNat (anInt % 256)]

def mqttsnPacketLen (length : ℕ) : ℕ := if length ≥ 255 then length + 3 else length + 1

def mqttsnPacketEncode (length : ℕ) : List UInt8 :=
  if length ≥ 255 then 0x01 :: writeInt length else [UInt8.ofNat length]

/-- The shape of every serializer: the check of `buflen`, the length, and the rest of the packet. -/
def serialize (buflen : ℤ) (len : ℕ) (rest : List UInt8) : Except ℤ (List UInt8) :=
  if (len : ℤ) > buflen then .error MQTTSNPACKET_BUFFER_TOO_SHORT
  else .ok (mqttsnPacketEncode len ++ rest)

/-- `MQTTSN_topicid` as a serializer is given it: the type, and the union seen through each of its
members. -/
structure Topicid where
  type : UInt8
  id : UInt16
  shortName : UInt8 × UInt8
  long : List UInt8

/-- A topic of normal type in a PUBLISH of QoS -1 has its name in the packet. -/
def Topicid.named (topic : Topicid) (qos : ℤ) : Bool :=
  topic.type == MQTTSN_TOPIC_TYPE_NORMAL && qos == 3

def mqttsnSerializePublishLength (payloadlen : ℕ) (topic : Topicid) (qos : ℤ) : ℕ :=
  payloadlen + (if topic.named qos then 6 + topic.long.length else 6)

def mqttsnSerializePublish (buflen : ℤ) (dup : UInt8) (qos : ℤ) (retained : UInt8)
    (packetid : UInt16) (topic : Topicid) (payload : List UInt8) : Except ℤ (List UInt8) :=
  let flags : Flags := ⟨topic.type, 0, 0, retained, UInt8.ofInt qos, dup⟩
  let place := if topic.named qos then writeInt topic.long.length
    else if topic.type = MQTTSN_TOPIC_TYPE_NORMAL ∨ topic.type = MQTTSN_TOPIC_TYPE_PREDEFINED then
      writeInt topic.id.toNat
    else [topic.shortName.1, topic.shortName.2]
  let name := if topic.named qos then topic.long else []
  serialize buflen (mqttsnPacketLen (mqttsnSerializePublishLength payload.length topic qos))
    ([MQTTSN_PUBLISH, flags.all] ++ place ++ writeInt packetid.toNat ++ name ++ payload)

def mqttsnSerializePuback (buflen : ℤ) (topicid packetid : UInt16) (returncode : UInt8) :
    Except ℤ (List UInt8) :=
  serialize buflen (mqttsnPacketLen 6)
    (MQTTSN_PUBACK :: writeInt topicid.toNat ++ writeInt packetid.toNat ++ [returncode])

def mqttsnSerializeRegack (buflen : ℤ) (topicid packetid : UInt16) (returnCode : UInt8) :
    Except ℤ (List UInt8) :=
  serialize buflen (mqttsnPacketLen 6)
    (MQTTSN_REGACK :: writeInt topicid.toNat ++ writeInt packetid.toNat ++ [returnCode])

def mqttsnSerializeSuback (buflen : ℤ) (qos : ℤ) (topicid packetid : UInt16) (returncode : UInt8) :
    Except ℤ (List UInt8) :=
  let flags : Flags := ⟨0, 0, 0, 0, UInt8.ofInt qos, 0⟩
  serialize buflen (mqttsnPacketLen 7) ([MQTTSN_SUBACK, flags.all] ++ writeInt topicid.toNat
    ++ writeInt packetid.toNat ++ [returncode])

def mqttsnSerializeConnack (buflen : ℤ) (connackRc : ℤ) : Except ℤ (List UInt8) :=
  serialize buflen 3 [MQTTSN_CONNACK, UInt8.ofInt connackRc]

/-- The length is written as it is, not through `MQTTSNPacket_len`. -/
def mqttsnSerializeAck (buflen : ℤ) (packetType : UInt8) (packetid : UInt16) :
    Except ℤ (List UInt8) :=
  serialize buflen 4 (packetType :: writeInt packetid.toNat)

def mqttsnSerializePubrec (buflen : ℤ) (packetid : UInt16) : Except ℤ (List UInt8) :=
  mqttsnSerializeAck buflen MQTTSN_PUBREC packetid

def mqttsnSerializePubrel (buflen : ℤ) (packetid : UInt16) : Except ℤ (List UInt8) :=
  mqttsnSerializeAck buflen MQTTSN_PUBREL packetid

def mqttsnSerializePubcomp (buflen : ℤ) (packetid : UInt16) : Except ℤ (List UInt8) :=
  mqttsnSerializeAck buflen MQTTSN_PUBCOMP packetid

/-! ## Reading -/

/-- The bytes of the memory, by their distance from `buf`. -/
abbrev Memory := ℤ → UInt8

/-- A pointer into the memory with a length, which a packet can make negative. -/
structure Slice where
  start : ℤ
  len : ℤ
  deriving DecidableEq

def Slice.bytes (buf : Memory) (s : Slice) : List UInt8 :=
  (List.range s.len.toNat).map fun i : ℕ ↦ buf (s.start + i)

/-- `readInt`. -/
def readInt (buf : Memory) (cur : ℤ) : ℕ := 256 * (buf cur).toNat + (buf (cur + 1)).toNat

/-- `readInt` into an `unsigned short`. -/
def readShort (buf : Memory) (cur : ℤ) : UInt16 := UInt16.ofNat (readInt buf cur)

/-- The bytes taken by the length, or the error, which is not checked for, and `value`
afterwards. -/
def mqttsnPacketDecode (buf : Memory) (buflen value : ℤ) : ℤ × ℤ :=
  if buflen ≤ 0 then (MQTTSNPACKET_READ_ERROR, value)
  else if buf 0 = 1 then
    if buflen < MAX_NO_OF_LENGTH_BYTES then (MQTTSNPACKET_READ_ERROR, value)
    else (3, readInt buf 1)
  else (1, (buf 0).toNat)

/-- How every deserializer begins: `curdata` behind the length and the type, and `enddata`. -/
def readHeader (buf : Memory) (buflen : ℤ) (expected : UInt8 → Bool) : Option (ℤ × ℤ) :=
  let r := mqttsnPacketDecode buf buflen 0
  if r.2 - r.1 > buflen then none
  else if !expected (buf r.1) then none
  else some (r.1 + 1, r.2)

/-- What a deserializer stores in the union of `MQTTSN_topicid`. -/
inductive TopicData where
  | id (id : UInt16)
  | shortName (first second : UInt8)
  | long (name : Slice)
  | unset
  deriving DecidableEq

structure PublishData where
  dup : UInt8
  qos : UInt8
  retained : UInt8
  packetid : UInt16
  topicType : UInt8
  topic : TopicData
  payload : Slice
  deriving DecidableEq

/-- `MQTTSNDeserialize_publish`. The field `dup` is signed and has one bit. -/
def mqttsnDeserializePublish (buf : Memory) (buflen : ℤ) : Option PublishData :=
  (readHeader buf buflen (· == MQTTSN_PUBLISH)).map fun (cur, enddata) ↦
    let flags := Flags.ofAll (buf cur)
    let named := flags.topicIdType == MQTTSN_TOPIC_TYPE_NORMAL && flags.qos == 3
    let len := readInt buf (cur + 1)
    let topic := if named then TopicData.long ⟨cur + 5, len⟩
      else if flags.topicIdType = MQTTSN_TOPIC_TYPE_NORMAL
          ∨ flags.topicIdType = MQTTSN_TOPIC_TYPE_PREDEFINED then .id (readShort buf (cur + 1))
      else .shortName (buf (cur + 1)) (buf (cur + 2))
    let payload := if named then cur + 5 + len else cur + 5
    ⟨0 - flags.dup, flags.qos, flags.retain, readShort buf (cur + 3), flags.topicIdType, topic,
      ⟨payload, enddata - payload⟩⟩

structure SubscribeData where
  dup : UInt8
  qos : UInt8
  packetid : UInt16
  topicType : UInt8
  topicFilter : TopicData
  deriving DecidableEq

def mqttsnDeserializeSubscribe (buf : Memory) (buflen : ℤ) : Option SubscribeData :=
  (readHeader buf buflen (· == MQTTSN_SUBSCRIBE)).map fun (cur, enddata) ↦
    let flags := Flags.ofAll (buf cur)
    let topicFilter := if flags.topicIdType = MQTTSN_TOPIC_TYPE_NORMAL then
        TopicData.long ⟨cur + 3, enddata - (cur + 3)⟩
      else if flags.topicIdType = MQTTSN_TOPIC_TYPE_PREDEFINED then .id (readShort buf (cur + 3))
      else if flags.topicIdType = MQTTSN_TOPIC_TYPE_SHORT then
        .shortName (buf (cur + 3)) (buf (cur + 4))
      else .unset
    ⟨0 - flags.dup, flags.qos, readShort buf (cur + 1), flags.topicIdType, topicFilter⟩

structure AckData where
  type : UInt8
  packetid : UInt16
  deriving DecidableEq

/-- `MQTTSNDeserialize_ack`, for PUBREC, PUBREL and PUBCOMP. -/
def mqttsnDeserializeAck (buf : Memory) (buflen : ℤ) : Option AckData :=
  (readHeader buf buflen fun type ↦
      type == MQTTSN_PUBREL || type == MQTTSN_PUBREC || type == MQTTSN_PUBCOMP).map fun (cur, _) ↦
    ⟨buf (cur - 1), readShort buf cur⟩

structure PubackData where
  topicid : UInt16
  packetid : UInt16
  returncode : UInt8
  deriving DecidableEq

def mqttsnDeserializePuback (buf : Memory) (buflen : ℤ) : Option PubackData :=
  (readHeader buf buflen (· == MQTTSN_PUBACK)).map fun (cur, _) ↦
    ⟨readShort buf cur, readShort buf (cur + 2), buf (cur + 4)⟩

structure RegisterData where
  topicid : UInt16
  packetid : UInt16
  topicname : Slice
  deriving DecidableEq

def mqttsnDeserializeRegister (buf : Memory) (buflen : ℤ) : Option RegisterData :=
  (readHeader buf buflen (· == MQTTSN_REGISTER)).map fun (cur, enddata) ↦
    ⟨readShort buf cur, readShort buf (cur + 2), ⟨cur + 4, enddata - (cur + 4)⟩⟩

/-! ## What is written -/

theorem writeInt_eq (x : UInt16) : writeInt x.toNat = [hi8 x, lo8 x] := by
  have hx := x.toNat_lt
  have hhi : UInt8.ofNat (x.toNat / 256) = hi8 x := by
    apply UInt8.toNat_inj.mp
    rw [hi8, UInt16.toNat_toUInt8, UInt16.toNat_shiftRight, UInt8.toNat_ofNat']
    change _ = x.toNat >>> 8 % 2 ^ 8
    rw [Nat.shiftRight_eq_div_pow]
  have hlo : UInt8.ofNat (x.toNat % 256) = lo8 x := by
    apply UInt8.toNat_inj.mp
    rw [lo8, UInt16.toNat_toUInt8, UInt8.toNat_ofNat']
    omega
  rw [writeInt, hhi, hlo]

theorem serialize_eq {buflen : ℤ} {len : ℕ} {rest d : List UInt8}
    (h : serialize buflen len rest = .ok d) : d = mqttsnPacketEncode len ++ rest := by
  rw [serialize] at h
  split at h
  · cases h
  · exact (Except.ok.inj h).symm

theorem and_one (x : UInt8) : x &&& 1 = 0 ∨ x &&& 1 = 1 := by
  have hmod : (x &&& 1).toNat = x.toNat % 2 := by
    rw [UInt8.toNat_and]
    exact Nat.and_one_is_mod _
  rcases Nat.mod_two_eq_zero_or_one x.toNat with h | h
  · exact .inl (UInt8.toNat_inj.mp (hmod.trans h))
  · exact .inr (UInt8.toNat_inj.mp (hmod.trans h))

/-- The QoS in the flags of a normal topic id, whatever the other flags. -/
theorem qos_all {qos : ℤ} (h0 : 0 ≤ qos) (h2 : qos ≤ 2) (retained dup : UInt8) :
    (Flags.all ⟨MQTTSN_TOPIC_TYPE_NORMAL, 0, 0, retained, UInt8.ofInt qos, dup⟩ >>> 5) &&& 3 =
      UInt8.ofNat qos.toNat := by
  have hqos : qos = 0 ∨ qos = 1 ∨ qos = 2 := by omega
  simp only [Flags.all]
  rcases and_one retained with hr | hr <;> rcases and_one dup with hd | hd <;> rw [hr, hd]
  all_goals
    rcases hqos with rfl | rfl | rfl
    all_goals decide

/-! ## A buffer that holds a packet -/

/-- The packet `d` stands at `buf`; around it the memory is arbitrary. -/
def Stores (buf : Memory) (d : List UInt8) : Prop := ∀ i : ℕ, i < d.length → buf i = d.getD i 0

/-- The slice is the byte string `bs`. -/
structure Slice.Holds (buf : Memory) (s : Slice) (bs : List UInt8) : Prop where
  len_eq : s.len = bs.length
  bytes_eq : s.bytes buf = bs

section Stores

variable {buf : Memory} {d : List UInt8}

theorem stores_self (d : List UInt8) : Stores (fun i ↦ d.getD i.toNat 0) d := fun _ _ ↦ rfl

theorem readShort_eq (buf : Memory) (cur : ℤ) :
    readShort buf cur = be16 (buf cur) (buf (cur + 1)) := by
  apply UInt16.toNat_inj.mp
  have hhi := (buf cur).toNat_lt
  have hlo := (buf (cur + 1)).toNat_lt
  rw [readShort, readInt, toNat_be16, UInt16.toNat_ofNat']
  omega

theorem Stores.byte (front : List UInt8) {rest : List UInt8} {x : UInt8}
    (h : Stores buf (front ++ x :: rest)) : buf front.length = x := by
  have hget := h front.length (by simp)
  rwa [List.getD_append_right _ _ _ _ le_rfl, Nat.sub_self, List.getD_cons_zero] at hget

theorem Stores.short (front : List UInt8) {rest : List UInt8} {x : UInt16}
    (h : Stores buf (front ++ hi8 x :: lo8 x :: rest)) : readShort buf front.length = x := by
  have hlow : buf (front.length + 1) = lo8 x := by
    have hnext : Stores buf ((front ++ [hi8 x]) ++ lo8 x :: rest) := by
      rwa [List.append_assoc]
    have hget := hnext.byte
    rwa [List.length_append, Int.natCast_add] at hget
  rw [readShort_eq, h.byte, hlow, be16_hi8_lo8]

/-- A packet that carries its length in the first byte. -/
theorem readHeader_eq {type : UInt8} {rest : List UInt8} {n : ℕ} (expected : UInt8 → Bool)
    (h : Stores buf (UInt8.ofNat n :: type :: rest)) (hn : n = rest.length + 2) (h255 : n ≤ 255)
    (hexpected : expected type = true) : readHeader buf n expected = some (2, (n : ℤ)) := by
  have hto : (UInt8.ofNat n).toNat = n := by
    rw [UInt8.toNat_ofNat', Nat.mod_eq_of_lt (by omega)]
  have hne : UInt8.ofNat n ≠ 1 := by
    intro heq
    rw [heq] at hto
    change 1 = n at hto
    omega
  have h0 : buf 0 = UInt8.ofNat n := h.byte []
  have h1 : buf 1 = type := h.byte [UInt8.ofNat n]
  have hpos : ¬ (n : ℤ) ≤ 0 := by omega
  have hin : ¬ ((n : ℤ) - 1 > n) := by omega
  rw [readHeader, mqttsnPacketDecode, if_neg hpos, h0, if_neg hne, hto]
  simp only [hin, h1, hexpected, if_false, Bool.not_true, Bool.false_eq_true]
  rfl

theorem Stores.holds (front : List UInt8) {bs : List UInt8} (h : Stores buf (front ++ bs)) :
    Slice.Holds buf ⟨front.length, bs.length⟩ bs where
  len_eq := rfl
  bytes_eq := by
    apply List.ext_getElem
    · simp [Slice.bytes]
    · intro i hi hi'
      have hget := h (front.length + i) (by rw [List.length_append]; omega)
      rw [List.getD_append_right _ _ _ _ (Nat.le_add_right _ _), Nat.add_sub_cancel_left,
        List.getD_eq_getElem _ _ hi'] at hget
      simp only [Slice.bytes, List.getElem_map, List.getElem_range]
      exact_mod_cast hget

/-- A payload ends where the buffer ends, at the latest. -/
theorem payload_len_le {buflen : ℤ} {f : PublishData}
    (h : mqttsnDeserializePublish buf buflen = some f) : f.payload.len ≤ buflen - 6 := by
  rw [mqttsnDeserializePublish, Option.map_eq_some_iff] at h
  obtain ⟨⟨cur, enddata⟩, hheader, rfl⟩ := h
  have hend : enddata - cur + 1 ≤ buflen := by
    simp only [readHeader] at hheader
    split at hheader
    · exact absurd hheader (Option.some_ne_none _).symm
    · rename_i hle
      split at hheader
      · exact absurd hheader (Option.some_ne_none _).symm
      · obtain ⟨rfl, rfl⟩ := Prod.mk.inj (Option.some.inj hheader)
        omega
  have hlen : 0 ≤ (readInt buf (cur + 1) : ℤ) := Int.natCast_nonneg _
  simp only
  split <;> omega

end Stores

end Emcs.Paho
