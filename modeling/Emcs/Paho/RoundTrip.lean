import Emcs.Paho.Datagram

/-!
# Reading back what was written

The packet library on both sides of a PUBLISH: what `MQTTSNSerialize_publish` writes, and what
`MQTTSNDeserialize_publish` reads in it. The length of a packet stands in one byte or in three, and
`MQTTSNPacket_len` counts these bytes by another bound than `MQTTSNPacket_encode` writes them.

## The one exception

Both functions decide how many bytes the length takes, one by the length of the body, the other by
the length of the packet. They disagree for a body of 254 bytes alone, which a payload of 248 bytes
makes. There the packet is written with three bytes for the length and a length that was computed
for one, and the reader stops two bytes before the end of the payload.
-/

namespace Emcs.Paho

open Bytes

variable {buf : Memory} {d body : List UInt8}

/-- The bytes that the length of a packet takes. -/
def lengthBytes (len : ℕ) : ℕ := if len ≥ 255 then 3 else 1

theorem length_packetEncode (len : ℕ) : (mqttsnPacketEncode len).length = lengthBytes len := by
  rw [mqttsnPacketEncode, lengthBytes]
  split <;> rfl

/-- The length is read back. -/
theorem packetDecode_encode {len : ℕ} (hlen : 1 < len) (hmax : len < 65536)
    (hbody : 2 ≤ body.length) (h : Stores buf (mqttsnPacketEncode len ++ body)) :
    mqttsnPacketDecode buf (mqttsnPacketEncode len ++ body).length 0
      = ((lengthBytes len : ℤ), (len : ℤ)) := by
  have hpos : ¬ ((mqttsnPacketEncode len ++ body).length : ℤ) ≤ 0 := by
    rw [List.length_append]
    omega
  rw [mqttsnPacketDecode, if_neg hpos]
  by_cases hlong : len ≥ 255
  · have hencode : mqttsnPacketEncode len = 0x01 :: writeInt len := if_pos hlong
    have h0 : buf 0 = 0x01 := by
      rw [hencode] at h
      exact h.byte []
    have hroom : ¬ ((mqttsnPacketEncode len ++ body).length : ℤ) < MAX_NO_OF_LENGTH_BYTES := by
      rw [List.length_append, length_packetEncode, lengthBytes, if_pos hlong]
      change ¬ ((3 + body.length : ℕ) : ℤ) < 3
      omega
    have hvalue : readInt buf 1 = len := by
      rw [hencode, writeInt] at h
      have h1 : buf 1 = UInt8.ofNat (len / 256) := h.byte [0x01]
      have h2 : buf (1 + 1) = UInt8.ofNat (len % 256) := h.byte [0x01, UInt8.ofNat (len / 256)]
      rw [readInt, h1, h2, UInt8.toNat_ofNat', UInt8.toNat_ofNat']
      omega
    rw [if_pos h0, if_neg hroom, hvalue, lengthBytes, if_pos hlong]
    rfl
  · have hencode : mqttsnPacketEncode len = [UInt8.ofNat len] := if_neg hlong
    have h0 : buf 0 = UInt8.ofNat len := by
      rw [hencode] at h
      exact h.byte []
    have hto : (UInt8.ofNat len).toNat = len := by
      rw [UInt8.toNat_ofNat', Nat.mod_eq_of_lt (by omega)]
    have hne : UInt8.ofNat len ≠ 1 := by
      intro heq
      rw [heq] at hto
      change 1 = len at hto
      omega
    rw [h0, if_neg hne, hto, lengthBytes, if_neg hlong]
    rfl

/-- The length of a packet is that of its body with the bytes for the length, but for one length: a
body of 254 bytes is taken to have its length in one byte, and gets three. -/
theorem packetLen_eq_iff (n : ℕ) :
    mqttsnPacketLen n = lengthBytes (mqttsnPacketLen n) + n ↔ n ≠ 254 := by
  rw [mqttsnPacketLen, lengthBytes]
  split <;> split <;> omega

theorem type_cases {type : UInt8} (h : type ≤ 2) : type = 0 ∨ type = 1 ∨ type = 2 := by
  have hle := UInt8.le_iff_toNat_le.mp h
  change type.toNat ≤ 2 at hle
  have hcases : type.toNat = 0 ∨ type.toNat = 1 ∨ type.toNat = 2 := by omega
  exact hcases.imp (fun h ↦ UInt8.toNat_inj.mp h)
    (Or.imp (fun h ↦ UInt8.toNat_inj.mp h) fun h ↦ UInt8.toNat_inj.mp h)

theorem type_of_not_short {type : UInt8} (h : type ≤ 2) (hshort : type ≠ MQTTSN_TOPIC_TYPE_SHORT) :
    type = MQTTSN_TOPIC_TYPE_NORMAL ∨ type = MQTTSN_TOPIC_TYPE_PREDEFINED :=
  (type_cases h).imp_right fun h ↦ h.resolve_right hshort

theorem ofAll_all {type : UInt8} {qos : QoS} (htype : type ≤ 2) (hqos : qos ≠ 3)
    (dup retain : Bool) :
    Flags.ofAll (Flags.all ⟨type, 0, 0, bit retain, .ofInt qos.val, bit dup⟩)
      = ⟨type, 0, 0, bit retain, .ofNat qos, bit dup⟩ := by
  have hq : qos = 0 ∨ qos = 1 ∨ qos = 2 := by
    revert qos
    decide
  rcases type_cases htype with rfl | rfl | rfl <;> rcases hq with rfl | rfl | rfl <;>
    cases dup <;> cases retain <;> rfl

/-- The topic of a PUBLISH, as it is read back. -/
def Topicid.data (topic : Topicid) : TopicData :=
  if topic.type = MQTTSN_TOPIC_TYPE_SHORT then .shortName topic.shortName.1 topic.shortName.2
  else .id topic.id

/-- What the packet library reads are the arguments of `setPUBLISH`. -/
structure ReadsPublish (buf : Memory) (len : ℤ) (dup : Bool) (qos : QoS) (retain : Bool)
    (msgId : UInt16) (topic : Topicid) (payload : List UInt8) (f : PublishData) : Prop where
  read : mqttsnDeserializePublish buf len = some f
  dup_eq : f.dup = 0 - bit dup
  qos_eq : f.qos = .ofNat qos
  retained_eq : f.retained = bit retain
  packetid_eq : f.packetid = msgId
  type_eq : f.topicType = topic.type
  topic_eq : f.topic = topic.data
  payload_eq : f.payload.Holds buf payload

/-- No broker sends QoS -1. -/
theorem Topicid.not_named (topic : Topicid) {qos : QoS} (hqos : qos ≠ 3) :
    topic.named qos.val = false := by
  have hthree : ¬((qos.val : ℤ) = 3) := fun h ↦ hqos (Fin.ext (Int.ofNat.inj h))
  rw [Topicid.named, beq_false_of_ne hthree, Bool.and_false]

/-- The bytes of a topic id or of a short name. -/
def Topicid.place (topic : Topicid) : List UInt8 :=
  if topic.type = MQTTSN_TOPIC_TYPE_SHORT then [topic.shortName.1, topic.shortName.2]
  else writeInt topic.id.toNat

theorem length_place (topic : Topicid) : topic.place.length = 2 := by
  rw [Topicid.place]
  split <;> rfl

/-- The bytes of a PUBLISH. -/
theorem serializePublish_eq {dup retain : Bool} {qos : QoS} {msgId : UInt16} {topic : Topicid}
    {payload d : List UInt8} (hqos : qos ≠ 3) (htype : topic.type ≤ 2)
    (hd : (SnReply.publish dup qos retain msgId topic payload).serialize = .ok d) :
    payload.length ≤ 1015 ∧ d = mqttsnPacketEncode (mqttsnPacketLen (payload.length + 6)) ++
      ([MQTTSN_PUBLISH, Flags.all ⟨topic.type, 0, 0, bit retain, .ofInt qos.val, bit dup⟩] ++
        topic.place ++ writeInt msgId.toNat ++ payload) := by
  have hnamed := topic.not_named hqos
  have hplace : (if topic.type = MQTTSN_TOPIC_TYPE_NORMAL ∨
      topic.type = MQTTSN_TOPIC_TYPE_PREDEFINED then writeInt topic.id.toNat
      else [topic.shortName.1, topic.shortName.2]) = topic.place := by
    rw [Topicid.place]
    by_cases hshort : topic.type = MQTTSN_TOPIC_TYPE_SHORT
    · rw [if_pos hshort, hshort]
      rfl
    · rw [if_neg hshort, if_pos (type_of_not_short htype hshort)]
  rw [SnReply.serialize, mqttsnSerializePublish, mqttsnSerializePublishLength, hnamed,
    if_neg Bool.false_ne_true, if_neg Bool.false_ne_true, if_neg Bool.false_ne_true, hplace,
    List.append_nil] at hd
  refine ⟨?_, serialize_eq hd⟩
  rw [Paho.serialize] at hd
  split at hd
  · cases hd
  · rename_i hle
    change ¬((mqttsnPacketLen (payload.length + 6) : ℤ) > 1024) at hle
    rw [mqttsnPacketLen] at hle
    split at hle <;> omega

theorem read_topic {topic : Topicid} {front rest : List UInt8} (htype : topic.type ≤ 2)
    (h : Stores buf (front ++ (topic.place ++ rest))) :
    (if topic.type = MQTTSN_TOPIC_TYPE_NORMAL ∨ topic.type = MQTTSN_TOPIC_TYPE_PREDEFINED then
        TopicData.id (readShort buf front.length)
      else .shortName (buf front.length) (buf (front.length + 1))) = topic.data := by
  rw [Topicid.place] at h
  rw [Topicid.data]
  by_cases hshort : topic.type = MQTTSN_TOPIC_TYPE_SHORT
  · have hfirst : buf front.length = topic.shortName.1 := by
      rw [if_pos hshort] at h
      exact h.byte front
    have hsecond : buf (front.length + 1) = topic.shortName.2 := by
      rw [if_pos hshort] at h
      have h := Stores.byte (front ++ [topic.shortName.1]) (by simpa using h)
      rwa [List.length_append] at h
    have hneither : ¬(topic.type = MQTTSN_TOPIC_TYPE_NORMAL ∨
        topic.type = MQTTSN_TOPIC_TYPE_PREDEFINED) := by
      rw [hshort]
      decide
    rw [if_neg hneither, if_pos hshort, hfirst, hsecond]
  · rw [if_neg hshort, writeInt_eq] at h
    rw [if_pos (type_of_not_short htype hshort), if_neg hshort, h.short front]

/-- What is read in the bytes of a PUBLISH: all that was written, but for the length of the
payload, which is counted from the length in the packet. -/
theorem deserializePublish_of_bytes {dup retain : Bool} {qos : QoS} {msgId : UInt16}
    {topic : Topicid} {payload : List UInt8} (hmax : payload.length ≤ 1015) (hqos : qos ≠ 3)
    (htype : topic.type ≤ 2) {len : ℕ} (hlen : len = mqttsnPacketLen (payload.length + 6))
    (hd : d = mqttsnPacketEncode len ++
      ([MQTTSN_PUBLISH, Flags.all ⟨topic.type, 0, 0, bit retain, .ofInt qos.val, bit dup⟩] ++
        topic.place ++ writeInt msgId.toNat ++ payload)) (hbuf : Stores buf d) :
    mqttsnDeserializePublish buf d.length = some ⟨0 - bit dup, .ofNat qos, bit retain, msgId,
        topic.type, topic.data, ⟨lengthBytes len + 6, len - (lengthBytes len + 6)⟩⟩ ∧
      Slice.Holds buf ⟨lengthBytes len + 6, payload.length⟩ payload := by
  have hflags := ofAll_all htype hqos dup retain
  generalize Flags.all ⟨topic.type, 0, 0, bit retain, .ofInt qos.val, bit dup⟩ = fl at hd hflags
  have hk := length_packetEncode len
  have hlow : 1 < len := by
    rw [hlen, mqttsnPacketLen]
    split <;> omega
  have hhigh : len < 65536 := by
    rw [hlen, mqttsnPacketLen]
    split <;> omega
  have hdlen : d.length = lengthBytes len + (6 + payload.length) := by
    rw [hd, List.length_append, hk]
    simp [length_place, writeInt]
    omega
  rw [writeInt_eq] at hd
  -- the fields, one behind the other
  have hbody : Stores buf (mqttsnPacketEncode len ++ MQTTSN_PUBLISH :: fl :: (topic.place ++
      hi8 msgId :: lo8 msgId :: payload)) := by
    rw [hd] at hbuf
    simpa using hbuf
  have hdecode : mqttsnPacketDecode buf d.length 0 = ((lengthBytes len : ℤ), (len : ℤ)) := by
    rw [hd]
    exact packetDecode_encode hlow hhigh (by simp) (hd ▸ hbuf)
  have htypeByte : buf (lengthBytes len) = MQTTSN_PUBLISH := hk ▸ hbody.byte _
  have hflagByte : buf (lengthBytes len + 1) = fl := by
    have h := Stores.byte (mqttsnPacketEncode len ++ [MQTTSN_PUBLISH]) (by simpa using hbody)
    rwa [List.length_append, hk] at h
  have hid : readShort buf (lengthBytes len + 4) = msgId := by
    have h := @Stores.short buf (mqttsnPacketEncode len ++ [MQTTSN_PUBLISH, fl] ++ topic.place)
      payload msgId (by simpa using hbody)
    rwa [List.length_append, List.length_append, hk, length_place] at h
  have hholds : Slice.Holds buf ⟨lengthBytes len + 6, payload.length⟩ payload := by
    have h := @Stores.holds buf (mqttsnPacketEncode len ++ [MQTTSN_PUBLISH, fl] ++ topic.place ++
      [hi8 msgId, lo8 msgId]) payload (by simpa using hbody)
    rwa [List.length_append, List.length_append, List.length_append, hk, length_place] at h
  have hheader : readHeader buf d.length (· == MQTTSN_PUBLISH)
      = some ((lengthBytes len : ℤ) + 1, (len : ℤ)) := by
    have hroom : ¬((len : ℤ) - lengthBytes len > d.length) := by
      have hle : len ≤ lengthBytes len + (payload.length + 6) := by
        rw [hlen, mqttsnPacketLen, lengthBytes]
        split <;> split <;> omega
      omega
    rw [readHeader, hdecode]
    dsimp only
    rw [if_neg hroom, htypeByte]
    rfl
  refine ⟨?_, hholds⟩
  rw [mqttsnDeserializePublish, hheader, Option.map_some]
  dsimp only
  have hnamed : (UInt8.ofNat qos.val == 3) = false := by
    clear * - hqos
    revert qos
    decide
  have htopic : (if topic.type = MQTTSN_TOPIC_TYPE_NORMAL ∨
      topic.type = MQTTSN_TOPIC_TYPE_PREDEFINED then
        TopicData.id (readShort buf ((lengthBytes len : ℤ) + 1 + 1))
      else .shortName (buf ((lengthBytes len : ℤ) + 1 + 1)) (buf ((lengthBytes len : ℤ) + 1 + 2)))
        = topic.data := by
    have h := @read_topic buf topic (mqttsnPacketEncode len ++ [MQTTSN_PUBLISH, fl])
      (hi8 msgId :: lo8 msgId :: payload) htype (by simpa using hbody)
    rwa [List.length_append, hk] at h
  have hid' : readShort buf ((lengthBytes len : ℤ) + 1 + 3) = msgId := hid
  rw [hflagByte, hflags]
  dsimp only
  rw [hnamed, Bool.and_false, if_neg Bool.false_ne_true, if_neg Bool.false_ne_true, htopic, hid']
  rw [Int.add_assoc]
  rfl

theorem exists_serializePublish (dup retain : Bool) (qos : QoS) (msgId : UInt16) (topic : Topicid)
    (payload : List UInt8) (hqos : qos ≠ 3) (hmax : payload.length ≤ 1014) :
    ∃ d, (SnReply.publish dup qos retain msgId topic payload).serialize = .ok d := by
  have hnamed := topic.not_named hqos
  rw [SnReply.serialize, mqttsnSerializePublish, mqttsnSerializePublishLength, hnamed]
  refine ⟨_, if_neg ?_⟩
  rw [if_neg Bool.false_ne_true, mqttsnPacketLen]
  change ¬(_ > (1024 : ℤ))
  split <;> omega

/-- **A PUBLISH is read back**, but for payloads of 248 bytes, which come back two bytes short. -/
theorem publish_reads_back_iff {dup retain : Bool} {qos : QoS} {msgId : UInt16} {topic : Topicid}
    {payload d : List UInt8} (hqos : qos ≠ 3) (htype : topic.type ≤ 2)
    (hd : (SnReply.publish dup qos retain msgId topic payload).serialize = .ok d)
    {buf : Memory} (hbuf : Stores buf d) :
    (∃ f, ReadsPublish buf d.length dup qos retain msgId topic payload f) ↔
      payload.length ≠ 248 := by
  obtain ⟨hmax, heq⟩ := serializePublish_eq hqos htype hd
  obtain ⟨hread, hholds⟩ := deserializePublish_of_bytes hmax hqos htype rfl heq hbuf
  have hlen := packetLen_eq_iff (payload.length + 6)
  constructor
  · rintro ⟨f, hf⟩ hbad
    have hslice := hf.payload_eq.len_eq
    rw [← Option.some.inj (hread.symm.trans hf.read)] at hslice
    dsimp only at hslice
    exact hlen.mp (by omega) (by omega)
  · intro hne
    have hslice := hlen.mpr (by omega)
    refine ⟨_, hread, rfl, rfl, rfl, rfl, rfl, rfl, ?_⟩
    have hbytes : (mqttsnPacketLen (payload.length + 6) : ℤ) -
        (lengthBytes (mqttsnPacketLen (payload.length + 6)) + 6) = payload.length := by omega
    rw [hbytes]
    exact hholds

/-- A payload of 248 zeros comes back two bytes short. -/
theorem publish_reads_back_iff_zeros :
    let topic : Topicid := ⟨MQTTSN_TOPIC_TYPE_NORMAL, 5, (0, 0), []⟩
    ∃ d, (SnReply.publish false 1 false 7 topic (List.replicate 248 0)).serialize = .ok d ∧
      ¬∃ f, ReadsPublish (fun i ↦ d.getD i.toNat 0) d.length false 1 false 7 topic
        (List.replicate 248 0) f := by
  intro topic
  obtain ⟨d, hd⟩ := exists_serializePublish false false 1 7 topic (List.replicate 248 0) (by decide)
    (by rw [List.length_replicate]; decide)
  refine ⟨d, hd, fun h ↦ ?_⟩
  exact (publish_reads_back_iff (by decide) (by decide) hd (stores_self d)).mp h
    List.length_replicate

end Emcs.Paho
