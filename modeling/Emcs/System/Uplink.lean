import Emcs.Paho.Gateway
import Emcs.Pico.Encoding
import Emcs.System.Readings

/-!
# From an Arduino to the gateway

What the gateway reads in a datagram of an Arduino, whatever stands around it in memory: the request
that was made, or the reading that was published, under the id that was written.

## The proof

A datagram of the client has a closed form for each kind in `Sends`, short enough to have its length
in one byte. Each is run through the deserializer that the gateway picks by its type, and what comes
out are the arguments of the call. What stands around the datagram in memory is not looked at on the
way, because every string lies within it.
-/

namespace Emcs.System

open Bytes Mqttsn Arduino Paho

variable {known : UInt16 → List UInt8 → Prop} {clientId : List UInt8} {d : List UInt8} {a : Around}
  {packet : SnPacket}

/-! ## The type of a packet -/

/-- The packets that may be read have this type. -/
def OfType (type : UInt8) (o : Option SnPacket) : Prop := ∀ packet ∈ o, packet.getType = type

theorem OfType.one {type : UInt8} {packet : SnPacket} (h : packet.getType = type) :
    OfType type (some packet) := by
  intro x hx
  cases hx
  exact h

theorem OfType.map {α : Type*} {type : UInt8} {f : α → SnPacket} (h : ∀ x, (f x).getType = type)
    (o : Option α) : OfType type (o.map f) := by
  cases o with
  | none => exact nofun
  | some x => exact OfType.one (h x)

/-- **The type that a packet is handled by** is the one that stands in the datagram. -/
theorem ofType_read (d : List UInt8) (a : Around) :
    OfType (mqttsnPacketGetType (a.memory d) d.length) (SnPacket.read d a) := by
  unfold SnPacket.read
  dsimp only
  generalize mqttsnPacketGetType (a.memory d) d.length = type
  refine iteInduction (fun htype ↦ ?_) fun _ ↦ ?_
  · split
    · exact .one rfl
    · exact .one htype.symm
  refine iteInduction (fun htype ↦ ?_) fun _ ↦ ?_
  · split
    · exact .one rfl
    · refine .map (fun _ ↦ ?_) _
      exact htype.symm
  refine iteInduction (fun htype ↦ ?_) fun _ ↦ ?_
  · split
    · exact .one rfl
    · refine .map (fun _ ↦ ?_) _
      exact htype.symm
  refine iteInduction (fun htype ↦ .one htype.symm) fun _ ↦ ?_
  refine iteInduction (fun htype ↦ .one htype.symm) fun _ ↦ ?_
  refine iteInduction (fun htype ↦ .one htype.symm) fun _ ↦ ?_
  refine iteInduction (fun htype ↦ .one htype.symm) fun _ ↦ ?_
  refine iteInduction (fun htype ↦ ?_) fun _ ↦ ?_
  · split
    · exact .one rfl
    · intro packet h
      obtain ⟨topicid, -, h⟩ := Option.bind_eq_some_iff.mp h
      obtain ⟨payload, -, h⟩ := Option.bind_eq_some_iff.mp h
      cases h
      exact htype.symm
  refine iteInduction (fun htype ↦ ?_) fun _ ↦ ?_
  · split
    · exact .one rfl
    · exact .one htype.symm
  refine iteInduction (fun htype ↦ ?_) fun _ ↦ ?_
  · split <;> exact .one rfl
  refine iteInduction (fun htype ↦ ?_) fun _ ↦ ?_
  · split
    · exact .one rfl
    · refine .map (fun _ ↦ ?_) _
      exact htype.symm
  refine iteInduction (fun htype ↦ ?_) fun _ ↦ ?_
  · split
    · exact .one rfl
    · exact .one htype.symm
  refine iteInduction (fun htype ↦ ?_) fun _ ↦ ?_
  · split
    · exact .one rfl
    · refine .map (fun _ ↦ ?_) _
      exact htype.symm
  refine iteInduction (fun htype ↦ ?_) fun _ ↦ .one rfl
  split
  · exact .one rfl
  · refine .map (fun _ ↦ ?_) _
    exact htype.symm

/-! ## The packets of an Arduino -/

theorem string_of_holds {buf : Memory} {s : Slice} {bs : List UInt8} (h : s.Holds buf bs) :
    s.string buf = some bs := by
  rw [Slice.string, if_neg, h.bytes_eq]
  rw [h.len_eq]
  exact Int.not_lt.mpr (Int.natCast_nonneg _)

section Fields

variable (a)

theorem read_of_register
    (htype : mqttsnPacketGetType (a.memory d) d.length = MQTTSN_REGISTER) {f : RegisterData}
    (hf : mqttsnDeserializeRegister (a.memory d) d.length = some f) : SnPacket.read d a
      = (f.topicname.string (a.memory d)).map (.register f.topicid f.packetid) := by
  rw [SnPacket.read]
  simp only [htype, hf]
  rfl

theorem read_of_subscribe
    (htype : mqttsnPacketGetType (a.memory d) d.length = MQTTSN_SUBSCRIBE) {f : SubscribeData}
    (hf : mqttsnDeserializeSubscribe (a.memory d) d.length = some f) : SnPacket.read d a
      = (f.topicFilter.topicid f.topicType a (a.memory d)).map fun topicFilter ↦
          .subscribe (.ofFlags f.qos) f.packetid topicFilter (f.topicFilter.beyond a d) := by
  rw [SnPacket.read]
  simp only [htype, hf]
  rfl

theorem read_of_publish
    (htype : mqttsnPacketGetType (a.memory d) d.length = MQTTSN_PUBLISH) {f : PublishData}
    (hf : mqttsnDeserializePublish (a.memory d) d.length = some f) {topicid : Topicid}
    (htopicid : f.topic.topicid f.topicType a (a.memory d) = some topicid) {payload : List UInt8}
    (hpayload : f.payload.string (a.memory d) = some payload) :
    SnPacket.read d a = some
      (.publish (f.dup ≠ 0) (.ofFlags f.qos) (f.retained ≠ 0) f.packetid topicid payload) := by
  rw [SnPacket.read]
  simp only [htype, hf]
  change (f.topic.topicid f.topicType a (a.memory d)).bind _ = _
  rw [htopicid]
  change (f.payload.string (a.memory d)).bind _ = _
  rw [hpayload]
  rfl

end Fields

/-- A REGISTER is read as it was meant. -/
theorem read_register {topicName : List UInt8} (msgId : UInt16) (hlen : topicName.length ≤ 249)
    (a : Around) : ∃ topicId, SnPacket.read (registerPacket msgId topicName) a
      = some (.register topicId msgId topicName) := by
  have hstores := stores_memory a (registerPacket msgId topicName)
  have hd : (registerPacket msgId topicName).length = 6 + topicName.length := by
    rw [registerPacket, List.length_append]
    rfl
  have htype : mqttsnPacketGetType (a.memory (registerPacket msgId topicName))
      (6 + topicName.length : ℕ) = MQTTSN_REGISTER :=
    packetGetType_short hstores (by simp; omega) (by omega)
  obtain ⟨f, hread, hid, hname⟩ := Pico.read_registerPacket rfl (by omega) hstores
  rw [← hd] at htype hread
  refine ⟨f.topicid, ?_⟩
  rw [read_of_register a htype hread, string_of_holds hname, hid]
  rfl

theorem subscribePacket_eq (qos : UInt8) (msgId : UInt16) (topicName : List UInt8) :
    ∃ q : UInt8, q ≤ 2 ∧
      subscribePacket qos msgId topicName = subscribePacket q msgId topicName := by
  have hflags : ∃ q : UInt8, q ≤ 2 ∧ getQosFlags qos.toNat 0 = getQosFlags q.toNat 0 := by
    by_cases h₁ : (qos.toNat : ℤ) = 1
    · exact ⟨1, by decide, by rw [h₁]; rfl⟩
    by_cases h₂ : (qos.toNat : ℤ) = 2
    · exact ⟨2, by decide, by rw [h₂]; rfl⟩
    · exact ⟨0, by decide, by rw [getQosFlags, if_neg h₁, if_neg h₂]; rfl⟩
  obtain ⟨q, hq, heq⟩ := hflags
  exact ⟨q, hq, by rw [subscribePacket, subscribePacket, heq]⟩

/-- A topic filter with a name in the packet is of normal type. -/
theorem type_of_long {buf : Memory} {n : ℤ} {f : SubscribeData} {name : Slice}
    (h : mqttsnDeserializeSubscribe buf n = some f) (hname : f.topicFilter = .long name) :
    f.topicType = MQTTSN_TOPIC_TYPE_NORMAL := by
  obtain ⟨⟨cur, enddata⟩, -, rfl⟩ := Option.map_eq_some_iff.mp h
  dsimp only at hname ⊢
  split at hname
  · assumption
  split at hname
  · cases hname
  split at hname <;> cases hname

/-- A SUBSCRIBE is read as it was meant. -/
theorem read_subscribe {topicName : List UInt8} (qos : UInt8) (msgId : UInt16)
    (hlen : topicName.length ≤ 249) (a : Around) : ∃ q topicFilter beyond,
      SnPacket.read (subscribePacket qos msgId topicName) a
        = some (.subscribe q msgId topicFilter beyond) ∧
      topicFilter.type = MQTTSN_TOPIC_TYPE_NORMAL ∧ topicFilter.long = topicName := by
  obtain ⟨q, hq, heq⟩ := subscribePacket_eq qos msgId topicName
  rw [heq]
  have hstores := stores_memory a (subscribePacket q msgId topicName)
  have hd : (subscribePacket q msgId topicName).length = 5 + topicName.length := by
    rw [subscribePacket, List.length_append]
    rfl
  have htype : mqttsnPacketGetType (a.memory (subscribePacket q msgId topicName))
      (5 + topicName.length : ℕ) = MQTTSN_SUBSCRIBE :=
    packetGetType_short hstores (by simp; omega) (by omega)
  obtain ⟨f, hread, -, hid, name, hlong, hname⟩ :=
    Pico.read_subscribePacket hq rfl (by omega) hstores
  have hnormal := type_of_long hread hlong
  rw [← hd] at htype hread
  refine ⟨.ofFlags f.qos, ⟨f.topicType, a.pointer, (lo8 a.pointer, hi8 a.pointer), topicName⟩,
    (TopicData.long name).beyond a (subscribePacket q msgId topicName), ?_, hnormal, rfl⟩
  rw [read_of_subscribe a htype hread, hlong, TopicData.topicid]
  dsimp only
  rw [string_of_holds hname, hid]
  rfl

/-- A PUBLISH is read as it was meant, with the topic id as it was written. -/
theorem read_publish (topicId : UInt16) {payload : List UInt8} {qos : ℤ} (msgId : UInt16)
    (hqos : qos = 0 ∨ qos = 1) (hlen : payload.length ≤ 248) (a : Around) :
    ∃ topicid : Topicid, topicid.type = MQTTSN_TOPIC_TYPE_NORMAL ∧ topicid.id = topicId ∧
      SnPacket.read (publishPacket topicId payload qos msgId) a
        = some (.publish false (if qos = 1 then 1 else 0) false (if qos = 1 then msgId else 0)
          topicid payload) := by
  have hstores := stores_memory a (publishPacket topicId payload qos msgId)
  have hd : (publishPacket topicId payload qos msgId).length = 7 + payload.length := by
    rw [publishPacket, List.length_append]
    rfl
  have htype : mqttsnPacketGetType (a.memory (publishPacket topicId payload qos msgId))
      (7 + payload.length : ℕ) = MQTTSN_PUBLISH :=
    packetGetType_short hstores (by simp; omega) (by omega)
  have hheader : readHeader (a.memory (publishPacket topicId payload qos msgId))
      (7 + payload.length : ℕ) (· == MQTTSN_PUBLISH) = some (2, ((7 + payload.length : ℕ) : ℤ)) :=
    readHeader_eq _ hstores (by simp; omega) (by omega) rfl
  have hflags : a.memory (publishPacket topicId payload qos msgId) 2 = getQosFlags qos 0 :=
    hstores.byte [UInt8.ofNat (7 + payload.length), MQTTSN_MSG_TYPE_PUBLISH]
  have hlow : 0 ≤ qos := by omega
  have hhigh : qos ≤ 2 := by omega
  have h255 : 7 + payload.length ≤ 255 := by omega
  obtain ⟨f, hread, -, htopic, hid, hpayload⟩ := Pico.read_publishPacket
    (p := ⟨topicId, payload, qos, msgId⟩) hlow hhigh rfl h255 hstores
  have hfields : f.topicType = MQTTSN_TOPIC_TYPE_NORMAL ∧ f.dup = 0 ∧ f.retained = 0 ∧
      QoS.ofFlags f.qos = if qos = 1 then 1 else 0 := by
    rw [mqttsnDeserializePublish, hheader, Option.map_some] at hread
    cases hread
    dsimp only
    rw [hflags]
    rcases hqos with rfl | rfl
    · exact ⟨rfl, rfl, rfl, rfl⟩
    · exact ⟨rfl, rfl, rfl, rfl⟩
  obtain ⟨hnormal, hdup, hretained, hq⟩ := hfields
  rw [← hd] at htype hread
  have htopicid : f.topic.topicid f.topicType a (a.memory (publishPacket topicId payload qos msgId))
      = some ⟨f.topicType, topicId, (lo8 topicId, hi8 topicId), []⟩ := by
    rw [htopic]
    rfl
  refine ⟨⟨f.topicType, topicId, (lo8 topicId, hi8 topicId), []⟩, hnormal, rfl, ?_⟩
  rw [read_of_publish a htype hread htopicid (string_of_holds hpayload), hdup, hretained, hq, hid]
  dsimp only
  rcases hqos with rfl | rfl
  · rfl
  · rfl

/-! ## What the gateway is told -/

variable (known clientId) in
/-- The packet is a request that was made, or a reading under an id of its topic. -/
def Told (requests : List Request) : SnPacket → Prop
  | .register _ msgId topicName => ⟨true, msgId, topicName⟩ ∈ requests
  | .subscribe _ msgId topicFilter _ => topicFilter.type = MQTTSN_TOPIC_TYPE_NORMAL ∧
      ⟨false, msgId, topicFilter.long⟩ ∈ requests
  | .publish dup qos retained msgId topicid payload => dup = false ∧ retained = false ∧
      topicid.type = MQTTSN_TOPIC_TYPE_NORMAL ∧ (∃ count, payload = reading clientId count) ∧
      (qos = 0 ∧ msgId = 0 ∧ Names known topicid.id TOPIC_DATA_2 ∨
        qos = 1 ∧ msgId ≠ 0 ∧ Names known topicid.id TOPIC_DATA_1)
  | _ => True

theorem Told.mono {requests requests' : List Request} (h : Told known clientId requests packet)
    {known' : UInt16 → List UInt8 → Prop} (hle : ∀ id name, known id name → known' id name)
    (hsub : requests ⊆ requests') : Told known' clientId requests' packet := by
  cases packet with
  | register => exact hsub h
  | subscribe => exact ⟨h.1, hsub h.2⟩
  | publish =>
    obtain ⟨hdup, hretained, htype, hpayload, htopic⟩ := h
    exact ⟨hdup, hretained, htype, hpayload,
      htopic.imp (And.imp_right (And.imp_right (Names.mono hle)))
        (And.imp_right (And.imp_right (Names.mono hle)))⟩
  | _ => trivial

theorem told_of_type {requests : List Request} (hreg : packet.getType ≠ MQTTSN_REGISTER)
    (hsub : packet.getType ≠ MQTTSN_SUBSCRIBE) (hpub : packet.getType ≠ MQTTSN_PUBLISH) :
    Told known clientId requests packet := by
  cases packet with
  | register => exact absurd rfl hreg
  | subscribe => exact absurd rfl hsub
  | publish => exact absurd rfl hpub
  | _ => trivial

/-- The request that was made. -/
theorem told_of_request (e : TopicEntry) (msgId : UInt16)
    (h : SnPacket.read (Arduino.request e msgId) a = some packet) :
    Told known clientId (Request.parse (Arduino.request e msgId)).toList packet := by
  have hlen : e.topicName.val.length ≤ 249 := e.topicName.property.trans (by decide)
  have hparse : Request.parse (Arduino.request e msgId)
      = some ⟨e.isSender, msgId, e.topicName.val⟩ := request_request e msgId
  have hrequest := hparse
  rw [Arduino.request] at h hrequest
  rw [hparse, Option.toList_some]
  split at h
  · rename_i hsender
    obtain ⟨topicId, hread⟩ := read_register msgId hlen a
    rw [hread] at h
    cases h
    rw [hsender]
    exact List.mem_singleton_self _
  · rename_i hsender
    obtain ⟨q, topicFilter, beyond, hread, htype, hlong⟩ := read_subscribe e.qos msgId hlen a
    rw [hread] at h
    cases h
    rw [Bool.eq_false_of_not_eq_true hsender]
    exact ⟨htype, hlong ▸ List.mem_singleton_self _⟩

theorem told_of_short {requests : List Request} {n : ℕ} {type : UInt8} {rest : List UInt8}
    (h : SnPacket.read (UInt8.ofNat n :: type :: rest) a = some packet)
    (hn : n = rest.length + 2) (h255 : n ≤ 255)
    (hreg : type ≠ MQTTSN_REGISTER) (hsub : type ≠ MQTTSN_SUBSCRIBE)
    (hpub : type ≠ MQTTSN_PUBLISH) :
    Told known clientId requests packet := by
  have htype := ofType_read _ a packet h
  have hstores := stores_memory a (UInt8.ofNat n :: type :: rest)
  rw [List.length_cons, List.length_cons, ← hn, packetGetType_short hstores hn h255] at htype
  exact told_of_type (htype ▸ hreg) (htype ▸ hsub) (htype ▸ hpub)

/-- **The gateway is told what an Arduino sends.** -/
theorem told_of_sends (hid : clientId.length ≤ 10) (hd : Sends known clientId d)
    (h : SnPacket.read d a = some packet) :
    Told known clientId (Request.parse d).toList packet := by
  cases hd with
  | connect =>
    refine told_of_short h ?_ (by omega) (by decide) (by decide) (by decide)
    change 6 + clientId.length = clientId.length + 4 + 2
    omega
  | request e msgId => exact told_of_request e msgId h
  | @publish topicId payload qos msgId hpub =>
    obtain ⟨⟨count, hpayload⟩, htopic⟩ := hpub
    have hlen : payload.length ≤ 16 := hpayload ▸ length_reading_le hid count
    have hqos : qos = 0 ∨ qos = 1 := htopic.imp And.left And.left
    obtain ⟨topicid, htype, hid', hread⟩ :=
      read_publish topicId msgId hqos (hlen.trans (by decide)) a
    rw [hread] at h
    cases h
    refine ⟨rfl, rfl, htype, ⟨count, hpayload⟩, ?_⟩
    rw [hid']
    rcases htopic with ⟨rfl, hnames⟩ | ⟨rfl, hne, hnames⟩
    · exact Or.inl ⟨rfl, rfl, hnames⟩
    · exact Or.inr ⟨rfl, hne, hnames⟩
  | puback => exact told_of_short h rfl (by decide) (by decide) (by decide) (by decide)
  | pubrec => exact told_of_short h rfl (by decide) (by decide) (by decide) (by decide)
  | pubcomp => exact told_of_short h rfl (by decide) (by decide) (by decide) (by decide)
  | pubrel => exact told_of_short h rfl (by decide) (by decide) (by decide) (by decide)

/-! ## Client ids -/

/-- The client id is read as it was written. -/
theorem connectId_connectPacket (hlen : clientId.length ≤ 249) (a : Around) :
    Gateway.connectId (connectPacket clientId) a = some clientId := by
  have hstores := stores_memory a (connectPacket clientId)
  have hd : (connectPacket clientId).length = 6 + clientId.length := by
    rw [connectPacket, List.length_append]
    rfl
  have hdecode : mqttsnPacketDecode (a.memory (connectPacket clientId))
      (connectPacket clientId).length 0 = (1, ((6 + clientId.length : ℕ) : ℤ)) := by
    rw [hd]
    exact packetDecode_short hstores (by simp; omega) (by omega)
  have htype : a.memory (connectPacket clientId) 1 = MQTTSN_CONNECT :=
    hstores.byte [UInt8.ofNat (6 + clientId.length)]
  have hversion : a.memory (connectPacket clientId) (1 + 2) = MQTTSN_PROTOCOL_VERSION :=
    hstores.byte [UInt8.ofNat (6 + clientId.length), MQTTSN_MSG_TYPE_CONNECT,
      MQTTSN_FLAG_CLEAN_SESSION]
  have hholds : Slice.Holds (a.memory (connectPacket clientId)) ⟨6, clientId.length⟩ clientId :=
    hstores.holds [UInt8.ofNat (6 + clientId.length), MQTTSN_MSG_TYPE_CONNECT,
      MQTTSN_FLAG_CLEAN_SESSION, MQTTSN_PROTOCOL_ID, hi8 KEEPALIVE_INTERVAL_SEC,
      lo8 KEEPALIVE_INTERVAL_SEC]
  have hslice : ((6 + clientId.length : ℕ) : ℤ) - (1 + 5) = clientId.length := by omega
  have hlong : ¬((6 + clientId.length : ℕ) : ℤ) - 1 < 2 := by omega
  rw [Gateway.connectId, mqttsnDeserializeConnect, hdecode]
  dsimp only
  rw [if_neg hlong, if_neg (not_not.mpr htype), if_neg (not_not.mpr hversion), hslice]
  exact string_of_holds hholds

theorem connectId_of_short {n : ℕ} {type : UInt8} {rest : List UInt8}
    (hn : n = rest.length + 2) (h255 : n ≤ 255) (htype : type ≠ MQTTSN_CONNECT) (a : Around) :
    Gateway.connectId (UInt8.ofNat n :: type :: rest) a = none := by
  have hstores := stores_memory a (UInt8.ofNat n :: type :: rest)
  have hbyte : a.memory (UInt8.ofNat n :: type :: rest) 1 = type := hstores.byte [UInt8.ofNat n]
  rw [Gateway.connectId, mqttsnDeserializeConnect, List.length_cons, List.length_cons, ← hn,
    packetDecode_short hstores hn h255]
  dsimp only
  rw [hbyte, if_pos htype, ite_self]
  rfl

/-- The length and the type of what an Arduino sends. -/
theorem shape_of_sends (hid : clientId.length ≤ 10) (hd : Sends known clientId d) :
    d = connectPacket clientId ∨ ∃ n type rest, d = UInt8.ofNat n :: type :: rest ∧
      n = rest.length + 2 ∧ n ≤ 255 ∧ type ≠ MQTTSN_CONNECT := by
  cases hd with
  | connect => exact Or.inl rfl
  | request e msgId =>
    have hlen : e.topicName.val.length ≤ 23 := e.topicName.property
    rw [Arduino.request]
    split
    · exact Or.inr ⟨_, _, _, rfl, Nat.add_comm 6 _, by omega, by decide⟩
    · exact Or.inr ⟨_, _, _, rfl, Nat.add_comm 5 _, by omega, by decide⟩
  | @publish topicId payload qos msgId h =>
    obtain ⟨count, hpayload⟩ := h.payload
    have hlen : payload.length ≤ 16 := hpayload ▸ length_reading_le hid count
    refine Or.inr ⟨_, _, _, rfl, Nat.add_comm 7 _, ?_, by decide⟩
    change 7 + _ ≤ 255
    omega
  | puback => exact Or.inr ⟨_, _, _, rfl, rfl, by decide, by decide⟩
  | pubrec => exact Or.inr ⟨_, _, _, rfl, rfl, by decide, by decide⟩
  | pubcomp => exact Or.inr ⟨_, _, _, rfl, rfl, by decide, by decide⟩
  | pubrel => exact Or.inr ⟨_, _, _, rfl, rfl, by decide, by decide⟩

/-- **The client id that an Arduino shows is its own.** -/
theorem connectId_of_sends (hid : clientId.length ≤ 10) (hd : Sends known clientId d)
    {id : List UInt8} (h : Gateway.connectId d a = some id) : id = clientId := by
  rcases shape_of_sends hid hd with rfl | ⟨n, type, rest, rfl, hn, h255, htype⟩
  · rw [connectId_connectPacket (hid.trans (by decide))] at h
    exact (Option.some.inj h).symm
  · rw [connectId_of_short hn h255 htype] at h
    cases h

end Emcs.System
