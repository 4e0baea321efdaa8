import Emcs.Paho.Packet
import Emcs.Pico.Client

/-!
# The datagrams of the Pico at the gateway

Every function of the client that sends a packet, against the deserializer of the gateway's library
for it. The client writes the length of a packet into one byte, which holds it up to 255. Two checks
let longer packets pass: a topic name of 250 characters makes a REGISTER of 256 bytes, and the
length of a PUBLISH is checked after it was cut to 16 bits (`agrees_iff`).

## At the gateway

`Agrees` runs the deserializer of the library on the datagram, with anything behind it in memory,
and compares every field with the argument it came from. The length byte decides: where it is the
length of the packet, the deserializers of all types read the fields back; a packet of more than 255
bytes has its length modulo 256 there.
-/

namespace Emcs.Pico

open Bytes Mqttsn Paho

/-! ## The calls -/

def mqttSnSendPuback (topicId msgId : UInt16) (returnCode : UInt8) (ok : Bool) : List Action :=
  [.send (pubackPacket topicId msgId returnCode) ok]

def mqttSnSendPubrec (msgId : UInt16) (ok : Bool) : List Action := [.send (pubrecPacket msgId) ok]

def mqttSnSendPubcomp (msgId : UInt16) (ok : Bool) : List Action := [.send (pubcompPacket msgId) ok]

def mqttSnSendPubrel (msgId : UInt16) (ok : Bool) : List Action := [.send (pubrelPacket msgId) ok]

/-- These are the answers of the handler of PUBLISH. -/
theorem sendQosAck_eq (qos : UInt8) (topicId msgId : UInt16) (ok : Bool) :
    sendQosAck qos topicId msgId ok =
      if qos = 1 then mqttSnSendPuback topicId msgId MQTTSN_RETURN_ACCEPTED ok
      else if qos = 2 then mqttSnSendPubrec msgId ok
      else [] := rfl

/-- A call of a function that sends a packet. -/
inductive Outgoing where
  | register (topicName : List UInt8) (msgId : UInt16)
  | subscribe (topicName : List UInt8) (msgId : UInt16) (qos : UInt8)
  | publish (p : Publish)
  | puback (topicId msgId : UInt16) (returnCode : UInt8)
  | pubrec (msgId : UInt16)
  | pubrel (msgId : UInt16)
  | pubcomp (msgId : UInt16)

/-- What the call sends; nothing where its arguments are rejected. -/
def Outgoing.run (ok : Bool) : Outgoing → List Action
  | .register topicName msgId => mqttSnRegisterTopic topicName msgId ok
  | .subscribe topicName msgId qos => mqttSnSubscribeTopicName topicName msgId qos ok
  | .publish p => p.transmit ok
  | .puback topicId msgId returnCode => mqttSnSendPuback topicId msgId returnCode ok
  | .pubrec msgId => mqttSnSendPubrec msgId ok
  | .pubrel msgId => mqttSnSendPubrel msgId ok
  | .pubcomp msgId => mqttSnSendPubcomp msgId ok

/-- The QoS of a subscription is not checked by the client. -/
def Outgoing.ValidQos : Outgoing → Prop
  | .subscribe _ _ qos => qos ≤ 2
  | _ => True

/-! ## At the gateway -/

/-- The deserializer for the packet accepts the `n` bytes at `buf` and returns the arguments of the
call. -/
def Outgoing.Read (buf : Memory) (n : ℤ) : Outgoing → Prop
  | .register topicName msgId => ∃ f, mqttsnDeserializeRegister buf n = some f ∧
      f.packetid = msgId ∧ f.topicname.Holds buf topicName
  | .subscribe topicName msgId qos => ∃ f, mqttsnDeserializeSubscribe buf n = some f ∧
      f.qos = qos ∧ f.packetid = msgId ∧
      ∃ name, f.topicFilter = .long name ∧ name.Holds buf topicName
  | .publish p => ∃ f, mqttsnDeserializePublish buf n = some f ∧
      (f.qos.toNat : ℤ) = p.qos ∧ f.topic = .id p.topicId ∧
      f.packetid = (if p.qos > 0 then p.msgId else 0) ∧ f.payload.Holds buf p.payload
  | .puback topicId msgId returnCode =>
      mqttsnDeserializePuback buf n = some ⟨topicId, msgId, returnCode⟩
  | .pubrec msgId => mqttsnDeserializeAck buf n = some ⟨MQTTSN_PUBREC, msgId⟩
  | .pubrel msgId => mqttsnDeserializeAck buf n = some ⟨MQTTSN_PUBREL, msgId⟩
  | .pubcomp msgId => mqttsnDeserializeAck buf n = some ⟨MQTTSN_PUBCOMP, msgId⟩

/-- The datagram `d` has its length in its first byte, and the gateway reads the arguments of the
call from it, whatever stands around it in memory. -/
structure Outgoing.Agrees (x : Outgoing) (d : List UInt8) : Prop where
  length : d.head?.map UInt8.toNat = some d.length
  read : ∀ buf, Stores buf d → x.Read buf d.length

/-- The packet of the call has at most 255 bytes. -/
def Outgoing.Short : Outgoing → Prop
  | .register topicName _ => topicName.length ≤ 249
  | .publish p => p.payload.length ≤ 248
  | _ => True

section Packets

variable {buf : Memory}

theorem ofAll_getQosFlags {qos : ℤ} (h0 : 0 ≤ qos) (h2 : qos ≤ 2) :
    (Flags.ofAll (getQosFlags qos 0)).topicIdType = MQTTSN_TOPIC_TYPE_NORMAL ∧
      ((Flags.ofAll (getQosFlags qos 0)).qos.toNat : ℤ) = qos := by
  have hqos : qos = 0 ∨ qos = 1 ∨ qos = 2 := by omega
  rcases hqos with rfl | rfl | rfl
  all_goals exact ⟨by decide, by decide⟩

theorem read_registerPacket {topicName : List UInt8} {msgId : UInt16} {n : ℕ}
    (hn : n = 6 + topicName.length) (h255 : n ≤ 255)
    (h : Stores buf (registerPacket msgId topicName)) :
    (Outgoing.register topicName msgId).Read buf n := by
  subst hn
  have hheader := readHeader_eq (· == MQTTSN_REGISTER) h (by simp; omega) h255 rfl
  have hread : mqttsnDeserializeRegister buf (6 + topicName.length : ℕ) =
      some ⟨readShort buf 2, readShort buf 4, ⟨6, ((6 + topicName.length : ℕ) : ℤ) - 6⟩⟩ := by
    rw [mqttsnDeserializeRegister, hheader]
    rfl
  have hid : readShort buf 4 = msgId :=
    h.short [UInt8.ofNat (6 + topicName.length), MQTTSN_MSG_TYPE_REGISTER, 0, 0]
  have hslice : ((6 + topicName.length : ℕ) : ℤ) - 6 = topicName.length := by omega
  rw [hslice] at hread
  exact ⟨_, hread, hid, h.holds
    [UInt8.ofNat (6 + topicName.length), MQTTSN_MSG_TYPE_REGISTER, 0, 0, hi8 msgId, lo8 msgId]⟩

theorem read_subscribePacket {topicName : List UInt8} {msgId : UInt16} {qos : UInt8} {n : ℕ}
    (hqos : qos ≤ 2) (hn : n = 5 + topicName.length) (h255 : n ≤ 255)
    (h : Stores buf (subscribePacket qos msgId topicName)) :
    (Outgoing.subscribe topicName msgId qos).Read buf n := by
  subst hn
  have hheader := readHeader_eq (· == MQTTSN_SUBSCRIBE) h (by simp; omega) h255 rfl
  have hle : qos.toNat ≤ 2 := UInt8.le_iff_toNat_le.mp hqos
  obtain ⟨htype, hflags⟩ :
      _ ∧ ((Flags.ofAll (getQosFlags qos.toNat 0)).qos.toNat : ℤ) = qos.toNat :=
    ofAll_getQosFlags (by omega) (by omega)
  have hbyte : buf 2 = getQosFlags qos.toNat 0 :=
    h.byte [UInt8.ofNat (5 + topicName.length), MQTTSN_MSG_TYPE_SUBSCRIBE]
  have hid : readShort buf 3 = msgId :=
    h.short [UInt8.ofNat (5 + topicName.length), MQTTSN_MSG_TYPE_SUBSCRIBE, getQosFlags qos.toNat 0]
  rw [← hbyte] at htype hflags
  have hread : mqttsnDeserializeSubscribe buf (5 + topicName.length : ℕ) =
      some ⟨0 - (Flags.ofAll (buf 2)).dup, (Flags.ofAll (buf 2)).qos, readShort buf 3,
        (Flags.ofAll (buf 2)).topicIdType,
        .long ⟨5, ((5 + topicName.length : ℕ) : ℤ) - 5⟩⟩ := by
    rw [mqttsnDeserializeSubscribe, hheader, Option.map_some]
    simp only [show (2 : ℤ) + 1 = 3 from rfl, show (2 : ℤ) + 3 = 5 from rfl, htype, if_true]
  have hslice : ((5 + topicName.length : ℕ) : ℤ) - 5 = topicName.length := by omega
  rw [hslice] at hread
  exact ⟨_, hread, UInt8.toNat_inj.mp (by exact_mod_cast hflags), hid, _, rfl,
    h.holds [UInt8.ofNat (5 + topicName.length), MQTTSN_MSG_TYPE_SUBSCRIBE,
      getQosFlags qos.toNat 0, hi8 msgId, lo8 msgId]⟩

theorem publishPacket_eq (p : Publish) : publishPacket p.topicId p.payload p.qos p.msgId =
    [UInt8.ofNat (7 + p.payload.length), MQTTSN_MSG_TYPE_PUBLISH, getQosFlags p.qos 0,
      hi8 p.topicId, lo8 p.topicId, hi8 (if p.qos > 0 then p.msgId else 0),
      lo8 (if p.qos > 0 then p.msgId else 0)] ++ p.payload := by
  rw [publishPacket]
  split <;> rfl

theorem read_publishPacket {p : Publish} {n : ℕ} (h0 : 0 ≤ p.qos) (h2 : p.qos ≤ 2)
    (hn : n = 7 + p.payload.length) (h255 : n ≤ 255)
    (h : Stores buf (publishPacket p.topicId p.payload p.qos p.msgId)) :
    (Outgoing.publish p).Read buf n := by
  rw [publishPacket_eq, ← hn] at h
  have hheader := readHeader_eq (· == MQTTSN_PUBLISH) h (by simp; omega) h255 rfl
  have hbyte : buf 2 = getQosFlags p.qos 0 := h.byte [UInt8.ofNat n, MQTTSN_MSG_TYPE_PUBLISH]
  have htopic : readShort buf 3 = p.topicId :=
    h.short [UInt8.ofNat n, MQTTSN_MSG_TYPE_PUBLISH, getQosFlags p.qos 0]
  have hid : readShort buf 5 = if p.qos > 0 then p.msgId else 0 :=
    h.short [UInt8.ofNat n, MQTTSN_MSG_TYPE_PUBLISH, getQosFlags p.qos 0, hi8 p.topicId,
      lo8 p.topicId]
  obtain ⟨htype, hflags⟩ := ofAll_getQosFlags h0 h2
  rw [← hbyte] at htype hflags
  have hnamed : ((Flags.ofAll (buf 2)).qos == 3) = false := by
    apply beq_false_of_ne
    intro heq
    rw [heq] at hflags
    change (3 : ℤ) = p.qos at hflags
    omega
  have hread : mqttsnDeserializePublish buf n =
      some ⟨0 - (Flags.ofAll (buf 2)).dup, (Flags.ofAll (buf 2)).qos, (Flags.ofAll (buf 2)).retain,
        readShort buf 5, (Flags.ofAll (buf 2)).topicIdType, .id (readShort buf 3),
        ⟨7, (n : ℤ) - 7⟩⟩ := by
    rw [mqttsnDeserializePublish, hheader, Option.map_some]
    simp only [show (2 : ℤ) + 1 = 3 from rfl, show (2 : ℤ) + 3 = 5 from rfl,
      show (2 : ℤ) + 5 = 7 from rfl, hnamed, htype, Bool.and_false, Bool.false_eq_true, if_false,
      true_or, if_true]
  have hslice : (n : ℤ) - 7 = p.payload.length := by omega
  rw [hslice] at hread
  exact ⟨_, hread, hflags, congrArg TopicData.id htopic, hid, h.holds _⟩

theorem read_pubackPacket {topicId msgId : UInt16} {returnCode : UInt8}
    (h : Stores buf (pubackPacket topicId msgId returnCode)) :
    (Outgoing.puback topicId msgId returnCode).Read buf 7 := by
  have hheader := readHeader_eq (n := 7) (· == MQTTSN_PUBACK) h rfl (by decide) rfl
  have htopic : readShort buf 2 = topicId := h.short [7, MQTTSN_MSG_TYPE_PUBACK]
  have hid : readShort buf 4 = msgId :=
    h.short [7, MQTTSN_MSG_TYPE_PUBACK, hi8 topicId, lo8 topicId]
  have hcode : buf 6 = returnCode :=
    h.byte [7, MQTTSN_MSG_TYPE_PUBACK, hi8 topicId, lo8 topicId, hi8 msgId, lo8 msgId]
  rw [← htopic, ← hid, ← hcode, Outgoing.Read, mqttsnDeserializePuback]
  exact congrArg (Option.map _) hheader

/-- The three acknowledgements that the gateway reads with one function. A PUBREC and a PUBCOMP of
the client have a return code behind the message id, which is not read. -/
theorem deserializeAck_eq {type : UInt8} {msgId : UInt16} {rest : List UInt8} {n : ℕ}
    (htype : type = MQTTSN_PUBREL ∨ type = MQTTSN_PUBREC ∨ type = MQTTSN_PUBCOMP)
    (hn : n = rest.length + 4) (h255 : n ≤ 255)
    (h : Stores buf (UInt8.ofNat n :: type :: hi8 msgId :: lo8 msgId :: rest)) :
    mqttsnDeserializeAck buf n = some ⟨type, msgId⟩ := by
  have hheader := readHeader_eq
    (fun type ↦ type == MQTTSN_PUBREL || type == MQTTSN_PUBREC || type == MQTTSN_PUBCOMP)
    h hn h255 (by simpa [or_assoc] using htype)
  have hbyte : buf 1 = type := h.byte [UInt8.ofNat n]
  have hid : readShort buf 2 = msgId := h.short [UInt8.ofNat n, type]
  rw [← hbyte, ← hid, mqttsnDeserializeAck]
  exact congrArg (Option.map _) hheader

end Packets

/-! ## Both sides -/

/-- A packet with its length in front is one that the gateway reads at this length. -/
theorem Outgoing.Agrees.of_packet {x : Outgoing} {rest : List UInt8} {n : ℕ}
    (hn : n = rest.length + 1) (h255 : n ≤ 255)
    (hread : ∀ buf, Stores buf (UInt8.ofNat n :: rest) → x.Read buf n) :
    x.Agrees (UInt8.ofNat n :: rest) where
  length := by
    rw [List.head?_cons, Option.map_some, UInt8.toNat_ofNat', Nat.mod_eq_of_lt (by omega),
      List.length_cons, hn]
  read := by
    rw [List.length_cons, ← hn]
    exact hread

theorem registerTopic_eq {topicName : List UInt8} {msgId : UInt16} {ok : Bool} {d : List UInt8}
    (h : mqttSnRegisterTopic topicName msgId ok = [.send d ok]) :
    d = registerPacket msgId topicName := by
  rw [mqttSnRegisterTopic] at h
  split at h
  · exact absurd h (List.cons_ne_nil _ _).symm
  · exact (Action.send.inj (List.cons.inj h).1).1.symm

theorem subscribeTopicName_eq {topicName : List UInt8} {msgId : UInt16} {qos : UInt8} {ok : Bool}
    {d : List UInt8} (h : mqttSnSubscribeTopicName topicName msgId qos ok = [.send d ok]) :
    topicName.length ≤ 250 ∧ d = subscribePacket qos msgId topicName := by
  rw [mqttSnSubscribeTopicName] at h
  split at h
  · exact absurd h (List.cons_ne_nil _ _).symm
  · rename_i haccepted
    exact ⟨by omega, (Action.send.inj (List.cons.inj h).1).1.symm⟩

theorem transmit_eq {p : Publish} {ok : Bool} {d : List UInt8}
    (h : p.transmit ok = [.send d ok]) : 0 ≤ p.qos ∧ p.qos ≤ 2 ∧ p.packetLen ≤ 255 ∧
      d = (publishPacket p.topicId p.payload p.qos p.msgId).take p.packetLen := by
  rw [Publish.transmit] at h
  split at h
  · rename_i haccepted
    simp only [Publish.accepted, Bool.and_eq_true, decide_eq_true_eq] at haccepted
    obtain ⟨⟨h0, h2⟩, hlen⟩ := haccepted
    exact ⟨h0, h2, hlen, (Action.send.inj (List.cons.inj h).1).1.symm⟩
  · exact absurd h (List.cons_ne_nil _ _).symm

theorem agrees_of_short {x : Outgoing} {ok : Bool} {d : List UInt8} (hqos : x.ValidQos)
    (h : x.run ok = [.send d ok]) (hshort : x.Short) : x.Agrees d := by
  cases x with
  | register topicName msgId =>
    have hlen : topicName.length ≤ 249 := hshort
    rw [registerTopic_eq h]
    exact .of_packet (by simp; omega) (by omega) fun buf ↦ read_registerPacket rfl (by omega)
  | subscribe topicName msgId qos =>
    obtain ⟨hlen, rfl⟩ := subscribeTopicName_eq h
    exact .of_packet (by simp; omega) (by omega) fun buf ↦ read_subscribePacket hqos rfl (by omega)
  | publish p =>
    have hlen : p.payload.length ≤ 248 := hshort
    obtain ⟨h0, h2, -, rfl⟩ := transmit_eq h
    have hwhole : (publishPacket p.topicId p.payload p.qos p.msgId).take p.packetLen =
        publishPacket p.topicId p.payload p.qos p.msgId := by
      apply List.take_of_length_le
      simp [publishPacket, Publish.packetLen, MQTTSN_PUBLISH_HEADER_LEN]
      omega
    rw [hwhole]
    exact .of_packet (by simp [MQTTSN_PUBLISH_HEADER_LEN]; omega)
      (by rw [MQTTSN_PUBLISH_HEADER_LEN]; omega)
      fun buf ↦ read_publishPacket h0 h2 rfl (by rw [MQTTSN_PUBLISH_HEADER_LEN]; omega)
  | puback topicId msgId returnCode =>
    obtain rfl := (Action.send.inj (List.cons.inj h).1).1
    exact .of_packet (n := 7) rfl (by decide) fun buf ↦ read_pubackPacket
  | pubrec msgId =>
    obtain rfl := (Action.send.inj (List.cons.inj h).1).1
    exact .of_packet (n := 5) rfl (by decide) fun buf ↦
      deserializeAck_eq (.inr (.inl rfl)) rfl (by decide)
  | pubrel msgId =>
    obtain rfl := (Action.send.inj (List.cons.inj h).1).1
    exact .of_packet (n := 4) rfl (by decide) fun buf ↦ deserializeAck_eq (.inl rfl) rfl (by decide)
  | pubcomp msgId =>
    obtain rfl := (Action.send.inj (List.cons.inj h).1).1
    exact .of_packet (n := 5) rfl (by decide) fun buf ↦
      deserializeAck_eq (.inr (.inr rfl)) rfl (by decide)

/-- A datagram that agrees cannot be of a longer packet: its length would not fit the first byte, or
the payload that is read would be shorter than the one given. -/
theorem short_of_agrees {x : Outgoing} {ok : Bool} {d : List UInt8}
    (h : x.run ok = [.send d ok]) (hagrees : x.Agrees d) : x.Short := by
  cases x with
  | register topicName msgId =>
    have hlength := hagrees.length
    rw [registerTopic_eq h] at hlength
    have heq := Option.some.inj hlength
    have hlt := (UInt8.ofNat (6 + topicName.length)).toNat_lt
    simp only [registerPacket, List.length_append, List.length_cons, List.length_nil] at heq
    rw [heq] at hlt
    change topicName.length ≤ 249
    omega
  | publish p =>
    obtain ⟨-, -, hle, rfl⟩ := transmit_eq h
    obtain ⟨f, hread, -, -, -, hpayload⟩ := hagrees.read _ (stores_self _)
    -- the whole payload was read from at most 255 bytes, so its length has not wrapped
    have hlen := payload_len_le hread
    rw [hpayload.len_eq, List.length_take] at hlen
    rw [Publish.packetLen, MQTTSN_PUBLISH_HEADER_LEN] at hle hlen
    change p.payload.length ≤ 248
    omega
  | subscribe | puback | pubrec | pubrel | pubcomp => trivial

/-- **The gateway reads what the client was asked to send exactly if the packet has at most 255
bytes.** -/
theorem agrees_iff (x : Outgoing) (ok : Bool) (d : List UInt8) (hqos : x.ValidQos)
    (h : x.run ok = [.send d ok]) : x.Agrees d ↔ x.Short :=
  ⟨short_of_agrees h, agrees_of_short hqos h⟩

/-- A subscription at QoS 2. -/
theorem agrees_iff_subscribe :
    let x : Outgoing := .subscribe [108, 101, 100] 7 2
    x.run true = [.send [8, 0x12, 0x40, 0, 7, 108, 101, 100] true] ∧
      x.Agrees [8, 0x12, 0x40, 0, 7, 108, 101, 100] :=
  ⟨by decide, (agrees_iff (.subscribe [108, 101, 100] 7 2) true _
    (by decide : (2 : UInt8) ≤ 2) (by decide)).mpr trivial⟩

theorem run_register {topicName : List UInt8} (hne : topicName.length ≠ 0)
    (hle : topicName.length ≤ 250) (msgId : UInt16) (ok : Bool) :
    (Outgoing.register topicName msgId).run ok = [.send (registerPacket msgId topicName) ok] :=
  if_neg (by omega)

/-- The longest topic name that is accepted makes a REGISTER of 256 bytes, whose length byte is
zero. -/
theorem longest_name_disagrees :
    ¬ ∀ (x : Outgoing) (d : List UInt8), x.ValidQos → x.run true = [.send d true] → x.Agrees d := by
  intro h
  have hlen : (List.replicate 250 (97 : UInt8)).length = 250 := List.length_replicate
  have hrun := run_register (by omega) hlen.le 1 true
  have hshort : (List.replicate 250 (97 : UInt8)).length ≤ 249 :=
    short_of_agrees hrun (h _ _ trivial hrun)
  omega

end Emcs.Pico
