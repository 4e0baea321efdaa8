import Emcs.Paho.Topics

/-!
# What the gateway keeps for a client

`Client` in `MQTTSNGWClient.cpp`, with the tables of `MQTTSNGWTopic.cpp` that answer
acknowledgements of the broker: `TopicIdMap` keeps the topic id of each publish or subscribe that
waits for one. Packets stand for what their `get` functions return.

Left out are the parts of the aggregating gateway and of the proxies, the keep alive timer, which
nothing reads, and `_packetId`, which only an aggregating gateway draws from.

## The packets

`SnPacket` and `MqttPacket` are what the handlers see: the fields that the `get` functions return,
not the bytes. How a datagram becomes such a packet, and such a packet a datagram, is the subject of
`Paho.Datagram`; between the tasks packets are passed as values, as in the source.

The two maps and the list of packets that wait for a REGACK count their elements in variables of
their own, which the handlers rely on; that the counts are right is part of what a client in order
is.
-/

namespace Emcs.Paho

/-! ## Waiting for the broker -/

def MAX_INFLIGHTMESSAGES : ℤ := 10

structure TopicIdMapElement where
  msgId : UInt16
  topicId : UInt16
  type : UInt8
  wildcard : Bool
  deriving DecidableEq

/-- The topic id of a name with wildcards is 0. -/
def TopicIdMapElement.getTopicId (e : TopicIdMapElement) : UInt16 :=
  if e.wildcard then 0 else e.topicId

/-- The constructor: `strchr` looks from the name of a normal topic on, to the next NUL. -/
def TopicIdMapElement.new (msgId topicId : UInt16) (type : UInt8) (name : List UInt8) :
    TopicIdMapElement where
  msgId := msgId
  topicId := topicId
  type := type
  wildcard := type == MQTTSN_TOPIC_TYPE_NORMAL &&
    ((cString name).contains 0x23 || (cString name).contains 0x2B)

/-- The list from `_first` on, and `_cnt`. -/
structure TopicIdMap where
  elements : List TopicIdMapElement
  cnt : ℤ
  deriving DecidableEq

namespace TopicIdMap

def empty : TopicIdMap := ⟨[], 0⟩

def getElement (m : TopicIdMap) (msgId : UInt16) : Option TopicIdMapElement :=
  m.elements.find? (·.msgId == msgId)

/-- `_cnt` goes down whether or not there is an element. -/
def erase (m : TopicIdMap) (msgId : UInt16) : TopicIdMap :=
  ⟨m.elements.eraseP (·.msgId == msgId), m.cnt - 1⟩

def add (m : TopicIdMap) (msgId topicId : UInt16) (type : UInt8) (name : List UInt8) : TopicIdMap :=
  if m.cnt > MAX_INFLIGHTMESSAGES * 2 ∨ (topicId = 0 ∧ type ≠ MQTTSN_TOPIC_TYPE_SHORT) then m
  else
    let m := if (m.getElement msgId).isSome then m.erase msgId else m
    ⟨m.elements ++ [.new msgId topicId type name], m.cnt + 1⟩

/-- **The map counts what it holds**, and has one element for a message id. -/
structure Ok (m : TopicIdMap) : Prop where
  count : m.cnt = m.elements.length
  ids : (m.elements.map TopicIdMapElement.msgId).Nodup
  room : m.cnt ≤ MAX_INFLIGHTMESSAGES * 2 + 1

variable {m : TopicIdMap}

theorem ok_empty : empty.Ok := ⟨rfl, List.nodup_nil, by decide⟩

theorem of_getElement {msgId : UInt16} {e : TopicIdMapElement} (h : m.getElement msgId = some e) :
    e ∈ m.elements ∧ e.msgId = msgId := by
  rw [getElement] at h
  have hid := List.find?_some h
  exact ⟨List.mem_of_find?_eq_some h, beq_iff_eq.mp hid⟩

theorem ne_of_getElement {msgId : UInt16} (h : (m.getElement msgId).isSome = false) :
    msgId ∉ m.elements.map TopicIdMapElement.msgId := by
  rw [Option.isSome_eq_false_iff, Option.isNone_iff_eq_none] at h
  intro hmem
  obtain ⟨e, he, rfl⟩ := List.mem_map.mp hmem
  exact absurd (beq_self_eq_true e.msgId) (List.find?_eq_none.mp h e he)

/-- An element is erased by its message id. -/
theorem Ok.erase (h : m.Ok) {msgId : UInt16} (hsome : (m.getElement msgId).isSome = true) :
    (m.erase msgId).Ok ∧ msgId ∉ (m.erase msgId).elements.map TopicIdMapElement.msgId := by
  obtain ⟨e, he⟩ := Option.isSome_iff_exists.mp hsome
  obtain ⟨hmem, hid⟩ := of_getElement he
  have hlen := List.length_eraseP_of_mem hmem (p := (·.msgId == msgId)) (beq_iff_eq.mpr hid)
  have hpos := List.length_pos_of_mem hmem
  have hsub : (m.erase msgId).elements.Sublist m.elements := List.eraseP_sublist
  refine ⟨⟨?_, (hsub.map _).nodup h.ids, ?_⟩, fun hin ↦ ?_⟩
  · change m.cnt - 1 = ((m.elements.eraseP (·.msgId == msgId)).length : ℤ)
    rw [hlen, h.count]
    omega
  · exact (Int.sub_le_self _ (by decide)).trans h.room
  · -- the elements before the one erased have other ids, and so have those behind it
    obtain ⟨a, l₁, l₂, hl₁, ha, heq, herase⟩ :=
      List.exists_of_eraseP hmem (p := (·.msgId == msgId)) (beq_iff_eq.mpr hid)
    have hnodup := h.ids
    rw [TopicIdMap.erase, herase, List.map_append, List.mem_append] at hin
    rw [heq, List.map_append, List.map_cons, beq_iff_eq.mp ha, List.nodup_append] at hnodup
    rcases hin with hin | hin
    · obtain ⟨b, hb, hbid⟩ := List.mem_map.mp hin
      exact hl₁ b hb (beq_iff_eq.mpr hbid)
    · exact (List.nodup_cons.mp hnodup.2.1).1 hin

theorem Ok.append (h : m.Ok) (hlt : m.cnt ≤ MAX_INFLIGHTMESSAGES * 2) {e : TopicIdMapElement}
    (hnew : e.msgId ∉ m.elements.map TopicIdMapElement.msgId) :
    Ok ⟨m.elements ++ [e], m.cnt + 1⟩ := by
  refine ⟨?_, ?_, Int.add_le_add_right hlt 1⟩
  · rw [List.length_append, h.count]
    rfl
  · rw [List.map_append, List.map_singleton, ← List.concat_eq_append]
    exact h.ids.concat hnew

theorem Ok.add (h : m.Ok) (msgId topicId : UInt16) (type : UInt8) (name : List UInt8) :
    (m.add msgId topicId type name).Ok := by
  rw [TopicIdMap.add]
  split
  · exact h
  · rename_i hroom
    rw [not_or, not_lt] at hroom
    cases hsome : (m.getElement msgId).isSome with
    | false => exact h.append hroom.1 (ne_of_getElement hsome)
    | true =>
      obtain ⟨hok, hnew⟩ := h.erase hsome
      exact hok.append ((Int.sub_le_self _ (by decide)).trans hroom.1) hnew

/-- **Every element was added**: it was there before, or it is the new one. -/
theorem mem_add {msgId topicId : UInt16} {type : UInt8} {name : List UInt8} {e : TopicIdMapElement}
    (h : e ∈ (m.add msgId topicId type name).elements) :
    e ∈ m.elements ∨ e = .new msgId topicId type name := by
  rw [TopicIdMap.add] at h
  split at h
  · exact Or.inl h
  · rcases List.mem_append.mp h with hmem | hmem
    · refine Or.inl ?_
      split at hmem
      · exact List.mem_of_mem_eraseP hmem
      · exact hmem
    · exact Or.inr (List.mem_singleton.mp hmem)

theorem mem_erase {msgId : UInt16} {e : TopicIdMapElement} (h : e ∈ (m.erase msgId).elements) :
    e ∈ m.elements := List.mem_of_mem_eraseP h

end TopicIdMap

/-! ## Packets -/

/-- A QoS, which has two bits. -/
abbrev QoS := Fin 4

instance QoS.neZero : @NeZero ℕ Zero.ofOfNat0 4 := ⟨by decide⟩

theorem qos_acked (qos : QoS) (h : qos > 0 ∧ qos < 3) : qos = 1 ∨ qos = 2 := by
  revert qos
  decide

theorem qos_ends (qos : QoS) (h : ¬(qos > 0 ∧ qos < 3)) : qos = 0 ∨ qos = 3 := by
  revert qos
  decide

/-- The packets of a client, as their `get` functions return them. A `malformed` packet is one that
its function refuses; a DISCONNECT that is refused is handled like one without a duration. -/
inductive SnPacket where
  | connect (cleansession willFlag : Bool) (duration : UInt16)
  | willTopic (willQos : QoS) (willRetain : Bool) (willTopic : List UInt8)
  | willMsg (willmsg : List UInt8)
  | register (topicId msgId : UInt16) (topicName : List UInt8)
  | regAck (topicId msgId : UInt16) (rc : UInt8)
  | publish (dup : Bool) (qos : QoS) (retained : Bool) (msgId : UInt16) (topicid : Topicid)
      (payload : List UInt8)
  | puback (topicId msgId : UInt16) (rc : UInt8)
  | ack (type : UInt8) (msgId : UInt16)
  | subscribe (qos : QoS) (msgId : UInt16) (topicFilter : Topicid) (beyond : List UInt8)
  | unsubscribe (msgId : UInt16) (topicFilter : Topicid)
  | pingreq
  | disconnect (duration : UInt16)
  | willTopicUpd
  | willMsgUpd
  | malformed (type : UInt8)

def MQTTSN_CONNECT : UInt8 := 0x04

def MQTTSN_WILLTOPIC : UInt8 := 0x07

def MQTTSN_WILLMSG : UInt8 := 0x09

def MQTTSN_UNSUBSCRIBE : UInt8 := 0x14

def MQTTSN_PINGREQ : UInt8 := 0x16

def MQTTSN_PINGRESP : UInt8 := 0x17

def MQTTSN_DISCONNECT : UInt8 := 0x18

def MQTTSN_WILLTOPICUPD : UInt8 := 0x1A

def MQTTSN_WILLMSGUPD : UInt8 := 0x1C

def SnPacket.getType : SnPacket → UInt8
  | .connect .. => MQTTSN_CONNECT
  | .willTopic .. => MQTTSN_WILLTOPIC
  | .willMsg .. => MQTTSN_WILLMSG
  | .register .. => MQTTSN_REGISTER
  | .regAck .. => MQTTSN_REGACK
  | .publish .. => MQTTSN_PUBLISH
  | .puback .. => MQTTSN_PUBACK
  | .ack type _ => type
  | .subscribe .. => MQTTSN_SUBSCRIBE
  | .unsubscribe .. => MQTTSN_UNSUBSCRIBE
  | .pingreq => MQTTSN_PINGREQ
  | .disconnect _ => MQTTSN_DISCONNECT
  | .willTopicUpd => MQTTSN_WILLTOPICUPD
  | .willMsgUpd => MQTTSN_WILLMSGUPD
  | .malformed type => type

/-- The packets to a client, as their `set` functions are given them. -/
inductive SnReply where
  | connack (rc : UInt8)
  | willTopicReq
  | willMsgReq
  | register (topicId msgId : UInt16) (topicName : List UInt8)
  | regack (topicId msgId : UInt16) (rc : UInt8)
  | publish (dup : Bool) (qos : QoS) (retain : Bool) (msgId : UInt16) (topic : Topicid)
      (payload : List UInt8)
  | puback (topicId msgId : UInt16) (rc : UInt8)
  | ack (type : UInt8) (msgId : UInt16)
  | suback (qos : QoS) (topicId msgId : UInt16) (rc : UInt8)
  | unsuback (msgId : UInt16)
  | pingresp
  | disconnect
  | willTopicResp (rc : UInt8)
  | willMsgResp (rc : UInt8)

/-- `Connect`, as the gateway fills it. -/
structure Connect where
  cleanstart : Bool
  will : Bool
  willQoS : QoS
  willRetain : Bool
  keepAliveTimer : UInt16
  willTopic : List UInt8
  willMsg : List UInt8

def Connect.zero : Connect := ⟨false, false, 0, false, 0, [], []⟩

/-- The type of an acknowledgement of MQTT. -/
inductive AckType where
  | puback
  | pubrec
  | pubrel
  | pubcomp
  deriving DecidableEq

/-- `Publish`. -/
structure Publish where
  dup : Bool
  qos : QoS
  retain : Bool
  msgId : UInt16
  topic : List UInt8
  payload : List UInt8
  deriving DecidableEq

/-- The packets between the gateway and the broker. -/
inductive MqttPacket where
  | connect (clientID : List UInt8) (data : Connect)
  | connack (rc : UInt8)
  | publish (pub : Publish)
  | ack (type : AckType) (msgId : UInt16)
  | subscribe (topic : List UInt8) (qos : QoS) (msgId : UInt16)
  | suback (msgId : UInt16) (rc : UInt8)
  | unsubscribe (topic : List UInt8) (msgId : UInt16)
  | unsuback (msgId : UInt16)
  | pingreq
  | pingresp
  | disconnect

/-! ## The client -/

inductive ClientStatus where
  | free
  | disconnected
  | tryConnecting
  | connecting
  | active
  | asleep
  | awake
  | lost
  deriving DecidableEq

def MAX_SAVED_PUBLISH : ℕ := 20

structure Client where
  clientId : List UInt8
  status : ClientStatus
  waitWillMsgFlg : Bool
  sessionStatus : Bool
  holdPingRequest : Bool
  snMsgId : UInt8
  connectData : Connect
  topics : Topics
  waitedPubTopicIdMap : TopicIdMap
  waitedSubTopicIdMap : TopicIdMap
  clientSleepPacketQue : List MqttPacket
  /-- `_waitREGACKList`, from `_first` on; a packet is kept with the id of the REGISTER. -/
  waitREGACKList : List (UInt16 × SnReply)
  /-- `_cnt` of this list. -/
  waitREGACKCount : UInt8

namespace Client

/-- A client of the pool, after `createClient`. -/
def new (clientId : List UInt8) : Client where
  clientId := clientId
  status := .disconnected
  waitWillMsgFlg := false
  sessionStatus := false
  holdPingRequest := false
  snMsgId := 0
  connectData := .zero
  topics := .empty
  waitedPubTopicIdMap := .empty
  waitedSubTopicIdMap := .empty
  clientSleepPacketQue := []
  waitREGACKList := []
  waitREGACKCount := 0

/-- `disconnected`. -/
def disconnect (c : Client) : Client := { c with status := .disconnected, waitWillMsgFlg := false }

def connackSended (c : Client) (rc : UInt8) : Client :=
  if rc = 0 then { c with status := .active } else c.disconnect

def isConnectSendable (c : Client) : Bool := c.status != .lost && c.status != .tryConnecting

/-- `getNextSnMsgId`, from the value of `_snMsgId` to the next. -/
def getNextSnMsgId (snMsgId : UInt8) : UInt8 := if snMsgId + 1 = 0 then 1 else snMsgId + 1

/-- `updateStatus`, without the keep alive timer. -/
def updateStatus (c : Client) (type : UInt8) (duration : UInt16) : Client :=
  if c.status = .active then
    if type = MQTTSN_DISCONNECT then
      if duration ≠ 0 then { c with status := .asleep } else c.disconnect
    else c
  else if c.status = .awake ∨ c.status = .asleep then
    if type = MQTTSN_CONNECT then { c with status := .active }
    else if type = MQTTSN_DISCONNECT then c.disconnect
    else if type = MQTTSN_PINGREQ then { c with status := .awake }
    else if type = MQTTSN_PINGRESP then { c with status := .asleep }
    else c
  else c

/-- `setClientSleepPacket`: a packet for which the queue has no room is discarded. -/
def setClientSleepPacket (c : Client) (packet : MqttPacket) : Client :=
  if c.clientSleepPacketQue.length < MAX_SAVED_PUBLISH then
    { c with clientSleepPacketQue := c.clientSleepPacketQue ++ [packet] }
  else c

/-- `setPacket` of the list of packets that wait for a REGACK. -/
def setWaitREGACK (c : Client) (packet : SnReply) (regackMsgId : UInt16) : Client :=
  { c with
    waitREGACKList := c.waitREGACKList ++ [(regackMsgId, packet)]
    waitREGACKCount := c.waitREGACKCount + 1 }

def getWaitREGACK (c : Client) (regackMsgId : UInt16) : Option SnReply :=
  (c.waitREGACKList.find? (·.1 == regackMsgId)).map Prod.snd

def eraseWaitREGACK (c : Client) (regackMsgId : UInt16) : Client :=
  { c with
    waitREGACKList := c.waitREGACKList.eraseP (·.1 == regackMsgId)
    waitREGACKCount := if c.waitREGACKList.any (·.1 == regackMsgId) then c.waitREGACKCount - 1
      else c.waitREGACKCount }

end Client

end Emcs.Paho
