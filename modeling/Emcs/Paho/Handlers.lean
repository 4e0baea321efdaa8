import Emcs.Paho.Client
import Emcs.Paho.Matching

/-!
# The handlers of a transparent gateway

What `PacketHandleTask` does with the packets of a client and of the broker, as
`transparentPacketHandler` chooses: `MQTTSNGWConnectionHandler.cpp`, `MQTTSNGWPublishHandler.cpp`,
`MQTTSNGWSubscribeHandler.cpp`, `MQTTGWConnectionHandler.cpp`, `MQTTGWPublishHandler.cpp` and
`MQTTGWSubscribeHandler.cpp`. A handler gives the client afterwards and the events that it posts.

Two handlers read through a pointer that leads nowhere: `handleRegister` where the table of topics
is full, and `handlePublish` of the broker's side where a name is neither known nor matched in a
session that was not begun clean, since `data.id = 0` overwrites a part of `data.long_.name`. Such
a step is `none`.

## The construction

A handler is a function of the client, the common topics and the packet, and of nothing else,
because the handlers of the source work on the client alone and talk to other tasks through queues.
What they post is a list, in order. The choice of the handler by the type of the packet is
`handleSnPacket` and `handleMqttPacket`, and every property of the handlers is proved along these
two.
-/

namespace Emcs.Paho

/-- An event that a handler posts: for `ClientSendTask`, for `BrokerSendTask`, or for
`PacketHandleTask` as if the broker had sent it. -/
inductive Posted where
  | clientSend (packet : SnReply)
  | brokerSend (packet : MqttPacket)
  | brokerRecv (packet : MqttPacket)

def MQTTSN_RC_REJECTED_CONGESTED : UInt8 := 1

def MQTTSN_RC_REJECTED_INVALID_TOPIC_ID : UInt8 := 2

def MQTTSN_RC_NOT_SUPPORTED : UInt8 := 3

/-- The topics of all clients, which the list of predefined topics declares. -/
structure CommonTopics where
  topics : Topics
  predefined : ∀ p ∈ topics.first, p.type = MQTTSN_TOPIC_TYPE_PREDEFINED

/-- Without predefined topics. -/
def CommonTopics.none : CommonTopics := ⟨.empty, fun _ hp ↦ absurd hp List.not_mem_nil⟩

/-- The name of a short topic. -/
def Topicid.short (topic : Topicid) : List UInt8 := [topic.shortName.1, topic.shortName.2]

/-! ## Packets of the client -/

section Client

/-- `sendStoredPublish`. -/
def sendStoredPublish (c : Client) : Client × List Posted :=
  ({ c with clientSleepPacketQue := [] }, c.clientSleepPacketQue.map .brokerRecv)

/-- A clean session: the tables are renewed. -/
def Client.renew (c : Client) : Client :=
  { c with
    waitedPubTopicIdMap := .empty
    waitedSubTopicIdMap := .empty
    topics := c.topics.eraseNormal }

/-- What `handleConnect` makes of a client that is not sleeping. -/
def Client.beginSession (c : Client) (data : Connect) : Client :=
  let c := { c.disconnect with connectData := data, sessionStatus := data.cleanstart }
  if data.cleanstart then c.renew else c

/-- `handleConnect`. -/
def handleConnect (c : Client) (cleansession willFlag : Bool) (duration : UInt16) :
    Client × List Posted :=
  if c.status = .asleep ∨ c.status = .awake then
    let r := sendStoredPublish c
    (r.1, .clientSend (.connack 0) :: r.2)
  else
    let data : Connect :=
      { Connect.zero with cleanstart := cleansession, will := willFlag, keepAliveTimer := duration }
    (c.beginSession data,
      [if willFlag then .clientSend .willTopicReq else .brokerSend (.connect c.clientId data)])

def handleWilltopic (c : Client) (willQos : QoS) (willRetain : Bool) (willTopic : List UInt8) :
    Client × List Posted :=
  ({ c with
    connectData := { c.connectData with
      willTopic := willTopic
      willQoS := willQos
      willRetain := willRetain }
    waitWillMsgFlg := true }, [.clientSend .willMsgReq])

def handleWillmsg (c : Client) (willmsg : List UInt8) : Client × List Posted :=
  if !c.waitWillMsgFlg then (c, [])
  else if c.isConnectSendable then
    let data := { c.connectData with willMsg := willmsg }
    ({ c with connectData := data, waitWillMsgFlg := false },
      [.brokerSend (.connect c.clientId data)])
  else (c, [])

/-- `handleDisconnect`. -/
def handleDisconnect (c : Client) (duration : UInt16) : Client × List Posted :=
  (c, (if duration = 0 then [.brokerSend .disconnect] else []) ++ [.clientSend .disconnect])

/-- `handlePingreq`. -/
def handlePingreq (c : Client) : Client × List Posted :=
  if (c.status = .asleep ∨ c.status = .awake) ∧ c.clientSleepPacketQue ≠ [] then
    let r := sendStoredPublish c
    ({ r.1 with holdPingRequest := true }, r.2)
  else ({ c with holdPingRequest := false }, [.brokerSend .pingreq])

/-- The topic for an id: of the client, or a topic of all clients, `common`, which it is given
then. -/
def lookUp (common : CommonTopics) (c : Client) (topicid : Topicid) : Client × Option Topic :=
  match c.topics.getTopicById topicid.type topicid.id with
  | some topic => (c, some topic)
  | none =>
    match common.topics.getTopicById topicid.type topicid.id with
    | some topic =>
      let r := c.topics.addTopic topic.topicName topic.topicId
      ({ c with topics := r.1 }, r.2)
    | none => (c, none)

/-- The end of `handlePublish`. The message id of a QoS 1 or 2 is kept for the acknowledgement. -/
def forward (c : Client) (pub : Publish) (qos : QoS) (topicid : Topicid) :
    Client × List Posted :=
  let waiting := c.waitedPubTopicIdMap.add pub.msgId topicid.id topicid.type pub.topic
  let c :=
    if pub.msgId ≠ 0 ∧ qos > 0 ∧ qos < 3 then { c with waitedPubTopicIdMap := waiting } else c
  (c, [.brokerSend (.publish pub)])

/-- `handlePublish`. The topic of a message without one is empty. -/
def handlePublish (common : CommonTopics) (c : Client) (dup : Bool) (qos : QoS) (retained : Bool)
    (msgId : UInt16) (topicid : Topicid) (payload : List UInt8) : Client × List Posted :=
  let pub (topic : List UInt8) : Publish :=
    ⟨dup, if qos = 3 then 0 else qos, retained, msgId, topic, payload⟩
  if topicid.type = MQTTSN_TOPIC_TYPE_SHORT then forward c (pub topicid.short) qos topicid
  else
    let r := lookUp common c topicid
    if r.2 = none ∧ qos = 3 then (r.1, [])
    else if (qos = 0 ∨ qos = 3) ∧ msgId > 0 then (r.1, [])
    else if r.2 = none ∧ msgId ≠ 0 ∧ qos > 0 ∧ qos < 3 then
      (r.1, [.clientSend (.puback topicid.id msgId MQTTSN_RC_REJECTED_INVALID_TOPIC_ID)])
    else forward r.1 (pub ((r.2.map Topic.topicName).getD [])) qos topicid

/-- `handlePuback`. -/
def handlePuback (c : Client) (msgId : UInt16) (rc : UInt8) : Client × List Posted :=
  (c, if c.status = .active ∧ rc = 0 then [.brokerSend (.ack .puback msgId)] else [])

/-- The acknowledgement of MQTT for one of MQTT-SN. -/
def ackType (type : UInt8) : Option AckType :=
  if type = MQTTSN_PUBREC then some .pubrec
  else if type = MQTTSN_PUBREL then some .pubrel
  else if type = MQTTSN_PUBCOMP then some .pubcomp
  else none

/-- `handleAck`. -/
def handleAck (c : Client) (type : UInt8) (msgId : UInt16) : Client × List Posted :=
  (c, if c.status = .active then
      ((ackType type).map fun type ↦ Posted.brokerSend (.ack type msgId)).toList
    else [])

/-- `handleRegister`. -/
def handleRegister (c : Client) (msgId : UInt16) (topicName : List UInt8) :
    Option (Client × List Posted) :=
  if c.status = .active ∨ c.status = .awake then
    let r := c.topics.add MQTTSN_TOPIC_TYPE_NORMAL topicName
    r.2.map fun topic ↦ ({ c with topics := r.1 }, [.clientSend (.regack topic.topicId msgId 0)])
  else some (c, [])

/-- The PUBLISH that waits for a REGACK is sent. -/
def releasePublish (c : Client) (msgId : UInt16) : Client × List Posted :=
  match c.getWaitREGACK msgId with
  | some packet => (c.eraseWaitREGACK msgId, [.clientSend packet])
  | none => (c, [])

/-- `handleRegAck`. -/
def handleRegAck (c : Client) (msgId : UInt16) : Client × List Posted :=
  if c.status = .active ∨ c.status = .awake then
    let r := releasePublish c msgId
    if r.1.holdPingRequest ∧ r.1.waitREGACKCount = 0 then
      ({ r.1 with holdPingRequest := false }, r.2 ++ [.brokerSend .pingreq])
    else r
  else (c, [])

/-- The topic id of a short name; `char` has no sign where the gateway runs. -/
def Topicid.shortId (topic : Topicid) : UInt16 :=
  topic.shortName.1.toUInt16 <<< 8 ||| topic.shortName.2.toUInt16

/-- The topic that a SUBSCRIBE asks for, and the id under which it is acknowledged. -/
def filterTopic (common : CommonTopics) (c : Client) (topicFilter : Topicid) :
    Client × Option (List UInt8 × UInt16) :=
  if topicFilter.type = MQTTSN_TOPIC_TYPE_PREDEFINED then
    let r := lookUp common c topicFilter
    (r.1, r.2.map fun topic ↦ (topic.topicName, topic.topicId))
  else if topicFilter.type = MQTTSN_TOPIC_TYPE_NORMAL then
    let r := c.topics.add topicFilter.type topicFilter.long
    ({ c with topics := r.1 }, r.2.map fun topic ↦ (topic.topicName, topic.topicId))
  else (c, some (topicFilter.short, topicFilter.shortId))

/-- `handleSubscribe`. Behind a topic name in the packet lie the bytes `beyond`. -/
def handleSubscribe (common : CommonTopics) (c : Client) (qos : QoS) (msgId : UInt16)
    (topicFilter : Topicid) (beyond : List UInt8) : Client × List Posted :=
  if msgId = 0 then (c, [])
  else
    let r := filterTopic common c topicFilter
    match r.2 with
    | none =>
      (r.1, [.clientSend (.suback qos topicFilter.id msgId MQTTSN_RC_REJECTED_INVALID_TOPIC_ID)])
    | some (topic, topicId) =>
      let waiting := r.1.waitedSubTopicIdMap.add msgId topicId topicFilter.type
        (topicFilter.long ++ beyond)
      ({ r.1 with waitedSubTopicIdMap := waiting },
        [.brokerSend (.subscribe (cString topic) qos msgId)])

/-- `handleUnsubscribe`. -/
def handleUnsubscribe (c : Client) (msgId : UInt16) (topicFilter : Topicid) :
    Client × List Posted :=
  let topic := if topicFilter.type = MQTTSN_TOPIC_TYPE_SHORT then some topicFilter.short
    else if topicFilter.type = MQTTSN_TOPIC_TYPE_PREDEFINED then
      (c.topics.getTopicById topicFilter.type topicFilter.id).map Topic.topicName
    else (c.topics.getTopicByName topicFilter.long).map Topic.topicName
  (c, if msgId = 0 then []
    else match topic with
      | none => [.clientSend (.unsuback msgId)]
      | some topic => [.brokerSend (.unsubscribe (cString topic) msgId)])

/-- `transparentPacketHandler` for a packet of the client. -/
def handleSnPacket (common : CommonTopics) (c : Client) : SnPacket → Option (Client × List Posted)
  | .connect cleansession willFlag duration =>
    some (handleConnect c cleansession willFlag duration)
  | .willTopic willQos willRetain willTopic =>
    some (handleWilltopic c willQos willRetain willTopic)
  | .willMsg willmsg => some (handleWillmsg c willmsg)
  | .disconnect duration => some (handleDisconnect c duration)
  | .willTopicUpd => some (c, [.clientSend (.willTopicResp MQTTSN_RC_NOT_SUPPORTED)])
  | .willMsgUpd => some (c, [.clientSend (.willMsgResp MQTTSN_RC_NOT_SUPPORTED)])
  | .pingreq => some (handlePingreq c)
  | .publish dup qos retained msgId topicid payload =>
    some (handlePublish common c dup qos retained msgId topicid payload)
  | .puback _ msgId rc => some (handlePuback c msgId rc)
  | .ack type msgId => some (handleAck c type msgId)
  | .register _ msgId topicName => handleRegister c msgId topicName
  | .regAck _ msgId _ => some (handleRegAck c msgId)
  | .subscribe qos msgId topicFilter beyond =>
    some (handleSubscribe common c qos msgId topicFilter beyond)
  | .unsubscribe msgId topicFilter => some (handleUnsubscribe c msgId topicFilter)
  | .malformed _ => some (c, [])

end Client

/-! ## Packets of the broker -/

section Broker

/-- `handleConnack`. -/
def handleConnack (c : Client) (rc : UInt8) : Client × List Posted :=
  let rc := if rc = 0 then 0
    else if rc = 3 then MQTTSN_RC_REJECTED_CONGESTED
    else MQTTSN_RC_NOT_SUPPORTED
  (c.connackSended rc, [.clientSend (.connack rc)])

/-- `handlePingresp`. -/
def handlePingresp (c : Client) : Client × List Posted :=
  (c.updateStatus MQTTSN_PINGRESP 0, [.clientSend .pingresp])

/-- `replyACK` as the QoS of the message asks for it. -/
def replyAck (pub : Publish) : List Posted :=
  if pub.qos = 1 then [.brokerSend (.ack .puback pub.msgId)]
  else if pub.qos = 2 then [.brokerSend (.ack .pubrec pub.msgId)]
  else []

/-- The topic of type short for a name of at most two bytes; behind a name of one byte lies the
next byte of the packet. -/
def shortTopic (pub : Publish) : Topicid :=
  let bytes := pub.topic ++ (if pub.qos > 0 then writeInt pub.msgId.toNat else []) ++ pub.payload
  ⟨MQTTSN_TOPIC_TYPE_SHORT, 0, (bytes.getD 0 0, bytes.getD 1 0), []⟩

/-- The topic of a packet by its id. -/
def Topic.toTopicid (p : Topic) : Topicid := ⟨p.type, p.topicId, (0, 0), []⟩

/-- `setPUBLISH` with the message of a broker. -/
def snPublish (pub : Publish) (topicid : Topicid) : SnReply :=
  .publish pub.dup pub.qos pub.retain pub.msgId topicid pub.payload

/-- The part of `handlePublish` for a name that the client does not know: it may have come by a
filter with wildcards, or have been subscribed to in an earlier session. -/
def publishUnknown (c : Client) (pub : Publish) : Option (Client × List Posted) :=
  match c.topics.matchTopic MQTTSN_TOPIC_TYPE_NORMAL pub.topic with
  | none => if c.sessionStatus then some (c, replyAck pub) else none
  | some _ =>
    let r := c.topics.add MQTTSN_TOPIC_TYPE_NORMAL pub.topic
    let c := { c with topics := r.1 }
    match r.2 with
    | none => some (c, [])
    | some topic =>
      if topic.topicId > 0 then
        let regackMsgId := Client.getNextSnMsgId c.snMsgId
        let c := { c with snMsgId := regackMsgId }
        let publish := snPublish pub ⟨MQTTSN_TOPIC_TYPE_NORMAL, topic.topicId, (0, 0), []⟩
        some (c.setWaitREGACK publish regackMsgId.toUInt16,
          [.clientSend (.register topic.topicId regackMsgId.toUInt16 pub.topic)])
      else some (c, [])

/-- `handlePublish`, for a message of the broker. -/
def handleBrokerPublish (c : Client) (pub : Publish) : Option (Client × List Posted) :=
  if c.status ≠ .active ∧ c.status ≠ .asleep ∧ c.status ≠ .awake then some (c, [])
  else if c.status = .asleep then some (c.setClientSleepPacket (.publish pub), replyAck pub)
  else if pub.topic.length ≤ 2 then some (c, [.clientSend (snPublish pub (shortTopic pub))])
  else match c.topics.getTopicByName pub.topic with
    | some topic => some (c, [.clientSend (snPublish pub topic.toTopicid)])
    | none => publishUnknown c pub

/-- `handlePuback`, for an acknowledgement of the broker. -/
def handleBrokerPuback (c : Client) (msgId : UInt16) : Client × List Posted :=
  match c.waitedPubTopicIdMap.getElement msgId with
  | some topicId =>
    ({ c with waitedPubTopicIdMap := c.waitedPubTopicIdMap.erase msgId },
      [.clientSend (.puback topicId.getTopicId msgId 0)])
  | none => (c, [])

/-- The type of MQTT-SN for an acknowledgement of the broker. -/
def AckType.toSn : AckType → UInt8
  | .puback => MQTTSN_PUBACK
  | .pubrec => MQTTSN_PUBREC
  | .pubrel => MQTTSN_PUBREL
  | .pubcomp => MQTTSN_PUBCOMP

/-- `handleAck`, for PUBREC, PUBREL and PUBCOMP of the broker. -/
def handleBrokerAck (c : Client) (type : AckType) (msgId : UInt16) : Client × List Posted :=
  (c, if c.status = .active ∨ c.status = .awake then [.clientSend (.ack type.toSn msgId)]
    else if c.status = .asleep ∧ type = .pubrel then [.brokerSend (.ack .pubcomp msgId)]
    else [])

/-- `handleSuback`. A return code of the broker is put into the two bits of the QoS. -/
def handleSuback (c : Client) (msgId : UInt16) (rc : UInt8) : Client × List Posted :=
  match c.waitedSubTopicIdMap.getElement msgId with
  | some topicId =>
    ({ c with waitedSubTopicIdMap := c.waitedSubTopicIdMap.erase msgId },
      [.clientSend (if rc = 0x80 then
          .suback 0 topicId.getTopicId msgId MQTTSN_RC_REJECTED_INVALID_TOPIC_ID
        else .suback (.ofNat 4 rc.toNat) topicId.getTopicId msgId 0)])
  | none => (c, [])

/-- `transparentPacketHandler` for a packet of the broker. -/
def handleMqttPacket (c : Client) : MqttPacket → Option (Client × List Posted)
  | .connack rc => some (handleConnack c rc)
  | .pingresp => some (handlePingresp c)
  | .publish pub => handleBrokerPublish c pub
  | .ack .puback msgId => some (handleBrokerPuback c msgId)
  | .ack type msgId => some (handleBrokerAck c type msgId)
  | .suback msgId rc => some (handleSuback c msgId rc)
  | .unsuback msgId => some (c, [.clientSend (.unsuback msgId)])
  | .disconnect => some (c.disconnect, [])
  | _ => some (c, [])

end Broker

end Emcs.Paho
