import Emcs.Mqttsn.Pending

/-!
# The MQTT-SN client of the Arduino

`mqtt-sn-udp.cpp` on the state it shares with `mqtt-sn-arduino-client.ino`. Every function returns
the state afterwards and, in order, the buffers it passed to `mqttsn_transport_send` and the
commands it showed. What comes from outside is an argument: the values `millis` returns, the packets
the transport delivers, and whether a send succeeds where the code asks.

A received packet is the whole receive buffer with the length of the packet in it. The handlers read
the buffer at fixed places, beyond the length where the packet is short.

## The construction

A handler takes the buffer and the length byte, as in the source, and the callback
`udpRecvCallbackArduino` dispatches on the second byte. The two tables are vectors of the sizes in
the header, and the loops over them are the operations of `Slots` and of `Mqttsn.Pending`. What the
handlers read behind a short packet is whatever stands in the buffer; that it may be anything is the
subject of a module of its own.
-/

namespace Emcs.Arduino

open Bytes Mqttsn

/-! ## State -/

def MAX_PENDING_QOS_MSGS : ℕ := 1

def MAX_CUSTOM_TOPICS : ℕ := 4

def MQTTSN_RETRY_PAYLOAD_SIZE : ℕ := 16

def TOPIC_NAME_MAX_LEN : ℕ := 24

def TOPIC_RETRY_INTERVAL_MS : UInt32 := 8000

def QOS_RETRY_INTERVAL_MS : UInt32 := 10000

/-- What `topic_name` can hold in front of its terminating NUL. -/
abbrev TopicName := { s : List UInt8 // s.length ≤ TOPIC_NAME_MAX_LEN - 1 }

/-- `strncpy` into `topic_name`, and the NUL behind it. -/
def TopicName.copy (s : List UInt8) : TopicName :=
  ⟨s.take (TOPIC_NAME_MAX_LEN - 1), List.length_take_le _ _⟩

/-- `topic_entry_t`. -/
structure TopicEntry where
  topicName : TopicName
  topicId : UInt16
  pendingMsgId : UInt16
  qos : UInt8
  isRegistered : Bool
  isSender : Bool
  lastAttemptMs : UInt32
  inUse : Bool
  deriving DecidableEq

/-- An entry after `memset` to zero. -/
def TopicEntry.zero : TopicEntry := ⟨TopicName.copy [], 0, 0, 0, false, false, 0, false⟩

/-- `g_ctx` and the variables of `mqtt-sn-udp.cpp`. -/
structure Client where
  dropAcks : Bool
  customTopics : Vector TopicEntry MAX_CUSTOM_TOPICS
  pendingMsgs : Vector (QosMsg UInt32) MAX_PENDING_QOS_MSGS
  pingAckReceived : Bool
  lastPingresp : UInt32
  pubackPending : Bool
  pubackTid : UInt16
  pubackMid : UInt16
  pubrecPending : Bool
  pubrecMid : UInt16
  pubcompPending : Bool
  pubcompMid : UInt16
  nextMsgId : UInt16

def Client.boot : Client where
  dropAcks := false
  customTopics := Vector.replicate _ TopicEntry.zero
  pendingMsgs := Vector.replicate _ ⟨0, 0, 0, 0, 0, 0, [], false⟩
  pingAckReceived := false
  lastPingresp := 0
  pubackPending := false
  pubackTid := 0
  pubackMid := 0
  pubrecPending := false
  pubrecMid := 0
  pubcompPending := false
  pubcompMid := 0
  nextMsgId := 1

inductive Action where
  /-- `mqttsn_transport_send` on these bytes. -/
  | send (buf : List UInt8)
  /-- `oledShowCmd` on this string. -/
  | showCmd (msg : List UInt8)
  deriving DecidableEq

/-- A packet that the transport delivers: the buffer, the length returned, and `millis` in the
handler. -/
structure Rx where
  data : List UInt8
  length : UInt8
  now : UInt32

/-! ## Handlers -/

def handleConnack (c : Client) (d : List UInt8) : Client :=
  { c with
    pingAckReceived := true
    customTopics :=
      if d.getD 2 0 = MQTTSN_RETURN_ACCEPTED then Vector.replicate _ TopicEntry.zero
      else c.customTopics }

/-- The entry that an acknowledgement with this message id completes. -/
def TopicEntry.awaits (sender : Bool) (mid : UInt16) (e : TopicEntry) : Bool :=
  e.inUse && e.isSender == sender && !e.isRegistered && e.pendingMsgId == mid

/-- The loop of `handle_regack` and `handle_suback`: the first entry that waits for `mid`. -/
def completeTopic (sender : Bool) (mid tid : UInt16) (v : Vector TopicEntry MAX_CUSTOM_TOPICS) :
    Vector TopicEntry MAX_CUSTOM_TOPICS :=
  match Slots.first (TopicEntry.awaits sender mid) v with
  | none => v
  | some i => v.set i { v[i] with isRegistered := true, topicId := tid, pendingMsgId := 0 } i.isLt

def handleRegack (c : Client) (d : List UInt8) (length : UInt8) : Client :=
  if length < 7 then c
  else if d.getD 6 0 ≠ MQTTSN_RETURN_ACCEPTED then c
  else
    let tid := be16 (d.getD 2 0) (d.getD 3 0)
    let mid := be16 (d.getD 4 0) (d.getD 5 0)
    { c with customTopics := completeTopic true mid tid c.customTopics }

def handleSuback (c : Client) (d : List UInt8) : Client :=
  if d.getD 7 0 ≠ MQTTSN_RETURN_ACCEPTED then c
  else
    let tid := be16 (d.getD 3 0) (d.getD 4 0)
    let mid := be16 (d.getD 5 0) (d.getD 6 0)
    { c with customTopics := completeTopic false mid tid c.customTopics }

def removePendingQosMsg (c : Client) (msgId : UInt16) : Client :=
  { c with pendingMsgs := removePending msgId c.pendingMsgs }

def handlePuback (c : Client) (d : List UInt8) : Client :=
  removePendingQosMsg c (be16 (d.getD 4 0) (d.getD 5 0))

def handlePubrec (c : Client) (d : List UInt8) (now : UInt32) : Client × List Action :=
  let mid := be16 (d.getD 2 0) (d.getD 3 0)
  ({ c with pendingMsgs := markReceived mid now c.pendingMsgs }, [.send (pubrelPacket mid)])

def handlePubcomp (c : Client) (d : List UInt8) : Client :=
  removePendingQosMsg c (be16 (d.getD 2 0) (d.getD 3 0))

def handlePubrel (c : Client) (d : List UInt8) : Client :=
  { c with pubcompPending := true, pubcompMid := be16 (d.getD 2 0) (d.getD 3 0) }

/-- `handle_publish`; the command is shown up to its first NUL. -/
def handlePublish (c : Client) (d : List UInt8) (length : UInt8) : Client × List Action :=
  if length < 7 then (c, [])
  else
    let qos := (d.getD 2 0 >>> MQTTSN_QOS_SHIFT) &&& MQTTSN_FLAG_QOS_MASK
    let tid := be16 (d.getD 3 0) (d.getD 4 0)
    let mid := be16 (d.getD 5 0) (d.getD 6 0)
    let payload := (d.drop 7).take (min (length - 7).toNat 31)
    let c := if qos = 1 then { c with pubackPending := true, pubackTid := tid, pubackMid := mid }
      else if qos = 2 then
        { c with pubrecPending := true, pubrecMid := mid, pubcompPending := false }
      else c
    (c, [.showCmd (payload.takeWhile (· != 0))])

def handlePingresp (c : Client) (now : UInt32) : Client :=
  { c with pingAckReceived := true, lastPingresp := now }

def udpRecvCallbackArduino (c : Client) (rx : Rx) : Client × List Action :=
  let mt := rx.data.getD 1 0
  if rx.length.toNat < MQTTSN_HEADER_SIZE then (c, [])
  else if c.dropAcks && isQosAck mt then (c, [])
  else if mt = MQTTSN_MSG_TYPE_CONNACK then (handleConnack c rx.data, [])
  else if mt = MQTTSN_MSG_TYPE_REGACK then (handleRegack c rx.data rx.length, [])
  else if mt = MQTTSN_MSG_TYPE_SUBACK then (handleSuback c rx.data, [])
  else if mt = MQTTSN_MSG_TYPE_PUBACK then (handlePuback c rx.data, [])
  else if mt = MQTTSN_MSG_TYPE_PUBREC then handlePubrec c rx.data rx.now
  else if mt = MQTTSN_MSG_TYPE_PUBCOMP then (handlePubcomp c rx.data, [])
  else if mt = MQTTSN_MSG_TYPE_PUBREL then (handlePubrel c rx.data, [])
  else if mt = MQTTSN_MSG_TYPE_PUBLISH then handlePublish c rx.data rx.length
  else if mt = MQTTSN_MSG_TYPE_PINGRESP then (handlePingresp c rx.now, [])
  else (c, [])

/-- Packets handled one after the other. -/
def deliver (c : Client) : List Rx → Client × List Action
  | [] => (c, [])
  | rx :: rxs =>
    let r := udpRecvCallbackArduino c rx
    let r' := deliver r.1 rxs
    (r'.1, r.2 ++ r'.2)

/-- `mqtt_sn_poll`: one receive that waits and up to four that do not. -/
def mqttSnPoll (c : Client) (first : Option Rx) (drain : List Rx) : Client × List Action :=
  deliver c (first.toList ++ drain.take 4)

/-! ## Topics -/

/-- `strncmp(a, b, TOPIC_NAME_MAX_LEN - 1) == 0`. -/
def sameName (a b : List UInt8) : Bool :=
  a.take (TOPIC_NAME_MAX_LEN - 1) == b.take (TOPIC_NAME_MAX_LEN - 1)

/-- The length of a topic name as a byte is one that the functions below accept. -/
def validName (topicName : List UInt8) : Bool :=
  let tlen := topicName.length % 256
  tlen != 0 && tlen < TOPIC_NAME_MAX_LEN

/-- The shared part of the two functions below: look for the name, then for a free entry. -/
def addTopic (c : Client) (topicName : List UInt8) (fill : TopicEntry → TopicEntry) :
    Client × Bool :=
  if c.customTopics.any fun e ↦ e.inUse && sameName e.topicName.val topicName then (c, true)
  else match Slots.first (fun e ↦ !e.inUse) c.customTopics with
    | none => (c, false)
    | some i =>
      ({ c with customTopics := c.customTopics.set i (fill c.customTopics[i]) i.isLt }, true)

def mqttSnAddTopicForRegistration (c : Client) (topicName : List UInt8) : Client × Bool :=
  if !validName topicName then (c, false)
  else addTopic c topicName fun e ↦ { e with
    topicName := TopicName.copy topicName, topicId := 0, pendingMsgId := 0,
    qos := 0, isRegistered := false, isSender := true, lastAttemptMs := 0, inUse := true }

/-- Unlike its sibling, this function leaves `pending_msg_id` of the entry as it finds it. -/
def mqttSnAddTopicForSubscription (c : Client) (topicName : List UInt8) (qos : UInt8) :
    Client × Bool :=
  if qos > 2 then (c, false)
  else if !validName topicName then (c, false)
  else addTopic c topicName fun e ↦ { e with
    topicName := TopicName.copy topicName, topicId := 0,
    qos := qos, isRegistered := false, isSender := false, lastAttemptMs := 0, inUse := true }

/-- The wait after a REGISTER or SUBSCRIBE: at most one packet is handled in it. -/
def awaitReply (c : Client) (sent : List UInt8) (reply : Option Rx) : Client × List Action :=
  let r := deliver c reply.toList
  (r.1, .send sent :: r.2)

def mqttSnRegisterTopic (c : Client) (topicName : TopicName) (msgId : UInt16)
    (reply : Option Rx) : Client × List Action :=
  awaitReply c (registerPacket msgId topicName.val) reply

def mqttSnSubscribeTopicName (c : Client) (topicName : TopicName) (msgId : UInt16) (qos : UInt8)
    (reply : Option Rx) : Client × List Action :=
  awaitReply c (subscribePacket qos msgId topicName.val) reply

/-- The entry is not registered and its last attempt is not recent. -/
def TopicEntry.due (now : UInt32) (e : TopicEntry) : Bool :=
  e.inUse && !e.isRegistered &&
    !(e.lastAttemptMs != 0 && decide (now - e.lastAttemptMs < TOPIC_RETRY_INTERVAL_MS))

/-- The message id of an attempt, and the counter afterwards: a request in flight keeps its id. -/
def attemptId (e : TopicEntry) (next : UInt16) : UInt16 × UInt16 :=
  if e.pendingMsgId ≠ 0 then (e.pendingMsgId, next) else getNextMsgId next

/-- The state in which an attempt for entry `i` is sent. -/
def attempt (c : Client) (i : Fin MAX_CUSTOM_TOPICS) (now : UInt32) : Client :=
  let r := attemptId c.customTopics[i] c.nextMsgId
  { c with
    nextMsgId := r.2
    customTopics := c.customTopics.set i
      { c.customTopics[i] with pendingMsgId := r.1, lastAttemptMs := now } i.isLt }

def mqttSnProcessTopicRegistrations (c : Client) (now : UInt32) (reply : Option Rx) :
    Client × List Action :=
  match Slots.first (TopicEntry.due now) c.customTopics with
  | none => (c, [])
  | some i =>
    let e := c.customTopics[i]
    let mid := (attemptId e c.nextMsgId).1
    if e.isSender then mqttSnRegisterTopic (attempt c i now) e.topicName mid reply
    else mqttSnSubscribeTopicName (attempt c i now) e.topicName mid e.qos reply

def mqttSnInvalidateAllTopics (c : Client) : Client :=
  { c with customTopics := c.customTopics.map fun e ↦
      if e.inUse then { e with isRegistered := false, topicId := 0, lastAttemptMs := 0 } else e }

def mqttSnGetTopicId (c : Client) (topicName : List UInt8) : UInt16 :=
  match Slots.first (fun e ↦ e.inUse && e.isRegistered && sameName e.topicName.val topicName)
      c.customTopics with
  | none => 0
  | some i => c.customTopics[i].topicId

/-! ## Publishing -/

/-- `mqtt_sn_publish_topic_id` with the result `ok` of the send and `millis` when the message is
stored. The length passed to the transport is a byte. What writing a longer payload does beyond the
end of the send buffer is not modelled. -/
def mqttSnPublishTopicId (c : Client) (topicId : UInt16) (payload : List UInt8) (qos : ℤ)
    (msgId : UInt16) (isRetransmit : Bool) (now : UInt32) (ok : Bool) : Client × List Action :=
  if qos < 0 ∨ qos > 2 then (c, [])
  else
    let plen := (MQTTSN_PUBLISH_HEADER_LEN + payload.length) % 256
    let sent := [Action.send ((publishPacket topicId payload qos msgId).take plen)]
    if plen > MQTTSN_MAX_PACKET_LEN then (c, [])
    else if !ok then (c, sent)
    else if qos > 0 && !isRetransmit then
      let m : QosMsg UInt32 := ⟨msgId, UInt8.ofNat qos.toNat, 0, now, 0, topicId,
        payload.take MQTTSN_RETRY_PAYLOAD_SIZE, true⟩
      ({ c with pendingMsgs := storePending m c.pendingMsgs }, sent)
    else (c, sent)

/-- The message id of `mqtt_sn_publish_topic_id_auto`, and the counter afterwards. -/
def publishId (c : Client) (qos : ℤ) : UInt16 × UInt16 :=
  if qos > 0 then getNextMsgId c.nextMsgId else (0, c.nextMsgId)

def mqttSnPublishTopicIdAuto (c : Client) (topicId : UInt16) (payload : List UInt8) (qos : ℤ)
    (now : UInt32) (ok : Bool) : Client × List Action :=
  let r := publishId c qos
  mqttSnPublishTopicId { c with nextMsgId := r.2 } topicId payload qos r.1 false now ok

/-- What `check_qos_timeouts` sends for a slot. -/
def resend (c : Client) (m : QosMsg UInt32) (now : UInt32) (ok : Bool) : List Action :=
  if m.step = 0 then
    (mqttSnPublishTopicId c m.topicId m.payload m.qos.toNat m.msgId true now ok).2
  else [.send (pubrelPacket m.msgId)]

/-- A slot with this timestamp is not left for a later check. -/
def qosExpired (now timestamp : UInt32) : Bool := !decide (now - timestamp < QOS_RETRY_INTERVAL_MS)

def checkQosTimeouts (c : Client) (now : UInt32) (ok : Bool) : Client × List Action :=
  let rs := c.pendingMsgs.map (QosMsg.retry (qosExpired now) now)
  ({ c with pendingMsgs := rs.map Prod.fst },
    rs.toList.flatMap fun r ↦ if r.2 then resend c r.1 now ok else [])

end Emcs.Arduino
