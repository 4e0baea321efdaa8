import Emcs.Mqttsn.Pending
import Mathlib.Data.Int.Notation

/-!
# The MQTT-SN client of the Pico

`mqtt-sn-udp.c`. Packets are handled by `udp_recv_callback` in the background, between any two
statements of the main loop. Three functions of the main loop are therefore given in parts, and the
whole functions are their parts one after the other: `mqtt_sn_publish_topic_id` transmits and then
stores, `check_qos_timeouts` takes a snapshot and then sends each entry of it, and
`mqtt_sn_process_topic_registrations` goes through the entries, marking one and then asking for it.

What comes from outside is an argument: the values `get_absolute_time` returns, in microseconds
since boot, the packets, and whether a packet goes out (its `pbuf` is allocated and `udp_sendto`
returns `ERR_OK`). Handlers read the memory of the `pbuf` at fixed places, beyond its length where
the packet is short.
-/

namespace Emcs.Pico

open Bytes Mqttsn

/-! ## State -/

def MAX_PENDING_QOS_MSGS : ℕ := 5

def MAX_CUSTOM_TOPICS : ℕ := 10

def TOPIC_NAME_LEN : ℕ := 64

def TOPIC_RETRY_INTERVAL_MS : ℤ := 5000

def QOS_RETRY_INTERVAL_US : ℤ := 2000000

/-- The size of `payload` in `qos_msg_t`. -/
def QOS_PAYLOAD_SIZE : ℕ := 255

/-- What `topic_name` can hold in front of its terminating NUL. -/
abbrev TopicName := { s : List UInt8 // s.length ≤ TOPIC_NAME_LEN - 1 }

/-- `strncpy` into `topic_name`, and the NUL behind it. -/
def TopicName.copy (s : List UInt8) : TopicName :=
  ⟨s.take (TOPIC_NAME_LEN - 1), List.length_take_le _ _⟩

/-- `topic_entry_t`. -/
structure TopicEntry where
  topicName : TopicName
  topicId : UInt16
  qos : UInt8
  isRegistered : Bool
  isSender : Bool
  lastAttempt : ℕ
  inUse : Bool
  deriving DecidableEq

/-- An entry after `memset` to zero. -/
def TopicEntry.zero : TopicEntry := ⟨TopicName.copy [], 0, 0, false, false, 0, false⟩

/-- `mqtt_sn_context_t` and the variables of `mqtt-sn-udp.c`. -/
structure Client where
  dropAcks : Bool
  customTopics : Vector TopicEntry MAX_CUSTOM_TOPICS
  pendingMsgs : Vector (QosMsg ℕ) MAX_PENDING_QOS_MSGS
  pingAckReceived : Bool
  lastPingresp : UInt32
  nextMsgId : UInt16

def Client.boot : Client where
  dropAcks := false
  customTopics := Vector.replicate _ TopicEntry.zero
  pendingMsgs := Vector.replicate _ ⟨0, 0, 0, 0, 0, 0, [], false⟩
  pingAckReceived := false
  lastPingresp := 0
  nextMsgId := 1

inductive Action where
  /-- A packet, and whether it goes out. -/
  | send (buf : List UInt8) (ok : Bool)
  /-- `cyw43_arch_gpio_put` on the pin of the LED. -/
  | led (on : Bool)
  deriving DecidableEq

/-- A received `pbuf`: the memory from its payload on, its length, what `get_absolute_time` returns
in each round of the handler's loop, and whether the handler's answer goes out. -/
structure Rx where
  data : List UInt8
  len : ℕ
  clock : ℕ → ℕ
  ok : Bool

/-- `absolute_time_diff_us`. -/
def absoluteTimeDiffUs (earlier later : ℕ) : ℤ := later - earlier

/-! ## Handlers -/

def removePendingQosMsg (c : Client) (msgId : UInt16) : Client :=
  { c with pendingMsgs := removePending msgId c.pendingMsgs }

/-- `g_last_pingresp` is in milliseconds. -/
def handlePingresp (c : Client) (now : ℕ) : Client :=
  { c with lastPingresp := UInt32.ofNat (now / 1000), pingAckReceived := true }

def handleConnack (c : Client) (d : List UInt8) : Client :=
  { c with
    pingAckReceived := true
    customTopics :=
      if d.getD 2 0 = MQTTSN_RETURN_ACCEPTED then Vector.replicate _ TopicEntry.zero
      else c.customTopics }

/-- The entry matches an acknowledgement of its role: its last attempt is less than two seconds ago.
The message id does not count. -/
def TopicEntry.matches (sender : Bool) (now : ℕ) (e : TopicEntry) : Bool :=
  e.inUse && e.isSender == sender && !e.isRegistered &&
    decide ((absoluteTimeDiffUs e.lastAttempt now).tdiv 1000 < 2000)

/-- The loop of `handle_regack` and `handle_suback`: the first entry that matches. -/
def completeTopic (sender : Bool) (clock : ℕ → ℕ) (tid : UInt16)
    (v : Vector TopicEntry MAX_CUSTOM_TOPICS) : Vector TopicEntry MAX_CUSTOM_TOPICS :=
  match Slots.firstAt fun i : Fin MAX_CUSTOM_TOPICS ↦ v[i].matches sender (clock i) with
  | none => v
  | some i => v.set i { v[i] with isRegistered := true, topicId := tid } i.isLt

def handleSuback (c : Client) (d : List UInt8) (clock : ℕ → ℕ) : Client :=
  if d.getD 7 0 ≠ MQTTSN_RETURN_ACCEPTED then c
  else
    let tid := be16 (d.getD 3 0) (d.getD 4 0)
    { c with customTopics := completeTopic false clock tid c.customTopics }

def handleRegack (c : Client) (d : List UInt8) (length : UInt8) (clock : ℕ → ℕ) : Client :=
  if length < 7 then c
  else if d.getD 6 0 ≠ MQTTSN_RETURN_ACCEPTED then c
  else
    let tid := be16 (d.getD 2 0) (d.getD 3 0)
    { c with customTopics := completeTopic true clock tid c.customTopics }

def sendQosAck (qos : UInt8) (topicId msgId : UInt16) (ok : Bool) : List Action :=
  if qos = 1 then [.send (pubackPacket topicId msgId MQTTSN_RETURN_ACCEPTED) ok]
  else if qos = 2 then [.send (pubrecPacket msgId) ok]
  else []

def handlePublishReceived (d : List UInt8) (length : UInt8) (ok : Bool) : List Action :=
  if length < 7 then []
  else
    let qos := (d.getD 2 0 >>> MQTTSN_QOS_SHIFT) &&& MQTTSN_FLAG_QOS_MASK
    let topicId := be16 (d.getD 3 0) (d.getD 4 0)
    let msgId := be16 (d.getD 5 0) (d.getD 6 0)
    let payload := (d.drop 7).take (length - 7).toNat
    let led := if payload = cstr "led on" then [Action.led true]
      else if payload = cstr "led off" then [Action.led false]
      else []
    led ++ sendQosAck qos topicId msgId ok

def handlePubackReceived (c : Client) (d : List UInt8) : Client :=
  removePendingQosMsg c (be16 (d.getD 4 0) (d.getD 5 0))

def handlePubcompReceived (c : Client) (d : List UInt8) : Client :=
  removePendingQosMsg c (be16 (d.getD 2 0) (d.getD 3 0))

def handlePubrecReceived (c : Client) (d : List UInt8) (now : ℕ) (ok : Bool) :
    Client × List Action :=
  let mid := be16 (d.getD 2 0) (d.getD 3 0)
  ({ c with pendingMsgs := markReceived mid now c.pendingMsgs }, [.send (pubrelPacket mid) ok])

def handlePubrelReceived (d : List UInt8) (ok : Bool) : List Action :=
  [.send (pubcompPacket (be16 (d.getD 2 0) (d.getD 3 0))) ok]

/-- `udp_recv_callback`, with the table `msg_handlers` as a chain of cases. -/
def udpRecvCallback (c : Client) (rx : Rx) : Client × List Action :=
  let d := rx.data
  let length := d.getD 0 0
  let mt := d.getD 1 0
  if rx.len < MQTTSN_HEADER_SIZE then (c, [])
  else if c.dropAcks && isQosAck mt then (c, [])
  else if mt = MQTTSN_MSG_TYPE_PINGRESP then (handlePingresp c (rx.clock 0), [])
  else if mt = MQTTSN_MSG_TYPE_CONNACK then (handleConnack c d, [])
  else if mt = MQTTSN_MSG_TYPE_SUBACK then (handleSuback c d rx.clock, [])
  else if mt = MQTTSN_MSG_TYPE_REGACK then (handleRegack c d length rx.clock, [])
  else if mt = MQTTSN_MSG_TYPE_PUBLISH then (c, handlePublishReceived d length rx.ok)
  else if mt = MQTTSN_MSG_TYPE_PUBACK then (handlePubackReceived c d, [])
  else if mt = MQTTSN_MSG_TYPE_PUBCOMP then (handlePubcompReceived c d, [])
  else if mt = MQTTSN_MSG_TYPE_PUBREC then handlePubrecReceived c d (rx.clock 0) rx.ok
  else if mt = MQTTSN_MSG_TYPE_PUBREL then (c, handlePubrelReceived d rx.ok)
  else (c, [])

/-! ## Topics -/

/-- The shared part of the two functions below: look for the name, then for a free entry. -/
def addTopic (c : Client) (topicName : List UInt8) (fill : TopicEntry → TopicEntry) :
    Client × Bool :=
  if c.customTopics.any fun e ↦ e.inUse && e.topicName.val == topicName then (c, true)
  else match Slots.first (fun e ↦ !e.inUse) c.customTopics with
    | none => (c, false)
    | some i =>
      ({ c with customTopics := c.customTopics.set i (fill c.customTopics[i]) i.isLt }, true)

def mqttSnAddTopicForRegistration (c : Client) (topicName : List UInt8) : Client × Bool :=
  if topicName.length = 0 ∨ topicName.length ≥ TOPIC_NAME_LEN then (c, false)
  else addTopic c topicName fun e ↦ { e with
    topicName := TopicName.copy topicName, topicId := 0, qos := 0, isRegistered := false,
    isSender := true, lastAttempt := 0, inUse := true }

def mqttSnAddTopicForSubscription (c : Client) (topicName : List UInt8) (qos : UInt8) :
    Client × Bool :=
  if qos > 2 then (c, false)
  else if topicName.length = 0 ∨ topicName.length ≥ TOPIC_NAME_LEN then (c, false)
  else addTopic c topicName fun e ↦ { e with
    topicName := TopicName.copy topicName, topicId := 0, qos := qos, isRegistered := false,
    isSender := false, lastAttempt := 0, inUse := true }

def mqttSnRegisterTopic (topicName : List UInt8) (msgId : UInt16) (ok : Bool) : List Action :=
  if topicName.length = 0 ∨ topicName.length > 250 then []
  else [.send (registerPacket msgId topicName) ok]

def mqttSnSubscribeTopicName (topicName : List UInt8) (msgId : UInt16) (qos : UInt8) (ok : Bool) :
    List Action :=
  if topicName.length = 0 ∨ topicName.length > 250 then []
  else [.send (subscribePacket qos msgId topicName) ok]

/-- The entry is not registered and its last attempt is not recent. -/
def TopicEntry.due (now : ℕ) (e : TopicEntry) : Bool :=
  e.inUse && !e.isRegistered &&
    !(e.lastAttempt != 0 &&
      decide ((absoluteTimeDiffUs e.lastAttempt now).tdiv 1000 < TOPIC_RETRY_INTERVAL_MS))

/-- A round of `mqtt_sn_process_topic_registrations`, first part: mark the attempt and draw an id
for it. -/
def attempt (c : Client) (i : Fin MAX_CUSTOM_TOPICS) (now : ℕ) : Client :=
  { c with
    nextMsgId := (getNextMsgId c.nextMsgId).2
    customTopics := c.customTopics.set i { c.customTopics[i] with lastAttempt := now } i.isLt }

/-- Second part: ask the gateway, from what the entry holds then. -/
def requestTopic (c : Client) (i : Fin MAX_CUSTOM_TOPICS) (msgId : UInt16) (ok : Bool) :
    List Action :=
  let e := c.customTopics[i]
  if e.isSender then mqttSnRegisterTopic e.topicName.val msgId ok
  else mqttSnSubscribeTopicName e.topicName.val msgId e.qos ok

/-- A round of the pass, with what was done and sent before it. -/
def registrationRound (now : ℕ) (ok : Fin MAX_CUSTOM_TOPICS → Bool) (r : Client × List Action)
    (i : Fin MAX_CUSTOM_TOPICS) : Client × List Action :=
  if r.1.customTopics[i].due now then
    (attempt r.1 i now,
      r.2 ++ requestTopic (attempt r.1 i now) i (getNextMsgId r.1.nextMsgId).1 (ok i))
  else r

def mqttSnProcessTopicRegistrations (c : Client) (now : ℕ) (ok : Fin MAX_CUSTOM_TOPICS → Bool) :
    Client × List Action :=
  (List.finRange MAX_CUSTOM_TOPICS).foldl (registrationRound now ok) (c, [])

def mqttSnInvalidateAllTopics (c : Client) : Client :=
  { c with customTopics := c.customTopics.map fun e ↦
      if e.inUse then { e with isRegistered := false, topicId := 0, lastAttempt := 0 } else e }

def mqttSnGetTopicId (c : Client) (topicName : List UInt8) : UInt16 :=
  match Slots.first (fun e ↦ e.inUse && e.isRegistered && e.topicName.val == topicName)
      c.customTopics with
  | none => 0
  | some i => c.customTopics[i].topicId

/-! ## Publishing -/

/-- The arguments of a call of `mqtt_sn_publish_topic_id`. -/
structure Publish where
  topicId : UInt16
  payload : List UInt8
  qos : ℤ
  msgId : UInt16
  deriving DecidableEq

/-- `packet_len` is a `u16_t`. -/
def Publish.packetLen (p : Publish) : ℕ := (MQTTSN_PUBLISH_HEADER_LEN + p.payload.length) % 65536

/-- The checks before the packet is built. -/
def Publish.accepted (p : Publish) : Bool :=
  decide (0 ≤ p.qos) && decide (p.qos ≤ 2) && decide (p.packetLen ≤ MQTTSN_MAX_PACKET_LEN)

/-- First part: the packet is handed to `udp_sendto`. What writing a payload of 65529 bytes or more
does beyond the end of the `pbuf` is not modelled. -/
def Publish.transmit (p : Publish) (ok : Bool) : List Action :=
  if p.accepted then
    [.send ((publishPacket p.topicId p.payload p.qos p.msgId).take p.packetLen) ok]
  else []

/-- The message is to be stored after its transmission. -/
def Publish.tracked (p : Publish) (isRetransmit ok : Bool) : Bool :=
  p.accepted && ok && decide (0 < p.qos) && !isRetransmit

/-- What a slot holds after it took the message. -/
def Publish.msg (p : Publish) (now : ℕ) : QosMsg ℕ :=
  ⟨p.msgId, UInt8.ofNat p.qos.toNat, 0, now, 0, p.topicId, p.payload.take QOS_PAYLOAD_SIZE, true⟩

/-- Second part, with interrupts disabled: the message takes a slot. -/
def store (c : Client) (p : Publish) (now : ℕ) : Client :=
  { c with pendingMsgs := storePending (p.msg now) c.pendingMsgs }

def mqttSnPublishTopicId (c : Client) (p : Publish) (isRetransmit ok : Bool) (now : ℕ) :
    Client × List Action :=
  (if p.tracked isRetransmit ok then store c p now else c, p.transmit ok)

/-- The message id of `mqtt_sn_publish_topic_id_auto`, and the counter afterwards. -/
def publishId (c : Client) (qos : ℤ) : UInt16 × UInt16 :=
  if qos > 0 then getNextMsgId c.nextMsgId else (0, c.nextMsgId)

def mqttSnPublishTopicIdAuto (c : Client) (topicId : UInt16) (payload : List UInt8) (qos : ℤ)
    (ok : Bool) (now : ℕ) : Client × List Action :=
  let r := publishId c qos
  mqttSnPublishTopicId { c with nextMsgId := r.2 } ⟨topicId, payload, qos, r.1⟩ false ok now

/-! ## Timeouts -/

/-- An entry of `retry_list`. The last byte of a payload of 248 bytes lies in the padding behind
the array. -/
structure RetryEntry where
  msgId : UInt16
  qos : UInt8
  step : UInt8
  topicId : UInt16
  payload : List UInt8
  deriving DecidableEq

def RetryEntry.copy (m : QosMsg ℕ) : RetryEntry := ⟨m.msgId, m.qos, m.step, m.topicId, m.payload⟩

def qosExpired (now timestamp : ℕ) : Bool :=
  decide (absoluteTimeDiffUs timestamp now > QOS_RETRY_INTERVAL_US)

/-- Phase 1 with `now` and, for each slot, the time at which it is marked: every slot, and whether
it is copied to `retry_list`. -/
def retrySlots (c : Client) (now : ℕ) (stamp : ℕ → ℕ) :
    Vector (QosMsg ℕ × Bool) MAX_PENDING_QOS_MSGS :=
  Vector.ofFn fun i ↦ c.pendingMsgs[i].retry (qosExpired now) (stamp i)

/-- Phase 1 of `check_qos_timeouts`. -/
def snapshot (c : Client) (now : ℕ) (stamp : ℕ → ℕ) : Client × List RetryEntry :=
  ({ c with pendingMsgs := (retrySlots c now stamp).map Prod.fst },
    (retrySlots c now stamp).toList.filterMap fun r ↦
      if r.2 then some (RetryEntry.copy r.1) else none)

/-- A round of phase 2: what is sent for an entry. -/
def RetryEntry.resend (r : RetryEntry) (ok : Bool) : List Action :=
  let publish : Publish := ⟨r.topicId, r.payload, r.qos.toNat, r.msgId⟩
  if r.qos = 1 then publish.transmit ok
  else if r.qos = 2 then
    if r.step = 0 then publish.transmit ok else [.send (pubrelPacket r.msgId) ok]
  else []

def checkQosTimeouts (c : Client) (now : ℕ) (stamp : ℕ → ℕ) (ok : RetryEntry → Bool) :
    Client × List Action :=
  let r := snapshot c now stamp
  (r.1, r.2.flatMap fun e ↦ e.resend (ok e))

end Emcs.Pico
