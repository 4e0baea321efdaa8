import Emcs.Arduino.Client

/-!
# The sketch of the Arduino

`mqtt-sn-arduino-client.ino` for an endpoint (`MESH_RELAY_ONLY` 0): `setup`, and one call of `loop`
as a step. The values of `millis`, the packets received and the results of the sends in one call are
its inputs. What is only shown on the display is left out.

## The construction

Each branch of the `switch` is a function under the name of its state. The clock is read several
times in a call of `loop`, and every reading is an input of its own; so are the packets of a poll,
and the reply for which a registration waits. Nothing is assumed of these inputs here. Runs in which
the clock advances, or in which a packet was sent before it arrives, are a matter of the theorems.
-/

namespace Emcs.Arduino

open Mqttsn

def PUB_QOS1_MS : UInt32 := 10000

def PUB_QOS0_MS : UInt32 := 10000

def QOS_CHK_MS : UInt32 := 5000

def CONNECT_TIMEOUT_MS : UInt32 := 20000

def REGISTER_TIMEOUT_MS : UInt32 := 20000

def TOPIC_DATA_1 : List UInt8 := cstr "sensors/data"

def TOPIC_DATA_2 : List UInt8 := cstr "sensors/arduino/data"

def TOPIC_CMD_1 : List UInt8 := cstr "sensors/cmd"

def TOPIC_CMD_2 : List UInt8 := cstr "sensors/arduino/cmd"

/-- `state_t`. -/
inductive State where
  | init
  | connecting
  | registering
  | ready
  | error
  deriving DecidableEq

/-- The client and the variables of the sketch. -/
structure Sketch where
  client : Client
  state : State
  stateMs : UInt32
  lastPingMs : UInt32
  lastQosChkMs : UInt32
  lastPubQos1 : UInt32
  lastPubQos0 : UInt32
  pubCountQos0 : UInt16
  pubCountQos1 : UInt16
  seqPhase : UInt8
  seqPhaseMs : UInt32

/-- What comes from outside in one call of `loop`. -/
structure Inputs where
  /-- `millis` at the head of `loop`. -/
  now : UInt32
  /-- What the waiting receive of `mqtt_sn_poll` returns. -/
  first : Option Rx
  /-- What the receives after it return. -/
  drain : List Rx
  /-- `millis` in `mqtt_sn_process_topic_registrations`. -/
  regNow : UInt32
  /-- The packet received while waiting for the reply to a REGISTER or SUBSCRIBE. -/
  reply : Option Rx
  /-- `millis` when a publish is stored. -/
  pubNow : UInt32
  /-- The result of the send of a publish. -/
  pubOk : Bool
  /-- `millis` in `check_qos_timeouts`. -/
  qosNow : UInt32
  /-- The result of a send in `check_qos_timeouts`. -/
  qosOk : Bool

def addAllTopics (c : Client) : Client :=
  let c := (mqttSnAddTopicForRegistration c TOPIC_DATA_1).1
  let c := (mqttSnAddTopicForRegistration c TOPIC_DATA_2).1
  let c := (mqttSnAddTopicForSubscription c TOPIC_CMD_1 1).1
  (mqttSnAddTopicForSubscription c TOPIC_CMD_2 2).1

def setup : Sketch where
  client := addAllTopics Client.boot
  state := .init
  stateMs := 0
  lastPingMs := 0
  lastQosChkMs := 0
  lastPubQos1 := 0
  lastPubQos0 := 0
  pubCountQos0 := 0
  pubCountQos1 := 0
  seqPhase := 0
  seqPhaseMs := 0

/-! ## The deferred acknowledgements -/

/-- `mqtt_sn_send_puback` for the PUBACK that is owed. -/
def sendPuback (c : Client) : Client × List Action :=
  ({ c with pubackPending := false },
    [.send (pubackPacket c.pubackTid c.pubackMid MQTTSN_RETURN_ACCEPTED)])

def sendPubrec (c : Client) : Client × List Action :=
  ({ c with pubrecPending := false }, [.send (pubrecPacket c.pubrecMid)])

def sendPubcomp (c : Client) : Client × List Action :=
  ({ c with pubcompPending := false }, [.send (pubcompPacket c.pubcompMid)])

/-- The acknowledgement sent first in `STATE_REGISTERING`. -/
def registeringAck (c : Client) : Option (Client × List Action) :=
  if c.pubackPending then some (sendPuback c)
  else if c.pubrecPending then some (sendPubrec c)
  else if c.pubcompPending then some (sendPubcomp c)
  else none

/-- The acknowledgement sent first in `STATE_READY`. -/
def readyAck (c : Client) : Option (Client × List Action) :=
  if c.pubrecPending then some (sendPubrec c)
  else if c.pubcompPending then some (sendPubcomp c)
  else if c.pubackPending then some (sendPuback c)
  else none

/-! ## The branches of `loop` -/

section Branches

variable (clientId : List UInt8)

def loopInit (s : Sketch) (x : Inputs) : Sketch × List Action :=
  ({ s with client := { s.client with pingAckReceived := false }, stateMs := x.now,
            state := .connecting },
    [.send (connectPacket clientId)])

def loopConnecting (s : Sketch) (x : Inputs) : Sketch × List Action :=
  if s.client.pingAckReceived then
    let r := mqttSnProcessTopicRegistrations (addAllTopics s.client) x.regNow x.reply
    ({ s with client := r.1, stateMs := x.now, state := .registering }, r.2)
  else if x.now - s.stateMs > CONNECT_TIMEOUT_MS then ({ s with state := .init }, [])
  else (s, [])

/-- Some topic has been asked for and not acknowledged. -/
def waitingForAck (c : Client) : Bool :=
  c.customTopics.any fun e ↦ e.inUse && !e.isRegistered && e.pendingMsgId != 0

/-- The four topics have an id. -/
def topicsReady (c : Client) : Bool :=
  mqttSnGetTopicId c TOPIC_DATA_1 > 0 && mqttSnGetTopicId c TOPIC_DATA_2 > 0 &&
    mqttSnGetTopicId c TOPIC_CMD_1 > 0 && mqttSnGetTopicId c TOPIC_CMD_2 > 0

def loopRegistering (s : Sketch) (x : Inputs) : Sketch × List Action :=
  match registeringAck s.client with
  | some r => ({ s with client := r.1 }, r.2)
  | none =>
    let r := if waitingForAck s.client then (s.client, [])
      else mqttSnProcessTopicRegistrations s.client x.regNow x.reply
    if topicsReady r.1 then
      ({ s with client := r.1, lastPingMs := x.now, lastQosChkMs := x.now, lastPubQos1 := x.now,
                lastPubQos0 := x.now - PUB_QOS0_MS, state := .ready }, r.2)
    else if x.now - s.stateMs > REGISTER_TIMEOUT_MS then
      ({ s with client := mqttSnInvalidateAllTopics r.1, state := .init }, r.2)
    else ({ s with client := r.1 }, r.2)

/-- The text of a reading: `snprintf` of `"%s %u"` into 48 bytes. -/
def reading (count : UInt16) : List UInt8 :=
  (clientId ++ cstr " " ++ cstr (toString count.toNat)).take 47

/-- The publish phases of `STATE_READY`, where one of them acts. -/
def readyPublish (s : Sketch) (x : Inputs) : Option (Sketch × List Action) :=
  if s.seqPhase < 3 then
    if x.now - s.lastPubQos0 ≥ PUB_QOS0_MS then
      let count := s.pubCountQos0 + 1
      let r := mqttSnPublishTopicIdAuto s.client (mqttSnGetTopicId s.client TOPIC_DATA_2)
        (reading clientId count) 0 x.pubNow x.pubOk
      let phase := s.seqPhase + 1
      some ({ s with client := r.1, lastPubQos0 := x.now, pubCountQos0 := count, seqPhase := phase,
                     seqPhaseMs := if phase = 3 then x.now else s.seqPhaseMs }, r.2)
    else none
  else if s.seqPhase = 3 then
    if x.now - s.seqPhaseMs ≥ PUB_QOS1_MS then
      let count := s.pubCountQos1 + 1
      let r := mqttSnPublishTopicIdAuto s.client (mqttSnGetTopicId s.client TOPIC_DATA_1)
        (reading clientId count) 1 x.pubNow x.pubOk
      some ({ s with client := r.1, pubCountQos1 := count, seqPhase := 4,
                     seqPhaseMs := x.now }, r.2)
    else none
  else if s.seqPhase = 4 then
    if x.now - s.seqPhaseMs ≥ PUB_QOS1_MS then
      some ({ s with seqPhase := 0, lastPubQos0 := x.now }, [])
    else none
  else none

def loopReady (s : Sketch) (x : Inputs) : Sketch × List Action :=
  let ackPending := s.client.pubackPending || s.client.pubrecPending || s.client.pubcompPending
  let s := if ackPending then { s with lastPubQos0 := x.now, lastPubQos1 := x.now } else s
  match readyAck s.client with
  | some r => ({ s with client := r.1 }, r.2)
  | none =>
    match readyPublish clientId s x with
    | some r => r
    | none =>
      if x.now - s.lastQosChkMs > QOS_CHK_MS then
        let r := checkQosTimeouts s.client x.qosNow x.qosOk
        ({ s with client := r.1, lastQosChkMs := x.now }, r.2)
      else (s, [])

def loopError (s : Sketch) : Sketch × List Action :=
  ({ s with client := mqttSnInvalidateAllTopics s.client, state := .init }, [])

/-- The `switch` of `loop`. -/
def loopSwitch (s : Sketch) (x : Inputs) : Sketch × List Action :=
  match s.state with
  | .init => loopInit clientId s x
  | .connecting => loopConnecting s x
  | .registering => loopRegistering s x
  | .ready => loopReady clientId s x
  | .error => loopError s

def loop (s : Sketch) (x : Inputs) : Sketch × List Action :=
  let r := mqttSnPoll s.client x.first x.drain
  let r' := loopSwitch clientId { s with client := r.1 } x
  (r'.1, r.2 ++ r'.2)

end Branches

end Emcs.Arduino
