import Emcs.Lib.Weave
import Emcs.Lib.Tenure
import Emcs.Pico.Machine

/-!
# The MQTT task of the Pico

`vMQTTTask` of `pico-client-IoT.c` after the network is up: it registers two topics, waits,
subscribes to two topics, and then goes round its main loop. What it does is a script of parts; the
parts of the functions of `mqtt-sn-udp.c` are those of the machine. Packets are handled between any
two parts, so a run is any list of parts and packets that is the script without its packets. What
the waiting loop reads does not change anything, and there is nothing of it in the script.

Which takes of the mutex succeed, what the button task has put into the queue, and when a ping and a
check are due, is left open.

## The construction

A script is the list of the parts that the task runs, one after the other; `Woven` is a list of
parts and packets from which the script is left when the packets are taken out. The conditions at
which the task skips a block (a mutex that is not taken, an interval that has not passed) decide the
script, and are open. What is proved of a run therefore holds for every schedule of the tasks and
the network.
-/

namespace Emcs.Pico

open Mqttsn

def MQTT_SN_CLIENT_ID : List UInt8 := cstr "pico_w_iot"

def TOPIC_DATA_1 : List UInt8 := cstr "sensors/data"

def TOPIC_DATA_2 : List UInt8 := cstr "sensors/pico/data"

def TOPIC_CMD_1 : List UInt8 := cstr "sensors/cmd"

def TOPIC_CMD_2 : List UInt8 := cstr "sensors/pico/cmd"

/-- `g_topics`. -/
def gTopics : Vector (List UInt8) 2 := #v[TOPIC_DATA_1, TOPIC_DATA_2]

/-- The topics that the task registers and subscribes to. -/
def TOPICS : List (List UInt8) := [TOPIC_DATA_1, TOPIC_DATA_2, TOPIC_CMD_1, TOPIC_CMD_2]

/-- The client, and the variables of the task that a publish uses. -/
structure Mqtt extends Control where
  msgCounter : UInt32
  payload : List UInt8
  topicId : UInt16

def Mqtt.boot : Mqtt := ⟨⟨Client.boot, .idle⟩, 0, [], 0⟩

inductive Part where
  /-- A part of a function of the client, or a packet. -/
  | client (e : Event)
  /-- The payload is written, and the topic looked up. -/
  | prepare (topicIdx : Fin 2)
  | publish (qosLevel : UInt8) (ok : Bool)
  | pingreq (ok : Bool)

/-- The task runs the part; packets are handled in the background. -/
def Part.fore : Part → Bool
  | .client (.receive _) => false
  | _ => true

/-- The payload of a publish: `snprintf` of `"%s %lu"` into 32 bytes. -/
def counterPayload (msgCounter : UInt32) : List UInt8 :=
  (MQTT_SN_CLIENT_ID ++ cstr " " ++ cstr (toString msgCounter.toNat)).take 31

def Mqtt.exec (s : Mqtt) : Part → Mqtt × List Action
  | .client e => ({ s with toControl := (s.toControl.exec e).1 }, (s.toControl.exec e).2)
  | .prepare topicIdx =>
    ({ s with
        msgCounter := s.msgCounter + 1
        payload := counterPayload (s.msgCounter + 1)
        topicId := mqttSnGetTopicId s.client (gTopics.get topicIdx) }, [])
  | .publish qosLevel ok =>
    if s.topicId > 0 then
      let r := s.toControl.exec (.publish s.topicId s.payload qosLevel.toNat ok)
      ({ s with toControl := r.1 }, r.2)
    else (s, [])
  | .pingreq ok => (s, [.send pingreqPacket ok])

def Mqtt.step (s : Mqtt) (e : Part) : Mqtt := (s.exec e).1

/-! ## The scripts -/

/-- `mqtt_sn_process_topic_registrations`, round by round. A part that does not come next does
nothing, so the request of an entry that is not due is skipped. -/
def processScript (now : ℕ) (ok : Fin MAX_CUSTOM_TOPICS → Bool) : List Part :=
  .client (.processRegistrations now) ::
    ((List.finRange MAX_CUSTOM_TOPICS).flatMap
      (fun i ↦ [.client .attempt, .client (.request (ok i))]) ++ [.client .attempt])

/-- What decides the set-up: whether the mutex is taken, the time of the pass, and whether its
packets go out, for the two blocks. -/
structure SetUp where
  registers : Bool
  registerNow : ℕ
  registerOk : Fin MAX_CUSTOM_TOPICS → Bool
  subscribes : Bool
  subscribeNow : ℕ
  subscribeOk : Fin MAX_CUSTOM_TOPICS → Bool

def SetUp.script (u : SetUp) : List Part :=
  (if u.registers then
    .client (.addForRegistration TOPIC_DATA_1) :: .client (.addForRegistration TOPIC_DATA_2) ::
      processScript u.registerNow u.registerOk
  else []) ++
  if u.subscribes then
    .client (.addForSubscription TOPIC_CMD_1 1) :: .client (.addForSubscription TOPIC_CMD_2 2) ::
      processScript u.subscribeNow u.subscribeOk
  else []

/-- An event of the queue that is handled, and what a publish of it meets. -/
structure PublishEvent where
  topicIdx : Fin 2
  qosLevel : UInt8
  ok : Bool
  now : ℕ

/-- What a call of `check_qos_timeouts` meets. -/
structure Check where
  now : ℕ
  stamp : ℕ → ℕ
  ok : ℕ → Bool

/-- What decides an iteration of the main loop: the time of its start, and what of its three blocks
runs. -/
structure Iteration where
  now : ℕ
  event : Option PublishEvent
  ping : Option Bool
  check : Option Check

def PublishEvent.script (p : PublishEvent) : List Part :=
  [.prepare p.topicIdx, .publish p.qosLevel p.ok, .client (.store p.now)]

/-- A check sends for each pending message at most. -/
def Check.script (k : Check) : List Part :=
  .client (.checkTimeouts k.now k.stamp) ::
    (List.range (MAX_PENDING_QOS_MSGS + 1)).map fun i ↦ .client (.resend (k.ok i))

def Iteration.script (x : Iteration) : List Part :=
  x.event.elim [] PublishEvent.script ++ x.ping.elim [] (fun ok ↦ [.pingreq ok]) ++
    x.check.elim [] Check.script

/-! ## Runs -/

/-- A run of a script, with packets between its parts. -/
structure Woven (script : List Part) where
  parts : List Part
  woven : parts.filter Part.fore = script

/-- An iteration as it runs. -/
abbrev Round := (x : Iteration) × Woven x.script

/-- What happens in the set-up and then in the iterations. -/
def parts {u : SetUp} (w : Woven u.script) (rounds : List Round) : List Part :=
  w.parts ++ rounds.flatMap fun r ↦ r.2.parts

/-- The task at the head of its main loop. -/
def atHead {u : SetUp} (w : Woven u.script) (rounds : List Round) : Mqtt :=
  Trace.run Mqtt.step .boot (parts w rounds)

/-- What the client sends in an iteration. -/
def Mqtt.actions (s : Mqtt) (r : Round) : List Action :=
  Trace.logged Mqtt.step (fun s e ↦ (s.exec e).2) s r.2.parts

end Emcs.Pico
