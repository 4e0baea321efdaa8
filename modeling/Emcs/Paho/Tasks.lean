import Emcs.Lib.Trace
import Emcs.Paho.Handlers

/-!
# The tasks of the gateway

`ClientRecvTask`, `PacketHandleTask`, `BrokerSendTask`, `BrokerRecvTask` and `ClientSendTask`, for
one client of a transparent gateway. The tasks run side by side; a step is one pass of one of them,
in any order. `PacketHandleTask` makes two steps for a packet of the client, the handler and
`updateStatus` after it, since other tasks change the status in between.

The queue of `PacketHandleTask` is shared with the other clients, so any event may be the one that
finds it full and is deleted (`discard`). What was received and sent is kept beside the state.

## The construction

A queue is a list, and posting appends to it. Each task takes the first packet of its queue;
`BrokerSendTask` may take one and not get it out, and `ClientSendTask` may send one that is never
received. The notes (`received`, `fromBroker`, `handled`, `toBroker`, `toClient`) are written by the
steps and read by none of them. Where a handler has no result, the machine stops (`running`).
-/

namespace Emcs.Paho

/-- An event of `PacketHandleTask`. -/
inductive Recv where
  | client (packet : SnPacket)
  | broker (packet : MqttPacket)

structure Session where
  client : Client
  /-- The socket to the broker is open. -/
  valid : Bool
  /-- A packet of the client whose handler has run, and `updateStatus` has not. -/
  updating : Option SnPacket
  packetEventQue : List Recv
  brokerSendQue : List MqttPacket
  clientSendQue : List SnReply
  /-- The process has not read through a pointer that leads nowhere. -/
  running : Bool
  /-- What `PacketHandleTask` was given by the client and by the broker. -/
  received : List SnPacket
  fromBroker : List MqttPacket
  /-- The packets of the client that have been handled. -/
  handled : List SnPacket
  toBroker : List MqttPacket
  toClient : List SnReply

def Session.new (clientId : List UInt8) : Session where
  client := .new clientId
  valid := false
  updating := none
  packetEventQue := []
  brokerSendQue := []
  clientSendQue := []
  running := true
  received := []
  fromBroker := []
  handled := []
  toBroker := []
  toClient := []

/-- What becomes of a packet to the broker: there is no connection, it is sent, or it cannot be
sent, after which the socket may be closed. -/
inductive SendResult where
  | refused
  | sent
  | failed (closed : Bool)

inductive TaskStep where
  | clientRecv (packet : SnPacket)
  | packetHandle
  | updateStatus
  | brokerSend (result : SendResult)
  | brokerRecv (packet : MqttPacket)
  | brokerLost (disconnected : Bool)
  | clientSend
  | discard (i : ℕ)

def MqttPacket.isConnect : MqttPacket → Bool
  | .connect .. => true
  | _ => false

/-- The packets that `BrokerRecvTask` passes on. -/
def MqttPacket.ofServer : MqttPacket → Bool
  | .connack _ | .publish _ | .ack .. | .suback .. | .unsuback _ | .pingresp => true
  | _ => false

def SnPacket.duration : SnPacket → UInt16
  | .disconnect duration => duration
  | _ => 0

/-! ## Posting -/

def Posted.toClient : Posted → Option SnReply
  | .clientSend packet => some packet
  | _ => none

def Posted.toBroker : Posted → Option MqttPacket
  | .brokerSend packet => some packet
  | _ => none

def Posted.again : Posted → Option Recv
  | .brokerRecv packet => some (.broker packet)
  | _ => none

namespace Session

/-- A handler has run. -/
def post (s : Session) (r : Client × List Posted) : Session :=
  { s with
    client := r.1
    packetEventQue := s.packetEventQue ++ r.2.filterMap Posted.again
    brokerSendQue := s.brokerSendQue ++ r.2.filterMap Posted.toBroker
    clientSendQue := s.clientSendQue ++ r.2.filterMap Posted.toClient }

/-! ## The tasks -/

/-- `ClientRecvTask`: a client that is not connected is told so. -/
def clientRecv (s : Session) (packet : SnPacket) : Session :=
  if s.client.status = .disconnected ∧ packet.getType ≠ MQTTSN_CONNECT then
    { s with clientSendQue := s.clientSendQue ++ [.disconnect] }
  else
    { s with
      packetEventQue := s.packetEventQue ++ [.client packet]
      received := s.received ++ [packet] }

/-- `PacketHandleTask`. -/
def packetHandle (common : CommonTopics) (s : Session) : Session :=
  match s.updating, s.packetEventQue with
  | none, .client packet :: es =>
    match handleSnPacket common s.client packet with
    | some r =>
      { s with
        packetEventQue := es
        updating := some packet
        handled := s.handled ++ [packet] }.post r
    | none => { s with running := false }
  | none, .broker packet :: es =>
    match handleMqttPacket s.client packet with
    | some r => { s with packetEventQue := es }.post r
    | none => { s with running := false }
  | _, _ => s

/-- The end of a pass of `PacketHandleTask`. -/
def updateStatus (s : Session) : Session :=
  match s.updating with
  | some packet =>
    { s with
      client := s.client.updateStatus packet.getType packet.duration
      updating := none }
  | none => s

/-- `BrokerSendTask`: a CONNECT opens the socket anew. -/
def brokerSend (s : Session) (result : SendResult) : Session :=
  match s.brokerSendQue with
  | [] => s
  | packet :: packets =>
    match result with
    | .refused =>
      if s.valid && !packet.isConnect then s
      else { s with brokerSendQue := packets, valid := false }
    | .sent =>
      { s with
        brokerSendQue := packets
        toBroker := s.toBroker ++ [packet]
        valid := match packet with
          | .disconnect => false
          | _ => true
        client := match packet with
          | .connect .. => { s.client with status := .connecting }
          | .disconnect => s.client.disconnect
          | _ => s.client }
    | .failed closed =>
      { s with
        brokerSendQue := packets
        valid := !closed
        packetEventQue := s.packetEventQue ++ [.broker .disconnect] }

/-- `BrokerRecvTask` with a packet. -/
def brokerRecv (s : Session) (packet : MqttPacket) : Session :=
  if s.valid && packet.ofServer then
    { s with
      packetEventQue := s.packetEventQue ++ [.broker packet]
      fromBroker := s.fromBroker ++ [packet] }
  else s

/-- `BrokerRecvTask` without one: the broker has closed the connection, or reading fails. -/
def brokerLost (s : Session) (disconnected : Bool) : Session :=
  if s.valid && (disconnected || s.client.status == .active || s.client.status == .asleep ||
      s.client.status == .awake) then
    { s with valid := false, client := s.client.disconnect }
  else s

/-- `ClientSendTask`. -/
def clientSend (s : Session) : Session :=
  match s.clientSendQue with
  | [] => s
  | packet :: packets =>
    { s with clientSendQue := packets, toClient := s.toClient ++ [packet] }

def step (common : CommonTopics) (s : Session) (e : TaskStep) : Session :=
  if s.running then
    match e with
    | .clientRecv packet => s.clientRecv packet
    | .packetHandle => s.packetHandle common
    | .updateStatus => s.updateStatus
    | .brokerSend result => s.brokerSend result
    | .brokerRecv packet => s.brokerRecv packet
    | .brokerLost disconnected => s.brokerLost disconnected
    | .clientSend => s.clientSend
    | .discard i => { s with packetEventQue := s.packetEventQue.eraseIdx i }
  else s

end Session

end Emcs.Paho
