import Emcs.Lib.SharedQueue
import Emcs.Paho.Datagram
import Emcs.Paho.Tasks

/-!
# The gateway and its clients

`ClientList` in `MQTTSNGWClientList.cpp`, and the tasks of the gateway for all clients at once: the
queues are shared, and that of `PacketHandleTask` has room for a number of events. Clients are never
taken off the list, so a client is known by its place in it.

Clients are told apart by the addresses of their datagrams. A CONNECT from an unknown address is for
the client whose id begins with the id in it, and for a new client if there is none.

Left out are the broadcasts of the gateway, ADVERTISE and GWINFO; forwarders, whose packets are
discarded where none is declared; and the proxies. A SEARCHGW takes room in the queue until its turn
comes.

`ClientRecvTask::log` copies the id of a CONNECT into 65 bytes on the stack, and `BrokerRecvTask`
takes an error code for the length of a packet of more than 1024 bytes. What follows an id of more
than 64 bytes or such a packet is left out, as are strings and payloads of negative length
(`SnPacket.read`).

## The construction

A queue that is shared is a list of pairs, the owner and what was posted for it, from the library on
shared queues; the queue of `PacketHandleTask` drops what it has no room for, and an event without a
client takes room in it, too. Each task is a step for the client that its turn is about, and a run
is any list of such steps.
-/

namespace Emcs.Paho

open SharedQueue

def MQTTSN_ADVERTISE : UInt8 := 0x00

def MQTTSN_SEARCHGW : UInt8 := 0x01

def MQTTSN_GWINFO : UInt8 := 0x02

def MQTTSN_ENCAPSULATED : UInt8 := 0xFE

/-- What the tasks take from the parameters of the gateway. -/
structure GWParams where
  maxClients : ℕ
  maxInflightMsgs : ℕ
  common : CommonTopics

/-- The room in the queue of `PacketHandleTask`, which is handed on in 16 bits. A room of 0 has no
end. -/
def GWParams.maxEvents (p : GWParams) : ℕ := p.maxInflightMsgs * p.maxClients % 2 ^ 16

/-- A client of the list: its address, what is kept for it, whether its socket to the broker is
open, and beside these what it sent and was sent. -/
structure Entry (A : Type*) where
  addr : A
  client : Client
  valid : Bool
  received : List SnPacket
  fromBroker : List MqttPacket
  handled : List SnPacket
  toBroker : List MqttPacket
  toClient : List SnReply

structure Gateway (A : Type*) where
  clients : List (Entry A)
  /-- An event without a client is a SEARCHGW. -/
  packetEventQue : List (Option ℕ × Recv)
  brokerSendQue : List (ℕ × MqttPacket)
  clientSendQue : List (ℕ × SnReply)
  /-- The packet whose handler has run, and `updateStatus` has not. -/
  updating : Option (ℕ × SnPacket)
  /-- The client with whose packet the process has ended. -/
  crashed : Option ℕ
  /-- What was sent to which address. -/
  unicast : List (A × SnReply)

inductive GatewayStep (A : Type*) where
  | clientRecv (sender : A) (datagram : List UInt8) (around : Around)
  | packetHandle
  | updateStatus
  | brokerSend (result : SendResult)
  | brokerRecv (k : ℕ) (packet : MqttPacket)
  | brokerLost (k : ℕ) (disconnected : Bool)
  | clientSend

/-- A client of the pool that is put into the list. -/
def Entry.new {A : Type*} (addr : A) (clientId : List UInt8) : Entry A where
  addr := addr
  client := .new clientId
  valid := false
  received := []
  fromBroker := []
  handled := []
  toBroker := []
  toClient := []

/-- `strncmp` of a string and the bytes `id`. -/
def strncmpEq : List UInt8 → List UInt8 → Bool
  | _, [] => true
  | s, x :: id => s.headD 0 == x && (x == 0 || strncmpEq s.tail id)

namespace Gateway

variable {A : Type*}

/-- The gateway without clients. -/
def start : Gateway A := ⟨[], [], [], [], none, none, []⟩

/-! ## The list of clients -/

/-- `getClient` by the id in a CONNECT. -/
def getClientById (g : Gateway A) (clientId : List UInt8) : Option ℕ :=
  g.clients.findIdx? fun e ↦ strncmpEq e.client.clientId clientId

def modify (g : Gateway A) (k : ℕ) (f : Entry A → Entry A) : Gateway A :=
  { g with clients := g.clients.modify k f }

/-- `createClient`, as far as the pool has a client. `ClientsPool::allocate` has put one into it
before it begins to count them. -/
def createClient (p : GWParams) (g : Gateway A) (addr : A) (clientId : List UInt8) :
    Option (Gateway A) :=
  if g.clients.length < p.maxClients + 1 then
    some { g with clients := g.clients ++ [.new addr clientId] }
  else none

/-! ## Posting -/

/-- The packet is posted for `PacketHandleTask`. -/
def postRecv (p : GWParams) (g : Gateway A) (k : ℕ) (packet : SnPacket) : Gateway A :=
  { g with
    clients := g.clients.modify k fun e ↦ { e with received := e.received ++ [packet] }
    packetEventQue := SharedQueue.post p.maxEvents g.packetEventQue [(some k, .client packet)] }

/-- A handler has run for the client. -/
def post (p : GWParams) (g : Gateway A) (k : ℕ) (r : Client × List Posted) : Gateway A :=
  { g with
    clients := g.clients.modify k fun e ↦ { e with client := r.1 }
    packetEventQue := SharedQueue.post p.maxEvents g.packetEventQue
      ((r.2.filterMap Posted.again).map (some k, ·))
    brokerSendQue := g.brokerSendQue ++ (r.2.filterMap Posted.toBroker).map (k, ·)
    clientSendQue := g.clientSendQue ++ (r.2.filterMap Posted.toClient).map (k, ·) }

/-! ## The tasks -/

section ClientRecv

variable [DecidableEq A]

/-- `getClient` by address. -/
def getClient (g : Gateway A) (addr : A) : Option ℕ := g.clients.findIdx? fun e ↦ e.addr = addr

/-- A packet of a client that is in the list. -/
def recvKnown (p : GWParams) (g : Gateway A) (k : ℕ) (packet : SnPacket) : Gateway A :=
  match g.clients[k]? with
  | none => g
  | some e =>
    if e.client.status = .disconnected ∧ packet.getType ≠ MQTTSN_CONNECT then
      { g with clientSendQue := g.clientSendQue ++ [(k, .disconnect)] }
    else g.postRecv p k packet

/-- A CONNECT from an address that is not in the list. -/
def recvNew (p : GWParams) (g : Gateway A) (addr : A) (clientId : List UInt8) (packet : SnPacket) :
    Gateway A :=
  match g.getClientById clientId with
  | some k => (g.modify k fun e ↦ { e with addr := addr }).postRecv p k packet
  | none =>
    match g.createClient p addr clientId with
    | some g' => g'.postRecv p g.clients.length packet
    | none => g

/-- The client id in a CONNECT that is accepted. Ids of negative length, and of more than the 64
bytes that the log has room for, are left out. -/
def connectId (datagram : List UInt8) (around : Around) : Option (List UInt8) := do
  let data ← mqttsnDeserializeConnect (around.memory datagram) datagram.length
  data.clientID.string (around.memory datagram)

/-- `ClientRecvTask`. -/
def clientRecv (p : GWParams) (g : Gateway A) (addr : A) (datagram : List UInt8)
    (around : Around) : Gateway A :=
  let type := mqttsnPacketGetType (around.memory datagram) datagram.length
  if datagram.length < 2 ∨ type ≤ MQTTSN_ADVERTISE ∨ type = MQTTSN_GWINFO ∨
      type = MQTTSN_ENCAPSULATED then g
  else if type = MQTTSN_SEARCHGW then
    { g with
      packetEventQue := SharedQueue.post p.maxEvents g.packetEventQue
        [(none, .client (.malformed type))] }
  else match SnPacket.read datagram around with
    | none => g
    | some packet =>
      match g.getClient addr with
      | some k => g.recvKnown p k packet
      | none =>
        if type = MQTTSN_CONNECT then
          match connectId datagram around with
          | some clientId => g.recvNew p addr clientId packet
          | none => g
        else g

end ClientRecv

/-- `PacketHandleTask`. -/
def packetHandle (p : GWParams) (g : Gateway A) : Gateway A :=
  match g.updating, g.packetEventQue with
  -- a SEARCHGW, which is answered by a broadcast
  | none, (none, _) :: es => { g with packetEventQue := es }
  | none, (some k, ev) :: es =>
    match g.clients[k]?, ev with
    | some e, .client packet =>
      match handleSnPacket p.common e.client packet with
      | some r =>
        { g with
          clients := g.clients.modify k fun e ↦ { e with handled := e.handled ++ [packet] }
          packetEventQue := es
          updating := some (k, packet) }.post p k r
      | none => { g with crashed := some k }
    | some e, .broker packet =>
      match handleMqttPacket e.client packet with
      | some r => { g with packetEventQue := es }.post p k r
      | none => { g with crashed := some k }
    | none, _ => g
  | _, _ => g

/-- The end of a pass of `PacketHandleTask`. -/
def updateStatus (g : Gateway A) : Gateway A :=
  match g.updating with
  | some (k, packet) =>
    { g with
      clients := g.clients.modify k fun e ↦
        { e with client := e.client.updateStatus packet.getType packet.duration }
      updating := none }
  | none => g

/-- The client and its socket after a packet was sent to the broker. -/
def sentBroker (packet : MqttPacket) {A : Type*} (e : Entry A) : Entry A :=
  { e with
    toBroker := e.toBroker ++ [packet]
    valid := match packet with
      | .disconnect => false
      | _ => true
    client := match packet with
      | .connect .. => { e.client with status := .connecting }
      | .disconnect => e.client.disconnect
      | _ => e.client }

/-- `BrokerSendTask`. -/
def brokerSend (p : GWParams) (g : Gateway A) (result : SendResult) : Gateway A :=
  match g.brokerSendQue with
  | [] => g
  | (k, packet) :: packets =>
    match g.clients[k]? with
    | none => g
    | some e =>
      match result with
      | .refused =>
        if e.valid && !packet.isConnect then g
        else
          { g with
            clients := g.clients.modify k fun e ↦ { e with valid := false }
            brokerSendQue := packets }
      | .sent =>
        { g with clients := g.clients.modify k (sentBroker packet), brokerSendQue := packets }
      | .failed closed =>
        { g with
          clients := g.clients.modify k fun e ↦ { e with valid := !closed }
          brokerSendQue := packets
          packetEventQue :=
            SharedQueue.post p.maxEvents g.packetEventQue [(some k, .broker .disconnect)] }

/-- `BrokerRecvTask` with a packet for the client. -/
def brokerRecv (p : GWParams) (g : Gateway A) (k : ℕ) (packet : MqttPacket) : Gateway A :=
  match g.clients[k]? with
  | none => g
  | some e =>
    if e.valid && packet.ofServer then
      { g with
        clients := g.clients.modify k fun e ↦ { e with fromBroker := e.fromBroker ++ [packet] }
        packetEventQue := SharedQueue.post p.maxEvents g.packetEventQue [(some k, .broker packet)] }
    else g

/-- `BrokerRecvTask` without one. -/
def brokerLost (g : Gateway A) (k : ℕ) (disconnected : Bool) : Gateway A :=
  match g.clients[k]? with
  | none => g
  | some e =>
    if e.valid && (disconnected || e.client.status == .active || e.client.status == .asleep ||
        e.client.status == .awake) then
      g.modify k fun e ↦ { e with valid := false, client := e.client.disconnect }
    else g

/-- `ClientSendTask`, which sends to the address that the client has now. -/
def clientSend (g : Gateway A) : Gateway A :=
  match g.clientSendQue with
  | [] => g
  | (k, packet) :: packets =>
    match g.clients[k]? with
    | none => g
    | some e =>
      { g with
        clients := g.clients.modify k fun e ↦ { e with toClient := e.toClient ++ [packet] }
        clientSendQue := packets
        unicast := g.unicast ++ [(e.addr, packet)] }

def step [DecidableEq A] (p : GWParams) (g : Gateway A) (e : GatewayStep A) : Gateway A :=
  if g.crashed.isSome then g
  else match e with
    | .clientRecv sender datagram around => g.clientRecv p sender datagram around
    | .packetHandle => g.packetHandle p
    | .updateStatus => g.updateStatus
    | .brokerSend result => g.brokerSend p result
    | .brokerRecv k packet => g.brokerRecv p k packet
    | .brokerLost k disconnected => g.brokerLost k disconnected
    | .clientSend => g.clientSend

end Gateway

end Emcs.Paho
