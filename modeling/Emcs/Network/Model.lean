import Emcs.Bridge.Registry
import Emcs.Lib.Trace
import Emcs.Mesh.Node
import Mathlib.Logic.Function.Basic

/-!
# The mesh as one machine

The nodes, the bridge and the radio between them. Every frame ever sent stays on the `air`: a
delivery picks any of them, for any receiver, so loss, delay, reordering, duplication and every
routing of relays are covered by the choice of events. What a delivery does is the step of the
program at the receiver, `receiveFrame` on a node and `onRxDone` on the bridge.

Alongside the machine runs an observer. It numbers the datagrams as they are composed, by a node in
`mqttsn_transport_send` or by the bridge when it stages one, and a copy on the air carries the
number of its datagram as its `tag`; a relayed copy keeps the tag. The observer also keeps, for
every node, the tags it has received, and for the bridge the tags it accepted and those it handed to
`sendto`. No step of the program reads any of this.

## The steps

An event is one call of a program: a send, a turn of the receive loop of a node on a frame of the
air, an arrival at the bridge, a pass of the downstream thread or of the heartbeat, a transmission,
a restart. A staged datagram is kept apart from the air until the bridge transmits it, because its
slot may change hands in between.
-/

namespace Emcs.Network

open Bridge Mesh

/-- A frame on the air behind its radio header, with the number of the datagram it carries. -/
structure Copy where
  tag : ℕ
  raw : List UInt8
  deriving DecidableEq

/-- What identifies a datagram to the program, and the payload it was composed with. -/
structure Datagram where
  src : UInt8
  seq : UInt8
  payload : List UInt8
  deriving DecidableEq

/-- The pair that the duplicate caches hold. -/
def Datagram.key (d : Datagram) : UInt8 × UInt8 := (d.src, d.seq)

/-- The state of the mesh: the program's variables, and below them what the observer keeps. -/
structure Net (ι : Type) where
  transport : ι → Transport
  gateway : Gateway
  /-- What `downstream_thread` has staged and not sent yet. -/
  staged : List (ℕ × Staged)
  air : List Copy
  /-- The datagrams in the order they were composed; a tag is a position in this list. -/
  composed : List Datagram
  heard : ι → List ℕ
  /-- The tags of the frames that passed the duplicate check of the bridge. -/
  accepted : List ℕ
  /-- The tags of the frames handed to `sendto`. -/
  handed : List ℕ

inductive Event (ι : Type) where
  /-- Node `x` calls `mqttsn_transport_send`. -/
  | send (x : ι) (m : List UInt8) (ok : Bool)
  /-- The radio of node `x` delivers a copy inside `mqttsn_transport_recv` into `buf`. -/
  | deliver (x : ι) (c : Copy) (buf : List UInt8) (rssi : Int16) (fwdOk : Bool)
  /-- Node `x` restarts. -/
  | reboot (x : ι)
  /-- The radio of the bridge receives a copy behind the radio header `rh`. -/
  | uplink (c : Copy) (rh : UInt8 × UInt8 × UInt8 × UInt8) (os : Os)
  /-- `downstream_thread` collects what the sockets have. -/
  | stage (ready : Fin MAX_CLIENTS → Option (List UInt8))
  /-- `downstream_thread` sends the next staged datagram. -/
  | transmit
  /-- The heartbeat of the bridge expires clients. -/
  | expire (now : ℤ)

variable {ι : Type} [DecidableEq ι]

/-- All nodes and the bridge just switched on. -/
def Net.boot : Net ι where
  transport _ := Transport.boot
  gateway := Gateway.boot
  staged := []
  air := []
  composed := []
  heard _ := []
  accepted := []
  handed := []

variable (cfg : ι → NodeConfig) (evp : Evp)

/-! ## The steps of the nodes -/

/-- A send that gets as far as a sequence number composes a datagram, even if the radio then does
not send it. -/
def stepSend (s : Net ι) (x : ι) (m : List UInt8) (ok : Bool) : Net ι :=
  let r := mqttsnTransportSend (cfg x) (s.transport x) m ok
  let s' := { s with transport := Function.update s.transport x r.1 }
  if r.1.seqNum = (s.transport x).seqNum then s'
  else { s' with
    composed := s.composed ++ [⟨(cfg x).myNodeId, r.1.seqNum, aesEncryptPayload m AES_BUF_SIZE⟩]
    air := s.air ++ r.2.1.toList.map fun a ↦ ⟨s.composed.length, a.raw⟩ }

def stepDeliver (s : Net ι) (x : ι) (c : Copy) (buf : List UInt8) (rssi : Int16) (fwdOk : Bool) :
    Net ι :=
  let r := receiveFrame (cfg x) (s.transport x) buf (c.raw.take LORA_BUF_SIZE) rssi fwdOk
  { s with
    transport := Function.update s.transport x r.transport
    air := s.air ++ r.sent.toList.map fun a ↦ ⟨c.tag, a.raw⟩
    heard := Function.update s.heard x (c.tag :: s.heard x) }

/-! ## The steps of the bridge -/

/-- The bytes in the radio of the bridge. -/
def radioBuf (rh : UInt8 × UInt8 × UInt8 × UInt8) (raw : List UInt8)
    (h : RH_HDR + raw.length ≤ GW_PAYLOAD_MAX) : RadioBuf :=
  ⟨[rh.1, rh.2.1, rh.2.2.1, rh.2.2.2] ++ raw, by
    rw [List.length_append]
    exact h⟩

def stepUplink (s : Net ι) (c : Copy) (rh : UInt8 × UInt8 × UInt8 × UInt8) (os : Os) : Net ι :=
  if h : RH_HDR + c.raw.length ≤ GW_PAYLOAD_MAX then
    match rxDecode evp (radioBuf rh c.raw h) with
    | none => s
    | some p =>
      let r := onRxDone evp s.gateway (radioBuf rh c.raw h) os
      { s with
        gateway := r.1
        accepted := s.accepted ++ if rxAccepts s.gateway p then [c.tag] else []
        handed := s.handed ++ r.2.toList.map fun _ ↦ c.tag }
  else s

/-- The datagrams that a pass of `downstream_thread` composes. -/
def stagedDatagrams (l : List Staged) : List Datagram :=
  l.map fun d ↦ ⟨MESH_ADDR_GATEWAY, d.seq, gwAesEncrypt evp d.data GW_PAYLOAD_MAX⟩

/-- The thread collects again only when it has sent what it staged before. -/
def stepStage (s : Net ι) (ready : Fin MAX_CLIENTS → Option (List UInt8)) : Net ι :=
  if s.staged ≠ [] then s
  else
    let r := collect s.gateway.clients ready
    { s with
      gateway := { s.gateway with clients := r.1 }
      staged := (List.range' s.composed.length r.2.length).zip r.2
      composed := s.composed ++ stagedDatagrams evp r.2 }

def stepTransmit (s : Net ι) : Net ι :=
  match s.staged with
  | [] => s
  | (tag, d) :: rest =>
    { s with
      staged := rest
      air := s.air ++ (loraSend evp d.node d.seq d.data).toList.map fun f ↦ ⟨tag, f.drop RH_HDR⟩ }

/-- A delivery is possible of what is on the air. -/
def step (s : Net ι) : Event ι → Net ι
  | .send x m ok => stepSend cfg s x m ok
  | .deliver x c buf rssi fwdOk => if c ∈ s.air then stepDeliver cfg s x c buf rssi fwdOk else s
  | .reboot x =>
    { s with transport := Function.update s.transport x (mqttsnTransportInit Transport.boot) }
  | .uplink c rh os => if c ∈ s.air then stepUplink evp s c rh os else s
  | .stage ready => stepStage evp s ready
  | .transmit => stepTransmit evp s
  | .expire now => { s with gateway := expireClients s.gateway now }

/-- The state after the events `es`. -/
def reached (es : List (Event ι)) : Net ι := Trace.run (step cfg evp) Net.boot es

theorem reached_append (es es' : List (Event ι)) :
    reached cfg evp (es ++ es') = Trace.run (step cfg evp) (reached cfg evp es) es' :=
  Trace.run_append (step cfg evp) Net.boot es es'

end Emcs.Network
