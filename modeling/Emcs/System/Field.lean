import Emcs.Network.Integrity
import Emcs.System.Model
import Mathlib.Data.PEquiv

/-!
# The field

All programs together: the sketches of the Arduinos, their transports and relays, the bridge with
its sockets, and the gateway. A sketch hands its datagrams to its transport, and handles what its
transport returns; the bridge hands the datagrams that it takes from the air to the port of the
gateway, each from the socket of a slot; what the gateway sends to the address of a slot is read
from this socket again. The gateway has other clients, too, at addresses of their own (`B`).

Nothing is assumed of the order in which the programs take their turns, and datagrams between the
bridge and the gateway may be lost, repeated and overtaken like the frames on the air.

## The construction

The step of the field is put together from the steps of its parts, which are those of the modules
before: the node with its sketch, the mesh with the bridge, the gateway. What the field adds is
where a datagram has to come from. A sketch sends what is in its list, a socket has what the gateway
has sent to its port, and the gateway receives from a port what the bridge has handed over there; a
step that asks for anything else does nothing.
-/

namespace Emcs.System

open Mqttsn Arduino Paho
open Bridge (MAX_CLIENTS Sendto)
open Mesh (NodeConfig MESH_ADDR_GATEWAY MESH_ADDR_BROADCAST)
open Network (Net Copy)

/-- How the nodes are built. No node has the id of the gateway or of all nodes, and no two nodes
have one id, or client ids of which one begins with the other. -/
structure FieldSetup (ι : Type) where
  cfg : ι → NodeConfig
  evp : Bridge.Evp
  clientId : ι → List UInt8
  maxClients : ℕ
  maxInflightMsgs : ℕ
  short : ∀ x, (clientId x).length ≤ 10
  apart : ∀ {x y}, strncmpEq (clientId x) (clientId y) = true → x = y
  address : ∀ x, (cfg x).myNodeId ≠ MESH_ADDR_GATEWAY ∧ (cfg x).myNodeId ≠ MESH_ADDR_BROADCAST
  unique : ∀ {x y}, (cfg x).myNodeId = (cfg y).myNodeId → x = y

/-- Where the gateway sees a client: at the port of a slot, or elsewhere. -/
abbrev Address (B : Type) := Fin MAX_CLIENTS ⊕ B

structure Field (ι B : Type) where
  node : ι → Node
  net : Net ι
  /-- What the bridge has sent to the port of the gateway, from which slot. -/
  handed : List (Fin MAX_CLIENTS × List UInt8)
  gateway : Gateway (Address B)

inductive FieldStep (ι B : Type) where
  /-- The `switch` of a sketch runs. -/
  | iterate (x : ι) (inputs : Inputs)
  /-- No reply comes to a sketch that waits. -/
  | timeout (x : ι)
  /-- A sketch hands a datagram to its transport. -/
  | send (x : ι) (datagram : List UInt8) (ok : Bool)
  /-- The radio of a node receives, and the sketch handles what its transport returns. Behind the
  message the buffer holds `beyond`. -/
  | receive (x : ι) (c : Copy) (buf : List UInt8) (rssi : Int16) (fwdOk : Bool)
    (beyond : List UInt8) (now : UInt32)
  | uplink (c : Copy) (rh : UInt8 × UInt8 × UInt8 × UInt8) (os : Bridge.Os)
  | stage (ready : Fin MAX_CLIENTS → Option (List UInt8))
  | transmit
  | expire (now : ℤ)
  | gateway (e : GatewayStep (Address B))

/-- The gateway sends this datagram for the reply. -/
def emits (reply : SnReply) (datagram : List UInt8) : Bool :=
  match reply.serialize with
  | .ok d => d == datagram
  | .error _ => false

/-- A sketch that waits takes a message for its reply. -/
def Node.handle (n : Node) (rx : Rx) : NodeStep :=
  if n.waiting.isSome then .reply (some rx) else .receive rx

namespace Field

variable {ι B : Type}

def boot : Field ι B := ⟨fun _ ↦ .boot, Net.boot, [], .start⟩

variable [DecidableEq ι] [DecidableEq B]

/-- The sketch takes a step. -/
def act (F : FieldSetup ι) (s : Field ι B) (x : ι) (e : NodeStep) : Field ι B :=
  { s with node := Function.update s.node x ((s.node x).step (F.clientId x) e) }

def mesh (F : FieldSetup ι) (s : Field ι B) (e : Network.Event ι) : Field ι B :=
  { s with net := Network.step F.cfg F.evp s.net e }

/-- The sockets have what the gateway has sent to their ports. -/
def posted (s : Field ι B) (ready : Fin MAX_CLIENTS → Option (List UInt8)) : Bool :=
  decide (∀ i, (ready i).all fun d ↦ s.gateway.unicast.any fun x ↦
    decide (x.1 = .inl i) && emits x.2 d)

/-- What the gateway receives from the port of a slot, the bridge has sent from there. -/
def admits (s : Field ι B) : GatewayStep (Address B) → Bool
  | .clientRecv (.inl i) datagram _ => s.handed.contains (i, datagram)
  | _ => true

/-- What cannot happen does not. -/
def step (F : FieldSetup ι) (s : Field ι B) : FieldStep ι B → Field ι B
  | .iterate x inputs => s.act F x (.iterate inputs)
  | .timeout x => s.act F x (.reply none)
  | .send x datagram ok =>
    if (s.node x).sent.contains datagram then s.mesh F (.send x datagram ok) else s
  | .receive x c buf rssi fwdOk beyond now =>
    let e := .deliver x c buf rssi fwdOk
    match Network.returned F.cfg s.net e with
    | some (_, m) =>
      (s.mesh F e).act F x ((s.node x).handle ⟨m ++ beyond, UInt8.ofNat m.length, now⟩)
    | none => s.mesh F e
  | .uplink c rh os =>
    let e := .uplink c rh os
    { s.mesh F e with
      handed := s.handed ++ (Network.sendto F.evp s.net e).toList.map fun d ↦ (d.client, d.data) }
  | .stage ready => if s.posted ready then s.mesh F (.stage ready) else s
  | .transmit => s.mesh F .transmit
  | .expire now => s.mesh F (.expire now)
  | .gateway e =>
    if s.admits e then
      { s with gateway := s.gateway.step ⟨F.maxClients, F.maxInflightMsgs, .none⟩ e }
    else s

end Field

end Emcs.System
