import Emcs.Paho.Gateway
import Emcs.System.Downlink
import Emcs.System.Node

/-!
# The Arduinos and the gateway

Every Arduino runs its sketch, the gateway its tasks, in any order. Between them datagrams may be
lost, repeated, delayed and overtaken: what an Arduino sends may come to the gateway at any later
time, and again; and what the gateway sends to its address may come to the Arduino. Other clients
may send to the gateway what they like, and the broker may answer what it likes.

## What can arrive

The two lists of what has been sent, that of the node and that of the gateway, are never shortened.
A packet can arrive if it stands in the list of the other side, so losing is not choosing it,
repeating is choosing it again, and delaying is choosing it late. A step that would let anything
else arrive does nothing, which is why every list of steps is a run.
-/

namespace Emcs.System

open Mqttsn Arduino Paho

/-- The Arduinos, by their addresses, and the parameters of the gateway. The client id of an Arduino
has at most 10 characters, and does not begin with that of another one. -/
structure Setup (A : Type*) where
  clientId : A → Option (List UInt8)
  maxClients : ℕ
  maxInflightMsgs : ℕ
  short : ∀ {addr id}, clientId addr = some id → id.length ≤ 10
  apart : ∀ {addr addr' id id'}, clientId addr = some id → clientId addr' = some id' →
    strncmpEq id id' = true → addr = addr'

structure Site (A : Type*) where
  node : A → Node
  gateway : Gateway A

inductive SiteStep (A : Type*) where
  | node (addr : A) (e : NodeStep)
  | gateway (e : GatewayStep A)

variable {A : Type*}

def Setup.params (S : Setup A) : GWParams := ⟨S.maxClients, S.maxInflightMsgs, .none⟩

namespace Site

def boot : Site A := ⟨fun _ ↦ .boot, .start⟩

variable [DecidableEq A]

/-- The gateway has sent this to the address. -/
def delivers (s : Site A) (addr : A) (rx : Rx) : Bool :=
  s.gateway.unicast.any fun x ↦ decide (x.1 = addr) && carries rx x.2

/-- A datagram from the address of an Arduino is one that it has sent. -/
def sends (S : Setup A) (s : Site A) : GatewayStep A → Bool
  | .clientRecv sender datagram _ =>
    match S.clientId sender with
    | some _ => (s.node sender).sent.contains datagram
    | none => true
  | _ => true

/-- What cannot arrive does not. -/
def step (S : Setup A) (s : Site A) : SiteStep A → Site A
  | .node addr e =>
    match S.clientId addr with
    | some id =>
      if e.packet.all (s.delivers addr) then
        { s with node := Function.update s.node addr ((s.node addr).step id e) }
      else s
    | none => s
  | .gateway e => if s.sends S e then { s with gateway := s.gateway.step S.params e } else s

/-- The counter of topic ids that the gateway keeps for the address. -/
def nextTopicId (s : Site A) (addr : A) : UInt16 :=
  (s.gateway.clients.find? fun e ↦ e.addr = addr).elim 0 fun e ↦ e.client.topics.nextTopicId

end Site

/-! ## Other clients -/

/-- A client id that no Arduino is taken for, and that is taken for no Arduino. -/
def Setup.Foreign (S : Setup A) (clientId : List UInt8) : Prop :=
  ∀ addr id, S.clientId addr = some id →
    strncmpEq clientId id = false ∧ strncmpEq id clientId = false

/-- Other clients do not give themselves out as an Arduino. -/
def Setup.Fair (S : Setup A) : SiteStep A → Prop
  | .gateway (.clientRecv sender datagram around) => S.clientId sender = none →
    ∀ clientId ∈ Gateway.connectId datagram around, S.Foreign clientId
  | _ => True

end Emcs.System
