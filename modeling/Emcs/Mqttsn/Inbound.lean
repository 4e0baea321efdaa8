import Emcs.Lib.Trace
import Emcs.Mqttsn.AtLeastOnce

/-!
# Commands of QoS 2

A gateway sends a PUBLISH of QoS 2 again until it sees the PUBREC, and then the PUBREL until it sees
the PUBCOMP; the channel may lose and duplicate. A PUBLISH can therefore arrive any number of times
before its PUBREL, and a receiver that is to act on it once has to remember its message id.

A receiver that remembers nothing acts on every copy. Two logs say what that means: the ids that
were acted on, and the ids of the commands that came, each up to the PUBREL of the id.

## The two logs

The log of the commands that came is what an ideal receiver would keep. `Inbox.Once` says that the
log of the actions is the same list and has no repetitions, and it stays so as long as no command
comes that is in the list already. One packet then decides both ways, and the run follows by
induction with no assumption on the packets.
-/

namespace Emcs.Mqttsn

open Bytes

/-! ## The gateway -/

/-- The QoS in the flags of a PUBLISH. -/
def publishQos (buf : List UInt8) : UInt8 :=
  (buf.getD 2 0 >>> MQTTSN_QOS_SHIFT) &&& MQTTSN_FLAG_QOS_MASK

/-- What the gateway does with a message id: nothing, it waits for the PUBREC of this packet, or it
waits for the PUBCOMP. -/
inductive Phase where
  | idle
  | publishing (packet : List UInt8)
  | releasing
  deriving DecidableEq

/-- The gateway and the channel to the client: what has been sent, and what has been delivered. -/
structure Handshake where
  phase : UInt16 → Phase
  sent : List (List UInt8)
  delivered : List (List UInt8)

def Handshake.boot : Handshake := ⟨fun _ ↦ .idle, [], []⟩

/-- The gateway sends, or sees an acknowledgement, or the channel delivers. -/
inductive HandshakeEvent where
  | publish (packet : List UInt8)
  | pubrec (mid : UInt16)
  | pubrel (mid : UInt16)
  | pubcomp (mid : UInt16)
  | deliver (packet : List UInt8)

/-- The gateway publishes under an id that is free, or again under one whose PUBREC it has not seen.
The acknowledgements may come at any time, and the channel delivers what has been sent. -/
def Handshake.step (s : Handshake) : HandshakeEvent → Handshake
  | .publish packet =>
    let mid := publishMid packet
    if isPublish packet = true ∧ publishQos packet = 2 ∧
        (s.phase mid = .idle ∨ s.phase mid = .publishing packet) then
      { s with phase := Function.update s.phase mid (.publishing packet),
               sent := s.sent ++ [packet] }
    else s
  | .pubrec mid =>
    match s.phase mid with
    | .publishing _ => { s with phase := Function.update s.phase mid .releasing }
    | _ => s
  | .pubrel mid =>
    if s.phase mid = .releasing then { s with sent := s.sent ++ [pubrelPacket mid] } else s
  | .pubcomp mid =>
    if s.phase mid = .releasing then { s with phase := Function.update s.phase mid .idle } else s
  | .deliver packet =>
    if packet ∈ s.sent then { s with delivered := s.delivered ++ [packet] } else s

/-- A gateway that follows the handshake can have these packets delivered. -/
def FromGateway (packets : List (List UInt8)) : Prop :=
  ∃ es, (Trace.run Handshake.step .boot es).delivered = packets

/-! ## The receiver -/

/-- What a packet is to the receiver: a PUBLISH of QoS 2 with a command, another PUBLISH of QoS 2, a
PUBREL, or neither. -/
inductive Inbound where
  | command (mid : UInt16)
  | publish (mid : UInt16)
  | release (mid : UInt16)
  | other
  deriving DecidableEq

/-- A client that receives: its handler, and how often that acts on the payload of a packet. The
handler acts on every command it gets. -/
structure Receiver (σ ρ : Type) where
  handle : σ → ρ → σ
  acts : σ → ρ → ℕ
  kind : ρ → Inbound
  acts_command : ∀ s rx mid, kind rx = .command mid → acts s rx = 1
  acts_publish : ∀ s rx mid, kind rx = .publish mid → acts s rx = 0

/-- The client, the ids that were acted on and those of the commands that came, each up to the
PUBREL of the id. -/
structure Inbox (σ : Type) where
  client : σ
  acted : List UInt16
  heard : List UInt16

def Inbox.boot {σ : Type} (s₀ : σ) : Inbox σ := ⟨s₀, [], []⟩

/-- The receiver has acted on the commands that came, and on none of them twice. -/
structure Inbox.Once {σ : Type} (b : Inbox σ) : Prop where
  acted : b.acted = b.heard
  nodup : b.heard.Nodup

namespace Receiver

variable {σ ρ : Type} (R : Receiver σ ρ)

def receive (b : Inbox σ) (rx : ρ) : Inbox σ where
  client := R.handle b.client rx
  acted :=
    match R.kind rx with
    | .command mid | .publish mid => b.acted ++ List.replicate (R.acts b.client rx) mid
    | .release mid => b.acted.filter (· != mid)
    | .other => b.acted
  heard :=
    match R.kind rx with
    | .command mid => b.heard ++ [mid]
    | .release mid => b.heard.filter (· != mid)
    | .publish _ | .other => b.heard

/-- **Exactly once**: no PUBLISH has been acted on twice since the last PUBREL with its id. -/
def ActedOnce (b : Inbox σ) (rx : ρ) : Prop := ∀ mid, (R.receive b rx).acted.count mid ≤ 1

/-- A command does not come a second time before the PUBREL with its id. -/
def NotRepeated (b : Inbox σ) (rx : ρ) : Prop := ∀ mid, R.kind rx = .command mid → mid ∉ b.heard

variable {R} {b : Inbox σ}

/-- The receiver acts on every command that comes. -/
theorem acted_receive (h : b.acted = b.heard) (rx : ρ) :
    (R.receive b rx).acted = (R.receive b rx).heard := by
  rw [receive]
  dsimp only
  cases hkind : R.kind rx with
  | command mid =>
    dsimp only
    rw [R.acts_command b.client rx mid hkind, List.replicate_one, h]
  | publish mid =>
    dsimp only
    rw [R.acts_publish b.client rx mid hkind, List.replicate_zero, List.append_nil, h]
  | release mid =>
    dsimp only
    rw [h]
  | other => exact h

theorem nodup_receive (h : b.heard.Nodup) (rx : ρ) :
    (R.receive b rx).heard.Nodup ↔ R.NotRepeated b rx := by
  rw [receive, NotRepeated]
  dsimp only
  cases hkind : R.kind rx with
  | command mid =>
    dsimp only
    rw [List.nodup_append]
    constructor
    · rintro ⟨-, -, hdisjoint⟩ mid' hmid' hmem
      obtain rfl := Inbound.command.inj hmid'
      exact hdisjoint mid hmem mid (List.mem_singleton_self _) rfl
    · intro hnew
      refine ⟨h, List.nodup_singleton _, fun a ha c hc hac ↦ ?_⟩
      rw [List.mem_singleton] at hc
      subst hc hac
      exact hnew a rfl ha
  | publish mid => exact ⟨fun _ _ ↦ nofun, fun _ ↦ h⟩
  | release mid => exact ⟨fun _ _ ↦ nofun, fun _ ↦ h.filter _⟩
  | other => exact ⟨fun _ _ ↦ nofun, fun _ ↦ h⟩

/-- **A packet is acted on once where it is not repeated, and only there.** -/
theorem actedOnce_iff_notRepeated (h : b.Once) (rx : ρ) :
    R.ActedOnce b rx ↔ R.NotRepeated b rx := by
  rw [← nodup_receive h.nodup, ← acted_receive h.acted, ActedOnce, List.nodup_iff_count_le_one]

theorem once_receive (h : b.Once) {rx : ρ} (hrx : R.NotRepeated b rx) : (R.receive b rx).Once :=
  ⟨acted_receive h.acted rx, (nodup_receive h.nodup rx).mpr hrx⟩

/-- **Exactly once, for every receiver that acts on each command**: in exactly those sequences of
packets in which no command comes a second time before its PUBREL. -/
theorem actedOnce_iff (R : Receiver σ ρ) (s₀ : σ) (rxs : List ρ) :
    Trace.Always R.receive R.ActedOnce (.boot s₀) rxs ↔
      Trace.Always R.receive R.NotRepeated (.boot s₀) rxs :=
  Trace.always_iff_always (P := Inbox.Once) (fun _ rx h ↦ actedOnce_iff_notRepeated h rx)
    (fun _ _ h hrx ↦ once_receive h hrx) ⟨rfl, List.nodup_nil⟩

end Receiver

end Emcs.Mqttsn
