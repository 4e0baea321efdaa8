import Emcs.Lib.Window
import Emcs.Mesh.Forwarding

/-!
# The duplicate window of a node

A node from its initialisation on, sending packets and taking turns in its receive loop in any
order. Each step adds at most one key to the duplicate cache: a send the node's own, a turn the key
of the frame it accepts. The cache is a ring, and the law of `Lib.Window` holds of every key that
nothing but an accepted frame adds and nothing invalidates: the keys of other nodes and, on a relay,
of other sources than the gateway.

## The proof

The library counts the additions between two additions of one key. What is to be shown here is that
the cache is used as it asks: `dedup_nodeStep` goes through what an event can do, and finds a key of
another node added only when the cache does not have it, and removed by nothing but other additions.
The two exceptions are the keys that a node adds for its own packets
without a look, and those of the gateway, which a relay invalidates whenever it forwards a frame
(`Filtered`).
-/

namespace Emcs.Mesh

open Trace

/-- What happens on a node: a call of `mqttsn_transport_send`, or a turn of the receive loop. -/
inductive NodeEvent where
  | send (m : List UInt8) (ok : Bool)
  | turn (buf : List UInt8) (nonBlocking : Bool) (p : Poll)

/-- The variables of the transport after an event. -/
def nodeStep (cfg : NodeConfig) (t : Transport) : NodeEvent → Transport
  | .send m ok => (mqttsnTransportSend cfg t m ok).1
  | .turn buf nonBlocking p => (receiveTurn cfg t buf nonBlocking p).transport

/-- A call of `mqttsn_transport_recv` is a stretch of turns. -/
theorem transport_receiveLoop (cfg : NodeConfig) (nonBlocking : Bool) (deadline : UInt32)
    (t : Transport) (buf : List UInt8) (ps : List Poll) : ∃ bufs : List (List UInt8),
      (receiveLoop cfg nonBlocking deadline t buf ps).transport = run (nodeStep cfg) t
        ((bufs.zip ps).map fun q ↦ .turn q.1 nonBlocking q.2) := by
  induction ps generalizing t buf with
  | nil => exact ⟨[], rfl⟩
  | cons p ps ih =>
    rw [receiveLoop]
    dsimp only
    split
    · exact ⟨[buf], rfl⟩
    · exact ⟨[buf], rfl⟩
    split
    · obtain ⟨bufs, hbufs⟩ := ih (receiveTurn cfg t buf nonBlocking p).transport
        (receiveTurn cfg t buf nonBlocking p).buf
      exact ⟨buf :: bufs, hbufs⟩
    · exact ⟨[buf], rfl⟩

/-! ## What a step adds to the cache -/

/-- The key that a turn passes to `dedup_add`: that of a frame it accepts. -/
def addedByFrame (cfg : NodeConfig) (t : Transport) (buf raw : List UInt8) :
    Option (UInt8 × UInt8) :=
  match raw with
  | src :: dst :: ttl :: seq :: payload =>
    if dedupSeen t src seq then none
    else if dst = cfg.myNodeId ∨ dst = MESH_ADDR_BROADCAST then
      if payload.length = 0 ∨ payload.length > buf.length then none else some (src, seq)
    else match cfg.myNodeRole with
      | .endpoint => none
      | .relay => if ttl = 0 then none else some (src, seq)
  | _ => none

/-- The key that a call of `mqttsn_transport_send` passes to `dedup_add`. -/
def addedBySend (cfg : NodeConfig) (t : Transport) (m : List UInt8) : Option (UInt8 × UInt8) :=
  let enc := aesEncryptPayload m AES_BUF_SIZE
  if m.length = 0 ∨ enc.length = 0 ∨ (MESH_HEADER_SIZE + enc.length) % 256 > LORA_BUF_SIZE then none
  else some (cfg.myNodeId, t.seqNum + 1)

/-- The key of the frame that an event accepts, delivered or forwarded. -/
def accepts (cfg : NodeConfig) (t : Transport) : NodeEvent → Option (UInt8 × UInt8)
  | .send _ _ => none
  | .turn buf _ p =>
    if p.available then p.recv.bind fun raw ↦ addedByFrame cfg t buf (raw.take LORA_BUF_SIZE)
    else none

/-- The argument of the call of `dedup_add` in an event. -/
def dedupAdds (cfg : NodeConfig) (t : Transport) : NodeEvent → Option (UInt8 × UInt8)
  | .send m _ => addedBySend cfg t m
  | .turn buf nonBlocking p => accepts cfg t (.turn buf nonBlocking p)

/-- The frame that a turn forwards. -/
def forwards (cfg : NodeConfig) (t : Transport) : NodeEvent → Option AirFrame
  | .send _ _ => none
  | .turn buf nonBlocking p => (receiveTurn cfg t buf nonBlocking p).sent

/-- The cache after an event that adds the key: a relay that forwards clears the keys of the gateway
first. -/
def Adds (cfg : NodeConfig) (t t' : Transport) (k : UInt8 × UInt8) : Prop :=
  t'.dedup = t.dedup.add k ∨ cfg.myNodeRole = .relay ∧ t'.dedup = (clearGateway t).dedup.add k

section Steps

variable {cfg : NodeConfig} {t : Transport} {k : UInt8 × UInt8}

/-- **What a frame does to the cache**: it is accepted, new, and its key added, or it changes
nothing. -/
theorem dedup_receiveFrame (cfg : NodeConfig) (t : Transport) (buf raw : List UInt8) (rssi : Int16)
    (fwdOk : Bool) :
    (addedByFrame cfg t buf raw = none ∧
      (receiveFrame cfg t buf raw rssi fwdOk).transport.dedup = t.dedup) ∨
    ∃ k, addedByFrame cfg t buf raw = some k ∧ k ∉ t.dedup ∧
      Adds cfg t (receiveFrame cfg t buf raw rssi fwdOk).transport k := by
  match raw with
  | [] | [_] | [_, _] | [_, _, _] => exact Or.inl ⟨rfl, rfl⟩
  | src :: dst :: ttl :: seq :: payload =>
    rw [addedByFrame, receiveFrame]
    rw [show dedupSeen { t with lastRssi := rssi } src seq = dedupSeen t src seq from rfl]
    cases hseen : dedupSeen t src seq with
    | true => exact Or.inl ⟨rfl, rfl⟩
    | false =>
      have hnew : (src, seq) ∉ t.dedup := dedupSeen_eq_false_iff.mp hseen
      rw [if_neg Bool.false_ne_true, if_neg Bool.false_ne_true]
      split
      · -- for this node: a payload that fits is accepted, also when it does not decrypt
        rw [deliverFrame]
        split
        · exact Or.inl ⟨rfl, rfl⟩
        · refine Or.inr ⟨_, rfl, hnew, Or.inl ?_⟩
          dsimp only
          split <;> rfl
      · rw [forwardFrame]
        cases hrole : cfg.myNodeRole with
        | endpoint => exact Or.inl ⟨rfl, rfl⟩
        | relay =>
          dsimp only
          split
          · exact Or.inl ⟨rfl, rfl⟩
          · exact Or.inr ⟨_, rfl, hnew, Or.inr ⟨hrole, rfl⟩⟩

/-- What a call of `mqttsn_transport_send` does to the cache. -/
theorem dedup_send (cfg : NodeConfig) (t : Transport) (m : List UInt8) (ok : Bool) :
    (addedBySend cfg t m = none ∧ (mqttsnTransportSend cfg t m ok).1.dedup = t.dedup) ∨
    addedBySend cfg t m = some (cfg.myNodeId, t.seqNum + 1) ∧
      (mqttsnTransportSend cfg t m ok).1.dedup = t.dedup.add (cfg.myNodeId, t.seqNum + 1) := by
  rw [addedBySend, mqttsnTransportSend]
  dsimp only
  by_cases h₁ : m.length = 0
  · rw [if_pos h₁, if_pos (Or.inl h₁)]
    exact Or.inl ⟨rfl, rfl⟩
  by_cases h₂ : (aesEncryptPayload m AES_BUF_SIZE).length = 0
  · rw [if_neg h₁, if_pos h₂, if_pos (Or.inr (Or.inl h₂))]
    exact Or.inl ⟨rfl, rfl⟩
  by_cases h₃ : (MESH_HEADER_SIZE + (aesEncryptPayload m AES_BUF_SIZE).length) % 256 > LORA_BUF_SIZE
  · rw [if_neg h₁, if_neg h₂, if_pos h₃, if_pos (Or.inr (Or.inr h₃))]
    exact Or.inl ⟨rfl, rfl⟩
  · rw [if_neg h₁, if_neg h₂, if_neg h₃, if_neg (by tauto)]
    exact Or.inr ⟨rfl, rfl⟩

/-- **What an event does to the cache.** A key of another node is added only when it is new. -/
theorem dedup_nodeStep (cfg : NodeConfig) (t : Transport) (e : NodeEvent) :
    (dedupAdds cfg t e = none ∧ (nodeStep cfg t e).dedup = t.dedup) ∨
    ∃ k, dedupAdds cfg t e = some k ∧ (k.1 ≠ cfg.myNodeId → k ∉ t.dedup) ∧
      Adds cfg t (nodeStep cfg t e) k := by
  cases e with
  | send m ok =>
    rcases dedup_send cfg t m ok with h | ⟨hadd, hdedup⟩
    · exact Or.inl h
    · exact Or.inr ⟨_, hadd, fun hother ↦ absurd rfl hother, Or.inl hdedup⟩
  | turn buf nonBlocking p =>
    rw [dedupAdds, accepts, nodeStep, receiveTurn]
    cases p.available with
    | false => exact Or.inl ⟨rfl, rfl⟩
    | true =>
      cases p.recv with
      | none => exact Or.inl ⟨rfl, rfl⟩
      | some raw =>
        rcases dedup_receiveFrame cfg t buf (raw.take LORA_BUF_SIZE) p.rssi p.fwdOk with
            h | ⟨k, hadd, hnew, hdedup⟩
        · exact Or.inl h
        · exact Or.inr ⟨k, hadd, fun _ ↦ hnew, hdedup⟩

end Steps

/-! ## The window -/

/-- The keys that the cache treats as the window law asks: not the node's own and, on a relay, not
the gateway's. -/
structure Filtered (cfg : NodeConfig) (k : UInt8 × UInt8) : Prop where
  other : k.1 ≠ cfg.myNodeId
  gateway : cfg.myNodeRole = .relay → k.1 ≠ MESH_ADDR_GATEWAY

/-- The node is a duplicate filter for such a key. -/
theorem filters_dedup {cfg : NodeConfig} {k : UInt8 × UInt8} (hk : Filtered cfg k) :
    Filters (nodeStep cfg) Transport.dedup (dedupAdds cfg) k where
  fresh t e hadd := by
    rcases dedup_nodeStep cfg t e with ⟨hnone, -⟩ | ⟨k', hsome, hnew, -⟩
    · rw [hnone] at hadd
      contradiction
    · rw [hsome, Option.some_inj] at hadd
      subst hadd
      exact hnew hk.other
  young t e hadd := by
    rcases dedup_nodeStep cfg t e with ⟨hnone, -⟩ | ⟨k', hsome, -, hdedup⟩
    · rw [hnone] at hadd
      contradiction
    · rw [hsome, Option.some_inj] at hadd
      subst hadd
      rcases hdedup with hdedup | ⟨-, hdedup⟩
      · rw [hdedup]
        exact RingCache.within_add_self _ _
      · rw [hdedup]
        exact RingCache.within_add_self _ _
  shift t e k' j hadd hj hwithin := by
    rcases dedup_nodeStep cfg t e with ⟨hnone, -⟩ | ⟨k'', hsome, -, hdedup⟩
    · rw [hnone] at hadd
      contradiction
    rcases hdedup with hdedup | ⟨hrole, hdedup⟩
    · rw [hdedup]
      exact hwithin.add hj
    · -- the relay forwards, and the keys of the gateway go
      rw [hdedup]
      refine RingCache.Within.add (hwithin.invalidate ?_) hj
      exact beq_false_of_ne (hk.gateway hrole)
  still t e j hnone hwithin := by
    rcases dedup_nodeStep cfg t e with ⟨-, hdedup⟩ | ⟨k', hsome, -⟩
    · rw [hdedup]
      exact hwithin
    · rw [hsome] at hnone
      contradiction

theorem dedupAdds_of_accepts {cfg : NodeConfig} {t : Transport} {e : NodeEvent} {k : UInt8 × UInt8}
    (h : accepts cfg t e = some k) : dedupAdds cfg t e = some k := by
  cases e with
  | send m ok => contradiction
  | turn buf nonBlocking p => exact h

theorem addedByFrame_for_other {cfg : NodeConfig} {t : Transport} {buf payload : List UInt8}
    {src dst ttl seq : UInt8} (hseen : dedupSeen t src seq = false)
    (hdst : ¬(dst = cfg.myNodeId ∨ dst = MESH_ADDR_BROADCAST)) (hrole : cfg.myNodeRole = .relay)
    (httl : ttl ≠ 0) :
    addedByFrame cfg t buf ([src, dst, ttl, seq] ++ payload) = some (src, seq) := by
  change (if dedupSeen t src seq = true then none else _) = _
  rw [hseen, if_neg Bool.false_ne_true, if_neg hdst, hrole]
  exact if_neg httl

theorem accepts_of_forwards {cfg : NodeConfig} {t : Transport} {e : NodeEvent} {a : AirFrame}
    (h : forwards cfg t e = some a) : accepts cfg t e = some (a.srcId, a.seqNum) := by
  cases e with
  | send m ok => contradiction
  | turn buf nonBlocking p =>
    obtain ⟨raw, hp, hreply⟩ := reply_of_sent_receiveTurn (fun _ : Unit ↦ cfg) (r := ()) h
    obtain ⟨hfwd, -, rfl⟩ := (reply_iff _ _ _ _ _).mp (hreply 0 0)
    have httl : raw.getD 2 0 ≠ 0 := fun h ↦ hfwd.hops (congrArg UInt8.toNat h)
    rw [accepts, hp.1, hp.2, if_pos rfl, Option.bind_some, take_eq_header hfwd.whole]
    exact addedByFrame_for_other hfwd.unseen hfwd.other hfwd.relay httl

/-- **The duplicate window of a node.** From its initialisation on, between two acceptances of
frames with the key of another node, on a relay of another source than the gateway, there are at
least eight calls of `dedup_add` with other keys. In particular a relay does not forward the frame
twice before that. -/
theorem window_of_node (cfg : NodeConfig) (t₀ : Transport) {k : UInt8 × UInt8}
    (hother : k.1 ≠ cfg.myNodeId) (hgateway : cfg.myNodeRole = .relay → k.1 ≠ MESH_ADDR_GATEWAY)
    (pre mid : List NodeEvent) (e e' : NodeEvent) :
    let after := run (nodeStep cfg) (mqttsnTransportInit t₀)
    let between := others (nodeStep cfg) (dedupAdds cfg) k (after (pre ++ [e])) mid
    (accepts cfg (after pre) e = some k → accepts cfg (after (pre ++ e :: mid)) e' = some k →
      MESH_DEDUP_CACHE_SIZE ≤ between) ∧
    (∀ a a', forwards cfg (after pre) e = some a →
      forwards cfg (after (pre ++ e :: mid)) e' = some a' →
      (a.srcId, a.seqNum) = k → (a'.srcId, a'.seqNum) = k → MESH_DEDUP_CACHE_SIZE ≤ between) := by
  intro after between
  have haccepted : accepts cfg (after pre) e = some k →
      accepts cfg (after (pre ++ e :: mid)) e' = some k → MESH_DEDUP_CACHE_SIZE ≤ between :=
    fun h h' ↦ (filters_dedup ⟨hother, hgateway⟩).le_others (dedupAdds_of_accepts h)
      (dedupAdds_of_accepts h')
  refine ⟨haccepted, ?_⟩
  rintro a a' h h' rfl heq
  exact haccepted (accepts_of_forwards h) ((accepts_of_forwards h').trans (congrArg some heq))

/-- A turn in which the driver delivers a frame without payload for the gateway. -/
def uplinkTurn (seq : UInt8) : NodeEvent :=
  .turn [] true ⟨true, some [0x24, MESH_ADDR_GATEWAY, 3, seq], 0, true, 0⟩

/-- The relay takes frame 0 again after eight other frames. -/
theorem window_of_node_relay :
    let after := run (nodeStep arduino03) (mqttsnTransportInit Transport.boot)
    let mid := [1, 2, 3, 4, 5, 6, 7, 8].map uplinkTurn
    accepts arduino03 (after []) (uplinkTurn 0) = some (0x24, 0) ∧
      accepts arduino03 (after (uplinkTurn 0 :: mid)) (uplinkTurn 0) = some (0x24, 0) ∧
      MESH_DEDUP_CACHE_SIZE ≤
        others (nodeStep arduino03) (dedupAdds arduino03) (0x24, 0) (after [uplinkTurn 0]) mid := by
  have h : accepts arduino03 (run (nodeStep arduino03) (mqttsnTransportInit Transport.boot) [])
      (uplinkTurn 0) = some (0x24, 0) := by decide +kernel
  have h' : accepts arduino03 (run (nodeStep arduino03) (mqttsnTransportInit Transport.boot)
      ([] ++ uplinkTurn 0 :: [1, 2, 3, 4, 5, 6, 7, 8].map uplinkTurn)) (uplinkTurn 0)
        = some (0x24, 0) := by decide +kernel
  exact ⟨h, h', (window_of_node arduino03 Transport.boot (k := (0x24, 0)) (by decide)
    (fun _ ↦ by decide) [] ([1, 2, 3, 4, 5, 6, 7, 8].map uplinkTurn) (uplinkTurn 0)
    (uplinkTurn 0)).1 h h'⟩

end Emcs.Mesh
