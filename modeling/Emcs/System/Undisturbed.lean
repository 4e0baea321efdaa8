import Emcs.Delivery.Downlink
import Emcs.Delivery.Uplink
import Emcs.System.Passage

/-!
# Where nothing is lost

That a datagram may be lost on every part of its way does not mean that it is. For one node in reach
of the bridge the air can be left out: a datagram of the sketch goes through the transport, the
radio and the bridge to the gateway, and one of the gateway comes back, and what the programs are
left with does not depend on the bytes that were on the air.

## The construction

`Programs` is the field without the air. Its `up` and `down` take a datagram all the way, and ask
for what it needs to get there: that it was sent, that it is short enough, and that its number is
fresh. `Move.steps` are the steps of the field in between, with the frames on the air.

## What it is for

Every run of the programs is a run of the field (`follows_run`), one in which no slot changes hands.
The cipher does not have to be computed for it.
-/

namespace Emcs.System

open Mqttsn Arduino Paho
open Aes BlockMode Delivery
open Bridge (MAX_CLIENTS Os RxPacket Staged leases)
open Mesh (Transport MESH_ADDR_GATEWAY MESH_TTL_DEFAULT)

variable {B : Type}

/-! ## The programs -/

/-- The programs of a field with one node, and how many datagrams were composed. -/
structure Programs (B : Type) where
  node : Node
  transport : Transport
  bridge : Bridge.Gateway
  composed : ℕ
  handed : List (Fin MAX_CLIENTS × List UInt8)
  gateway : Gateway (Address B)

inductive Move (B : Type) where
  | iterate (inputs : Inputs)
  /-- A datagram of the sketch goes to the gateway. -/
  | up (datagram : List UInt8) (os : Os)
  /-- A datagram of the gateway comes to the sketch, through this slot. -/
  | down (i : Fin MAX_CLIENTS) (datagram : List UInt8) (now : UInt32)
  | gateway (e : GatewayStep (Address B))

/-- What the bridge knows of a datagram that comes without a relay. Its ciphertext is not looked at
any more. -/
def uplinked (id seq : UInt8) (datagram : List UInt8) : RxPacket :=
  ⟨⟨id, MESH_ADDR_GATEWAY, MESH_TTL_DEFAULT, seq, [], Nat.zero_le _⟩, 0,
    MESH_TTL_DEFAULT - MESH_TTL_DEFAULT, datagram⟩

/-- One socket has a datagram. -/
def only (i : Fin MAX_CLIENTS) (datagram : List UInt8) (j : Fin MAX_CLIENTS) :
    Option (List UInt8) :=
  if j = i then some datagram else none

def Field.programs (s : Field Unit B) : Programs B :=
  ⟨s.node (), s.net.transport (), s.net.gateway, s.net.composed.length, s.handed, s.gateway⟩

/-- The slots are leased to the node, as far as they are its own. -/
def keeps (F : FieldSetup Unit) (owner : Fin MAX_CLIENTS ≃. Unit) (bridge : Bridge.Gateway) :
    Bool :=
  decide (∀ i, (leases bridge.clients i).all fun lease ↦
    (owner i).any fun x ↦ (F.cfg x).myNodeId == lease.1)

namespace Programs

variable (F : FieldSetup Unit) (owner : Fin MAX_CLIENTS ≃. Unit)

def boot : Programs B := ⟨.boot, .boot, .boot, 0, [], .start⟩

/-- The node has taken a datagram from the air. -/
def receive (l : Programs B) (seq : UInt8) (datagram : List UInt8) (now : UInt32) : Programs B :=
  { l with
    node := l.node.step (F.clientId ())
      (l.node.handle ⟨datagram, UInt8.ofNat datagram.length, now⟩)
    transport := Mesh.dedupAdd { l.transport with
      lastRssi := -60, lastHopCount := MESH_TTL_DEFAULT - MESH_TTL_DEFAULT } MESH_ADDR_GATEWAY seq
    composed := l.composed + 1 }

/-- What the gateway receives from the port of a slot, the bridge has sent from there. -/
def admits (l : Programs B) : GatewayStep (Address B) → Bool
  | .clientRecv (.inl i) datagram _ => l.handed.contains (i, datagram)
  | _ => true

variable [DecidableEq B]

/-- A move, if all that it needs is there. -/
def step (l : Programs B) : Move B → Option (Programs B)
  | .iterate inputs => some { l with node := l.node.step (F.clientId ()) (.iterate inputs) }
  | .up datagram os =>
    let id := (F.cfg ()).myNodeId
    let seq := l.transport.seqNum + 1
    let r := Bridge.rxHandle l.bridge (uplinked id seq datagram) os
    if datagram ∈ l.node.sent ∧ 0 < datagram.length ∧ datagram.length ≤ 47 ∧ keeps F owner r.1 then
      some { l with
        transport := Mesh.dedupAdd { l.transport with seqNum := seq } id seq
        bridge := r.1
        composed := l.composed + 1
        handed := l.handed ++ r.2.toList.map fun d ↦ (d.client, d.data) }
    else none
  | .down i datagram now =>
    let seq := l.bridge.clients[i].dnSeq
    let r := Bridge.collect l.bridge.clients (only i datagram)
    if (l.gateway.unicast.any fun x ↦ decide (x.1 = .inl i) && emits x.2 datagram) ∧
        r.2 = [⟨(F.cfg ()).myNodeId, seq, datagram⟩] ∧ 0 < datagram.length ∧
        datagram.length ≤ 15 ∧ Mesh.dedupSeen l.transport MESH_ADDR_GATEWAY seq = false then
      some ({ l with bridge := { l.bridge with clients := r.1 } }.receive F seq datagram now)
    else none
  | .gateway e =>
    if l.admits e then
      some { l with gateway := l.gateway.step ⟨F.maxClients, F.maxInflightMsgs, .none⟩ e }
    else none

/-- The state after some moves, if none is impossible. -/
def run (l : Programs B) : List (Move B) → Option (Programs B)
  | [] => some l
  | m :: ms => (l.step F owner m).bind fun l' ↦ l'.run ms

end Programs

/-! ## The way up -/

section Up

variable {F : FieldSetup Unit} {s : Field Unit B} {datagram : List UInt8}

/-- The frame of the node, and the number under which it is known. -/
def upCopy (F : FieldSetup Unit) (l : Programs B) (datagram : List UInt8) : Network.Copy :=
  ⟨l.composed,
    uplinkFrame (F.cfg ()).myNodeId MESH_TTL_DEFAULT (l.transport.seqNum + 1) datagram⟩

/-- **The frame is on the air** when the transport has returned. -/
theorem stepSend_eq (hpos : 0 < datagram.length) (hle : datagram.length ≤ 47) :
    Network.stepSend F.cfg s.net () datagram true = { s.net with
      transport := Function.update s.net.transport () (Mesh.dedupAdd
        { s.net.transport () with seqNum := (s.net.transport ()).seqNum + 1 }
        (F.cfg ()).myNodeId ((s.net.transport ()).seqNum + 1))
      composed := s.net.composed ++ [⟨(F.cfg ()).myNodeId, (s.net.transport ()).seqNum + 1,
        Mesh.aesEncryptPayload datagram Mesh.AES_BUF_SIZE⟩]
      air := s.net.air ++ [upCopy F s.programs datagram] } := by
  rw [Network.stepSend, mqttsnTransportSend_eq _ _ _ hpos hle]
  dsimp only
  rw [Mesh.dedupAdd_seqNum, if_neg (Mesh.add_one_ne_self _)]
  rfl

/-- **The bridge handles it** as a packet with the datagram. -/
theorem onRxDone_upCopy (evp : Bridge.Evp) (bridge : Bridge.Gateway) (l : Programs B) (os : Os)
    (hrange : (F.cfg ()).myNodeId ∉ Bridge.OUT_OF_RANGE) (hpos : 0 < datagram.length)
    (hle : datagram.length ≤ 47) :
    ∃ (h : Bridge.RH_HDR + (upCopy F l datagram).raw.length ≤ Bridge.GW_PAYLOAD_MAX) (p : RxPacket),
      Bridge.rxDecode evp (Network.radioBuf (0, (F.cfg ()).myNodeId, 0, 0)
        (upCopy F l datagram).raw h) = some p ∧
      Bridge.rxHandle bridge p os
        = Bridge.rxHandle bridge
          (uplinked (F.cfg ()).myNodeId (l.transport.seqNum + 1) datagram) os := by
  have hfits : ([0, (F.cfg ()).myNodeId, 0, 0] ++ (upCopy F l datagram).raw).length
      ≤ Bridge.GW_PAYLOAD_MAX := length_radioBuf_le hle
  obtain ⟨hpay, hdecode⟩ := rxDecode_uplinkFrame evp 0 (F.cfg ()).myNodeId 0 0 (F.cfg ()).myNodeId
    MESH_TTL_DEFAULT (l.transport.seqNum + 1) hpos hle fun h ↦ hrange h.1
  refine ⟨?_, _, hdecode, rfl⟩
  rw [List.length_append] at hfits
  exact hfits

variable [DecidableEq B]

/-- **A datagram that is sent comes to the gateway.** -/
theorem Field.up (os : Os) (hrange : (F.cfg ()).myNodeId ∉ Bridge.OUT_OF_RANGE)
    (hsent : datagram ∈ (s.node ()).sent) (hpos : 0 < datagram.length)
    (hle : datagram.length ≤ 47) :
    let l := s.programs
    let id := (F.cfg ()).myNodeId
    let r := Bridge.rxHandle l.bridge (uplinked id (l.transport.seqNum + 1) datagram) os
    let s' := (s.step F (.send () datagram true)).step F
      (.uplink (upCopy F l datagram) (0, id, 0, 0) os)
    s'.net.staged = s.net.staged ∧ s'.programs = { l with
      transport := Mesh.dedupAdd { l.transport with seqNum := l.transport.seqNum + 1 } id
        (l.transport.seqNum + 1)
      bridge := r.1
      composed := l.composed + 1
      handed := l.handed ++ r.2.toList.map fun d ↦ (d.client, d.data) } := by
  intro l id r
  obtain ⟨hfits, p, hdecode, hhandle⟩ :=
    onRxDone_upCopy F.evp s.net.gateway l os hrange hpos hle
  have hsend : s.step F (.send () datagram true)
      = { s with net := Network.stepSend F.cfg s.net () datagram true } := by
    rw [Field.step, if_pos (List.contains_iff_mem.mpr hsent)]
    rfl
  rw [hsend, stepSend_eq hpos hle]
  have hmem : upCopy F l datagram ∈ s.net.air ++ [upCopy F s.programs datagram] :=
    List.mem_append_right _ (List.mem_singleton_self _)
  have hrx : Bridge.onRxDone F.evp s.net.gateway
      (Network.radioBuf (0, id, 0, 0) (upCopy F l datagram).raw hfits) os = r :=
    (Bridge.onRxDone_of_decode hdecode _ os).trans hhandle
  rw [Field.step, Field.mesh, Network.step, if_pos hmem, Network.stepUplink, dif_pos hfits, hdecode,
    Network.sendto, if_pos hmem, dif_pos hfits]
  dsimp only
  rw [hrx]
  refine ⟨rfl, ?_⟩
  rw [Field.programs]
  dsimp only
  rw [Function.update_self, List.length_append]
  rfl

end Up

/-! ## The way down -/

section Down

variable {F : FieldSetup Unit} {s : Field Unit B} {i : Fin MAX_CLIENTS} {datagram : List UInt8}
  {t : Transport} {buf : List UInt8} {seq : UInt8} {now : UInt32}

/-- The frame of the bridge. -/
def downCopy (F : FieldSetup Unit) (l : Programs B) (i : Fin MAX_CLIENTS) (datagram : List UInt8) :
    Network.Copy :=
  ⟨l.composed, [MESH_ADDR_GATEWAY, (F.cfg ()).myNodeId, MESH_TTL_DEFAULT,
    l.bridge.clients[i].dnSeq] ++ sealed datagram⟩

/-- **The node returns it** from its transport. -/
theorem receiveFrame_sealed (cfg : Mesh.NodeConfig) (rssi : Int16) (fwdOk : Bool)
    (hpos : 0 < datagram.length) (hfit : (sealed datagram).length ≤ buf.length)
    (hseen : Mesh.dedupSeen t MESH_ADDR_GATEWAY seq = false) :
    let r := Mesh.receiveFrame cfg t buf
      ([MESH_ADDR_GATEWAY, cfg.myNodeId, MESH_TTL_DEFAULT, seq] ++ sealed datagram) rssi fwdOk
    r.transport = Mesh.dedupAdd { t with
        lastRssi := rssi, lastHopCount := MESH_TTL_DEFAULT - MESH_TTL_DEFAULT }
        MESH_ADDR_GATEWAY seq ∧
      r.sent = none ∧ r.turn = .ret datagram.length ∧ r.buf.take datagram.length = datagram := by
  intro r
  have hr : r = Mesh.deliverFrame { t with lastRssi := rssi } buf MESH_ADDR_GATEWAY MESH_TTL_DEFAULT
      seq (sealed datagram) := Mesh.receiveFrame_for_me hseen (Or.inl rfl)
  have hguard : ¬((sealed datagram).length = 0 ∨ (sealed datagram).length > buf.length) := by
    have h := length_sealed_pos datagram
    omega
  obtain ⟨hturn, hbuf⟩ := deliverFrame_sealed { t with lastRssi := rssi } buf MESH_ADDR_GATEWAY
    MESH_TTL_DEFAULT seq datagram hpos hfit
  rw [← hr] at hturn hbuf
  refine ⟨?_, ?_, hturn, hbuf⟩
  · rw [hr, Mesh.deliverFrame, if_neg hguard]
    dsimp only
    split
    · rfl
    · rfl
  · rw [hr, Mesh.deliverFrame, if_neg hguard]
    dsimp only
    split
    · rfl
    · rfl

variable [DecidableEq B]

/-- The datagram is staged, and nothing else. -/
theorem Field.step_stage {d : Staged} (hstaged : s.net.staged = [])
    (hposted : (s.gateway.unicast.any fun x ↦ decide (x.1 = .inl i) && emits x.2 datagram) = true)
    (hcollect : (Bridge.collect s.net.gateway.clients (only i datagram)).2 = [d]) :
    s.step F (.stage (only i datagram)) = { s with
      net := { s.net with
        gateway := { s.net.gateway with
          clients := (Bridge.collect s.net.gateway.clients (only i datagram)).1 }
        staged := [(s.net.composed.length, d)]
        composed := s.net.composed ++ Network.stagedDatagrams F.evp [d] } } := by
  have hready : s.posted (only i datagram) = true := by
    rw [Field.posted, decide_eq_true_iff]
    intro j
    rw [only]
    split
    · rename_i hj
      subst hj
      exact hposted
    · rfl
  rw [Field.step, if_pos hready, Field.mesh, Network.step, Network.stepStage,
    if_neg (not_not.mpr hstaged)]
  dsimp only
  rw [hcollect]
  rfl

theorem Field.step_transmit {tag : ℕ} {d : Staged} (hstaged : s.net.staged = [(tag, d)])
    (hle : d.data.length ≤ 239) : s.step F .transmit = { s with
      net := { s.net with
        staged := []
        air := s.net.air ++ [⟨tag, [MESH_ADDR_GATEWAY, d.node, MESH_TTL_DEFAULT, d.seq]
          ++ sealed d.data⟩] } } := by
  rw [Field.step, Field.mesh, Network.step, Network.stepTransmit, hstaged]
  dsimp only
  rw [loraSend_eq F.evp d.node d.seq d.data hle]
  rfl

/-- **The sketch handles it.** -/
theorem Field.step_receive {tag : ℕ} {rssi : Int16} {fwdOk : Bool} (hpos : 0 < datagram.length)
    (hle : datagram.length ≤ 47) (hfit : (sealed datagram).length ≤ buf.length)
    (hair : ⟨tag, [MESH_ADDR_GATEWAY, (F.cfg ()).myNodeId, MESH_TTL_DEFAULT, seq]
      ++ sealed datagram⟩ ∈ s.net.air)
    (hseen : Mesh.dedupSeen (s.net.transport ()) MESH_ADDR_GATEWAY seq = false) :
    let s' := s.step F (.receive () ⟨tag, [MESH_ADDR_GATEWAY, (F.cfg ()).myNodeId, MESH_TTL_DEFAULT,
      seq] ++ sealed datagram⟩ buf rssi fwdOk [] now)
    s'.net.staged = s.net.staged ∧ s'.programs = { s.programs with
      node := (s.node ()).step (F.clientId ())
        ((s.node ()).handle ⟨datagram, UInt8.ofNat datagram.length, now⟩)
      transport := Mesh.dedupAdd { s.net.transport () with
          lastRssi := rssi, lastHopCount := MESH_TTL_DEFAULT - MESH_TTL_DEFAULT }
        MESH_ADDR_GATEWAY seq } := by
  have htake : ([MESH_ADDR_GATEWAY, (F.cfg ()).myNodeId, MESH_TTL_DEFAULT, seq]
      ++ sealed datagram).take Mesh.LORA_BUF_SIZE = [MESH_ADDR_GATEWAY, (F.cfg ()).myNodeId,
        MESH_TTL_DEFAULT, seq] ++ sealed datagram := List.take_of_length_le (length_frame_le hle)
  obtain ⟨htransport, hsent, hturn, hbuf⟩ :=
    receiveFrame_sealed (t := s.net.transport ()) (F.cfg ()) rssi fwdOk hpos hfit hseen
  rw [Field.step, Network.returned, if_pos hair]
  dsimp only
  rw [htake, hturn]
  dsimp only
  rw [hbuf, List.append_nil, Field.mesh, Network.step, if_pos hair, Network.stepDeliver]
  dsimp only
  rw [htake, htransport, hsent]
  refine ⟨rfl, ?_⟩
  rw [Field.programs, Field.act]
  dsimp only
  rw [Function.update_self, Function.update_self]
  rfl

/-- **A datagram of the gateway comes to the sketch.** -/
theorem Field.down (now : UInt32) (hstaged : s.net.staged = [])
    (hposted : (s.gateway.unicast.any fun x ↦ decide (x.1 = .inl i) && emits x.2 datagram) = true)
    (hcollect : (Bridge.collect s.net.gateway.clients (only i datagram)).2
      = [⟨(F.cfg ()).myNodeId, s.net.gateway.clients[i].dnSeq, datagram⟩])
    (hpos : 0 < datagram.length) (hle : datagram.length ≤ 15)
    (hseen : Mesh.dedupSeen (s.net.transport ()) MESH_ADDR_GATEWAY s.net.gateway.clients[i].dnSeq
      = false) :
    let l := s.programs
    let s' := ((s.step F (.stage (only i datagram))).step F .transmit).step F
      (.receive () (downCopy F l i datagram) (List.replicate POLL_BUF_SIZE 0) (-60) true [] now)
    s'.net.staged = [] ∧ s'.programs = Programs.receive F { l with bridge := { l.bridge with
      clients := (Bridge.collect l.bridge.clients (only i datagram)).1 } }
      l.bridge.clients[i].dnSeq datagram now := by
  intro l
  have hfit : (sealed datagram).length ≤ (List.replicate POLL_BUF_SIZE (0 : UInt8)).length := by
    rw [length_sealed, List.length_replicate]
    change _ ≤ 23
    omega
  rw [Field.step_stage hstaged hposted hcollect, Field.step_transmit rfl (by dsimp only; omega)]
  refine And.imp_right (fun hprograms ↦ hprograms.trans ?ends)
    (Field.step_receive hpos (by omega) hfit ?air ?fresh)
  case air => exact List.mem_append_right _ (List.mem_singleton_self _)
  case fresh => exact hseen
  case ends =>
    rw [Programs.receive, Field.programs]
    dsimp only
    rw [List.length_append]
    rfl

end Down

/-! ## Moves of the field -/

section Moves

variable {F : FieldSetup Unit} {owner : Fin MAX_CLIENTS ≃. Unit}

/-- The steps of a move, with the frames that are on the air. -/
def Move.steps (F : FieldSetup Unit) (l : Programs B) : Move B → List (FieldStep Unit B)
  | .iterate inputs => [.iterate () inputs]
  | .up datagram os =>
    [.send () datagram true, .uplink (upCopy F l datagram) (0, (F.cfg ()).myNodeId, 0, 0) os]
  | .down i datagram now =>
    [.stage (only i datagram), .transmit,
      .receive () (downCopy F l i datagram) (List.replicate POLL_BUF_SIZE 0) (-60) true [] now]
  | .gateway e => [.gateway e]

variable {s : Field Unit B} {l l' : Programs B}

theorem admits_programs (e : GatewayStep (Address B)) : s.programs.admits e = s.admits e := by
  cases e with
  | clientRecv sender => cases sender <;> rfl
  | _ => rfl

theorem accords_of_keeps (h : keeps F owner s.net.gateway = true) : s.Accords F owner := by
  intro i lease hlease
  have hi := of_decide_eq_true h i
  rw [Option.mem_def.mp hlease, Option.all_some, Option.any_eq_true] at hi
  obtain ⟨x, hx, hid⟩ := hi
  exact ⟨x, hx, eq_of_beq hid⟩

variable [DecidableEq B]

/-- What the field does in the steps of a move. -/
structure Follows (F : FieldSetup Unit) (owner : Fin MAX_CLIENTS ≃. Unit) (s : Field Unit B)
    (es : List (FieldStep Unit B)) (l : Programs B) : Prop where
  programs : (Trace.run (Field.step F) s es).programs = l
  staged : (Trace.run (Field.step F) s es).net.staged = []
  heard : Trace.Always (Field.step F)
    (fun s e ↦ e.quiet = false → (s.step F e).Accords F owner) s es

namespace Follows

variable {es : List (FieldStep Unit B)}

theorem node (h : Follows F owner s es l) (x : Unit) :
    (Trace.run (Field.step F) s es).node x = l.node :=
  congrArg Programs.node h.programs

theorem gateway (h : Follows F owner s es l) :
    (Trace.run (Field.step F) s es).gateway = l.gateway :=
  congrArg Programs.gateway h.programs

end Follows

/-- **A move is possible in the field**, and leads to the same state. -/
theorem follows_steps (hrange : (F.cfg ()).myNodeId ∉ Bridge.OUT_OF_RANGE)
    (hstaged : s.net.staged = []) {m : Move B} (h : s.programs.step F owner m = some l') :
    Follows F owner s (m.steps F s.programs) l' := by
  cases m with
  | iterate inputs =>
    cases h
    refine ⟨?_, hstaged, always_of_quiet (by simp [Move.steps, FieldStep.quiet])⟩
    rw [Move.steps, Trace.run_cons, Trace.run_nil, Field.step, Field.programs, Field.act]
    dsimp only
    rw [Function.update_self]
    rfl
  | up datagram os =>
    rw [Programs.step] at h
    dsimp only at h
    split at h
    · rename_i hguard
      -- only here can a slot change hands, which the guard excludes
      obtain ⟨hsent, hpos, hle, hkeeps⟩ := hguard
      cases h
      obtain ⟨hkept, hprograms⟩ := Field.up os hrange hsent hpos hle
      refine ⟨hprograms, hkept.trans hstaged, fun hquiet ↦ ?_, fun _ ↦ accords_of_keeps ?_, trivial⟩
      · contradiction
      · exact (congrArg (keeps F owner) (congrArg Programs.bridge hprograms)).trans hkeeps
    · contradiction
  | down i datagram now =>
    rw [Programs.step] at h
    dsimp only at h
    split at h
    · rename_i hguard
      -- the bridge has nothing staged, so the datagram is the next one to be sent
      obtain ⟨hposted, hcollect, hpos, hle, hseen⟩ := hguard
      cases h
      obtain ⟨hkept, hprograms⟩ := Field.down now hstaged hposted hcollect hpos hle hseen
      exact ⟨hprograms, hkept, always_of_quiet (by simp [Move.steps, FieldStep.quiet])⟩
    · contradiction
  | gateway e =>
    rw [Programs.step, admits_programs] at h
    split at h
    · rename_i hadmitted
      cases h
      refine ⟨?_, ?_, always_of_quiet (by simp [Move.steps, FieldStep.quiet])⟩
      · rw [Move.steps, Trace.run_cons, Trace.run_nil, Field.step, if_pos hadmitted]
        rfl
      · rw [Move.steps, Trace.run_cons, Trace.run_nil, Field.step, if_pos hadmitted]
        exact hstaged
    · contradiction

/-- The steps of a run. -/
def Programs.steps (F : FieldSetup Unit) (owner : Fin MAX_CLIENTS ≃. Unit) (l : Programs B) :
    List (Move B) → List (FieldStep Unit B)
  | [] => []
  | m :: ms => m.steps F l ++ (l.step F owner m).elim [] fun l' ↦ l'.steps F owner ms

/-- **Every run of the programs is a run of the field**, in which no slot changes hands. -/
theorem follows_run (hrange : (F.cfg ()).myNodeId ∉ Bridge.OUT_OF_RANGE)
    (hstaged : s.net.staged = []) {ms : List (Move B)} (h : s.programs.run F owner ms = some l') :
    Follows F owner s (s.programs.steps F owner ms) l' := by
  induction ms generalizing s with
  | nil =>
    cases h
    exact ⟨rfl, hstaged, trivial⟩
  | cons m ms ih =>
    obtain ⟨l, hl, hrest⟩ := Option.bind_eq_some_iff.mp h
    have hstep := follows_steps hrange hstaged hl
    rw [← hstep.programs] at hrest
    have hfollows := ih hstep.staged hrest
    rw [Programs.steps, hl, Option.elim_some, ← hstep.programs]
    refine ⟨?_, ?_, Trace.always_append.mpr ⟨hstep.heard, hfollows.heard⟩⟩
    · rw [Trace.run_append]
      exact hfollows.programs
    · rw [Trace.run_append]
      exact hfollows.staged

end Moves

end Emcs.System
