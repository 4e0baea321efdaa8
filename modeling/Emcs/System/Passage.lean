import Emcs.System.Refinement

/-!
# Nothing changes on the way

The invariant of all programs together: what the bridge has handed to the gateway was sent by the
node that has the slot, what is on its way to a node was sent by the gateway to the slot of the
node, and what remains of the state is in order.

## The invariant

`Field.Ok` has a clause for each stretch of the way: on the air and at the bridge the frames are
intact, with the histories of sent and read datagrams taken from the nodes and the gateway; what was
handed over was sent by the owner of the slot; and the site that remains is in order. So a packet
that a node handles was sent by the gateway to its slot, and that is all the abstract machine asks
of it.
-/

namespace Emcs.System

open Mqttsn Arduino Paho
open Bridge (MAX_CLIENTS leases)
open Network (Intact)

variable {ι B : Type}

/-- A client id that no node is taken for, and that is taken for no node. -/
def FieldSetup.Foreign (F : FieldSetup ι) (clientId : List UInt8) : Prop :=
  ∀ x, strncmpEq clientId (F.clientId x) = false ∧ strncmpEq (F.clientId x) clientId = false

/-- Other clients do not give themselves out as a node. -/
def FieldSetup.Fair (F : FieldSetup ι) : FieldStep ι B → Prop
  | .gateway (.clientRecv (.inr _) datagram around) =>
    ∀ clientId ∈ Gateway.connectId datagram around, F.Foreign clientId
  | _ => True

/-- The slots are leased to the nodes that have them. -/
def Field.Accords (F : FieldSetup ι) (owner : Fin MAX_CLIENTS ≃. ι) (s : Field ι B) : Prop :=
  ∀ i, ∀ lease ∈ leases s.net.gateway.clients i, ∃ x ∈ owner i, (F.cfg x).myNodeId = lease.1

variable {F : FieldSetup ι} {owner : Fin MAX_CLIENTS ≃. ι} {s : Field ι B} {x : ι}
  {i : Fin MAX_CLIENTS} {books : Address B → TopicBook} {e : FieldStep ι B}

/-! ## The invariant -/

variable (F owner) in
/-- The gateway has sent the datagram to the slot of the node. -/
def Field.Wrote (s : Field ι B) (n : UInt8) (datagram : List UInt8) : Prop :=
  ∃ i x reply, owner i = some x ∧ (F.cfg x).myNodeId = n ∧ (.inl i, reply) ∈ s.gateway.unicast ∧
    emits reply datagram = true

variable (F owner) in
/-- **All programs in order.** A node without a slot has heard nothing yet. -/
structure Field.Ok (s : Field ι B) (books : Address B → TopicBook) : Prop where
  net : Intact F.cfg (fun x m ↦ m ∈ (s.node x).sent) (s.Wrote F owner) s.net
  accords : s.Accords F owner
  handed : ∀ p ∈ s.handed, ∃ x, owner p.1 = some x ∧ p.2 ∈ (s.node x).sent
  idle : ∀ x, owner.symm x = none →
    (s.node x).Ok (fun _ _ ↦ False) (F.clientId x) ∧ (s.node x).shown = []
  site : (s.site owner).Ok (F.site B owner) books

theorem Field.Ok.boot : (Field.boot : Field ι B).Ok F owner fun _ ↦ Book.empty where
  net := .boot
  accords i lease hlease := by
    rw [show leases (Field.boot : Field ι B).net.gateway.clients i = none from
      Network.leases_boot i] at hlease
    exact absurd hlease (Option.not_mem_none lease)
  handed p hp := absurd hp List.not_mem_nil
  idle x _ := ⟨.boot, rfl⟩
  site := by
    rw [Field.site_boot]
    exact .boot

/-- A datagram of a node fits the encryption buffer of the bridge. -/
theorem length_le_of_sends {known : UInt16 → List UInt8 → Prop} {clientId : List UInt8}
    (hid : clientId.length ≤ 10) {d : List UInt8} (h : Sends known clientId d) :
    d.length ≤ 239 := by
  cases h with
  | connect =>
    rw [connectPacket, List.length_append]
    change 6 + _ ≤ _
    omega
  | request e msgId =>
    have hname : e.topicName.val.length ≤ 23 := e.topicName.property
    rw [request]
    split
    · rw [registerPacket, List.length_append]
      change 6 + _ ≤ _
      omega
    · rw [subscribePacket, List.length_append]
      change 5 + _ ≤ _
      omega
  | publish h =>
    obtain ⟨count, rfl⟩ := h.payload
    have hpayload := length_reading_le hid count
    change _ ≤ 16 at hpayload
    rw [publishPacket, List.length_append]
    change 7 + _ ≤ _
    omega
  | puback topicId msgId => exact Nat.le_of_ble_eq_true rfl
  | pubrec msgId => exact Nat.le_of_ble_eq_true rfl
  | pubcomp msgId => exact Nat.le_of_ble_eq_true rfl
  | pubrel msgId => exact Nat.le_of_ble_eq_true rfl

namespace Field.Ok

theorem node (h : s.Ok F owner books) (x : ι) :
    ∃ known : UInt16 → List UInt8 → Prop, (s.node x).Ok known (F.clientId x) := by
  rcases hx : owner.symm x with - | i
  · exact ⟨_, (h.idle x hx).1⟩
  · have hi : owner i = some x := owner.eq_some_iff.mp hx
    have hlink := h.site.link (FieldSetup.clientId_site (B := B) hi)
    exact ⟨_, Field.node_site (s := s) hi ▸ hlink.node⟩

theorem length_le_of_sent (h : s.Ok F owner books) {d : List UInt8} (hd : d ∈ (s.node x).sent) :
    d.length ≤ 239 := by
  obtain ⟨known, hnode⟩ := h.node x
  exact length_le_of_sends (F.short x) (hnode.station.sent d hd)

/-- **A packet that a node handles was sent to the slot of the node.** -/
theorem packet (h : s.Ok F owner books) {a : NodeStep} (hacts : s.acts F e = some (x, a)) :
    ∀ rx ∈ a.packet, ∃ i reply, owner i = some x ∧ (.inl i, reply) ∈ s.gateway.unicast ∧
      carries rx reply = true := by
  cases e with
  | iterate y inputs =>
    cases Option.some.inj hacts
    exact fun _ hrx ↦ absurd hrx (Option.not_mem_none _)
  | timeout y =>
    cases Option.some.inj hacts
    exact fun _ hrx ↦ absurd hrx (Option.not_mem_none _)
  | receive y c buf rssi fwdOk beyond now =>
    obtain ⟨⟨z, m⟩, hret, hpair⟩ := Option.map_eq_some_iff.mp hacts
    obtain ⟨rfl, rfl⟩ := Prod.mk.inj hpair
    -- the node that returns a message is the one that the event is about
    have hz : z = y := by
      rw [Network.returned] at hret
      split at hret
      · dsimp only at hret
        split at hret
        · exact (congrArg Prod.fst (Option.some.inj hret)).symm
        · contradiction
      · contradiction
    subst hz
    obtain ⟨⟨i, x, reply, hi, hid, hsent, hemits⟩, hlen⟩ := h.net.of_returned F.address hret
    cases F.unique hid
    intro rx hrx
    have hrx' : rx = ⟨m ++ beyond, UInt8.ofNat m.length, now⟩ := by
      rw [Node.handle] at hrx
      split at hrx
      · exact (Option.some.inj hrx).symm
      · exact (Option.some.inj hrx).symm
    -- what stands in the buffer behind the message does not belong to the datagram
    refine ⟨i, reply, hi, hsent, carries_iff.mpr ⟨m, ?_, ?_, ?_⟩⟩
    · rw [emits] at hemits
      split at hemits
      · rename_i d hd
        rw [hd, eq_of_beq hemits]
      · contradiction
    · rw [hrx']
      dsimp only
      rw [UInt8.toNat_ofNat', Nat.mod_eq_of_lt (by omega)]
    · rw [hrx']
      exact List.take_left
  | send => cases hacts
  | uplink => cases hacts
  | stage => cases hacts
  | transmit => cases hacts
  | expire => cases hacts
  | gateway => cases hacts

end Field.Ok

/-! ## What is asked of a run -/

variable [DecidableEq ι] [DecidableEq B]

/-- No node draws all message ids, other clients do not give themselves out as a node, and no slot
changes hands. -/
structure FieldSetup.Permits (F : FieldSetup ι) (owner : Fin MAX_CLIENTS ≃. ι) (s : Field ι B)
    (e : FieldStep ι B) : Prop where
  draws : ∀ x, ((s.step F e).node x).draws < 65534
  fair : F.Fair e
  accords : (s.step F e).Accords F owner

/-- The run is one in which nodes and gateway can know each other. -/
def FieldSetup.Allows (F : FieldSetup ι) (owner : Fin MAX_CLIENTS ≃. ι)
    (es : List (FieldStep ι B)) : Prop :=
  Trace.Always (Field.step F) (F.Permits owner) .boot es

def FieldSetup.run (F : FieldSetup ι) (es : List (FieldStep ι B)) : Field ι B :=
  Trace.run (Field.step F) .boot es

/-! ## Steps -/

/-- What happens on the mesh. -/
def Field.event (s : Field ι B) : FieldStep ι B → Option (Network.Event ι)
  | .send x datagram ok =>
    if (s.node x).sent.contains datagram then some (.send x datagram ok) else none
  | .receive x c buf rssi fwdOk _ _ => some (.deliver x c buf rssi fwdOk)
  | .uplink c rh os => some (.uplink c rh os)
  | .stage ready => if s.posted ready then some (.stage ready) else none
  | .transmit => some .transmit
  | .expire now => some (.expire now)
  | _ => none

theorem Field.net_step (s : Field ι B) (e : FieldStep ι B) :
    (s.step F e).net = (s.event e).elim s.net (Network.step F.cfg F.evp s.net) := by
  cases e with
  | iterate => rfl
  | timeout => rfl
  | send x datagram ok =>
    rw [Field.step, Field.event]
    split
    · rfl
    · rfl
  | receive x c buf rssi fwdOk beyond now =>
    rw [Field.step]
    split
    · rfl
    · rfl
  | uplink => rfl
  | stage ready =>
    rw [Field.step, Field.event]
    split
    · rfl
    · rfl
  | transmit => rfl
  | expire => rfl
  | gateway e =>
    rw [Field.step]
    split
    · rfl
    · rfl

omit [DecidableEq ι] in
/-- A node sends what its sketch has passed on. -/
theorem Field.mem_sent_of_event {datagram : List UInt8} {ok : Bool}
    (h : s.event e = some (.send x datagram ok)) : datagram ∈ (s.node x).sent := by
  cases e with
  | send y d ok' =>
    rw [Field.event] at h
    split at h
    · rename_i hsent
      cases Option.some.inj h
      exact List.contains_iff_mem.mp hsent
    · contradiction
  | stage ready =>
    rw [Field.event] at h
    split at h
    · cases Option.some.inj h
    · contradiction
  | _ => cases h

omit [DecidableEq ι] in
/-- The bridge reads what the gateway has sent. -/
theorem Field.posted_of_event {ready : Fin MAX_CLIENTS → Option (List UInt8)}
    (h : s.event e = some (.stage ready)) : s.posted ready = true := by
  cases e with
  | stage ready' =>
    rw [Field.event] at h
    split at h
    · rename_i hposted
      cases Option.some.inj h
      exact hposted
    · contradiction
  | send y d ok =>
    rw [Field.event] at h
    split at h
    · cases Option.some.inj h
    · contradiction
  | _ => cases h

/-- The datagram that the bridge hands to the gateway. -/
def Field.hands (F : FieldSetup ι) (s : Field ι B) : FieldStep ι B → Option Bridge.Sendto
  | .uplink c rh os => Network.sendto F.evp s.net (.uplink c rh os)
  | _ => none

theorem Field.handed_step (s : Field ι B) (e : FieldStep ι B) :
    (s.step F e).handed = s.handed ++ (s.hands F e).toList.map fun d ↦ (d.client, d.data) := by
  cases e with
  | uplink => rfl
  | send x datagram ok =>
    rw [Field.step]
    split
    · exact (List.append_nil _).symm
    · exact (List.append_nil _).symm
  | receive x c buf rssi fwdOk beyond now =>
    rw [Field.step]
    split
    · exact (List.append_nil _).symm
    · exact (List.append_nil _).symm
  | stage ready =>
    rw [Field.step]
    split
    · exact (List.append_nil _).symm
    · exact (List.append_nil _).symm
  | gateway e =>
    rw [Field.step]
    split
    · exact (List.append_nil _).symm
    · exact (List.append_nil _).symm
  | _ => exact (List.append_nil _).symm

/-- What a node has sent and drawn. -/
theorem Field.notes_step (F : FieldSetup ι) (s : Field ι B) (e : FieldStep ι B) (x : ι) :
    (s.node x).sent <+: ((s.step F e).node x).sent ∧
      (s.node x).draws ≤ ((s.step F e).node x).draws := by
  rw [s.node_step e]
  rcases s.acts F e with - | ⟨y, a⟩
  · exact ⟨List.prefix_refl _, Nat.le_refl _⟩
  · rw [Option.elim_some]
    by_cases hxy : x = y
    · subst hxy
      dsimp only
      rw [Field.node_act_self]
      exact (s.node x).notes_step (F.clientId x) a
    · dsimp only
      rw [Field.node_act_of_ne hxy]
      exact ⟨List.prefix_refl _, Nat.le_refl _⟩

theorem Field.unicast_step (F : FieldSetup ι) (s : Field ι B) (e : FieldStep ι B) :
    s.gateway.unicast <+: (s.step F e).gateway.unicast := by
  by_cases hg : ∃ g, e = .gateway g
  · obtain ⟨g, rfl⟩ := hg
    rw [Field.step]
    split
    · exact unicast_prefix _ s.gateway g
    · exact List.prefix_refl _
  · rw [s.gateway_step_of_ne fun g heq ↦ hg ⟨g, heq⟩]

namespace Field.Ok

/-- **What remains of a step is what it does.** -/
theorem agrees (h : s.Ok F owner books) (e : FieldStep ι B) :
    Trace.Agrees (Field.step F) (Site.step (F.site B owner)) (Field.site owner) (seen F owner)
      s e := by
  rw [Trace.Agrees]
  rcases Field.step_cases F owner s e with
    ⟨g, rfl, hadmits, hseen, hsite⟩ | ⟨x, a, i, hacts, hi, hseen, hsite⟩ | ⟨hseen, hsite⟩
  · rw [hseen, hsite, Option.toList_some, Trace.run_cons, Trace.run_nil, Site.step, if_pos ?_]
    · rfl
    -- what comes from the port of a slot was sent by the node that has it
    rcases g with ⟨sender, datagram, around⟩ | _ | _ | _ | _ | _ | _
    · rcases sender with i | b
      · obtain ⟨x, hi, hsent⟩ := h.handed (i, datagram) (List.contains_iff_mem.mp hadmits)
        rw [Site.sends, FieldSetup.clientId_site hi, Field.node_site hi]
        exact List.contains_iff_mem.mpr hsent
      · rfl
    all_goals rfl
  · rw [hseen, hsite, Option.toList_some, Trace.run_cons, Trace.run_nil, Site.step,
      FieldSetup.clientId_site hi]
    dsimp only
    rw [if_pos ?_]
    · exact Field.site_act hi a
    rw [Option.all_eq_true]
    intro rx hrx
    obtain ⟨j, reply, hj, hsent, hcarries⟩ := h.packet hacts rx hrx
    cases owner.inj hj hi
    rw [Site.delivers, List.any_eq_true]
    exact ⟨_, hsent, by rw [decide_eq_true rfl, hcarries]; rfl⟩
  · rw [hseen, hsite]
    rfl

/-- Other clients stay strangers. -/
theorem fair (h : s.Ok F owner books) (hfair : F.Fair e) :
    ∀ y ∈ s.seen F owner e, (F.site B owner).Fair y := by
  intro y hy
  rcases Field.step_cases F owner s e with
    ⟨g, rfl, hadmits, hseen, -⟩ | ⟨x, a, i, -, -, hseen, -⟩ | ⟨hseen, -⟩
  · rw [hseen] at hy
    cases Option.some.inj hy
    rcases g with ⟨sender, datagram, around⟩ | _ | _ | _ | _ | _ | _
    · intro hnone clientId hclientId addr id hid
      rcases sender with i | b
      · obtain ⟨x, hi, -⟩ := h.handed (i, datagram) (List.contains_iff_mem.mp hadmits)
        rw [FieldSetup.clientId_site hi] at hnone
        exact absurd hnone (Option.some_ne_none _)
      · rcases addr with j | b'
        · obtain ⟨x, -, rfl⟩ := Option.map_eq_some_iff.mp hid
          exact hfair clientId hclientId x
        · exact absurd hid.symm (Option.some_ne_none _)
    all_goals trivial
  · rw [hseen] at hy
    cases Option.some.inj hy
    trivial
  · rw [hseen] at hy
    exact absurd hy (Option.not_mem_none _)

/-- The mesh stays intact. -/
theorem net_step (h : s.Ok F owner books) (e : FieldStep ι B) :
    Intact F.cfg (fun x m ↦ m ∈ ((s.step F e).node x).sent) ((s.step F e).Wrote F owner)
      (s.step F e).net := by
  have hnow : Intact F.cfg (fun x m ↦ m ∈ (s.node x).sent) (s.Wrote F owner)
      (s.step F e).net := by
    rw [s.net_step]
    rcases hevent : s.event e with - | ev
    · exact h.net
    · rw [Option.elim_some]
      refine h.net.step F.address (fun {x m ok} hsend ↦ ?_) fun {ready i n port data} hstage _
        hlease hready ↦ ?_
      · subst hsend
        have hmem := Field.mem_sent_of_event hevent
        exact ⟨hmem, h.length_le_of_sent hmem⟩
      · subst hstage
        obtain ⟨x, hi, hid⟩ := h.accords i (n, port) hlease
        have hdata := of_decide_eq_true (Field.posted_of_event hevent) i
        rw [hready, Option.all_some, List.any_eq_true] at hdata
        obtain ⟨⟨addr, reply⟩, hmem, hboth⟩ := hdata
        rw [Bool.and_eq_true, decide_eq_true_iff] at hboth
        obtain ⟨rfl, hemits⟩ := hboth
        exact ⟨i, x, reply, hi, hid, hmem, hemits⟩
  -- the notes of nodes and gateway only grow
  refine hnow.mono (fun x m hm ↦ (s.notes_step F e x).1.subset hm) ?_
  rintro n data ⟨i, x, reply, hi, hid, hmem, hemits⟩
  exact ⟨i, x, reply, hi, hid, (s.unicast_step F e).subset hmem, hemits⟩

/-- **Every step keeps all programs in order.** -/
theorem step (h : s.Ok F owner books) (hdraws : ∀ x, (s.node x).draws < 65534)
    (hpermits : F.Permits owner s e) : ∃ books', (s.step F e).Ok F owner books' := by
  have hsite : ∃ books', ((s.step F e).site owner).Ok (F.site B owner) books' := by
    rw [show (s.step F e).site owner = _ from h.agrees e]
    rcases hseen : s.seen F owner e with - | y
    · exact ⟨books, h.site⟩
    · have hdraws' : (F.site B owner).Draws (s.site owner) := by
        intro addr id hid
        rcases addr with i | b
        · obtain ⟨x, hi, -⟩ := Option.map_eq_some_iff.mp hid
          rw [Field.node_site hi]
          exact hdraws x
        · exact absurd hid.symm (Option.some_ne_none _)
      obtain ⟨books', -, hok⟩ := h.site.step hdraws' (h.fair hpermits.fair y hseen)
      exact ⟨books', hok⟩
  obtain ⟨books', hsite⟩ := hsite
  -- the two fields left are about what the abstract system does not have
  refine ⟨books', h.net_step e, hpermits.accords, fun p hp ↦ ?_, fun x hx ↦ ?_, hsite⟩
  · rw [s.handed_step e] at hp
    rcases List.mem_append.mp hp with hp | hp
    · obtain ⟨x, hi, hsent⟩ := h.handed p hp
      exact ⟨x, hi, (s.notes_step F e x).1.subset hsent⟩
    · obtain ⟨d, hd, rfl⟩ := List.mem_map.mp hp
      have hhands := Option.mem_toList.mp hd
      cases e with
      | uplink c rh os =>
        have hsendto : Network.sendto F.evp s.net (.uplink c rh os) = some d := hhands
        obtain ⟨x, hsent, hactive, hnode, -⟩ := h.net.of_sendto F.address hsendto
        -- the slot is of the sender after the step, and so of its node
        obtain ⟨y, hy, hid⟩ := hpermits.accords d.client _
          (Bridge.Client.lease_eq_some_iff.mpr ⟨hactive, hnode, rfl⟩)
        cases F.unique hid
        exact ⟨x, hy, hsent⟩
      | _ => cases hhands
  · obtain ⟨hok, hshown⟩ := h.idle x hx
    rw [s.node_step e]
    rcases hacts : s.acts F e with - | ⟨y, a⟩
    · exact ⟨hok, hshown⟩
    rw [Option.elim_some]
    dsimp only
    by_cases hxy : x = y
    · subst hxy
      -- a node without a slot is sent nothing
      have hpacket : ∀ rx, rx ∉ a.packet := by
        intro rx hrx
        obtain ⟨i, -, hi, -⟩ := h.packet hacts rx hrx
        exact absurd ((owner.eq_some_iff.mpr hi).symm.trans hx) (Option.some_ne_none _)
      rw [Field.node_act_self]
      refine ⟨hok.step (F.short x) (hdraws x) a fun rx hrx ↦ absurd hrx (hpacket rx), ?_⟩
      refine List.eq_nil_iff_forall_not_mem.mpr fun msg hmsg ↦ ?_
      rcases hok.shown_step a hmsg with hold | ⟨rx, hrx, -⟩
      · rw [hshown] at hold
        exact absurd hold List.not_mem_nil
      · exact hpacket rx hrx
    · rw [Field.node_act_of_ne hxy]
      exact ⟨hok, hshown⟩

end Field.Ok

/-! ## When a slot can change hands -/

/-- The bridge does not hear anything, and its heartbeat does not run. -/
def FieldStep.quiet : FieldStep ι B → Bool
  | .uplink .. => false
  | .expire _ => false
  | _ => true

/-- **No slot changes hands** unless the bridge hears something or its heartbeat runs. -/
theorem Field.Accords.step (h : s.Accords F owner) (hquiet : e.quiet = true) :
    (s.step F e).Accords F owner := by
  have hleases : leases (s.step F e).net.gateway.clients = leases s.net.gateway.clients := by
    rw [s.net_step]
    cases e with
    | send x datagram ok =>
      rw [Field.event]
      split
      · rw [Option.elim_some, Network.step, Network.stepSend]
        dsimp only
        split
        · rfl
        · rfl
      · rfl
    | receive x c buf rssi fwdOk beyond now =>
      rw [Field.event, Option.elim_some, Network.step]
      split
      · rfl
      · rfl
    | stage ready =>
      rw [Field.event]
      split
      · rw [Option.elim_some, Network.step, Network.stepStage]
        split
        · rfl
        · exact Bridge.Gateway.leases_collect ready
      · rfl
    | transmit =>
      rw [Field.event, Option.elim_some, Network.step, Network.stepTransmit]
      split
      · rfl
      · rfl
    | uplink => exact absurd hquiet Bool.false_ne_true
    | expire => exact absurd hquiet Bool.false_ne_true
    | _ => rfl
  intro i lease hlease
  rw [hleases] at hlease
  exact h i lease hlease

theorem Field.draws_le_run (F : FieldSetup ι) (s : Field ι B) (es : List (FieldStep ι B)) (x : ι) :
    (s.node x).draws ≤ ((Trace.run (Field.step F) s es).node x).draws := by
  induction es generalizing s with
  | nil => exact Nat.le_refl _
  | cons e es ih => exact (s.notes_step F e x).2.trans (ih _)

theorem always_of_quiet {C : Field ι B → FieldStep ι B → Prop} {es : List (FieldStep ι B)}
    (h : ∀ e ∈ es, e.quiet = true) :
    Trace.Always (Field.step F) (fun s e ↦ e.quiet = false → C s e) s es := by
  induction es generalizing s with
  | nil => trivial
  | cons e es ih =>
    refine ⟨fun hloud ↦ ?_, ih fun y hy ↦ h y (List.mem_cons_of_mem _ hy)⟩
    exact absurd (hloud.symm.trans (h e List.mem_cons_self)) Bool.false_ne_true

/-- It is enough to count the message ids at the end, and to look at the slots when they can change
hands. -/
theorem allows_of {es : List (FieldStep ι B)} (haccords : s.Accords F owner)
    (hfair : ∀ e ∈ es, F.Fair e)
    (hdraws : ∀ x, ((Trace.run (Field.step F) s es).node x).draws < 65534)
    (hheard : Trace.Always (Field.step F)
      (fun s e ↦ e.quiet = false → (s.step F e).Accords F owner) s es) :
    Trace.Always (Field.step F) (F.Permits owner) s es := by
  induction es generalizing s with
  | nil => trivial
  | cons e es ih =>
    have hnow : (s.step F e).Accords F owner := by
      cases hquiet : e.quiet with
      | false => exact hheard.1 hquiet
      | true => exact haccords.step hquiet
    have hbound (x : ι) : ((s.step F e).node x).draws < 65534 :=
      (Field.draws_le_run F (s.step F e) es x).trans_lt (hdraws x)
    exact ⟨⟨hbound, hfair e List.mem_cons_self, hnow⟩,
      ih hnow (fun y hy ↦ hfair y (List.mem_cons_of_mem _ hy)) hdraws hheard.2⟩

end Emcs.System
