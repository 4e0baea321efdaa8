import Emcs.System.Invariant

/-!
# An Arduino and its client

For each Arduino the gateway keeps one book, that of its client. What the book knows of an id is
what the Arduino goes by, and it is given one more name at most in a step: only if the counter of
topic ids moves.

## The invariant

`Site.Link` ties one Arduino to its client by one book: the client is in order by it, the Arduino
goes by ids that it knows, and what either of them has sent can be read with it. A step of the
Arduino does not touch the book. A step of the gateway may add a name, and then its counter of topic
ids has moved, so the names in the book are counted by what can be seen of the gateway.
-/

namespace Emcs.System

open Mqttsn Arduino Paho

variable {A : Type*} {S : Setup A} {s : Site A} {addr : A} {id : List UInt8} {b : TopicBook}

/-- **An Arduino and its client agree** on the book: what each of them keeps and sends is known by
it. -/
structure Site.Link (s : Site A) (addr : A) (id : List UInt8) (b : TopicBook) : Prop where
  node : (s.node addr).Ok (Known b) id
  fresh : (∀ x ∈ s.gateway.clients, x.addr ≠ addr) → b = Book.empty
  good : ∀ k x, s.gateway.clients[k]? = some x → x.addr = addr →
    (s.gateway.session k x).Good .none b
  told : ∀ x ∈ s.gateway.clients, x.addr = addr → ∀ packet ∈ x.received,
    Told (Known b) id (s.node addr).station.session.requests packet
  addressed : Addressed s.gateway addr
  shown : ∀ msg ∈ (s.node addr).shown, ∃ x ∈ s.gateway.clients, x.addr = addr ∧
    ∃ pub, .publish pub ∈ x.fromBroker ∧ msg = command pub.payload

/-! ## The Arduino goes on -/

theorem requests_mono {n n' : Node} (h : n.sent <+: n'.sent) :
    n.station.session.requests ⊆ n'.station.session.requests :=
  (h.sublist.filterMap Request.parse).subset

namespace Site.Link

/-- Only the Arduino has gone on, and it is `n` now. -/
theorem of_node (h : s.Link addr id b) {s' : Site A} {n : Node} (hn : s'.node addr = n)
    (hgateway : s'.gateway = s.gateway) (hok : n.Ok (Known b) id)
    (hsent : (s.node addr).sent <+: n.sent)
    (hshown : ∀ msg ∈ n.shown, msg ∈ (s.node addr).shown ∨ ∃ x ∈ s.gateway.clients,
      x.addr = addr ∧ ∃ pub, .publish pub ∈ x.fromBroker ∧ msg = command pub.payload) :
    s'.Link addr id b := by
  subst hn
  refine ⟨hok, ?_, ?_, ?_, ?_, ?_⟩
  · rw [hgateway]
    exact h.fresh
  · rw [hgateway]
    exact h.good
  · rw [hgateway]
    exact fun x hx haddr packet hp ↦
      (h.told x hx haddr packet hp).mono (fun _ _ hknown ↦ hknown) (requests_mono hsent)
  · rw [hgateway]
    exact h.addressed
  · rw [hgateway]
    exact fun msg hmsg ↦ (hshown msg hmsg).elim (h.shown msg) fun hnew ↦ hnew

variable [DecidableEq A]

theorem of_delivers (h : s.Link addr id b) {rx : Rx} (hrx : s.delivers addr rx = true) :
    ∃ x ∈ s.gateway.clients, x.addr = addr ∧ ∃ reply heard, carries rx reply = true ∧
      reply.Fits .none heard b ∧ heard.broker = x.fromBroker ∧
      ∀ packet ∈ heard.client, Told (Known b) id (s.node addr).station.session.requests packet := by
  rw [Site.delivers, List.any_eq_true] at hrx
  obtain ⟨⟨addr', reply⟩, hmem, hboth⟩ := hrx
  rw [Bool.and_eq_true, decide_eq_true_iff] at hboth
  obtain ⟨rfl, hcarries⟩ := hboth
  obtain ⟨x, hx, haddr, hreply⟩ := h.addressed reply hmem
  obtain ⟨k, hk⟩ := List.getElem?_of_mem hx
  have hgood := h.good k x hk haddr
  refine ⟨x, hx, haddr, reply, _, hcarries, hgood.toClient reply (List.mem_append_left _ hreply),
    rfl, fun packet hp ↦ h.told x hx haddr packet ?_⟩
  exact hgood.handled.mem (List.mem_append_left _ hp)

/-- **The sketch goes on.** -/
theorem node_step (h : s.Link addr id b) (hid : id.length ≤ 10)
    (hdraws : (s.node addr).draws < 65534) {e : NodeStep}
    (harrives : e.packet.all (s.delivers addr) = true) :
    Site.Link { s with node := Function.update s.node addr ((s.node addr).step id e) } addr id
      b := by
  have hpacket : ∀ rx ∈ e.packet, s.delivers addr rx = true := (Option.all_eq_true _ _).mp harrives
  obtain ⟨hsent, -⟩ := (s.node addr).notes_step id e
  refine h.of_node (Function.update_self _ _ _) rfl ?_ hsent fun msg hmsg ↦ ?_
  · refine h.node.step hid hdraws e fun rx hrx ↦ ?_
    obtain ⟨x, -, -, reply, heard, hcarries, hfits, -, htold⟩ := h.of_delivers (hpacket rx hrx)
    exact answers_of_carries hcarries hfits htold
  · refine (h.node.shown_step e hmsg).imp_right ?_
    rintro ⟨rx, hrx, c, hnew⟩
    obtain ⟨x, hx, haddr, reply, heard, hcarries, hfits, hheard, -⟩ :=
      h.of_delivers (hpacket rx hrx)
    obtain ⟨pub, hpub, hmsg⟩ := exists_publish_of_shown hnew hcarries hfits
    exact ⟨x, hx, haddr, pub, hheard ▸ hpub, hmsg⟩

theorem other_step (h : s.Link addr id b) {addr' : A} (hne : addr ≠ addr') (n : Node) :
    Site.Link { s with node := Function.update s.node addr' n } addr id b :=
  h.of_node (Function.update_of_ne hne _ _) rfl h.node (List.prefix_refl _) fun _ ↦ Or.inl

/-- A packet from the address of an Arduino tells what the Arduino has sent. -/
theorem told_packetsFrom (h : s.Link addr id b) (hid : id.length ≤ 10) {e : GatewayStep A}
    (hsent : ∀ datagram around, e = .clientRecv addr datagram around →
      datagram ∈ (s.node addr).sent) {packet : SnPacket} (hp : packet ∈ e.packetsFrom addr) :
    Told (Known b) id (s.node addr).station.session.requests packet := by
  cases e with
  | clientRecv sender datagram around =>
    rw [GatewayStep.packetsFrom] at hp
    split at hp
    · rename_i hsender
      subst hsender
      have hmem := hsent datagram around rfl
      have htold := told_of_sends hid (h.node.station.sent datagram hmem)
        (Option.mem_toList.mp hp)
      refine htold.mono (fun _ _ hknown ↦ hknown) fun r hr ↦ ?_
      exact List.mem_filterMap.mpr ⟨datagram, hmem, Option.mem_toList.mp hr⟩
    · exact absurd hp List.not_mem_nil
  | _ => exact absurd hp List.not_mem_nil

end Site.Link

/-! ## The gateway goes on -/

section Addresses

variable {g : Gateway A} {x x' : Entry A}

theorem eq_of_addr (hnodup : (g.clients.map Entry.addr).Nodup) (hx : x ∈ g.clients)
    (hx' : x' ∈ g.clients) (haddr : x.addr = x'.addr) : x = x' :=
  List.inj_on_of_nodup_map hnodup hx hx' haddr

theorem place_of_addr (hnodup : (g.clients.map Entry.addr).Nodup) {k k' : ℕ}
    (hx : g.clients[k]? = some x) (hx' : g.clients[k']? = some x') (haddr : x.addr = x'.addr) :
    k = k' := by
  have hlt : k < (g.clients.map Entry.addr).length := by
    rw [List.length_map]
    exact (List.getElem?_eq_some_iff.mp hx).1
  refine (List.getElem?_inj hlt hnodup).mp ?_
  rw [List.getElem?_map, List.getElem?_map, hx, hx', Option.map_some, Option.map_some, haddr]

variable [DecidableEq A]

theorem nextTopicId_eq (hnodup : (s.gateway.clients.map Entry.addr).Nodup)
    (hx : x ∈ s.gateway.clients) (haddr : x.addr = addr) :
    s.nextTopicId addr = x.client.topics.nextTopicId := by
  have hsome : (s.gateway.clients.find? fun e ↦ e.addr = addr).isSome := by
    rw [List.find?_isSome]
    exact ⟨x, hx, decide_eq_true haddr⟩
  obtain ⟨y, hy⟩ := Option.isSome_iff_exists.mp hsome
  have hyaddr := (List.find?_eq_some_iff_append.mp hy).1
  have hsame : y = x := eq_of_addr hnodup (List.mem_of_find?_eq_some hy) hx
    ((of_decide_eq_true hyaddr).trans haddr.symm)
  rw [Site.nextTopicId, hy, hsame]
  rfl

theorem nextTopicId_none (h : ∀ x ∈ s.gateway.clients, x.addr ≠ addr) : s.nextTopicId addr = 0 := by
  have hnone : (s.gateway.clients.find? fun e ↦ e.addr = addr) = none := by
    rw [List.find?_eq_none]
    exact fun x hx haddr ↦ h x hx (of_decide_eq_true haddr)
  rw [Site.nextTopicId, hnone]
  rfl

end Addresses

namespace Site.Link

variable [DecidableEq A]

/-- The book knows all that it knew, and one more name at most if the counter has moved. -/
structure Follows (s s' : Site A) (addr : A) (b b' : TopicBook) : Prop where
  names : b.names <+: b'.names
  length : b'.names.length ≤
    b.names.length + if s'.nextTopicId addr = s.nextTopicId addr then 0 else 1

theorem Follows.refl {s s' : Site A} : Follows s s' addr b b :=
  ⟨List.prefix_refl _, Nat.le_add_right _ _⟩

/-- What is kept of the client of the Arduino after the gateway has served it. -/
theorem of_serves (h : s.Link addr id b) {s' : Site A} (hnode : s'.node addr = s.node addr)
    (hnodup : (s'.gateway.clients.map Entry.addr).Nodup) {packets : List SnPacket}
    (hpackets : ∀ packet ∈ packets,
      Told (Known b) id (s.node addr).station.session.requests packet)
    (haddressed : ∀ reply, (addr, reply) ∈ s'.gateway.unicast →
      (addr, reply) ∈ s.gateway.unicast ∨
        ∃ x ∈ s'.gateway.clients, x.addr = addr ∧ reply ∈ x.toClient)
    {k : ℕ} {x' : Entry A} (hx' : s'.gateway.clients[k]? = some x') (haddr' : x'.addr = addr)
    {s₀ : Paho.Session} (hgood : s₀.Good .none b)
    (hserves : s₀.Serves .none packets (s'.gateway.session k x'))
    (hold : ∀ x ∈ s.gateway.clients, x.addr = addr →
      x.fromBroker = s₀.fromBroker ∧ x.toClient = s₀.toClient)
    (htold : ∀ packet ∈ s₀.received,
      Told (Known b) id (s.node addr).station.session.requests packet)
    (hnext : s₀.nextTopicId = s.nextTopicId addr) :
    ∃ b', Follows s s' addr b b' ∧ s'.Link addr id b' := by
  obtain ⟨b', hstep, hgood'⟩ := hgood.serves hserves
  have hgrows := Paho.Session.Grows.of_serves hserves
  have hmem' : x' ∈ s'.gateway.clients := List.mem_of_getElem? hx'
  have hknown := Known.mono hstep.names_prefix
  have hlength := hgood.length_names_le hgood' hstep
  have hcounter : (s'.gateway.session k x').nextTopicId = s'.nextTopicId addr :=
    (nextTopicId_eq hnodup hmem' haddr').symm
  rw [hcounter, hnext] at hlength
  refine ⟨b', ⟨hstep.names_prefix, hlength⟩, ?_, fun hnone ↦ absurd haddr' (hnone x' hmem'),
    fun j y hy hyaddr ↦ ?_, fun y hy hyaddr packet hp ↦ ?_, fun reply hreply ↦ ?_,
    fun msg hmsg ↦ ?_⟩
  · rw [hnode]
    exact h.node.mono hknown
  · have hjk := place_of_addr hnodup hy hx' (hyaddr.trans haddr'.symm)
    subst hjk
    cases Option.some.inj (hy.symm.trans hx')
    exact hgood'
  · cases eq_of_addr hnodup hy hmem' (hyaddr.trans haddr'.symm)
    rw [hnode]
    rcases hgrows.received packet hp with hp | hp
    · exact (htold packet hp).mono hknown fun _ ↦ fun hr ↦ hr
    · exact (hpackets packet hp).mono hknown fun _ ↦ fun hr ↦ hr
  · rcases haddressed reply hreply with hbefore | hnow
    · obtain ⟨x, hx, haddr, hr⟩ := h.addressed reply hbefore
      exact ⟨x', hmem', haddr', hgrows.toClient ((hold x hx haddr).2 ▸ hr)⟩
    · exact hnow
  · rw [hnode] at hmsg
    obtain ⟨x, hx, haddr, pub, hpub, heq⟩ := h.shown msg hmsg
    exact ⟨x', hmem', haddr', pub, hgrows.fromBroker ((hold x hx haddr).1 ▸ hpub), heq⟩

/-- **The gateway goes on**, and knows one more name at most, and only if its counter moves. -/
theorem gateway_step (h : s.Link addr id b) (hid : S.clientId addr = some id)
    (hordered : s.gateway.Ordered S.params) (hknows : ∀ key ∈ s.gateway.keys, S.Knows key)
    {e : GatewayStep A} (hknows' : ∀ key ∈ (s.gateway.step S.params e).keys, S.Knows key)
    (hsent : ∀ datagram around, e = .clientRecv addr datagram around →
      datagram ∈ (s.node addr).sent) :
    ∃ b', Follows s { s with gateway := s.gateway.step S.params e } addr b b' ∧
      Site.Link { s with gateway := s.gateway.step S.params e } addr id b' := by
  have hordered' : (s.gateway.step S.params e).Ordered S.params := hordered.step e
  have hpackets {packet : SnPacket} (hp : packet ∈ e.packetsFrom addr) :=
    h.told_packetsFrom (S.short hid) hsent hp
  have hstays {k : ℕ} {x : Entry A} (hx : s.gateway.clients[k]? = some x) (haddr : x.addr = addr) :=
    client_stays (e := e) hknows hknows' hid hx haddr
  have hnode : ({ s with gateway := s.gateway.step S.params e } : Site A).node addr = s.node addr :=
    rfl
  by_cases hex : ∃ x' ∈ (s.gateway.step S.params e).clients, x'.addr = addr
  · obtain ⟨x', hmem', haddr'⟩ := hex
    obtain ⟨k, hx'⟩ := List.getElem?_of_mem hmem'
    -- the client was there already, or it is new
    rcases client_was hordered hknows hknows' hid hx' haddr' with
      ⟨x, hx, haddr, hserves⟩ | ⟨hnone, id', hserves⟩
    · refine h.of_serves hnode
        hordered'.addresses (fun _ ↦ hpackets) (fun _ ↦ unicast_step S.params s.gateway e) hx'
        haddr'
        (h.good k x hx haddr) hserves (fun y hy hyaddr ↦ ?_)
        (h.told x (List.mem_of_getElem? hx) haddr) ?_
      · cases eq_of_addr hordered.addresses hy (List.mem_of_getElem? hx) (hyaddr.trans haddr.symm)
        exact ⟨rfl, rfl⟩
      · exact (nextTopicId_eq hordered.addresses (List.mem_of_getElem? hx) haddr).symm
    · have hnew : ∀ x ∈ s.gateway.clients, x.addr ≠ addr := by
        intro x hx haddr
        obtain ⟨j, hj⟩ := List.getElem?_of_mem hx
        obtain ⟨y, hy, hyaddr, -⟩ := hstays hj haddr
        have hjk := place_of_addr hordered'.addresses hy hx' (hyaddr.trans haddr'.symm)
        subst hjk
        cases hj.symm.trans hnone
      -- there was no client before, so nothing is known yet
      have hempty := h.fresh hnew
      subst hempty
      refine h.of_serves hnode
        hordered'.addresses (fun _ ↦ hpackets) (fun _ ↦ unicast_step S.params s.gateway e) hx'
        haddr'
        (Paho.Session.Good.new .none id') hserves (fun y hy hyaddr ↦ absurd hyaddr (hnew y hy))
        (fun _ hp ↦ absurd hp List.not_mem_nil) ?_
      exact (nextTopicId_none hnew).symm
  · have hnone : ∀ x ∈ (s.gateway.step S.params e).clients, x.addr ≠ addr :=
      fun x hx haddr ↦ hex ⟨x, hx, haddr⟩
    -- a client stays, so there was none before either
    have hold : ∀ x ∈ s.gateway.clients, x.addr ≠ addr := by
      intro x hx haddr
      obtain ⟨k, hk⟩ := List.getElem?_of_mem hx
      obtain ⟨y, hy, hyaddr, -⟩ := hstays hk haddr
      exact hnone y (List.mem_of_getElem? hy) hyaddr
    refine ⟨b, .refl, h.node, fun _ ↦ h.fresh hold,
      fun k x hx haddr ↦ absurd haddr (hnone x (List.mem_of_getElem? hx)),
      fun x hx haddr ↦ absurd haddr (hnone x hx), fun reply hreply ↦ ?_, fun msg hmsg ↦ ?_⟩
    · rcases unicast_step S.params s.gateway e hreply with hbefore | hnow
      · obtain ⟨x, hx, haddr, -⟩ := h.addressed reply hbefore
        exact absurd haddr (hold x hx)
      · exact hnow
    · obtain ⟨x, hx, haddr, -⟩ := h.shown msg hmsg
      exact absurd haddr (hold x hx)

end Site.Link

end Emcs.System
