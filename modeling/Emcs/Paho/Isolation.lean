import Emcs.Paho.Gateway
import Emcs.Paho.Runs

/-!
# Every client by itself

Although its clients share the tasks and the queues, the gateway is for each client the machine of
`Session`: what the tasks do for other clients is not seen by it, and what they do for the client is
what they would do if there were no other, except that an event may find the queue of
`PacketHandleTask` full.

So what holds of every run of a session holds of every client in every run of the gateway.

## The view

`Gateway.session` forgets everything that does not concern one client: the queues are filtered by
their owner, and the process counts as running unless a packet of this client has ended it. A step
of the gateway is then seen as a step of the session, as nothing, or as a step after which the last
events are lost (`Session.Serves`). The last case is the price of the shared bound: an event may be
dropped because of other clients, at any time.
-/

namespace Emcs.Paho

open SharedQueue

variable {A : Type*}

/-! ## The view of a client -/

/-- What the client sees of the gateway. -/
def Gateway.session (g : Gateway A) (k : ℕ) (e : Entry A) : Session where
  client := e.client
  valid := e.valid
  updating := (g.updating.filter fun x ↦ decide (x.1 = k)).map Prod.snd
  packetEventQue := mine (some k) g.packetEventQue
  brokerSendQue := mine k g.brokerSendQue
  clientSendQue := mine k g.clientSendQue
  running := decide (g.crashed ≠ some k)
  received := e.received
  fromBroker := e.fromBroker
  handled := e.handled
  toBroker := e.toBroker
  toClient := e.toClient

/-- The client `k` has this address, and for it the gateway is in the state `s`. -/
def Gateway.Shows (g : Gateway A) (k : ℕ) (addr : A) (s : Session) : Prop :=
  ∃ e, g.clients[k]? = some e ∧ e.addr = addr ∧ g.session k e = s

/-- The session is served: not at all, or by a step that is given one of the packets at most, after
which events may be lost. -/
def Session.Serves (common : CommonTopics) (packets : List SnPacket) (s s' : Session) : Prop :=
  s' = s ∨ ∃ e m i, (∀ packet, e = .clientRecv packet → packet ∈ packets) ∧
    s' = Trace.run (Session.step common) s (e :: List.replicate m (.discard i))

variable {common : CommonTopics}

theorem Session.Serves.refl (packets : List SnPacket) (s : Session) : s.Serves common packets s :=
  Or.inl rfl

theorem Session.Serves.step {packets : List SnPacket} {s s' : Session} {e : TaskStep}
    (h : s.step common e = s') (he : ∀ packet, e = .clientRecv packet → packet ∈ packets) :
    s.Serves common packets s' :=
  Or.inr ⟨e, 0, 0, he, h.symm⟩

/-! ## Events that are lost -/

theorem take_eraseIdx {α : Type*} (l : List α) (i : ℕ) : (l.eraseIdx i).take i = l.take i := by
  rcases Nat.lt_or_ge i l.length with hlt | hge
  · have hlen : i ≤ (l.take i).length := by
      rw [List.length_take, Nat.min_eq_left hlt.le]
    rw [List.eraseIdx_eq_take_drop_succ, List.take_append_of_le_length hlen, List.take_take,
      Nat.min_self]
  · rw [List.eraseIdx_of_length_le hge]

theorem Session.run_discard {i m : ℕ} {s : Session} (hrun : s.running = true)
    (h : s.packetEventQue.length ≤ i + m) :
    Trace.run (Session.step common) s (List.replicate m (.discard i))
      = { s with packetEventQue := s.packetEventQue.take i } := by
  induction m generalizing s with
  | zero =>
    have htake : s.packetEventQue.take i = s.packetEventQue := List.take_of_length_le h
    rw [htake]
    rfl
  | succ m ih =>
    have hlen : (s.packetEventQue.eraseIdx i).length ≤ i + m := by
      rw [List.length_eraseIdx]
      split <;> omega
    have hstep : s.step common (.discard i)
        = { s with packetEventQue := s.packetEventQue.eraseIdx i } := if_pos hrun
    rw [List.replicate_succ, Trace.run_cons, hstep]
    have hrest := ih (s := { s with packetEventQue := s.packetEventQue.eraseIdx i }) hrun hlen
    rw [hrest, take_eraseIdx]

theorem Session.Serves.dropped {packets : List SnPacket} {s s' : Session} {e : TaskStep}
    (h : s.step common e = s') (he : ∀ packet, e = .clientRecv packet → packet ∈ packets)
    (hrun : s'.running = true) (n : ℕ) :
    s.Serves common packets { s' with packetEventQue := s'.packetEventQue.take n } := by
  refine Or.inr ⟨e, s'.packetEventQue.length, n, he, ?_⟩
  rw [Trace.run_cons, h, Session.run_discard hrun (Nat.le_add_left _ n)]

/-! ## A pass of `PacketHandleTask` -/

/-- The handler of an event. -/
def Recv.handle (common : CommonTopics) (c : Client) : Recv → Option (Client × List Posted)
  | .client packet => handleSnPacket common c packet
  | .broker packet => handleMqttPacket c packet

section PacketHandle

variable {ev : Recv}

theorem Session.packetHandle_of_some {s : Session} {es : List Recv} {r : Client × List Posted}
    (hidle : s.updating = none) (hque : s.packetEventQue = ev :: es)
    (hr : ev.handle common s.client = some r) :
    s.packetHandle common = { s with
      packetEventQue := es
      updating := ev.fromClient
      handled := s.handled ++ ev.fromClient.toList }.post r := by
  cases ev with
  | client packet =>
    rw [Recv.handle] at hr
    rw [Session.packetHandle, hidle, hque]
    dsimp only
    rw [hr]
    rfl
  | broker packet =>
    rw [Recv.handle] at hr
    rw [Session.packetHandle, hidle, hque]
    dsimp only
    rw [hr, Recv.fromClient, Option.toList_none, List.append_nil]

theorem Session.packetHandle_of_none {s : Session} {es : List Recv} (hidle : s.updating = none)
    (hque : s.packetEventQue = ev :: es) (hr : ev.handle common s.client = none) :
    s.packetHandle common = { s with running := false } := by
  cases ev with
  | client packet =>
    rw [Recv.handle] at hr
    rw [Session.packetHandle, hidle, hque]
    dsimp only
    rw [hr]
  | broker packet =>
    rw [Recv.handle] at hr
    rw [Session.packetHandle, hidle, hque]
    dsimp only
    rw [hr]

variable {g : Gateway A} {k : ℕ} {es : List (Option ℕ × Recv)} {e : Entry A} {p : GWParams}

theorem Gateway.packetHandle_of_some {r : Client × List Posted} (he : g.clients[k]? = some e)
    (hidle : g.updating = none) (hque : g.packetEventQue = (some k, ev) :: es)
    (hr : ev.handle p.common e.client = some r) :
    g.packetHandle p = { g with
      clients := g.clients.modify k fun e ↦
        { e with handled := e.handled ++ ev.fromClient.toList }
      packetEventQue := es
      updating := ev.fromClient.map fun packet ↦ (k, packet) }.post p k r := by
  cases ev with
  | client packet =>
    rw [Recv.handle] at hr
    rw [Gateway.packetHandle, hidle, hque]
    dsimp only
    rw [he]
    dsimp only
    rw [hr]
    rfl
  | broker packet =>
    rw [Recv.handle] at hr
    have hsame : (fun e : Entry A ↦ { e with handled := e.handled ++ [] }) = id := by
      funext e
      rw [List.append_nil]
      rfl
    rw [Gateway.packetHandle, hidle, hque]
    dsimp only
    rw [he]
    dsimp only
    rw [hr, Recv.fromClient, Option.toList_none, hsame, List.modify_id]
    rfl

theorem Gateway.packetHandle_of_nobody (hidle : g.updating = none)
    (hque : g.packetEventQue = (none, ev) :: es) :
    g.packetHandle p = { g with packetEventQue := es } := by
  rw [Gateway.packetHandle, hidle, hque]

theorem Gateway.packetHandle_of_none (he : g.clients[k]? = some e) (hidle : g.updating = none)
    (hque : g.packetEventQue = (some k, ev) :: es) (hr : ev.handle p.common e.client = none) :
    g.packetHandle p = { g with crashed := some k } := by
  cases ev with
  | client packet =>
    rw [Recv.handle] at hr
    rw [Gateway.packetHandle, hidle, hque]
    dsimp only
    rw [he]
    dsimp only
    rw [hr]
  | broker packet =>
    rw [Recv.handle] at hr
    rw [Gateway.packetHandle, hidle, hque]
    dsimp only
    rw [he]
    dsimp only
    rw [hr]

end PacketHandle

/-! ## Steps for other clients -/

theorem getElem?_modify_some {α : Type*} {l : List α} {k : ℕ} {a : α} (h : l[k]? = some a)
    {f : α → α} : (l.modify k f)[k]? = some (f a) := by
  rw [List.getElem?_modify_eq, h]
  rfl

theorem filter_of_ne {α : Type*} {j k : ℕ} (hj : j ≠ k) (a : α) :
    (some (j, a)).filter (fun x ↦ decide (x.1 = k)) = none :=
  Option.filter_some_neg (by rw [decide_eq_false hj])

namespace Gateway.Shows

variable {g : Gateway A} {j k : ℕ} {addr : A} {s : Session} {p : GWParams}

theorem same (h : g.Shows k addr s) {g' : Gateway A} (hclients : g'.clients[k]? = g.clients[k]?)
    (hevents : mine (some k) g'.packetEventQue = mine (some k) g.packetEventQue)
    (hbroker : mine k g'.brokerSendQue = mine k g.brokerSendQue)
    (hclient : mine k g'.clientSendQue = mine k g.clientSendQue)
    (hupdating : g'.updating.filter (fun x ↦ decide (x.1 = k))
      = g.updating.filter fun x ↦ decide (x.1 = k))
    (hcrashed : g'.crashed = some k ↔ g.crashed = some k) : g'.Shows k addr s := by
  obtain ⟨e, he, rfl, rfl⟩ := h
  refine ⟨e, hclients.trans he, rfl, ?_⟩
  rw [Gateway.session, Gateway.session, hevents, hbroker, hclient, hupdating]
  simp only [ne_eq, hcrashed]

theorem post_of_ne (h : g.Shows k addr s) (hj : j ≠ k) (r : Client × List Posted) :
    (g.post p j r).Shows k addr s := by
  refine h.same (List.getElem?_modify_ne _ _ hj) (mine_post_of_ne (mt Option.some.inj hj) _ _ _)
    ?_ ?_ rfl Iff.rfl
  · rw [Gateway.post, mine_append, mine_map_of_ne hj, List.append_nil]
  · rw [Gateway.post, mine_append, mine_map_of_ne hj, List.append_nil]

/-- What a handler posts for the client, as far as the queue has room. -/
theorem post (h : g.Shows k addr s) (r : Client × List Posted) : ∃ n, (g.post p k r).Shows k addr
    { s.post r with packetEventQue := (s.post r).packetEventQue.take n } := by
  obtain ⟨e, he, rfl, rfl⟩ := h
  refine ⟨(mine (some k) g.packetEventQue).length
      + admitted p.maxEvents g.packetEventQue.length (r.2.filterMap Posted.again).length,
    { e with client := r.1 }, ?_, rfl, ?_⟩
  · rw [Gateway.post, List.getElem?_modify_eq, he]
    rfl
  · simp only [Gateway.session, Gateway.post, Session.post, mine_append, mine_map_self,
      mine_post_self, List.take_append, List.take_of_length_le (Nat.le_add_right _ _),
      Nat.add_sub_cancel_left]
    rfl

theorem serves_post (h : g.Shows k addr s) {s₀ : Session} {e : TaskStep} {r : Client × List Posted}
    (hrun : s.running = true) (hstep : s₀.step p.common e = s.post r)
    (he : ∀ packet, e ≠ .clientRecv packet) :
    ∃ s', s₀.Serves p.common [] s' ∧ (g.post p k r).Shows k addr s' := by
  obtain ⟨n, hn⟩ := h.post (p := p) r
  exact ⟨_, .dropped hstep (fun packet heq ↦ absurd heq (he packet)) hrun n, hn⟩

theorem running (h : g.Shows k addr s) (hcrashed : g.crashed = none) : s.running = true := by
  obtain ⟨e, -, -, rfl⟩ := h
  exact decide_eq_true (hcrashed ▸ (Option.some_ne_none k).symm)

/-! ## The tasks -/

theorem of_taken (h : g.Shows k addr s) (hj : j ≠ k) (hidle : g.updating = none) {ev : Recv}
    {es : List (Option ℕ × Recv)} (hque : g.packetEventQue = (some j, ev) :: es)
    (f : Entry A → Entry A) {u : Option (ℕ × SnPacket)} (hu : ∀ x ∈ u, x.1 = j) :
    Gateway.Shows { g with
      clients := g.clients.modify j f
      packetEventQue := es
      updating := u } k addr s := by
  refine h.same (List.getElem?_modify_ne _ _ hj) ?_ rfl rfl ?_ Iff.rfl
  · rw [hque, mine_cons_of_ne (mt Option.some.inj hj)]
  · rw [hidle]
    cases u with
    | none => rfl
    | some x => exact filter_of_ne (ne_of_eq_of_ne (hu x rfl) hj) x.2

theorem of_nobody (h : g.Shows k addr s) {ev : Recv} {es : List (Option ℕ × Recv)}
    (hque : g.packetEventQue = (none, ev) :: es) :
    Gateway.Shows { g with packetEventQue := es } k addr s := by
  refine h.same rfl ?_ rfl rfl rfl Iff.rfl
  rw [hque, mine_cons_of_ne (Option.some_ne_none k).symm]

theorem of_crashed (h : g.Shows k addr s) (hj : j ≠ k) (hcrashed : g.crashed = none) :
    Gateway.Shows { g with crashed := some j } k addr s := by
  refine h.same rfl rfl rfl rfl rfl (iff_of_false (fun heq ↦ hj (Option.some.inj heq)) ?_)
  rw [hcrashed]
  exact nofun

/-- The event that `PacketHandleTask` takes is the client's. -/
theorem packetHandle_self {e : Entry A} {ev : Recv} {es : List (Option ℕ × Recv)}
    (he : g.clients[k]? = some e) (hcrashed : g.crashed = none) (hidle : g.updating = none)
    (hque : g.packetEventQue = (some k, ev) :: es) :
    ∃ s', (g.session k e).Serves p.common [] s' ∧ (g.packetHandle p).Shows k e.addr s' := by
  have hrun : (g.session k e).running = true := Gateway.Shows.running ⟨e, he, rfl, rfl⟩ hcrashed
  have hupdating : (g.session k e).updating = none := by
    rw [Gateway.session, hidle]
    rfl
  have hevents : (g.session k e).packetEventQue = ev :: mine (some k) es := by
    rw [Gateway.session, hque]
    exact mine_cons_self (some k) ev es
  have hstep : (g.session k e).step p.common .packetHandle
      = (g.session k e).packetHandle p.common := if_pos hrun
  cases hr : ev.handle p.common e.client with
  | none =>
    rw [Session.packetHandle_of_none hupdating hevents hr] at hstep
    rw [Gateway.packetHandle_of_none he hidle hque hr]
    refine ⟨_, .step hstep (fun _ heq ↦ by cases heq), e, he, rfl, ?_⟩
    simp only [Gateway.session, ne_eq, not_true_eq_false, decide_false]
  | some r =>
    rw [Session.packetHandle_of_some hupdating hevents hr] at hstep
    rw [Gateway.packetHandle_of_some he hidle hque hr]
    have htaken : Gateway.Shows { g with
        clients := g.clients.modify k fun e ↦
          { e with handled := e.handled ++ ev.fromClient.toList }
        packetEventQue := es
        updating := ev.fromClient.map fun packet ↦ (k, packet) } k e.addr { g.session k e with
          packetEventQue := mine (some k) es
          updating := ev.fromClient
          handled := e.handled ++ ev.fromClient.toList } := by
      refine ⟨_, getElem?_modify_some he, rfl, ?_⟩
      cases ev with
      | client packet => simp [Gateway.session, Recv.fromClient]
      | broker packet => simp [Gateway.session, Recv.fromClient]
    exact htaken.serves_post hrun hstep (fun _ heq ↦ by cases heq)

theorem packetHandle (h : g.Shows k addr s) (hcrashed : g.crashed = none) :
    ∃ s', s.Serves p.common [] s' ∧ (g.packetHandle p).Shows k addr s' := by
  cases hidle : g.updating with
  | some x =>
    rw [Gateway.packetHandle, hidle]
    exact ⟨s, .refl _ s, h⟩
  | none =>
    cases hque : g.packetEventQue with
    | nil =>
      rw [Gateway.packetHandle, hidle, hque]
      exact ⟨s, .refl _ s, h⟩
    | cons x es =>
      obtain ⟨owner, ev⟩ := x
      rcases owner with - | j
      · rw [Gateway.packetHandle_of_nobody hidle hque]
        exact ⟨s, .refl _ s, h.of_nobody hque⟩
      by_cases hj : j = k
      · subst hj
        obtain ⟨e, he, rfl, rfl⟩ := h
        exact packetHandle_self he hcrashed hidle hque
      · refine ⟨s, .refl _ s, ?_⟩
        cases he : g.clients[j]? with
        | none =>
          rw [Gateway.packetHandle, hidle, hque]
          dsimp only
          rw [he]
          exact h
        | some e =>
          cases hr : ev.handle p.common e.client with
          | none =>
            rw [Gateway.packetHandle_of_none he hidle hque hr]
            exact h.of_crashed hj hcrashed
          | some r =>
            rw [Gateway.packetHandle_of_some he hidle hque hr]
            refine (h.of_taken hj hidle hque _ fun x hx ↦ ?_).post_of_ne hj r
            obtain ⟨packet, -, rfl⟩ := Option.map_eq_some_iff.mp hx
            rfl

theorem updateStatus (h : g.Shows k addr s) (hcrashed : g.crashed = none) :
    ∃ s', s.Serves p.common [] s' ∧ g.updateStatus.Shows k addr s' := by
  have hrun := h.running hcrashed
  rw [Gateway.updateStatus]
  split
  · rename_i j packet hpass
    by_cases hj : j = k
    · subst hj
      obtain ⟨e, he, rfl, rfl⟩ := h
      have hupdating : (g.session j e).updating = some packet := by
        simp [Gateway.session, hpass]
      have hstep : (g.session j e).step p.common .updateStatus = (g.session j e).updateStatus :=
        if_pos hrun
      rw [Session.updateStatus, hupdating] at hstep
      exact ⟨_, .step hstep (fun _ heq ↦ by cases heq), _, getElem?_modify_some he, rfl, rfl⟩
    · refine ⟨s, .refl _ s, h.same (List.getElem?_modify_ne _ _ hj) rfl rfl rfl ?_ Iff.rfl⟩
      rw [hpass]
      exact (filter_of_ne hj packet).symm
  · exact ⟨s, .refl _ s, h⟩

theorem serves_event (h : g.Shows k addr s) {s₀ : Session} {e : TaskStep} {packets : List SnPacket}
    {ev : Recv} (hrun : s.running = true)
    (hstep : s₀.step p.common e = { s with packetEventQue := s.packetEventQue ++ [ev] })
    (he : ∀ packet, e = .clientRecv packet → packet ∈ packets) :
    ∃ s', s₀.Serves p.common packets s' ∧ Gateway.Shows { g with
      packetEventQue := SharedQueue.post p.maxEvents g.packetEventQue [(some k, ev)] }
      k addr s' := by
  obtain ⟨x, hx, rfl, rfl⟩ := h
  refine ⟨_, .dropped hstep he hrun ((mine (some k) g.packetEventQue).length
    + admitted p.maxEvents g.packetEventQue.length [ev].length), x, hx, rfl, ?_⟩
  have hpost := mine_post_self (some k) p.maxEvents g.packetEventQue [ev]
  rw [List.map_singleton] at hpost
  simp only [Gateway.session, hpost, List.take_append,
    List.take_of_length_le (Nat.le_add_right _ _), Nat.add_sub_cancel_left]

theorem brokerSend (h : g.Shows k addr s) (hcrashed : g.crashed = none) (result : SendResult) :
    ∃ s', s.Serves p.common [] s' ∧ (g.brokerSend p result).Shows k addr s' := by
  have hrun := h.running hcrashed
  cases hque : g.brokerSendQue with
  | nil =>
    rw [Gateway.brokerSend, hque]
    exact ⟨s, .refl _ s, h⟩
  | cons x packets =>
    obtain ⟨j, packet⟩ := x
    cases hej : g.clients[j]? with
    | none =>
      rw [Gateway.brokerSend, hque]
      dsimp only
      rw [hej]
      exact ⟨s, .refl _ s, h⟩
    | some e =>
      by_cases hj : j = k
      -- the packet is one of the client
      · subst hj
        obtain ⟨e', he, rfl, rfl⟩ := h
        cases Option.some.inj (hej.symm.trans he)
        have hpackets : (g.session j e).brokerSendQue = packet :: mine j packets := by
          rw [Gateway.session, hque]
          exact mine_cons_self j packet packets
        have hstep : (g.session j e).step p.common (.brokerSend result)
            = (g.session j e).brokerSend result := if_pos hrun
        rw [Session.brokerSend, hpackets] at hstep
        rw [Gateway.brokerSend, hque]
        dsimp only
        rw [he]
        cases result with
        | refused =>
          dsimp only at hstep ⊢
          cases hkeep : e.valid && !packet.isConnect with
          | true =>
            rw [if_pos rfl]
            exact ⟨_, .refl _ _, e, he, rfl, rfl⟩
          | false =>
            rw [show (g.session j e).valid = e.valid from rfl, hkeep, if_neg Bool.false_ne_true]
              at hstep
            rw [if_neg Bool.false_ne_true]
            exact ⟨_, .step hstep (fun _ heq ↦ by cases heq), _, getElem?_modify_some he, rfl, rfl⟩
        | sent =>
            exact ⟨_, .step hstep (fun _ heq ↦ by cases heq), _, getElem?_modify_some he, rfl, rfl⟩
        | failed closed =>
          -- the DISCONNECT that the task posts may find the queue full
          have htaken : Gateway.Shows { g with
              clients := g.clients.modify j fun e ↦ { e with valid := !closed }
              brokerSendQue := packets } j e.addr { g.session j e with
                valid := !closed
                brokerSendQue := mine j packets } := ⟨_, getElem?_modify_some he, rfl, rfl⟩
          exact htaken.serves_event hrun hstep (fun _ heq ↦ by cases heq)
      -- the packet is for another client, whose turn is not seen
      · have hother : mine k packets = mine k g.brokerSendQue := by
          rw [hque, mine_cons_of_ne hj]
        rw [Gateway.brokerSend, hque]
        dsimp only
        rw [hej]
        refine ⟨s, .refl _ s, ?_⟩
        cases result with
        | refused =>
          dsimp only
          split
          · exact h
          · exact h.same (List.getElem?_modify_ne _ _ hj) rfl hother rfl rfl Iff.rfl
        | sent => exact h.same (List.getElem?_modify_ne _ _ hj) rfl hother rfl rfl Iff.rfl
        | failed closed =>
          exact h.same (List.getElem?_modify_ne _ _ hj)
            (mine_post_of_ne (mt Option.some.inj hj) _ _ [_]) hother rfl rfl Iff.rfl

theorem brokerRecv (h : g.Shows k addr s) (hcrashed : g.crashed = none) (j : ℕ)
    (packet : MqttPacket) :
    ∃ s', s.Serves p.common [] s' ∧ (g.brokerRecv p j packet).Shows k addr s' := by
  have hrun := h.running hcrashed
  rw [Gateway.brokerRecv]
  split
  · exact ⟨s, .refl _ s, h⟩
  rename_i e hej
  split
  · rename_i hopen
    by_cases hj : j = k
    · subst hj
      obtain ⟨e', he, rfl, rfl⟩ := h
      cases Option.some.inj (hej.symm.trans he)
      have hstep : (g.session j e).step p.common (.brokerRecv packet)
          = (g.session j e).brokerRecv packet := if_pos hrun
      have hvalid : ((g.session j e).valid && packet.ofServer) = true := hopen
      rw [Session.brokerRecv, if_pos hvalid] at hstep
      have htaken : Gateway.Shows { g with
          clients := g.clients.modify j fun e ↦ { e with fromBroker := e.fromBroker ++ [packet] } }
          j e.addr { g.session j e with fromBroker := e.fromBroker ++ [packet] } :=
        ⟨_, getElem?_modify_some he, rfl, rfl⟩
      exact htaken.serves_event hrun hstep (fun _ heq ↦ by cases heq)
    · exact ⟨s, .refl _ s, h.same (List.getElem?_modify_ne _ _ hj)
        (mine_post_of_ne (mt Option.some.inj hj) _ _ [_]) rfl rfl rfl Iff.rfl⟩
  · exact ⟨s, .refl _ s, h⟩

theorem brokerLost (h : g.Shows k addr s) (hcrashed : g.crashed = none) (j : ℕ)
    (disconnected : Bool) :
    ∃ s', s.Serves p.common [] s' ∧ (g.brokerLost j disconnected).Shows k addr s' := by
  have hrun := h.running hcrashed
  rw [Gateway.brokerLost]
  split
  · exact ⟨s, .refl _ s, h⟩
  rename_i e hej
  split
  · rename_i hlost
    by_cases hj : j = k
    · subst hj
      obtain ⟨e', he, rfl, rfl⟩ := h
      cases Option.some.inj (hej.symm.trans he)
      have hopen : ((g.session j e).valid && (disconnected ||
          (g.session j e).client.status == .active || (g.session j e).client.status == .asleep ||
          (g.session j e).client.status == .awake)) = true := hlost
      have hstep : (g.session j e).step p.common (.brokerLost disconnected)
          = (g.session j e).brokerLost disconnected := if_pos hrun
      rw [Session.brokerLost, if_pos hopen] at hstep
      exact ⟨_, .step hstep (fun _ heq ↦ by cases heq), _, getElem?_modify_some he, rfl, rfl⟩
    · exact ⟨s, .refl _ s, h.same (List.getElem?_modify_ne _ _ hj) rfl rfl rfl rfl Iff.rfl⟩
  · exact ⟨s, .refl _ s, h⟩

theorem clientSend (h : g.Shows k addr s) (hcrashed : g.crashed = none) :
    ∃ s', s.Serves p.common [] s' ∧ g.clientSend.Shows k addr s' := by
  have hrun := h.running hcrashed
  rw [Gateway.clientSend]
  split
  · exact ⟨s, .refl _ s, h⟩
  rename_i j packet packets hque
  split
  · exact ⟨s, .refl _ s, h⟩
  rename_i e hej
  by_cases hj : j = k
  · subst hj
    obtain ⟨e', he, rfl, rfl⟩ := h
    cases Option.some.inj (hej.symm.trans he)
    have hpackets : (g.session j e).clientSendQue = packet :: mine j packets := by
      rw [Gateway.session, hque]
      exact mine_cons_self j packet packets
    have hstep : (g.session j e).step p.common .clientSend = (g.session j e).clientSend :=
      if_pos hrun
    rw [Session.clientSend, hpackets] at hstep
    exact ⟨_, .step hstep (fun _ heq ↦ by cases heq), _, getElem?_modify_some he, rfl, rfl⟩
  · have hother : mine k packets = mine k g.clientSendQue := by
      rw [hque, mine_cons_of_ne hj]
    exact ⟨s, .refl _ s, h.same (List.getElem?_modify_ne _ _ hj) rfl rfl hother rfl Iff.rfl⟩

/-! ## Datagrams -/

theorem posted_nobody (h : g.Shows k addr s) (ev : Recv) :
    Gateway.Shows { g with
      packetEventQue := SharedQueue.post p.maxEvents g.packetEventQue [(none, ev)] } k addr s :=
  h.same rfl (mine_post_of_ne (Option.some_ne_none k).symm _ _ [_]) rfl rfl rfl Iff.rfl

/-- A packet of the client is posted. -/
theorem postRecv (h : g.Shows k addr s) (hcrashed : g.crashed = none) {packet : SnPacket}
    {packets : List SnPacket} (hmem : packet ∈ packets)
    (hpost : ¬(s.client.status = .disconnected ∧ packet.getType ≠ MQTTSN_CONNECT)) :
    ∃ s', s.Serves p.common packets s' ∧ (g.postRecv p k packet).Shows k addr s' := by
  have hrun := h.running hcrashed
  obtain ⟨e, he, rfl, rfl⟩ := h
  have hstep : (g.session k e).step p.common (.clientRecv packet)
      = (g.session k e).clientRecv packet := if_pos hrun
  rw [Session.clientRecv, if_neg hpost] at hstep
  have hreceived : Gateway.Shows { g with
      clients := g.clients.modify k fun e ↦ { e with received := e.received ++ [packet] } }
      k e.addr { g.session k e with received := e.received ++ [packet] } :=
    ⟨_, getElem?_modify_some he, rfl, rfl⟩
  refine hreceived.serves_event hrun hstep fun x hx ↦ ?_
  cases hx
  exact hmem

theorem postRecv_of_ne (h : g.Shows k addr s) (hj : j ≠ k) (packet : SnPacket) :
    (g.postRecv p j packet).Shows k addr s :=
  h.same (List.getElem?_modify_ne _ _ hj) (mine_post_of_ne (mt Option.some.inj hj) _ _ [_]) rfl rfl
    rfl Iff.rfl

theorem recvKnown (h : g.Shows k addr s) (hcrashed : g.crashed = none) (j : ℕ)
    {packet : SnPacket} {packets : List SnPacket} (hmem : j = k → packet ∈ packets) :
    ∃ s', s.Serves p.common packets s' ∧ (g.recvKnown p j packet).Shows k addr s' := by
  have hrun := h.running hcrashed
  rw [Gateway.recvKnown]
  split
  · exact ⟨s, .refl _ s, h⟩
  rename_i e hej
  by_cases hj : j = k
  · subst hj
    have hpackets := hmem rfl
    split
    · rename_i hrefused
      obtain ⟨e', he, rfl, rfl⟩ := h
      cases Option.some.inj (hej.symm.trans he)
      have htold : (g.session j e).client.status = .disconnected ∧
          packet.getType ≠ MQTTSN_CONNECT := hrefused
      have hstep : (g.session j e).step p.common (.clientRecv packet)
          = (g.session j e).clientRecv packet := if_pos hrun
      rw [Session.clientRecv, if_pos htold] at hstep
      refine ⟨_, .step hstep fun x hx ↦ ?_, e, he, rfl, ?_⟩
      · cases hx
        exact hpackets
      · rw [Gateway.session, mine_append, mine_cons_self]
        rfl
    · rename_i haccepted
      refine h.postRecv hcrashed hpackets ?_
      obtain ⟨e', he, -, rfl⟩ := h
      cases Option.some.inj (hej.symm.trans he)
      exact haccepted
  · refine ⟨s, .refl _ s, ?_⟩
    split
    · refine h.same rfl rfl rfl ?_ rfl Iff.rfl
      rw [mine_append, mine_cons_of_ne hj]
      exact List.append_nil _
    · exact h.postRecv_of_ne hj packet

end Gateway.Shows

/-! ## New addresses -/

/-- What becomes of a CONNECT from an unknown address: a client is found by its id, or one of the
pool is taken, or there is none left. -/
theorem Gateway.recvNew_cases (p : GWParams) (g : Gateway A) (addr : A) (clientId : List UInt8)
    (packet : SnPacket) :
    (∃ j < g.clients.length, g.recvNew p addr clientId packet
        = (g.modify j fun e ↦ { e with addr := addr }).postRecv p j packet) ∨
      (g.clients.length < p.maxClients + 1 ∧ g.recvNew p addr clientId packet
        = { g with clients := g.clients ++ [Entry.new addr clientId] }.postRecv p g.clients.length
          packet) ∨
      g.recvNew p addr clientId packet = g := by
  rw [Gateway.recvNew]
  split
  · rename_i j hfound
    exact Or.inl ⟨j, (List.findIdx?_eq_some_iff_getElem.mp hfound).1, rfl⟩
  · rw [Gateway.createClient]
    split
    · rename_i g' hnew
      split at hnew
      · rename_i hroom
        cases hnew
        exact Or.inr (Or.inl ⟨hroom, rfl⟩)
      · cases hnew
    · exact Or.inr (Or.inr rfl)

namespace Gateway.Shows

variable {g : Gateway A} {j k : ℕ} {addr : A} {s : Session} {p : GWParams}

/-- A CONNECT from an unknown address. The client may have that address afterwards, and only then
the packet is its own. -/
theorem recvNew (h : g.Shows k addr s) (hcrashed : g.crashed = none) (sender : A)
    (clientId : List UInt8) {packet : SnPacket} (htype : packet.getType = MQTTSN_CONNECT) :
    ∃ s' addr', s.Serves p.common [packet] s' ∧
        (g.recvNew p sender clientId packet).Shows k addr' s' ∧
      (addr' = sender ∨ addr' = addr ∧ s' = s) := by
  rcases g.recvNew_cases p sender clientId packet with ⟨j, -, heq⟩ | ⟨-, heq⟩ | heq
  · rw [heq]
    by_cases hj : j = k
    · subst hj
      have hmoved : (g.modify j fun e ↦ { e with addr := sender }).Shows j sender s := by
        obtain ⟨e, he, rfl, rfl⟩ := h
        exact ⟨_, getElem?_modify_some he, rfl, rfl⟩
      obtain ⟨s', hserves, hshows⟩ := hmoved.postRecv (p := p) hcrashed
        (List.mem_singleton_self packet) fun hrefused ↦ hrefused.2 htype
      exact ⟨s', sender, hserves, hshows, Or.inl rfl⟩
    · have hmoved : (g.modify j fun e ↦ { e with addr := sender }).Shows k addr s :=
        h.same (List.getElem?_modify_ne _ _ hj) rfl rfl rfl rfl Iff.rfl
      exact ⟨s, addr, .refl _ s, hmoved.postRecv_of_ne hj packet, Or.inr ⟨rfl, rfl⟩⟩
  · rw [heq]
    refine ⟨s, addr, .refl _ s, postRecv_of_ne ?_ ?_ packet, Or.inr ⟨rfl, rfl⟩⟩
    · obtain ⟨e, he, rfl, rfl⟩ := h
      have hlt := (List.getElem?_eq_some_iff.mp he).1
      exact ⟨e, (List.getElem?_append_left hlt).trans he, rfl, rfl⟩
    · obtain ⟨e, he, -⟩ := h
      exact (List.getElem?_eq_some_iff.mp he).1.ne'
  · rw [heq]
    exact ⟨s, addr, .refl _ s, h, Or.inr ⟨rfl, rfl⟩⟩

end Gateway.Shows

end Emcs.Paho
