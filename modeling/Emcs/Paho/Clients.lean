import Emcs.Lib.Tenure
import Emcs.Paho.Isolation

/-!
# Runs of the gateway with its clients

In every run the clients have different addresses, and each of them is served as by a gateway of its
own (`clients_of_run`). So what holds of every run of a session holds here of every client.

## The invariant

`Gateway.Ordered` says that the addresses of the list are different, that the list is no longer than
the pool, and that all queues hold places of the list only. A new client is appended, so places are
never taken over. With the addresses different, the client of a datagram is the one at its address,
and what is received for a client came from an address that it had.

## The runs

For a client the run has a beginning, the CONNECT that put it into the list, and from there every
step is a service of its session. The run lemma carries the list of the packets that came from its
addresses along.
-/

namespace Emcs.Paho

open SharedQueue

variable {A : Type*} {p : GWParams} {g : Gateway A} {k : ℕ} {s : Session}

/-- The packet of a step that comes from this address. -/
def GatewayStep.packetsFrom [DecidableEq A] (addr : A) : GatewayStep A → List SnPacket
  | .clientRecv sender datagram around =>
    if sender = addr then (SnPacket.read datagram around).toList else []
  | _ => []

theorem getType_of_connect {datagram : List UInt8} {around : Around} {packet : SnPacket}
    (htype : mqttsnPacketGetType (around.memory datagram) datagram.length = MQTTSN_CONNECT)
    (hread : SnPacket.read datagram around = some packet) : packet.getType = MQTTSN_CONNECT := by
  rw [SnPacket.read] at hread
  rw [if_pos htype] at hread
  split at hread
  · cases hread
    exact htype
  · cases hread
    rfl

section

variable [DecidableEq A]

theorem Gateway.of_getClient {addr : A} (h : g.getClient addr = some k) {e : Entry A}
    (he : g.clients[k]? = some e) : e.addr = addr := by
  obtain ⟨hlt, heq, -⟩ := List.findIdx?_eq_some_iff_getElem.mp h
  rw [List.getElem?_eq_getElem hlt] at he
  rw [← Option.some.inj he]
  exact of_decide_eq_true heq

theorem Gateway.getClient_none {addr : A} (h : g.getClient addr = none) :
    addr ∉ g.clients.map Entry.addr := by
  intro hmem
  obtain ⟨e, he, heq⟩ := List.mem_map.mp hmem
  have hne := List.findIdx?_eq_none_iff.mp h e he
  exact of_decide_eq_false hne heq

/-- What `ClientRecvTask` does: nothing, or a SEARCHGW is posted, or the packet is passed on for a
client of the list, or a CONNECT for one that may be new. -/
theorem Gateway.clientRecv_cases (p : GWParams) (g : Gateway A) (addr : A)
    (datagram : List UInt8) (around : Around) :
    g.clientRecv p addr datagram around = g ∨
      (∃ ev, g.clientRecv p addr datagram around = { g with
        packetEventQue := SharedQueue.post p.maxEvents g.packetEventQue [(none, ev)] }) ∨
      ∃ packet, SnPacket.read datagram around = some packet ∧
        ((∃ j, g.getClient addr = some j ∧
            g.clientRecv p addr datagram around = g.recvKnown p j packet) ∨
          g.getClient addr = none ∧ packet.getType = MQTTSN_CONNECT ∧ ∃ clientId,
            connectId datagram around = some clientId ∧
            g.clientRecv p addr datagram around = g.recvNew p addr clientId packet) := by
  rw [Gateway.clientRecv]
  split
  · exact Or.inl rfl
  split
  · exact Or.inr (Or.inl ⟨_, rfl⟩)
  cases hread : SnPacket.read datagram around with
  | none => exact Or.inl rfl
  | some packet =>
    dsimp only
    cases hclient : g.getClient addr with
    | some j => exact Or.inr (Or.inr ⟨packet, rfl, Or.inl ⟨j, rfl, rfl⟩⟩)
    | none =>
      dsimp only
      split
      · rename_i htype
        cases hid : connectId datagram around with
        | none => exact Or.inl rfl
        | some clientId =>
          refine Or.inr (Or.inr ⟨packet, rfl, Or.inr ⟨rfl, ?_, clientId, rfl, rfl⟩⟩)
          exact getType_of_connect htype hread
      · exact Or.inl rfl

/-- A datagram for the client, which comes from the address that it has then. -/
theorem Gateway.Shows.clientRecv {addr : A} (h : g.Shows k addr s) (hcrashed : g.crashed = none)
    (sender : A) (datagram : List UInt8) (around : Around) :
    ∃ s' addr', s.Serves p.common
        (if sender = addr' then (SnPacket.read datagram around).toList else []) s' ∧
      (g.clientRecv p sender datagram around).Shows k addr' s' := by
  rcases g.clientRecv_cases p sender datagram around with
    heq | ⟨ev, heq⟩ | ⟨packet, hread, ⟨j, hclient, heq⟩ | ⟨-, htype, clientId, -, heq⟩⟩
  · rw [heq]
    exact ⟨s, addr, .refl _ s, h⟩
  · rw [heq]
    exact ⟨s, addr, .refl _ s, h.posted_nobody ev⟩
  · rw [heq, hread]
    have hmem : j = k → packet ∈ if sender = addr then (some packet).toList else [] := by
      rintro rfl
      obtain ⟨e, he, rfl, -⟩ := h
      rw [if_pos (Gateway.of_getClient hclient he).symm]
      exact List.mem_singleton_self _
    obtain ⟨s', hserves, hshows⟩ := h.recvKnown (p := p) hcrashed j hmem
    exact ⟨s', addr, hserves, hshows⟩
  · rw [heq, hread]
    obtain ⟨s', addr', hserves, hshows, rfl | ⟨rfl, rfl⟩⟩ :=
      h.recvNew (p := p) hcrashed sender clientId htype
    · refine ⟨s', addr', ?_, hshows⟩
      rw [if_pos rfl]
      exact hserves
    · exact ⟨s', addr', .refl _ s', hshows⟩

/-- **A step of the gateway is for every client a step of its session**, or none. -/
theorem Gateway.Shows.step {addr : A} (h : g.Shows k addr s) (e : GatewayStep A) :
    ∃ s' addr', s.Serves p.common (e.packetsFrom addr') s' ∧ (g.step p e).Shows k addr' s' := by
  rw [Gateway.step.eq_def]
  split
  · exact ⟨s, addr, .refl _ s, h⟩
  rename_i hnone
  have hcrashed : g.crashed = none := Option.not_isSome_iff_eq_none.mp hnone
  have hsame {g' : Gateway A} :
      (∃ s', s.Serves p.common [] s' ∧ g'.Shows k addr s') → ∃ s' addr',
        s.Serves p.common [] s' ∧ g'.Shows k addr' s' := fun ⟨s', hs'⟩ ↦ ⟨s', addr, hs'⟩
  cases e with
  | clientRecv sender datagram around => exact h.clientRecv hcrashed sender datagram around
  | packetHandle => exact hsame (h.packetHandle hcrashed)
  | updateStatus => exact hsame (h.updateStatus hcrashed)
  | brokerSend result => exact hsame (h.brokerSend hcrashed result)
  | brokerRecv j packet => exact hsame (h.brokerRecv hcrashed j packet)
  | brokerLost j disconnected => exact hsame (h.brokerLost hcrashed j disconnected)
  | clientSend => exact hsame (h.clientSend hcrashed)

end

/-! ## The list of clients -/

/-- **The list in order**: its addresses are different, and it is no longer than the pool was; the
queues hold nothing of clients that are not in it. -/
structure Gateway.Ordered (p : GWParams) (g : Gateway A) : Prop where
  addresses : (g.clients.map Entry.addr).Nodup
  room : g.clients.length ≤ p.maxClients + 1
  events : OwnedBy (fun owner ↦ ∀ j ∈ owner, j < g.clients.length) g.packetEventQue
  toBroker : OwnedBy (· < g.clients.length) g.brokerSendQue
  toClient : OwnedBy (· < g.clients.length) g.clientSendQue
  updating : ∀ x ∈ g.updating, x.1 < g.clients.length
  crashed : ∀ j ∈ g.crashed, j < g.clients.length

theorem map_addr_modify (l : List (Entry A)) (j : ℕ) {f : Entry A → Entry A}
    (hf : ∀ e, (f e).addr = e.addr) : (l.modify j f).map Entry.addr = l.map Entry.addr := by
  induction l generalizing j with
  | nil => rw [List.modify_nil]
  | cons e l ih =>
    cases j with
    | zero => rw [List.modify_zero_cons, List.map_cons, List.map_cons, hf]
    | succ j => rw [List.modify_succ_cons, List.map_cons, List.map_cons, ih]

theorem map_addr_moved (l : List (Entry A)) (j : ℕ) (addr : A) :
    (l.modify j fun e ↦ { e with addr := addr }).map Entry.addr
      = (l.map Entry.addr).set j addr := by
  induction l generalizing j with
  | nil => rw [List.modify_nil, List.map_nil, List.set_nil]
  | cons e l ih =>
    cases j with
    | zero => rfl
    | succ j => rw [List.modify_succ_cons, List.map_cons, List.map_cons, List.set_cons_succ, ih]

namespace Gateway.Ordered

theorem start (p : GWParams) : (Gateway.start : Gateway A).Ordered p where
  addresses := List.nodup_nil
  room := Nat.zero_le _
  events := .nil _
  toBroker := .nil _
  toClient := .nil _
  updating := nofun
  crashed := nofun

theorem kept (h : g.Ordered p) {g' : Gateway A}
    (haddr : g'.clients.map Entry.addr = g.clients.map Entry.addr)
    (hevents : OwnedBy (fun owner ↦ ∀ j ∈ owner, j < g.clients.length) g'.packetEventQue)
    (hbroker : OwnedBy (· < g.clients.length) g'.brokerSendQue)
    (hclient : OwnedBy (· < g.clients.length) g'.clientSendQue)
    (hupdating : ∀ x ∈ g'.updating, x.1 < g.clients.length)
    (hcrashed : ∀ j ∈ g'.crashed, j < g.clients.length) : g'.Ordered p := by
  have hlen : g.clients.length = g'.clients.length := by
    rw [← List.length_map Entry.addr, ← haddr, List.length_map]
  rw [hlen] at hevents hbroker hclient hupdating hcrashed
  exact ⟨haddr ▸ h.addresses, hlen ▸ h.room, hevents, hbroker, hclient, hupdating, hcrashed⟩

theorem events_post (h : g.Ordered p) {j : ℕ} (hj : j < g.clients.length) (evs : List Recv) :
    OwnedBy (fun owner ↦ ∀ j ∈ owner, j < g.clients.length)
      (SharedQueue.post p.maxEvents g.packetEventQue (evs.map (some j, ·))) :=
  h.events.post (fun _ hi ↦ Option.mem_some.mp hi ▸ hj) _ evs

theorem postRecv (h : g.Ordered p) {j : ℕ} (hj : j < g.clients.length) (packet : SnPacket) :
    (g.postRecv p j packet).Ordered p :=
  h.kept (map_addr_modify _ _ fun _ ↦ rfl) (h.events_post hj [.client packet]) h.toBroker
    h.toClient h.updating h.crashed

theorem post (h : g.Ordered p) {j : ℕ} (hj : j < g.clients.length) (r : Client × List Posted) :
    (g.post p j r).Ordered p := by
  have hown {α : Type _} (as : List α) : OwnedBy (· < g.clients.length) (as.map (j, ·)) :=
    .map (P := (· < g.clients.length)) hj as
  exact h.kept (map_addr_modify _ _ fun _ ↦ rfl) (h.events_post hj _)
    (h.toBroker.append (hown _)) (h.toClient.append (hown _)) h.updating h.crashed

theorem packetHandle (h : g.Ordered p) : (g.packetHandle p).Ordered p := by
  cases hidle : g.updating with
  | some x =>
    rw [Gateway.packetHandle, hidle]
    exact h
  | none =>
    cases hque : g.packetEventQue with
    | nil =>
      rw [Gateway.packetHandle, hidle, hque]
      exact h
    | cons x es =>
      obtain ⟨owner, ev⟩ := x
      have hes : OwnedBy (fun owner ↦ ∀ j ∈ owner, j < g.clients.length) es :=
        (hque ▸ h.events).tail
      rcases owner with - | j
      · rw [Gateway.packetHandle_of_nobody hidle hque]
        exact h.kept rfl hes h.toBroker h.toClient h.updating h.crashed
      have hj : j < g.clients.length := h.events (some j, ev) (hque ▸ List.mem_cons_self) j rfl
      have he : g.clients[j]? = some (g.clients.get ⟨j, hj⟩) := List.getElem?_eq_getElem hj
      cases hr : ev.handle p.common (g.clients.get ⟨j, hj⟩).client with
      | none =>
        rw [Gateway.packetHandle_of_none he hidle hque hr]
        refine h.kept rfl h.events h.toBroker h.toClient h.updating fun i hi ↦ ?_
        cases hi
        exact hj
      | some r =>
        rw [Gateway.packetHandle_of_some he hidle hque hr]
        have hpass : ∀ x ∈ ev.fromClient.map fun packet ↦ (j, packet), x.1 < g.clients.length := by
          intro x hx
          obtain ⟨packet, -, rfl⟩ := Option.map_eq_some_iff.mp hx
          exact hj
        have htaken : Gateway.Ordered p { g with
            clients := g.clients.modify j fun e ↦
              { e with handled := e.handled ++ ev.fromClient.toList }
            packetEventQue := es
            updating := ev.fromClient.map fun packet ↦ (j, packet) } :=
          h.kept (map_addr_modify _ _ fun _ ↦ rfl) hes h.toBroker h.toClient hpass h.crashed
        exact htaken.post (lt_of_lt_of_eq hj (List.length_modify _ _ _).symm) r

theorem updateStatus (h : g.Ordered p) : g.updateStatus.Ordered p := by
  rw [Gateway.updateStatus]
  split
  · exact h.kept (map_addr_modify _ _ fun _ ↦ rfl) h.events h.toBroker h.toClient
      (fun _ hx ↦ absurd hx (Option.not_mem_none _)) h.crashed
  · exact h

theorem brokerSend (h : g.Ordered p) (result : SendResult) : (g.brokerSend p result).Ordered p := by
  rw [Gateway.brokerSend]
  split
  · exact h
  rename_i j packet packets hque
  have hpackets : OwnedBy (· < g.clients.length) packets := (hque ▸ h.toBroker).tail
  split
  · exact h
  rename_i e he
  have hj : j < g.clients.length := (List.getElem?_eq_some_iff.mp he).1
  cases result with
  | refused =>
    dsimp only
    split
    · exact h
    · exact h.kept (map_addr_modify _ _ fun _ ↦ rfl) h.events hpackets h.toClient h.updating
        h.crashed
  | sent =>
    exact h.kept (map_addr_modify _ _ fun _ ↦ rfl) h.events hpackets h.toClient h.updating
      h.crashed
  | failed closed =>
    exact h.kept (map_addr_modify _ _ fun _ ↦ rfl) (h.events_post hj [.broker .disconnect])
      hpackets h.toClient h.updating h.crashed

theorem brokerRecv (h : g.Ordered p) (j : ℕ) (packet : MqttPacket) :
    (g.brokerRecv p j packet).Ordered p := by
  rw [Gateway.brokerRecv]
  split
  · exact h
  rename_i e he
  have hj : j < g.clients.length := (List.getElem?_eq_some_iff.mp he).1
  split
  · exact h.kept (map_addr_modify _ _ fun _ ↦ rfl) (h.events_post hj [.broker packet])
      h.toBroker h.toClient h.updating h.crashed
  · exact h

theorem brokerLost (h : g.Ordered p) (j : ℕ) (disconnected : Bool) :
    (g.brokerLost j disconnected).Ordered p := by
  rw [Gateway.brokerLost]
  split
  · exact h
  split
  · exact h.kept (map_addr_modify _ _ fun _ ↦ rfl) h.events h.toBroker h.toClient h.updating
      h.crashed
  · exact h

theorem clientSend (h : g.Ordered p) : g.clientSend.Ordered p := by
  rw [Gateway.clientSend]
  split
  · exact h
  rename_i j packet packets hque
  have hpackets : OwnedBy (· < g.clients.length) packets := (hque ▸ h.toClient).tail
  split
  · exact h
  · exact h.kept (map_addr_modify _ _ fun _ ↦ rfl) h.events h.toBroker hpackets h.updating
      h.crashed

/-! ## Addresses -/

/-- A client that is found by its id takes an address that no other client has. -/
theorem moved (h : g.Ordered p) {addr : A} (hunknown : addr ∉ g.clients.map Entry.addr) (j : ℕ) :
    (g.modify j fun e ↦ { e with addr := addr }).Ordered p := by
  have hlen : (g.clients.modify j fun e ↦ { e with addr := addr }).length = g.clients.length :=
    List.length_modify _ _ _
  have hset : (g.clients.modify j fun e ↦ { e with addr := addr }).map Entry.addr
      = (g.clients.map Entry.addr).set j addr := map_addr_moved _ j addr
  refine ⟨?_, hlen.trans_le h.room, ?_, ?_, ?_, ?_, ?_⟩
  · rw [Gateway.modify, hset]
    exact h.addresses.set hunknown
  · exact hlen.symm ▸ h.events
  · exact hlen.symm ▸ h.toBroker
  · exact hlen.symm ▸ h.toClient
  · exact hlen.symm ▸ h.updating
  · exact hlen.symm ▸ h.crashed

/-- A client of the pool is put into the list. -/
theorem created (h : g.Ordered p) {addr : A} (hunknown : addr ∉ g.clients.map Entry.addr)
    (hroom : g.clients.length < p.maxClients + 1) (clientId : List UInt8) :
    Gateway.Ordered p { g with clients := g.clients ++ [.new addr clientId] } := by
  have hle : g.clients.length ≤ (g.clients ++ [Entry.new addr clientId]).length := by
    rw [List.length_append]
    exact Nat.le_add_right _ _
  refine ⟨?_, ?_, h.events.mono fun _ hj i hi ↦ (hj i hi).trans_le hle,
    h.toBroker.mono fun _ hj ↦ hj.trans_le hle, h.toClient.mono fun _ hj ↦ hj.trans_le hle,
    fun x hx ↦ (h.updating x hx).trans_le hle, fun j hj ↦ (h.crashed j hj).trans_le hle⟩
  · rw [List.map_append]
    refine List.nodup_append.mpr ⟨h.addresses, List.nodup_singleton _, fun a ha b hb heq ↦ ?_⟩
    rw [heq, List.mem_singleton.mp hb] at ha
    exact hunknown ha
  · rw [List.length_append]
    exact hroom

section

variable [DecidableEq A]

theorem clientRecv (h : g.Ordered p) (addr : A) (datagram : List UInt8) (around : Around) :
    (g.clientRecv p addr datagram around).Ordered p := by
  rcases g.clientRecv_cases p addr datagram around with
    heq | ⟨ev, heq⟩ | ⟨packet, -, ⟨j, -, heq⟩ | ⟨hclient, -, clientId, -, heq⟩⟩
  · exact heq.symm ▸ h
  · rw [heq]
    have hevents : OwnedBy (fun owner ↦ ∀ j ∈ owner, j < g.clients.length)
        (SharedQueue.post p.maxEvents g.packetEventQue ([ev].map (none, ·))) :=
      h.events.post (fun _ hi ↦ absurd hi (Option.not_mem_none _)) _ [ev]
    exact h.kept rfl hevents h.toBroker h.toClient h.updating h.crashed
  · rw [heq, Gateway.recvKnown]
    split
    · exact h
    rename_i e he
    have hj : j < g.clients.length := (List.getElem?_eq_some_iff.mp he).1
    split
    · exact h.kept rfl h.events h.toBroker
        (h.toClient.append (.map (P := (· < g.clients.length)) hj [_])) h.updating h.crashed
    · exact h.postRecv hj packet
  · have hunknown := Gateway.getClient_none hclient
    rw [heq]
    rcases g.recvNew_cases p addr clientId packet with ⟨j, hj, heq⟩ | ⟨hroom, heq⟩ | heq
    · rw [heq]
      exact (h.moved hunknown j).postRecv (lt_of_lt_of_eq hj (List.length_modify _ _ _).symm) packet
    · rw [heq]
      refine (h.created hunknown hroom clientId).postRecv ?_ packet
      rw [List.length_append]
      exact Nat.lt_succ_self _
    · exact heq.symm ▸ h

/-- **Every step keeps the order.** -/
theorem step (h : g.Ordered p) (e : GatewayStep A) : (g.step p e).Ordered p := by
  rw [Gateway.step.eq_def]
  split
  · exact h
  cases e with
  | clientRecv sender datagram around => exact h.clientRecv sender datagram around
  | packetHandle => exact h.packetHandle
  | updateStatus => exact h.updateStatus
  | brokerSend result => exact h.brokerSend result
  | brokerRecv j packet => exact h.brokerRecv j packet
  | brokerLost j disconnected => exact h.brokerLost j disconnected
  | clientSend => exact h.clientSend

end

end Gateway.Ordered

/-! ## New clients -/

/-- A client of the pool begins a session with its CONNECT. -/
theorem Gateway.Ordered.begins_created (h : g.Ordered p) (hcrashed : g.crashed = none) (addr : A)
    (clientId : List UInt8) {packet : SnPacket} (htype : packet.getType = MQTTSN_CONNECT) :
    ∃ s, (Session.new clientId).Serves p.common [packet] s ∧
      ({ g with clients := g.clients ++ [Entry.new addr clientId] }.postRecv p g.clients.length
        packet).Shows g.clients.length addr s := by
  have hnone {α : Type _} {q : List (ℕ × α)} (hq : OwnedBy (· < g.clients.length) q) :
      mine g.clients.length q = [] := mine_eq_nil fun x hx ↦ (hq x hx).ne
  have hevents : mine (some g.clients.length) g.packetEventQue = [] :=
    mine_eq_nil fun x hx heq ↦ (h.events x hx _ heq).ne rfl
  have hupdating : g.updating.filter (fun x ↦ decide (x.1 = g.clients.length)) = none := by
    cases hpass : g.updating with
    | none => rfl
    | some x => exact filter_of_ne (h.updating x hpass).ne x.2
  have hview : Gateway.Shows { g with clients := g.clients ++ [.new addr clientId] }
      g.clients.length addr (.new clientId) := by
    refine ⟨.new addr clientId, List.getElem?_concat_length, rfl, ?_⟩
    rw [Gateway.session, hupdating, hevents, hnone h.toBroker, hnone h.toClient, hcrashed]
    rfl
  exact hview.postRecv hcrashed (List.mem_singleton_self packet) fun hrefused ↦ hrefused.2 htype

section

variable [DecidableEq A]

/-- Only a datagram brings a new client. -/
theorem Gateway.length_clients_step {e : GatewayStep A}
    (he : ∀ addr datagram around, e ≠ .clientRecv addr datagram around) :
    (g.step p e).clients.length = g.clients.length := by
  rw [Gateway.step.eq_def]
  split
  · rfl
  cases e with
  | clientRecv addr datagram around => exact absurd rfl (he addr datagram around)
  | packetHandle =>
    dsimp only
    rw [Gateway.packetHandle]
    repeat' split
    all_goals simp only [Gateway.post, List.length_modify]
  | updateStatus =>
    dsimp only
    rw [Gateway.updateStatus]
    split <;> simp only [List.length_modify]
  | brokerSend result =>
    dsimp only
    rw [Gateway.brokerSend]
    repeat' split
    all_goals simp only [List.length_modify]
  | brokerRecv j packet =>
    dsimp only
    rw [Gateway.brokerRecv]
    repeat' split
    all_goals simp only [List.length_modify]
  | brokerLost j disconnected =>
    dsimp only
    rw [Gateway.brokerLost]
    repeat' split
    all_goals simp only [Gateway.modify, List.length_modify]
  | clientSend =>
    dsimp only
    rw [Gateway.clientSend]
    repeat' split
    all_goals simp only [List.length_modify]

/-- **A client that a step puts into the list begins a session of its own**, with a CONNECT from its
address. -/
theorem Gateway.Ordered.begins (h : g.Ordered p) {e : GatewayStep A}
    (hold : g.clients[k]? = none) (hnew : k < (g.step p e).clients.length) :
    ∃ clientId s addr, (Session.new clientId).Serves p.common (e.packetsFrom addr) s ∧
      (g.step p e).Shows k addr s := by
  have hle : g.clients.length ≤ k := List.getElem?_eq_none_iff.mp hold
  have hsame {g' : Gateway A} (hlen : g'.clients.length = g.clients.length)
      (hk : k < g'.clients.length) : False := absurd hle (Nat.not_le.mpr (hlen ▸ hk))
  cases e with
  | clientRecv sender datagram around =>
    rw [Gateway.step.eq_def] at hnew ⊢
    split
    · rename_i hnone
      rw [if_pos hnone] at hnew
      exact (hsame rfl hnew).elim
    rename_i hnone
    rw [if_neg hnone] at hnew
    have hcrashed : g.crashed = none := Option.not_isSome_iff_eq_none.mp hnone
    dsimp only at hnew ⊢
    rcases g.clientRecv_cases p sender datagram around with
      heq | ⟨ev, heq⟩ | ⟨packet, hread, ⟨j, -, heq⟩ | ⟨hclient, htype, clientId, -, heq⟩⟩
    · rw [heq] at hnew
      exact (hsame rfl hnew).elim
    · rw [heq] at hnew
      exact (hsame rfl hnew).elim
    · rw [heq] at hnew
      refine (hsame ?_ hnew).elim
      rw [Gateway.recvKnown]
      repeat' split
      all_goals simp only [Gateway.postRecv, List.length_modify]
    · rcases g.recvNew_cases p sender clientId packet with ⟨j, hj, heq'⟩ | ⟨hroom, heq'⟩ | heq'
      · rw [heq, heq'] at hnew
        refine (hsame ?_ hnew).elim
        simp only [Gateway.postRecv, Gateway.modify, List.length_modify]
      · rw [heq, heq'] at hnew ⊢
        have hlen : k < g.clients.length + 1 := by
          rw [Gateway.postRecv, List.length_modify, List.length_append] at hnew
          exact hnew
        have hk : k = g.clients.length := Nat.le_antisymm (Nat.le_of_lt_succ hlen) hle
        subst hk
        obtain ⟨s, hserves, hshows⟩ := h.begins_created hcrashed sender clientId htype
        refine ⟨clientId, s, sender, ?_, hshows⟩
        rw [GatewayStep.packetsFrom, if_pos rfl, hread]
        exact hserves
      · rw [heq, heq'] at hnew
        exact (hsame rfl hnew).elim
  | _ => exact (hsame (Gateway.length_clients_step fun _ _ _ heq ↦ by cases heq) hnew).elim

/-! ## What the gateway does in every run -/

/-- The packets that come in a run from the addresses that the client has. -/
def arrivals (p : GWParams) (k : ℕ) (es : List (GatewayStep A)) : List SnPacket :=
  Trace.logged (Gateway.step p)
    (fun g e ↦ (g.step p e).clients[k]?.elim [] fun x ↦ e.packetsFrom x.addr) .start es

theorem arrivals_snoc (p : GWParams) {es : List (GatewayStep A)} {e : GatewayStep A} {addr : A}
    (h : ((Trace.run (Gateway.step p) .start es).step p e).Shows k addr s) :
    arrivals p k (es ++ [e]) = arrivals p k es ++ e.packetsFrom addr := by
  obtain ⟨x, hx, rfl, -⟩ := h
  rw [arrivals, Trace.logged_append, Trace.logged, hx, Trace.logged, List.append_nil]
  rfl

/-- In a run of the session that is given only these packets it comes from `s` to `s'`. -/
def Session.Reaches (common : CommonTopics) (packets : List SnPacket) (s s' : Session) : Prop :=
  ∃ es, Trace.run (Session.step common) s es = s' ∧
    ∀ packet, .clientRecv packet ∈ es → packet ∈ packets

theorem Session.Reaches.serves {common : CommonTopics} {packets packets' : List SnPacket}
    {s s' s'' : Session} (h : s.Reaches common packets s') (h' : s'.Serves common packets' s'') :
    s.Reaches common (packets ++ packets') s'' := by
  obtain ⟨es, rfl, hes⟩ := h
  rcases h' with rfl | ⟨e, m, i, he, rfl⟩
  · exact ⟨es, rfl, fun packet hmem ↦ List.mem_append_left _ (hes packet hmem)⟩
  · refine ⟨es ++ (e :: List.replicate m (.discard i)), Trace.run_append _ _ _ _,
      fun packet hmem ↦ ?_⟩
    rcases List.mem_append.mp hmem with hmem | hmem
    · exact List.mem_append_left _ (hes packet hmem)
    rcases List.mem_cons.mp hmem with heq | hmem
    · exact List.mem_append_right _ (he packet heq.symm)
    · have hdiscard := List.eq_of_mem_replicate hmem
      contradiction

theorem ordered_run (p : GWParams) (es : List (GatewayStep A)) :
    (Trace.run (Gateway.step p) .start es).Ordered p :=
  Trace.run_invariant' (P := Gateway.Ordered p) (fun _ e h ↦ h.step e) es (.start p)

/-- **Every client is served as by a gateway of its own.** In every run the clients have different
addresses, no more of them than the pool had, which is one more than it was asked for, and what each
of them sees is a run of a session on packets that came from its own addresses. -/
theorem clients_of_run (p : GWParams) (es : List (GatewayStep A)) :
    let g := Trace.run (Gateway.step p) .start es
    (g.clients.map Entry.addr).Nodup ∧ g.clients.length ≤ p.maxClients + 1 ∧
      ∀ k e, g.clients[k]? = some e → ∃ clientId,
        (Session.new clientId).Reaches p.common (arrivals p k es) (g.session k e) := by
  refine ⟨(ordered_run p es).addresses, (ordered_run p es).room, ?_⟩
  induction es using List.reverseRecOn with
  | nil => exact fun k e he ↦ absurd he (by simp [Gateway.start])
  | append_singleton es e ih =>
    rw [Trace.run_append]
    intro k x hx
    cases hold : (Trace.run (Gateway.step p) (.start : Gateway A) es).clients[k]? with
    | none =>
      obtain ⟨clientId, s, addr, hserves, hshows⟩ :=
        (ordered_run p es).begins hold (List.getElem?_eq_some_iff.mp hx).1
      rw [arrivals_snoc p hshows]
      obtain ⟨y, hy, -, rfl⟩ := hshows
      cases Option.some.inj (hx.symm.trans hy)
      have hnew : (Session.new clientId).Reaches p.common (arrivals p k es) (.new clientId) :=
        ⟨[], rfl, fun _ hmem ↦ absurd hmem List.not_mem_nil⟩
      exact ⟨clientId, hnew.serves hserves⟩
    | some y =>
      obtain ⟨clientId, hsofar⟩ := ih k y hold
      obtain ⟨s', addr, hserves, hshows⟩ := Gateway.Shows.step (p := p) ⟨y, hold, rfl, rfl⟩ e
      rw [arrivals_snoc p hshows]
      obtain ⟨z, hz, -, rfl⟩ := hshows
      cases Option.some.inj (hx.symm.trans hz)
      exact ⟨clientId, hsofar.serves hserves⟩

end

end Emcs.Paho
