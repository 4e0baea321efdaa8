import Emcs.Bridge.Registry
import Emcs.Lib.Trace

/-!
# The client table over time

A slot of the table is leased: an active slot holds the id of a node and a port.
`get_or_create_client` looks a node up and gives a free slot to one that it does not find; on a
failure it leaves the slot half filled in and inactive, so what an inactive slot holds says nothing.
`expire_clients` ends leases. All other code that touches the table changes counters only.

So there are three things an event can do to the leases: nothing, one new lease in a free slot, or
the end of some of them. That no node has two slots, and that slot `i` has the port
`CLIENT_PORT_BASE + i`, follows by induction on the run.

## The invariant

`Leased` says of `leases gw.clients`, which forgets everything of a slot but its node and its port,
that no node occurs twice and that the port of a slot is that of its number. It is kept because a
new lease (`Grant`) is for a node without one and takes the port of its slot. The counters, the
sockets and what is left in an inactive slot do not occur in it.

## Runs

`leases_tableStep` is the only place where the code of an event is looked at. That a lease lasts
until its slot expires, and that the invariant holds, are inductions on the run over this one lemma.
-/

namespace Emcs.Bridge

variable {clients : Vector Client MAX_CLIENTS} {os : Os}

/-! ## Leases -/

/-- What a slot is leased for: the node and the port, `none` for an inactive slot. -/
def Client.lease (c : Client) : Option (UInt8 × UInt16) :=
  if c.active then some (c.nodeId, c.localPort) else none

/-- The port of slot `i`. -/
def slotPort (i : ℕ) : UInt16 := UInt16.ofNat (CLIENT_PORT_BASE + i)

theorem Client.lease_eq_some_iff {c : Client} {n : UInt8} {port : UInt16} :
    c.lease = some (n, port) ↔ c.active = true ∧ c.nodeId = n ∧ c.localPort = port := by
  rw [lease]
  split
  · rename_i h
    rw [Option.some_inj, Prod.mk.injEq, h]
    exact (and_iff_right rfl).symm
  · rename_i h
    exact ⟨fun hnone ↦ (nomatch hnone), fun hsome ↦ absurd hsome.1 h⟩

theorem Client.lease_eq_none_iff {c : Client} : c.lease = none ↔ c.active = false := by
  rw [lease]
  split
  · rename_i h
    rw [h]
    exact ⟨fun hnone ↦ (nomatch hnone), fun hfalse ↦ (nomatch hfalse)⟩
  · rename_i h
    exact ⟨fun _ ↦ Bool.eq_false_of_not_eq_true h, fun _ ↦ rfl⟩

theorem slotPort_injective {i j : Fin MAX_CLIENTS} (h : slotPort i = slotPort j) : i = j := by
  have hi : CLIENT_PORT_BASE + i.val < 2 ^ 16 :=
    (Nat.add_lt_add_left i.isLt CLIENT_PORT_BASE).trans (by decide)
  have hj : CLIENT_PORT_BASE + j.val < 2 ^ 16 :=
    (Nat.add_lt_add_left j.isLt CLIENT_PORT_BASE).trans (by decide)
  have hnat := congrArg UInt16.toNat h
  rw [slotPort, slotPort, UInt16.toNat_ofNat_of_lt' hi, UInt16.toNat_ofNat_of_lt' hj] at hnat
  exact Fin.ext (Nat.add_left_cancel hnat)

theorem lease_refreshClient (c : Client) (connect : Bool) (os : Os) :
    (refreshClient c connect os).lease = c.lease := by
  cases connect <;> rfl

theorem lease_createClient (c : Client) (i : ℕ) (srcId : UInt8) (hsock : 0 ≤ os.sock)
    (hbind : os.bindOk = true) :
    (createClient c i srcId os).lease = some (srcId, slotPort i) := by
  obtain ⟨hactive, hid⟩ := createClient_active c i srcId hsock hbind
  refine Client.lease_eq_some_iff.mpr ⟨hactive, hid, ?_⟩
  rw [createClient, hbind]
  dsimp only
  rw [if_neg (not_lt.mpr hsock)]
  rfl

/-- The leases of a table. -/
def leases (clients : Vector Client MAX_CLIENTS) (j : Fin MAX_CLIENTS) : Option (UInt8 × UInt16) :=
  clients[j].lease

theorem leases_set_eq (clients : Vector Client MAX_CLIENTS) (i : Fin MAX_CLIENTS) (c : Client) :
    leases (clients.set i c i.isLt) = Function.update (leases clients) i c.lease := by
  funext j
  by_cases hji : j = i
  · rw [hji, Function.update_self, leases, Slots.get_set_self]
  · rw [Function.update_of_ne hji, leases, leases, Slots.get_set_of_ne _ _ (Ne.symm hji)]

theorem leases_set (i : Fin MAX_CLIENTS) {c : Client} (h : c.lease = clients[i].lease) :
    leases (clients.set i c i.isLt) = leases clients := by
  rw [leases_set_eq, h]
  exact Function.update_eq_self i (leases clients)

/-- A new lease for a node without one, in a free slot. -/
structure Grant (l l' : Fin MAX_CLIENTS → Option (UInt8 × UInt16)) (srcId : UInt8)
    (i : Fin MAX_CLIENTS) : Prop where
  free : l i = none
  fresh : ∀ j port, l j ≠ some (srcId, port)
  eq : l' = Function.update l i (some (srcId, slotPort i))

theorem leases_getOrCreateClient (clients : Vector Client MAX_CLIENTS) (srcId : UInt8)
    (connect : Bool) (os : Os) :
    leases (getOrCreateClient clients srcId connect os).1 = leases clients ∨
      SlotAvailable clients srcId os ∧
        ∃ i, Grant (leases clients)
          (leases (getOrCreateClient clients srcId connect os).1) srcId i := by
  have hlookup := lookup clients srcId connect os
  generalize getOrCreateClient clients srcId connect os = r at hlookup ⊢
  cases hlookup with
  | found i => exact Or.inl (leases_set i (lease_refreshClient clients[i] connect os))
  | full => exact Or.inl rfl
  | created i hfree hnew hsock hbind =>
    refine Or.inr ⟨Or.inr ⟨⟨i, hfree⟩, hsock, hbind⟩, i, ?_, ?_, ?_⟩
    · exact Client.lease_eq_none_iff.mpr hfree
    · intro j port hj
      obtain ⟨hactive, hid, -⟩ := Client.lease_eq_some_iff.mp hj
      exact hnew j hactive hid
    · rw [leases_set_eq, lease_createClient _ _ _ hsock hbind]
  | failed i hfree hnew hos =>
    -- the slot was free and is left inactive
    refine Or.inl (leases_set i ?_)
    rw [Client.lease_eq_none_iff.mpr (createClient_inactive _ _ _ hos),
      Client.lease_eq_none_iff.mpr hfree]

/-! ## Events -/

/-- What the bridge does to the table. -/
inductive TableEvent where
  /-- `on_rx_done` has decrypted a frame. -/
  | frame (p : RxPacket) (os : Os)
  /-- `downstream_thread` reads the sockets. -/
  | collect (ready : Fin MAX_CLIENTS → Option (List UInt8))
  /-- The heartbeat expires clients. -/
  | expire (now : ℤ)

/-- The event ends the lease of slot `i`. -/
def TableEvent.Expires (gw : Gateway) (i : Fin MAX_CLIENTS) : TableEvent → Prop
  | .expire now => CLIENT_TIMEOUT_S ≤ now - gw.clients[i].lastSeen
  | _ => False

namespace Gateway

def tableStep (gw : Gateway) : TableEvent → Gateway
  | .frame p os => (rxHandle gw p os).1
  | .collect ready => { gw with clients := (collect gw.clients ready).1 }
  | .expire now => expireClients gw now

/-! ## What an event does to the leases -/

theorem clients_forwardToPaho (gw : Gateway) (srcId rhSeq hopsTaken : UInt8) (plain : List UInt8)
    (connect : Bool) (os : Os) :
    let r := getOrCreateClient gw.clients srcId connect os
    (forwardToPaho gw srcId rhSeq hopsTaken plain connect os).1.clients = r.1 ∧ r.2 = none ∨
      ∃ (i : Fin MAX_CLIENTS) (c : Client),
        (forwardToPaho gw srcId rhSeq hopsTaken plain connect os).1.clients = r.1.set i c i.isLt ∧
        r.2 = some i ∧ c.lease = r.1[i].lease ∧ c.udpSock = r.1[i].udpSock := by
  rw [forwardToPaho]
  generalize getOrCreateClient gw.clients srcId connect os = r
  obtain ⟨clients, o⟩ := r
  cases o with
  | none => exact Or.inl ⟨rfl, rfl⟩
  | some i => exact Or.inr ⟨i, _, rfl, rfl, rfl, rfl⟩

theorem leases_rxHandle (gw : Gateway) (p : RxPacket) (os : Os) :
    leases (rxHandle gw p os).1.clients = leases gw.clients ∨
      SlotAvailable gw.clients p.pkt.srcId os ∧
        ∃ i, Grant (leases gw.clients) (leases (rxHandle gw p os).1.clients) p.pkt.srcId i := by
  cases hacc : rxAccepts gw p with
  | false =>
    rw [rxHandle_of_not_accepts os hacc]
    exact Or.inl rfl
  | true =>
    rw [rxHandle_of_accepts os hacc]
    have hcreate := leases_getOrCreateClient gw.clients p.pkt.srcId (isConnect p.plain) os
    have hforward := clients_forwardToPaho (accepted gw p) p.pkt.srcId p.rhSeq p.hopsTaken p.plain
      (isConnect p.plain) os
    rw [accepted_clients] at hforward
    rcases hforward with ⟨heq, -⟩ | ⟨i, c, heq, -, hlease, -⟩
    · rwa [heq]
    · rwa [heq, leases_set i hlease]

theorem leases_stageClient (i : Fin MAX_CLIENTS) (dgram : Option (List UInt8)) :
    leases (stageClient clients i dgram).1 = leases clients := by
  cases dgram with
  | none => rfl
  | some data =>
    rw [stageClient]
    split
    · rfl
    · exact leases_set i rfl

theorem leases_collect (ready : Fin MAX_CLIENTS → Option (List UInt8)) :
    leases (collect clients ready).1 = leases clients := by
  rw [collect]
  generalize ([] : List Staged) = staged
  induction List.finRange MAX_CLIENTS generalizing clients staged with
  | nil => rfl
  | cons i l ih =>
    rw [List.foldl_cons, ih, leases_stageClient]

theorem get_expireClients (gw : Gateway) (now : ℤ) (j : Fin MAX_CLIENTS) :
    (expireClients gw now).clients[j]
      = if gw.clients[j].active = true ∧ CLIENT_TIMEOUT_S ≤ now - gw.clients[j].lastSeen then
          Client.zero
        else gw.clients[j] := by
  have hget : (expireClients gw now).clients[j]
      = if !gw.clients[j].active then gw.clients[j]
        else if now - gw.clients[j].lastSeen < CLIENT_TIMEOUT_S then gw.clients[j]
        else Client.zero := by
    simp [expireClients]
  rw [hget]
  by_cases hactive : gw.clients[j].active = true
  · rw [hactive, if_neg (by decide)]
    by_cases hold : now - gw.clients[j].lastSeen < CLIENT_TIMEOUT_S
    · rw [if_pos hold, if_neg fun h ↦ not_le.mpr hold h.2]
    · rw [if_neg hold, if_pos ⟨rfl, not_lt.mp hold⟩]
  · rw [Bool.eq_false_of_not_eq_true hactive]
    exact (if_neg fun h ↦ Bool.false_ne_true h.1).symm

/-- **The step lemma**: a lease ends only when its slot expires, and the only new lease is one that
`get_or_create_client` grants. -/
theorem leases_tableStep (gw : Gateway) (e : TableEvent) :
    (∀ j, leases (gw.tableStep e).clients j = leases gw.clients j ∨
      e.Expires gw j ∧ leases (gw.tableStep e).clients j = none) ∨
    ∃ n i, Grant (leases gw.clients) (leases (gw.tableStep e).clients) n i := by
  cases e with
  | frame p os =>
    rcases leases_rxHandle gw p os with heq | ⟨-, i, hgrant⟩
    · exact Or.inl fun j ↦ Or.inl (congrFun heq j)
    · exact Or.inr ⟨p.pkt.srcId, i, hgrant⟩
  | collect ready => exact Or.inl fun j ↦ Or.inl (congrFun (leases_collect ready) j)
  | expire now =>
    refine Or.inl fun j ↦ ?_
    rw [tableStep, leases, get_expireClients]
    split
    · rename_i hold
      exact Or.inr ⟨hold.2, rfl⟩
    · exact Or.inl rfl

/-! ## The invariant -/

/-- No node has two slots, and the port of a slot is fixed. -/
structure Leased (gw : Gateway) : Prop where
  unique : ∀ {i j n port port'}, leases gw.clients i = some (n, port) →
    leases gw.clients j = some (n, port') → i = j
  port : ∀ {i n port}, leases gw.clients i = some (n, port) → port = slotPort i

variable {gw : Gateway}

theorem Leased.boot : Gateway.boot.Leased := by
  have hnone : ∀ i x, leases Gateway.boot.clients i ≠ some x := by
    intro i x h
    have hzero : Gateway.boot.clients[i] = Client.zero := by simp [Gateway.boot]
    rw [leases, hzero] at h
    exact nomatch h
  exact ⟨fun h ↦ absurd h (hnone _ _), fun h ↦ absurd h (hnone _ _)⟩

theorem Leased.grant {gw' : Gateway} (h : gw.Leased) {n : UInt8} {i : Fin MAX_CLIENTS}
    (hgrant : Grant (leases gw.clients) (leases gw'.clients) n i) : gw'.Leased := by
  obtain ⟨-, hfresh, heq⟩ := hgrant
  refine ⟨?_, ?_⟩
  · intro j k m port port' hj hk
    rw [heq] at hj hk
    by_cases hji : j = i <;> by_cases hki : k = i
    · rw [hji, hki]
    · -- the node of the new lease had none before
      rw [hji, Function.update_self, Option.some_inj, Prod.mk.injEq] at hj
      rw [Function.update_of_ne hki, ← hj.1] at hk
      exact absurd hk (hfresh k port')
    · rw [hki, Function.update_self, Option.some_inj, Prod.mk.injEq] at hk
      rw [Function.update_of_ne hji, ← hk.1] at hj
      exact absurd hj (hfresh j port)
    · rw [Function.update_of_ne hji] at hj
      rw [Function.update_of_ne hki] at hk
      exact h.unique hj hk
  · intro j m port hj
    rw [heq] at hj
    by_cases hji : j = i
    · rw [hji, Function.update_self, Option.some_inj, Prod.mk.injEq] at hj
      rw [hji, hj.2]
    · rw [Function.update_of_ne hji] at hj
      exact h.port hj

theorem Leased.tableStep (h : gw.Leased) (e : TableEvent) : (gw.tableStep e).Leased := by
  rcases leases_tableStep gw e with hkeep | ⟨n, i, hgrant⟩
  · have hold : ∀ {j x}, leases (gw.tableStep e).clients j = some x →
        leases gw.clients j = some x := by
      intro j x hj
      rcases hkeep j with heq | ⟨-, hnone⟩
      · rwa [← heq]
      · exact nomatch hnone.symm.trans hj
    exact ⟨fun hi hj ↦ h.unique (hold hi) (hold hj), fun hi ↦ h.port (hold hi)⟩
  · exact h.grant hgrant

theorem Leased.reached (es : List TableEvent) :
    (Trace.run Gateway.tableStep Gateway.boot es).Leased :=
  Trace.run_invariant' (P := Leased) (fun _ e hgw ↦ hgw.tableStep e) es Leased.boot

/-- **A lease lasts** until its slot expires. -/
theorem leases_of_not_expires {i : Fin MAX_CLIENTS} {x : UInt8 × UInt16} {es : List TableEvent}
    (h : leases gw.clients i = some x)
    (hes : Trace.Always Gateway.tableStep (fun gw e ↦ ¬e.Expires gw i) gw es) :
    leases (Trace.run Gateway.tableStep gw es).clients i = some x := by
  refine Trace.run_invariant (P := fun gw ↦ leases gw.clients i = some x) ?_ h hes
  intro gw e hgw hnot
  rcases leases_tableStep gw e with hkeep | ⟨n, j, hfree, -, heq⟩
  · rcases hkeep i with hsame | ⟨hexpires, -⟩
    · rw [hsame, hgw]
    · exact absurd hexpires hnot
  · have hne : i ≠ j := by
      rintro rfl
      exact nomatch hfree.symm.trans hgw
    rw [heq, Function.update_of_ne hne, hgw]

/-! ## What one frame touches -/

/-- A frame changes the slot of its own node at most. -/
theorem get_rxHandle_of_ne {p : RxPacket} {os : Os} {i : Fin MAX_CLIENTS}
    (hactive : gw.clients[i].active = true) (hid : gw.clients[i].nodeId ≠ p.pkt.srcId) :
    (rxHandle gw p os).1.clients[i] = gw.clients[i] := by
  cases hacc : rxAccepts gw p with
  | false => rw [rxHandle_of_not_accepts os hacc]
  | true =>
    rw [rxHandle_of_accepts os hacc]
    have hforward := clients_forwardToPaho (accepted gw p) p.pkt.srcId p.rhSeq p.hopsTaken p.plain
      (isConnect p.plain) os
    rw [accepted_clients] at hforward
    have hlookup := lookup gw.clients p.pkt.srcId (isConnect p.plain) os
    generalize getOrCreateClient gw.clients p.pkt.srcId (isConnect p.plain) os = r
      at hforward hlookup
    -- the slot that is set is not `i`: it is the slot of the node, or it was free
    have hset : r.1[i] = gw.clients[i] ∧ r.2 ≠ some i := by
      cases hlookup with
      | found j hj hidj =>
        have hne : j ≠ i := by
          rintro rfl
          exact hid hidj
        exact ⟨Slots.get_set_of_ne _ _ hne, fun heq ↦ hne (Option.some_inj.mp heq)⟩
      | full => exact ⟨rfl, fun heq ↦ (nomatch heq)⟩
      | created j hfree =>
        have hne : j ≠ i := by
          rintro rfl
          exact Bool.false_ne_true (hfree.symm.trans hactive)
        exact ⟨Slots.get_set_of_ne _ _ hne, fun heq ↦ hne (Option.some_inj.mp heq)⟩
      | failed j hfree =>
        have hne : j ≠ i := by
          rintro rfl
          exact Bool.false_ne_true (hfree.symm.trans hactive)
        exact ⟨Slots.get_set_of_ne _ _ hne, fun heq ↦ (nomatch heq)⟩
    rcases hforward with ⟨heq, -⟩ | ⟨j, c, heq, hsome, -, -⟩
    · rw [heq, hset.1]
    · have hne : j ≠ i := by
        rintro rfl
        exact hset.2 hsome
      rw [heq, Slots.get_set_of_ne _ _ hne, hset.1]

theorem rxHandle_of_not_available {p : RxPacket} {os : Os}
    (h : ¬SlotAvailable gw.clients p.pkt.srcId os) : (rxHandle gw p os).2 = none := by
  cases hacc : rxAccepts gw p with
  | false => rw [rxHandle_of_not_accepts os hacc]
  | true =>
    rw [rxHandle_of_accepts os hacc, forwardToPaho, accepted_clients]
    have hlookup := lookup gw.clients p.pkt.srcId (isConnect p.plain) os
    generalize getOrCreateClient gw.clients p.pkt.srcId (isConnect p.plain) os = r at hlookup ⊢
    cases hlookup with
    | found i hactive hid => exact absurd (Or.inl ⟨i, hactive, hid⟩) h
    | full => rfl
    | created i hfree hnew hsock hbind => exact absurd (Or.inr ⟨⟨i, hfree⟩, hsock, hbind⟩) h
    | failed => rfl

end Gateway

/-- The active pairs of node and port. -/
def activePairs (clients : Vector Client MAX_CLIENTS) : Set (UInt8 × UInt16) :=
  { x | ∃ i : Fin MAX_CLIENTS,
    clients[i].active = true ∧ clients[i].nodeId = x.1 ∧ clients[i].localPort = x.2 }

theorem activePairs_eq (clients : Vector Client MAX_CLIENTS) :
    activePairs clients = { x | ∃ i, leases clients i = some x } := by
  ext ⟨n, port⟩
  exact exists_congr fun i ↦ Client.lease_eq_some_iff.symm

open Gateway in
/-- **The client registry.** After any frames, with any answers of the operating system, any reads
of the sockets and any expiries: no node has two active slots, an active slot `i` has the port
`CLIENT_PORT_BASE + i`, no two have the same port, and a slot that was active has kept its node and
its port unless it expired. The next frame changes no active slot of another node, and without a
slot for its node it goes nowhere and leaves the active pairs as they are. -/
theorem registry_invariant (es : List TableEvent) :
    let gw := Trace.run tableStep Gateway.boot es
    (∀ i j : Fin MAX_CLIENTS, gw.clients[i].active = true → gw.clients[j].active = true →
      gw.clients[i].nodeId = gw.clients[j].nodeId → i = j) ∧
    (∀ i : Fin MAX_CLIENTS, gw.clients[i].active = true →
      gw.clients[i].localPort.toNat = CLIENT_PORT_BASE + i) ∧
    (∀ i j : Fin MAX_CLIENTS, gw.clients[i].active = true → gw.clients[j].active = true →
      gw.clients[i].localPort = gw.clients[j].localPort → i = j) ∧
    (∀ pre post, es = pre ++ post → ∀ i : Fin MAX_CLIENTS,
      (Trace.run tableStep Gateway.boot pre).clients[i].active = true →
      Trace.Always tableStep (fun gw e ↦ ¬e.Expires gw i)
        (Trace.run tableStep Gateway.boot pre) post →
      gw.clients[i].active = true ∧
        gw.clients[i].nodeId = (Trace.run tableStep Gateway.boot pre).clients[i].nodeId ∧
        gw.clients[i].localPort = (Trace.run tableStep Gateway.boot pre).clients[i].localPort) ∧
    (∀ (p : RxPacket) (os : Os) (i : Fin MAX_CLIENTS), gw.clients[i].active = true →
      gw.clients[i].nodeId ≠ p.pkt.srcId →
      (rxHandle gw p os).1.clients[i] = gw.clients[i]) ∧
    ∀ (p : RxPacket) (os : Os), ¬SlotAvailable gw.clients p.pkt.srcId os →
      (rxHandle gw p os).2 = none ∧
        activePairs (rxHandle gw p os).1.clients = activePairs gw.clients := by
  have hleased := Leased.reached es
  dsimp only
  -- an active slot, as a lease
  have hlease : ∀ {gw : Gateway} {i : Fin MAX_CLIENTS}, gw.clients[i].active = true →
      leases gw.clients i = some (gw.clients[i].nodeId, gw.clients[i].localPort) := fun h ↦
    Client.lease_eq_some_iff.mpr ⟨h, rfl, rfl⟩
  refine ⟨?_, ?_, ?_, ?_, ?_, ?_⟩
  · intro i j hi hj hid
    have hj' := hlease hj
    rw [← hid] at hj'
    exact hleased.unique (hlease hi) hj'
  · intro i hi
    rw [hleased.port (hlease hi), slotPort, UInt16.toNat_ofNat_of_lt']
    exact (Nat.add_lt_add_left i.isLt CLIENT_PORT_BASE).trans (by decide)
  · intro i j hi hj hport
    refine slotPort_injective ?_
    rw [← hleased.port (hlease hi), hport, hleased.port (hlease hj)]
  · rintro pre post rfl i hi hkeep
    rw [Trace.run_append]
    exact Client.lease_eq_some_iff.mp (leases_of_not_expires (hlease hi) hkeep)
  · intro p os i hi hid
    exact get_rxHandle_of_ne hi hid
  · intro p os hnone
    refine ⟨rxHandle_of_not_available hnone, ?_⟩
    rcases leases_rxHandle (Trace.run tableStep Gateway.boot es) p os with heq | ⟨hsome, -⟩
    · rw [activePairs_eq, activePairs_eq, heq]
    · exact absurd hsome hnone

end Emcs.Bridge
