import Emcs.Bridge.Sockets
import Emcs.Delivery.Sealing

/-!
# What the downstream thread reads

`downstream_thread` notes the descriptors of the active slots under `clients_lock`, waits in
`select` without the lock, and then goes through the slots under the lock: where `select` has
reported the descriptor, it calls `recvfrom`. The sockets block, so this call must find a datagram;
a thread that waits in it keeps the lock.

Between `select` and the second critical section `main` may take the lock. What `select` has
reported are numbers, and a number that is closed is the first to come back: the CONNECT of a node
that has a slot, and a new node after an expiry, put an empty socket under a number that is
reported. In all other runs the thread never waits.

Each critical section of `main` is one step here. In the second one of the thread every slot is a
step of its own, because datagrams arrive meanwhile. What the thread then sends to the radio leaves
clients and sockets alone.

## The invariant

The machine remembers the numbers that `socket` has returned since `select` came back and that no
datagram has reached since, `reused`. `Sound` says that among the reported numbers of the slots
still to be read, an empty socket is exactly one under a number of this list. A call of `recvfrom`
therefore waits exactly where the number was reused, step by step and in whole runs.
-/

namespace Emcs.Bridge

open Descriptors Mesh

namespace Host

/-- `on_rx_done` from the CONNECT test on, with its system calls. -/
def frame (s : Host) (p : RxPacket) (a : Answers) : Host × Os :=
  let r := if rxAccepts s.gateway p then
      systemCalls s.gateway.clients s.fds p.pkt.srcId (isConnect p.plain) a
    else (s.fds, ⟨a.time, -1, false⟩)
  ({ gateway := (rxHandle s.gateway p r.2).1, fds := r.1 }, r.2)

/-- A datagram arrives at the socket `d`. -/
def arrive (s : Host) (d : ℕ) (data : List UInt8) : Host :=
  { s with fds := s.fds.modify d fun sk ↦ { sk with queue := sk.queue ++ [data] } }

/-- `FD_ISSET`: a negative number is in no set. -/
def isSet (rfds : List ℕ) (fd : ℤ) : Bool := decide (0 ≤ fd) && decide (fd.toNat ∈ rfds)

/-- The socket `d` has a datagram. -/
def readable (s : Host) (d : ℕ) : Bool := (s.fds.file d).any fun sk ↦ !sk.queue.isEmpty

end Host

/-- Where `downstream_thread` is. The descriptors are those in `rfds`. -/
inductive Place where
  /-- Before its first critical section. -/
  | collect
  /-- In `select`. -/
  | select (rfds : List ℕ)
  /-- Before its second critical section, with what `select` has left in `rfds`. -/
  | lock (rfds : List ℕ)
  /-- In its second critical section, before slot `i`. -/
  | drain (i : ℕ) (rfds : List ℕ)
  deriving DecidableEq

/-- The two threads. -/
structure Downstream where
  host : Host
  place : Place
  /-- `d_data`, `d_node` and `d_seq` up to `count`. -/
  staged : List Staged
  /-- What the observer keeps: the descriptors that `socket` has returned since `select` came back,
  and at which nothing has arrived since. -/
  reused : List ℕ
  deriving DecidableEq

inductive ThreadEvent where
  /-- `main` handles a frame. -/
  | frame (p : RxPacket) (a : Answers)
  /-- `main` expires clients. -/
  | expire (now : ℤ)
  /-- A datagram arrives at the socket `d`. -/
  | arrive (d : ℕ) (data : List UInt8)
  /-- `downstream_thread` notes the descriptors. -/
  | collect
  /-- `select` returns. Of the descriptors that have a datagram it reports those in `seen`. -/
  | select (seen : List ℕ)
  /-- `downstream_thread` takes the lock again. -/
  | lock
  /-- `downstream_thread` deals with one slot, or gives the lock back after the last one. -/
  | drain

namespace Downstream

def boot (fds : Descriptors Socket) : Downstream := ⟨.boot fds, .collect, [], []⟩

/-- `downstream_thread` is in its second critical section. -/
def holdsLock (s : Downstream) : Bool :=
  match s.place with
  | .drain _ _ => true
  | _ => false

/-- The next step of `downstream_thread` calls `recvfrom` on this descriptor. -/
def receives (s : Downstream) : Option ℕ :=
  match s.place with
  | .drain i rfds =>
    if h : i < MAX_CLIENTS then
      let c := s.host.gateway.clients[i]
      if c.active && Host.isSet rfds c.udpSock then some c.udpSock.toNat else none
    else none
  | _ => none

/-- `recvfrom` takes a datagram from the socket of slot `i`, and the datagram is staged. -/
def receive (s : Downstream) (i : Fin MAX_CLIENTS) (d : ℕ) (data : List UInt8) : Downstream :=
  let r := stageClient s.host.gateway.clients i (some data)
  { s with
    host := ⟨{ s.host.gateway with clients := r.1 },
      s.host.fds.modify d fun sk ↦ { sk with queue := sk.queue.tail }⟩
    staged := s.staged ++ r.2.toList }

/-- One slot of the second critical section. A `recvfrom` without a datagram waits where it is. -/
def stepDrain (s : Downstream) (i : ℕ) (rfds : List ℕ) : Downstream :=
  if h : i < MAX_CLIENTS then
    match s.receives with
    | none => { s with place := .drain (i + 1) rfds }
    | some d =>
      match (s.host.fds.file d).map Socket.queue with
      | none => { s with place := .drain (i + 1) rfds }
      | some [] => s
      | some (data :: _) => { s.receive ⟨i, h⟩ d data with place := .drain (i + 1) rfds }
  else { s with place := .collect }

def step (s : Downstream) : ThreadEvent → Downstream
  | .frame p a =>
    -- `main` waits for the lock
    if s.holdsLock then s
    else
      let r := s.host.frame p a
      { s with host := r.1, reused := r.2.descriptor.toList ++ s.reused }
  | .expire now => if s.holdsLock then s else { s with host := s.host.expire now }
  | .arrive d data =>
    { s with host := s.host.arrive d data, reused := s.reused.filter (· ≠ d) }
  | .collect =>
    match s.place with
    | .collect =>
      let rfds := (List.finRange MAX_CLIENTS).filterMap (descriptors s.host.gateway.clients)
      if rfds = [] then s else { s with place := .select rfds }
    | _ => s
  | .select seen =>
    match s.place with
    | .select rfds =>
      let rfds := rfds.filter fun d ↦ decide (d ∈ seen) && s.host.readable d
      if rfds = [] then { s with place := .collect }
      else { s with place := .lock rfds, reused := [] }
    | _ => s
  | .lock =>
    match s.place with
    | .lock rfds => { s with place := .drain 0 rfds, staged := [] }
    | _ => s
  | .drain =>
    match s.place with
    | .drain i rfds => s.stepDrain i rfds
    | _ => s

/-- Where the step calls `recvfrom`, a datagram waits in the socket. -/
def NeverBlocks (s : Downstream) : ThreadEvent → Prop
  | .drain => ∀ d, s.receives = some d → ∃ sk, s.host.fds.file d = some sk ∧ sk.queue ≠ []
  | _ => True

/-- Where the step comes to a slot whose descriptor is reported, `socket` has not returned this
descriptor since `select` came back, or a datagram has arrived at it since. -/
def NotReused (s : Downstream) : ThreadEvent → Prop
  | .drain => ∀ d, s.receives = some d → d ∉ s.reused
  | _ => True

end Downstream

/-! ## What a frame does to the sockets -/

namespace Host

variable {s : Host} {p : RxPacket} {a : Answers}

theorem descriptor_congr {c c' : Client} (hlease : c.lease = c'.lease)
    (hsock : c.udpSock = c'.udpSock) : c.descriptor = c'.descriptor := by
  have hactive : c.active = c'.active := by
    cases hc : c'.active with
    | false => exact Client.lease_eq_none_iff.mp (hlease.trans (Client.lease_eq_none_iff.mpr hc))
    | true =>
      have hsome : c'.lease = some (c'.nodeId, c'.localPort) :=
        Client.lease_eq_some_iff.mpr ⟨hc, rfl, rfl⟩
      exact (Client.lease_eq_some_iff.mp (hlease.trans hsome)).1
  rw [Client.descriptor, Client.descriptor, hactive, hsock]

theorem Handled.congr {s' s'' : Host} {srcId : UInt8} {connect : Bool} {sock : ℤ}
    (h : Handled s srcId connect a s' sock)
    (hleases : leases s''.gateway.clients = leases s'.gateway.clients)
    (hsockets : s''.sockets = s'.sockets) : Handled s srcId connect a s'' sock := by
  cases h with
  | keep hresets hl hs hsock => exact .keep hresets (hleases.trans hl) (hsockets.trans hs) hsock
  | reset i port hresets hlease hl hs hsock =>
    exact .reset i port hresets hlease (hleases.trans hl) (hsockets.trans hs) hsock
  | created i hresets hgrant hs hsock =>
    exact .created i hresets ⟨hgrant.free, hgrant.fresh, hleases.trans hgrant.eq⟩
      (hsockets.trans hs) hsock

/-- **A frame does to the sockets what `get_or_create_client` does**, or nothing. -/
theorem handled_frame (ho : s.Owned) (p : RxPacket) (a : Answers) :
    (s.frame p a).1.Owned ∧
      Handled s p.pkt.srcId (isConnect p.plain) a (s.frame p a).1 (s.frame p a).2.sock := by
  cases hacc : rxAccepts s.gateway p with
  | false =>
    have hconnect : isConnect p.plain ≠ true := fun hc ↦
      Bool.false_ne_true (hacc.symm.trans (rxAccepts_iff.mpr (Or.inl hc)))
    rw [frame, hacc, rxHandle_of_not_accepts _ hacc]
    refine ⟨ho, .keep (fun h ↦ hconnect h.1) rfl rfl fun j d sk _ heq ↦ ?_⟩
    change (-1 : ℤ) = d at heq
    omega
  | true =>
    have hcreate := handled_getOrCreate ho p.pkt.srcId (isConnect p.plain) a
    have hforward := Gateway.clients_forwardToPaho (accepted s.gateway p) p.pkt.srcId p.rhSeq
      p.hopsTaken p.plain (isConnect p.plain)
      (systemCalls s.gateway.clients s.fds p.pkt.srcId (isConnect p.plain) a).2
    rw [accepted_clients] at hforward
    -- the packet is counted in the slot, which keeps its lease and its descriptor
    have hsame : leases (s.frame p a).1.gateway.clients
          = leases (s.getOrCreate p.pkt.srcId (isConnect p.plain) a).gateway.clients ∧
        descriptors (s.frame p a).1.gateway.clients
          = descriptors (s.getOrCreate p.pkt.srcId (isConnect p.plain) a).gateway.clients := by
      rw [frame, hacc, if_pos rfl, rxHandle_of_accepts _ hacc]
      rcases hforward with ⟨heq, -⟩ | ⟨i, c, heq, -, hlease, hsock⟩
      · rw [heq]
        exact ⟨rfl, rfl⟩
      · rw [heq]
        exact ⟨leases_set i hlease, descriptors_set_of_eq (descriptor_congr hlease hsock)⟩
    have hfds : (s.frame p a).1.fds = (s.getOrCreate p.pkt.srcId (isConnect p.plain) a).fds := by
      rw [frame, hacc]
      rfl
    have hsockname : (s.frame p a).2.sock
        = (systemCalls s.gateway.clients s.fds p.pkt.srcId (isConnect p.plain) a).2.sock := by
      rw [frame, hacc]
      rfl
    refine ⟨?_, ?_⟩
    · rw [Owned, hfds, hsame.2]
      exact hcreate.1
    · rw [hsockname]
      refine hcreate.2.congr hsame.1 ?_
      rw [sockets, sockets, hfds, hsame.2]

theorem sockets_eq_some_iff {j : Fin MAX_CLIENTS} {d : ℕ} {sk : Socket} :
    s.sockets j = some (d, sk) ↔
      descriptors s.gateway.clients j = some d ∧ s.fds.file d = some sk :=
  held_eq_some_iff

theorem descriptors_stageClient (clients : Vector Client MAX_CLIENTS) (i : Fin MAX_CLIENTS)
    (dgram : Option (List UInt8)) :
    descriptors (stageClient clients i dgram).1 = descriptors clients := by
  cases dgram with
  | none => rfl
  | some data =>
    rw [stageClient]
    split
    · rfl
    · exact descriptors_set_of_eq rfl

end Host

/-! ## Reported sockets -/

namespace Downstream

variable {s : Downstream}

/-- The slots from `i` on are still to be read where their descriptor is in `rfds`. -/
def reported : Place → Option (ℕ × List ℕ)
  | .lock rfds => some (0, rfds)
  | .drain i rfds => some (i, rfds)
  | _ => none

/-- A reported socket is empty if and only if its number was reused. -/
structure Sound (s : Downstream) : Prop where
  owned : s.host.Owned
  empty_iff : ∀ {i rfds d sk}, reported s.place = some (i, rfds) → d ∈ rfds →
    ∀ j : Fin MAX_CLIENTS, i ≤ j.val → s.host.sockets j = some (d, sk) →
      (sk.queue = [] ↔ d ∈ s.reused)

theorem Sound.boot (fds : Descriptors Socket) : (Downstream.boot fds).Sound :=
  ⟨Host.Owned.boot fds, fun h ↦ (nomatch h)⟩

theorem filter_descriptor (c : Client) (rfds : List ℕ) :
    (c.descriptor.filter fun d ↦ decide (d ∈ rfds))
      = if c.active && Host.isSet rfds c.udpSock then some c.udpSock.toNat else none := by
  rw [Client.descriptor, Host.isSet]
  cases c.active with
  | false => rfl
  | true =>
    by_cases hpos : 0 ≤ c.udpSock
    · simp [hpos, Option.filter_some]
    · simp [hpos]

theorem receives_eq {i : ℕ} (hi : i < MAX_CLIENTS) {rfds : List ℕ}
    (hplace : s.place = .drain i rfds) : s.receives
      = (descriptors s.host.gateway.clients ⟨i, hi⟩).filter fun d ↦ decide (d ∈ rfds) := by
  rw [receives, hplace, descriptors, filter_descriptor]
  exact dif_pos hi

theorem of_receives {d : ℕ} (h : s.receives = some d) :
    ∃ i rfds, ∃ hi : i < MAX_CLIENTS, s.place = .drain i rfds ∧ d ∈ rfds ∧
      descriptors s.host.gateway.clients ⟨i, hi⟩ = some d := by
  cases hplace : s.place with
  | drain i rfds =>
    by_cases hi : i < MAX_CLIENTS
    · rw [receives_eq hi hplace, Option.filter_eq_some_iff, decide_eq_true_eq] at h
      exact ⟨i, rfds, hi, rfl, h.2, h.1⟩
    · rw [receives, hplace] at h
      exact nomatch (dif_neg hi).symm.trans h
  | _ =>
    rw [receives, hplace] at h
    exact nomatch h

/-- What the drain reads is an open socket, and empty if and only if its number was reused. -/
theorem Sound.receives (h : s.Sound) {d : ℕ} (hd : s.receives = some d) :
    ∃ sk, s.host.fds.file d = some sk ∧ (sk.queue = [] ↔ d ∈ s.reused) := by
  obtain ⟨i, rfds, hi, hplace, hmem, hdesc⟩ := of_receives hd
  obtain ⟨sk, hfile⟩ := Option.ne_none_iff_exists'.mp (h.owned.isOpen hdesc)
  have hplace' : reported s.place = some (i, rfds) := by rw [hplace]; rfl
  exact ⟨sk, hfile, h.empty_iff hplace' hmem ⟨i, hi⟩ (Nat.le_refl i)
    (Host.sockets_eq_some_iff.mpr ⟨hdesc, hfile⟩)⟩

/-- **The step**: `recvfrom` finds a datagram if and only if the number was not reused. -/
theorem neverBlocks_iff (h : s.Sound) (e : ThreadEvent) : s.NeverBlocks e ↔ s.NotReused e := by
  cases e with
  | drain =>
    refine forall_congr' fun d ↦ forall_congr' fun hd ↦ ?_
    obtain ⟨sk, hfile, hempty⟩ := h.receives hd
    constructor
    · rintro ⟨sk', hfile', hne⟩ hreused
      rw [hfile, Option.some_inj] at hfile'
      exact hne (hfile' ▸ hempty.mpr hreused)
    · intro hnot
      exact ⟨sk, hfile, fun hnil ↦ hnot (hempty.mp hnil)⟩
  | _ => exact Iff.rfl

/-! ## The invariant holds in every run -/

theorem Sound.frame (h : s.Sound) (p : RxPacket) (a : Answers) : (s.step (.frame p a)).Sound := by
  rw [step]
  split
  · exact h
  obtain ⟨howned, hhandled⟩ := Host.handled_frame h.owned p a
  refine ⟨howned, ?_⟩
  intro i rfds d sk hplace hmem j hij hj
  have hnew : d ∈ (s.host.frame p a).2.descriptor.toList ↔ (s.host.frame p a).2.sock = d := by
    rw [Option.mem_toList, Os.descriptor]
    split
    · exact iff_of_false (fun hnone ↦ (nomatch hnone)) (by omega)
    · rw [Option.some_inj]
      omega
  rw [List.mem_append, hnew]
  rcases hhandled.slot howned hj with ⟨hold, hne⟩ | ⟨heq, hempty⟩
  · rw [or_iff_right hne]
    exact h.empty_iff hplace hmem j hij hold
  · exact iff_of_true hempty (Or.inl heq)

theorem Sound.expire (h : s.Sound) (now : ℤ) : (s.step (.expire now)).Sound := by
  rw [step]
  split
  · exact h
  obtain ⟨howned, hsockets⟩ := Host.sockets_expire h.owned now
  refine ⟨howned, ?_⟩
  intro i rfds d sk hplace hmem j hij hj
  rw [hsockets] at hj
  exact h.empty_iff hplace hmem j hij (Option.ite_none_left_eq_some.mp hj).2

theorem Sound.arrive (h : s.Sound) (d : ℕ) (data : List UInt8) :
    (s.step (.arrive d data)).Sound := by
  refine ⟨h.owned.of_modify d _, ?_⟩
  intro i rfds d' sk hplace hmem j hij hj
  obtain ⟨hdesc, hfile⟩ := Host.sockets_eq_some_iff.mp hj
  rw [step, List.mem_filter, decide_eq_true_eq]
  by_cases hd : d' = d
  · -- the datagram that arrives is in the queue now
    rw [hd] at hfile ⊢
    refine iff_of_false ?_ fun hand ↦ hand.2 rfl
    obtain ⟨sk₀, -, rfl⟩ := Option.map_eq_some_iff.mp ((file_modify_self _ d _).symm.trans hfile)
    exact List.append_ne_nil_of_right_ne_nil _ (List.cons_ne_nil data [])
  · rw [and_iff_left hd]
    have hold : s.host.fds.file d' = some sk := (file_modify_of_ne _ _ hd).symm.trans hfile
    exact h.empty_iff hplace hmem j hij (Host.sockets_eq_some_iff.mpr ⟨hdesc, hold⟩)

theorem Sound.collect (h : s.Sound) : (s.step .collect).Sound := by
  rw [step]
  split
  · dsimp only
    split
    · exact h
    · exact ⟨h.owned, fun hnone ↦ (nomatch hnone)⟩
  · exact h

theorem Sound.select (h : s.Sound) (seen : List ℕ) : (s.step (.select seen)).Sound := by
  rw [step]
  split
  · dsimp only
    split
    · exact ⟨h.owned, fun hnone ↦ (nomatch hnone)⟩
    · -- nothing is reused yet, and what is reported has a datagram
      refine ⟨h.owned, ?_⟩
      intro i rfds d sk hplace hmem j hij hj
      obtain ⟨-, rfl⟩ := Prod.mk.inj (Option.some_inj.mp hplace)
      obtain ⟨-, hfile⟩ := Host.sockets_eq_some_iff.mp hj
      have hread := (List.mem_filter.mp hmem).2
      rw [Bool.and_eq_true, Host.readable, hfile, Option.any_some, Bool.not_eq_true',
        List.isEmpty_eq_false_iff] at hread
      exact iff_of_false hread.2 List.not_mem_nil
  · exact h

theorem Sound.lock (h : s.Sound) : (s.step .lock).Sound := by
  rw [step]
  split
  · rename_i rfds hplace
    refine ⟨h.owned, ?_⟩
    intro i rfds' d sk hplace' hmem
    have hbefore : reported s.place = some (i, rfds') := by
      rw [hplace]
      exact hplace'
    exact h.empty_iff hbefore hmem
  · exact h

theorem Sound.next (h : s.Sound) {i : ℕ} {rfds : List ℕ} (hplace : s.place = .drain i rfds) :
    Sound { s with place := .drain (i + 1) rfds } := by
  refine ⟨h.owned, ?_⟩
  intro i' rfds' d sk hplace' hmem j hij hj
  obtain ⟨rfl, rfl⟩ := Prod.mk.inj (Option.some_inj.mp hplace')
  have hbefore : reported s.place = some (i, rfds) := by
    rw [hplace]
    rfl
  exact h.empty_iff hbefore hmem j (Nat.le_of_succ_le hij) hj

theorem sockets_receive (ho : s.host.Owned) {i j : Fin MAX_CLIENTS} {d : ℕ} (data : List UInt8)
    (hdesc : descriptors s.host.gateway.clients i = some d) (hji : j ≠ i) :
    (s.receive i d data).host.sockets j = s.host.sockets j := by
  have heq := Host.descriptors_stageClient s.host.gateway.clients i (some data)
  refine held_congr (congrFun heq j) fun d' hd' ↦ file_modify_of_ne _ _ ?_
  rintro rfl
  exact hji (ho.unique hd' hdesc)

theorem Sound.receive (h : s.Sound) {i : ℕ} (hi : i < MAX_CLIENTS) {rfds : List ℕ} {d : ℕ}
    (data : List UInt8) (hplace : s.place = .drain i rfds)
    (hdesc : descriptors s.host.gateway.clients ⟨i, hi⟩ = some d) :
    Sound { s.receive ⟨i, hi⟩ d data with place := .drain (i + 1) rfds } := by
  have heq := Host.descriptors_stageClient s.host.gateway.clients ⟨i, hi⟩ (some data)
  refine ⟨?_, ?_⟩
  · rw [Host.Owned]
    exact heq ▸ h.owned.of_modify d _
  · intro i' rfds' d' sk hplace' hmem j hij hj
    obtain ⟨rfl, rfl⟩ := Prod.mk.inj (Option.some_inj.mp hplace')
    have hji : j ≠ ⟨i, hi⟩ := by
      rintro rfl
      exact absurd hij (Nat.not_succ_le_self i)
    have hbefore : reported s.place = some (i, rfds) := by
      rw [hplace]
      rfl
    exact h.empty_iff hbefore hmem j (Nat.le_of_succ_le hij)
      ((sockets_receive h.owned data hdesc hji).symm.trans hj)

theorem Sound.drain (h : s.Sound) : (s.step .drain).Sound := by
  rw [step]
  split
  · rename_i i rfds hplace
    rw [stepDrain]
    split
    · rename_i hi
      cases hd : s.receives with
      | none => exact h.next hplace
      | some d =>
        obtain ⟨i', rfds', hi', hplace', hmem, hdesc⟩ := of_receives hd
        obtain ⟨rfl, rfl⟩ := Place.drain.inj (hplace.symm.trans hplace')
        dsimp only
        split
        · exact h.next hplace
        · exact h
        · exact h.receive hi _ hplace hdesc
    · exact ⟨h.owned, fun hnone ↦ (nomatch hnone)⟩
  · exact h

theorem Sound.step (h : s.Sound) (e : ThreadEvent) : (s.step e).Sound := by
  cases e with
  | frame p a => exact h.frame p a
  | expire now => exact h.expire now
  | arrive d data => exact h.arrive d data
  | collect => exact h.collect
  | select seen => exact h.select seen
  | lock => exact h.lock
  | drain => exact h.drain

/-- **When the downstream thread never waits under the lock.** In every interleaving of the two
threads and of the datagrams that arrive, with whatever the process has open and whatever the system
answers: every `recvfrom` finds a datagram, if and only if no slot is read under a number that
`socket` has returned since `select` reported it, unless a datagram has arrived there since. -/
theorem neverBlocks_always_iff (fds : Descriptors Socket) (es : List ThreadEvent) :
    Trace.Always step NeverBlocks (boot fds) es ↔ Trace.Always step NotReused (boot fds) es :=
  Trace.always_iff_always (P := Sound) (fun _ e h ↦ neverBlocks_iff h e) (fun _ e h _ ↦ h.step e)
    (Sound.boot fds)

theorem length_sealed_le {m : List UInt8} (h : m.length ≤ 47) :
    (Delivery.sealed m).length ≤ MESH_PAYLOAD_MAX := by
  rw [Delivery.length_sealed]
  change _ ≤ 247
  omega

/-- The CONNECT of node `0x21` with the sequence number `seq`, straight from the node. -/
def connectPacket (seq : UInt8) : RxPacket where
  pkt := ⟨0x21, MESH_ADDR_GATEWAY, MESH_TTL_DEFAULT, seq, Delivery.sealed [6, 0x04, 0x04, 1, 0, 60],
    length_sealed_le (by decide)⟩
  rhSeq := seq
  hopsTaken := 0
  plain := [6, 0x04, 0x04, 1, 0, 60]

/-- **A CONNECT between `select` and the lock.** Node `0x21` connects, a datagram comes for it and
`select` reports descriptor 3. The node connects again, which closes descriptor 3 and opens it anew.
`recvfrom` then waits on an empty socket, and the thread stays there with the lock. -/
theorem reset_blocks :
    let s := Trace.run step (boot Host.stdio)
      [.frame (connectPacket 1) ⟨0, true, true⟩, .arrive 3 [3, 0x05, 0], .collect, .select [3],
        .frame (connectPacket 2) ⟨1, true, true⟩, .lock]
    ¬s.NeverBlocks .drain ∧ s.receives = some 3 ∧
      (s.host.fds.file 3).map Socket.queue = some [] ∧ s.step .drain = s ∧ s.holdsLock = true := by
  intro s
  have hreceives : s.receives = some 3 := by decide +kernel
  have hempty : (s.host.fds.file 3).map Socket.queue = some [] := by decide +kernel
  refine ⟨fun hnever ↦ ?_, hreceives, hempty, by decide +kernel, by decide +kernel⟩
  obtain ⟨sk, hfile, hne⟩ := hnever 3 hreceives
  rw [hfile, Option.map_some, Option.some_inj] at hempty
  exact hne hempty

/-! ## An undisturbed pass -/

/-- What the drain reads of slot `j`. -/
def waiting (s : Host) (rfds : List ℕ) (j : Fin MAX_CLIENTS) : Option (List UInt8) :=
  (s.sockets j).bind fun x ↦ if x.1 ∈ rfds then x.2.queue.head? else none

theorem waiting_eq {i : ℕ} (hi : i < MAX_CLIENTS) {rfds : List ℕ}
    (hplace : s.place = .drain i rfds) : waiting s.host rfds ⟨i, hi⟩
      = s.receives.bind fun d ↦ (s.host.fds.file d).bind fun sk ↦ sk.queue.head? := by
  rw [receives_eq hi hplace, waiting, Host.sockets, held]
  cases hd : descriptors s.host.gateway.clients ⟨i, hi⟩ with
  | none => rfl
  | some d =>
    cases hfile : s.host.fds.file d with
    | none =>
      rw [Option.bind_some, hfile, Option.filter_some]
      split <;> simp [hfile]
    | some sk =>
      rw [Option.bind_some, hfile, Option.filter_some]
      by_cases hmem : d ∈ rfds
      · simp [hmem, hfile]
      · simp [hmem]

/-- What one slot of the drain does when it does not wait. -/
theorem step_drain {i : ℕ} (hi : i < MAX_CLIENTS) {rfds : List ℕ}
    (hplace : s.place = .drain i rfds) (hnever : s.NeverBlocks .drain) :
    s.receives = none ∧ s.step .drain = { s with place := .drain (i + 1) rfds } ∨
      ∃ d sk data, s.receives = some d ∧ s.host.fds.file d = some sk ∧
        sk.queue.head? = some data ∧
        s.step .drain = { s.receive ⟨i, hi⟩ d data with place := .drain (i + 1) rfds } := by
  have hstep : s.step .drain = s.stepDrain i rfds := by
    rw [step, hplace]
  rw [hstep, stepDrain, dif_pos hi]
  cases hd : s.receives with
  | none => exact Or.inl ⟨rfl, rfl⟩
  | some d =>
    obtain ⟨sk, hfile, hne⟩ := hnever d hd
    obtain ⟨data, rest, hqueue⟩ := List.exists_cons_of_ne_nil hne
    refine Or.inr ⟨d, sk, data, rfl, hfile, by rw [hqueue, List.head?_cons], ?_⟩
    simp only [hfile, Option.map_some, hqueue]

/-- One slot of the drain stages what waits there, and the slots behind keep what waits for them. -/
theorem collect_step (h : s.Sound) {i : ℕ} (hi : i < MAX_CLIENTS) {rfds : List ℕ}
    (hplace : s.place = .drain i rfds) (hnever : s.NeverBlocks .drain) :
    let r := stageClient s.host.gateway.clients ⟨i, hi⟩ (waiting s.host rfds ⟨i, hi⟩)
    (s.step .drain).host.gateway.clients = r.1 ∧ (s.step .drain).staged = s.staged ++ r.2.toList ∧
      (s.step .drain).place = .drain (i + 1) rfds ∧
      ∀ j : Fin MAX_CLIENTS, i < j.val →
        waiting (s.step .drain).host rfds j = waiting s.host rfds j := by
  rw [waiting_eq hi hplace]
  rcases step_drain hi hplace hnever with ⟨hd, heq⟩ | ⟨d, sk, data, hd, hfile, hhead, heq⟩
  · rw [heq, hd]
    exact ⟨rfl, (List.append_nil _).symm, rfl, fun _ _ ↦ rfl⟩
  · rw [heq, hd, Option.bind_some, hfile, Option.bind_some, hhead]
    refine ⟨rfl, rfl, rfl, fun j hj ↦ ?_⟩
    have hji : j ≠ ⟨i, hi⟩ := by
      rintro rfl
      exact Nat.lt_irrefl i hj
    obtain ⟨i', rfds', hi', hplace', -, hdesc⟩ := of_receives hd
    obtain ⟨rfl, rfl⟩ := Place.drain.inj (hplace.symm.trans hplace')
    rw [waiting, waiting]
    exact congrArg (Option.bind · _) (sockets_receive h.owned data hdesc hji)

/-- The slots that are left, one after the other. -/
theorem collect_run {rfds : List ℕ} {ready : Fin MAX_CLIENTS → Option (List UInt8)} {n : ℕ}
    {i : ℕ} (hn : i + n = MAX_CLIENTS) (h : s.Sound) (hplace : s.place = .drain i rfds)
    (hready : ∀ j : Fin MAX_CLIENTS, i ≤ j.val → waiting s.host rfds j = ready j)
    (hnever : Trace.Always step NeverBlocks s (List.replicate n .drain)) :
    let s' := Trace.run step s (List.replicate n .drain)
    (s'.host.gateway.clients, s'.staged) = ((List.finRange MAX_CLIENTS).drop i).foldl
      (fun acc i ↦
        let r := stageClient acc.1 i (ready i)
        (r.1, acc.2 ++ r.2.toList)) (s.host.gateway.clients, s.staged) := by
  induction n generalizing s i with
  | zero =>
    have hlen : (List.finRange MAX_CLIENTS).length ≤ i := by
      rw [List.length_finRange]
      exact Nat.le_of_eq hn.symm
    rw [List.drop_eq_nil_of_le hlen]
    rfl
  | succ n ih =>
    have hi : i < MAX_CLIENTS := by omega
    obtain ⟨hclients, hstaged, hplace', hwaiting⟩ := collect_step h hi hplace hnever.1
    have hlen : i < (List.finRange MAX_CLIENTS).length := by
      rw [List.length_finRange]
      exact hi
    have hrest := ih (by omega) (h.step .drain) hplace'
      (fun j hj ↦ (hwaiting j hj).trans (hready j (Nat.le_of_succ_le hj))) hnever.2
    rw [hclients, hstaged, hready ⟨i, hi⟩ (Nat.le_refl i)] at hrest
    rw [List.drop_eq_getElem_cons hlen, List.getElem_finRange]
    exact hrest

/-- **An undisturbed pass is the collecting loop**: what the thread stages, and how the slots
count. -/
theorem drain_eq_collect (h : s.Sound) {rfds : List ℕ} (hplace : s.place = .lock rfds)
    (hnever : Trace.Always step NeverBlocks s (.lock :: List.replicate MAX_CLIENTS .drain)) :
    let s' := Trace.run step s (.lock :: List.replicate MAX_CLIENTS .drain)
    (s'.host.gateway.clients, s'.staged)
      = collect s.host.gateway.clients (waiting s.host rfds) := by
  have hlock : s.step .lock = { s with place := .drain 0 rfds, staged := [] } := by
    rw [step, hplace]
  have hready : ∀ j : Fin MAX_CLIENTS, 0 ≤ j.val →
      waiting (s.step .lock).host rfds j = waiting s.host rfds j := fun j _ ↦ by rw [hlock]
  have hrun := collect_run (Nat.zero_add MAX_CLIENTS) (h.step .lock) (by rw [hlock]) hready hnever.2
  rw [List.drop_zero, hlock] at hrun
  dsimp only
  rw [Trace.run_cons, hlock]
  exact hrun

end Downstream

end Emcs.Bridge
