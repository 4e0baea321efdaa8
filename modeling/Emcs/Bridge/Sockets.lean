import Emcs.Bridge.Table
import Emcs.Lib.Descriptors

/-!
# The sockets of the clients

The table of the clients and, beside it, what the descriptors in it stand for: `socket` returns the
lowest number that is free, `bind` gives the socket its port, and `close` throws the queued
datagrams away. What else the process has open takes up numbers and is never looked at.

Whether `socket` and `bind` succeed is up to the system, for each call. A slot that is new is given
up where one of them fails. The CONNECT of a node that has a slot closes its socket first and looks
at neither answer.

## The invariant

Every descriptor that an active slot keeps is open, and no two slots keep the same one (`Owned`,
from the library on descriptor tables). It holds in every run whatever the system answers, and lets
each slot be looked at as if it had a socket of its own, `sockets`.

`Usable`, that the socket of an active slot is open and bound to the port of the slot, is what the
bridge relies on and is not an invariant. One step keeps it if and only if it does not reset a
socket in vain (`usable_step_iff`), and the same holds of runs: a slot that has lost its socket
stays active without one.
-/

namespace Emcs.Bridge

open Descriptors

/-! ## The system calls -/

/-- A UDP socket: the port it is bound to, and the datagrams that wait. -/
structure Socket where
  port : Option UInt16
  queue : List (List UInt8)
  deriving DecidableEq

/-- What the system answers to one call of `get_or_create_client`. -/
structure Answers where
  time : ℤ
  socketOk : Bool
  bindOk : Bool

/-- `close(fd)`: a negative number is refused. -/
def closeFd (fds : Descriptors Socket) (fd : ℤ) : Descriptors Socket :=
  if fd < 0 then fds else fds.close fd.toNat

/-- `socket(AF_INET, SOCK_DGRAM, 0)` and `bind` to `port`: the descriptors, and what the two calls
return. -/
def socketAndBind (fds : Descriptors Socket) (port : UInt16) (a : Answers) :
    Descriptors Socket × Os :=
  if !a.socketOk then (fds, ⟨a.time, -1, false⟩)
  else
    let bound := if a.bindOk then some port else none
    (fds.openFile ⟨bound, []⟩, ⟨a.time, fds.free, a.bindOk⟩)

/-- The system calls of `get_or_create_client`. The port of a slot that is taken is the one the
function has just written there. -/
def systemCalls (clients : Vector Client MAX_CLIENTS) (fds : Descriptors Socket) (srcId : UInt8)
    (connect : Bool) (a : Answers) : Descriptors Socket × Os :=
  match Slots.first (fun c ↦ c.active && c.nodeId == srcId) clients with
  | some i =>
    if connect then socketAndBind (closeFd fds clients[i].udpSock) clients[i].localPort a
    else (fds, ⟨a.time, -1, false⟩)
  | none =>
    match Slots.first (fun c ↦ !c.active) clients with
    | none => (fds, ⟨a.time, -1, false⟩)
    | some i =>
      let r := socketAndBind fds (slotPort i) a
      if r.2.sock < 0 then r
      else if !r.2.bindOk then (closeFd r.1 r.2.sock, r.2)
      else r

/-- The variables of the bridge and its descriptors. -/
structure Host where
  gateway : Gateway
  fds : Descriptors Socket
  deriving DecidableEq

/-- The bridge as `main` starts it, with what the process has open by then. -/
def Host.boot (fds : Descriptors Socket) : Host := ⟨Gateway.boot, fds⟩

/-- One call of a function of the table. -/
inductive Call where
  | getOrCreate (srcId : UInt8) (connect : Bool) (a : Answers)
  | expire (now : ℤ)

namespace Host

/-- `get_or_create_client` with its system calls. -/
def getOrCreate (s : Host) (srcId : UInt8) (connect : Bool) (a : Answers) : Host :=
  let r := systemCalls s.gateway.clients s.fds srcId connect a
  { gateway := { s.gateway with
      clients := (getOrCreateClient s.gateway.clients srcId connect r.2).1 }
    fds := r.1 }

/-- The slot is one that `expire_clients` ends at the time `now`. -/
def timedOut (c : Client) (now : ℤ) : Bool :=
  c.active && decide (CLIENT_TIMEOUT_S ≤ now - c.lastSeen)

/-- `expire_clients` with its calls of `close`. -/
def expire (s : Host) (now : ℤ) : Host where
  gateway := expireClients s.gateway now
  fds := (List.finRange MAX_CLIENTS).foldl
    (fun fds i ↦ if timedOut s.gateway.clients[i] now then closeFd fds s.gateway.clients[i].udpSock
      else fds) s.fds

def step (s : Host) : Call → Host
  | .getOrCreate srcId connect a => s.getOrCreate srcId connect a
  | .expire now => s.expire now

/-- The socket of an active slot is open and bound to the port of the slot. -/
def Usable (s : Host) : Prop :=
  ∀ i : Fin MAX_CLIENTS, s.gateway.clients[i].active = true →
    0 ≤ s.gateway.clients[i].udpSock ∧
      (s.fds.file s.gateway.clients[i].udpSock.toNat).bind Socket.port
        = some s.gateway.clients[i].localPort

instance (s : Host) : Decidable s.Usable :=
  inferInstanceAs (Decidable (∀ i : Fin MAX_CLIENTS, s.gateway.clients[i].active = true → _))

/-- The CONNECT of a node that has a slot. -/
def Resets (s : Host) (srcId : UInt8) (connect : Bool) : Prop :=
  connect = true ∧ ∃ i : Fin MAX_CLIENTS,
    s.gateway.clients[i].active = true ∧ s.gateway.clients[i].nodeId = srcId

/-- Where the call resets the slot of a node, both `socket` and `bind` succeed. -/
def ResetSucceeds (s : Host) : Call → Prop
  | .getOrCreate srcId connect a =>
    s.Resets srcId connect → a.socketOk = true ∧ a.bindOk = true
  | .expire _ => True

end Host

/-! ## Each slot has a socket of its own -/

/-- The descriptor that a slot keeps. -/
def Client.descriptor (c : Client) : Option ℕ :=
  if c.active = true ∧ 0 ≤ c.udpSock then some c.udpSock.toNat else none

def descriptors (clients : Vector Client MAX_CLIENTS) (j : Fin MAX_CLIENTS) : Option ℕ :=
  clients[j].descriptor

namespace Host

/-- The open sockets of the active slots, with their numbers. -/
def sockets (s : Host) : Fin MAX_CLIENTS → Option (ℕ × Socket) :=
  held s.fds (descriptors s.gateway.clients)

/-- The descriptors in the active slots are open and distinct. -/
abbrev Owned (s : Host) : Prop := Descriptors.Owned s.fds (descriptors s.gateway.clients)

end Host

section Slots

variable {clients : Vector Client MAX_CLIENTS} {fds : Descriptors Socket} {i : Fin MAX_CLIENTS}

theorem descriptor_eq_none {c : Client} (h : c.active = false) : c.descriptor = none := by
  rw [Client.descriptor, if_neg]
  rintro ⟨hactive, -⟩
  exact Bool.false_ne_true (h.symm.trans hactive)

theorem descriptor_of_active {c : Client} (h : c.active = true) :
    c.descriptor = if c.udpSock < 0 then none else some c.udpSock.toNat := by
  rw [Client.descriptor]
  by_cases hneg : c.udpSock < 0
  · rw [if_pos hneg, if_neg]
    exact fun hand ↦ absurd hand.2 (not_le.mpr hneg)
  · rw [if_neg hneg, if_pos ⟨h, not_lt.mp hneg⟩]

theorem descriptors_set (clients : Vector Client MAX_CLIENTS) (i : Fin MAX_CLIENTS) (c : Client) :
    descriptors (clients.set i c i.isLt)
      = Function.update (descriptors clients) i c.descriptor := by
  funext j
  by_cases hji : j = i
  · rw [hji, Function.update_self, descriptors, Slots.get_set_self]
  · rw [Function.update_of_ne hji, descriptors, descriptors, Slots.get_set_of_ne _ _ (Ne.symm hji)]

theorem descriptors_set_of_eq {c : Client} (h : c.descriptor = clients[i].descriptor) :
    descriptors (clients.set i c i.isLt) = descriptors clients := by
  rw [descriptors_set, h]
  exact Function.update_eq_self i (descriptors clients)

theorem owned_closeFd {h : Fin MAX_CLIENTS → Option ℕ} (ho : Descriptors.Owned fds h)
    (hi : h i = descriptors clients i) (hactive : clients[i].active = true) :
    Descriptors.Owned (closeFd fds clients[i].udpSock) (Function.update h i none) ∧
      held (closeFd fds clients[i].udpSock) (Function.update h i none)
        = Function.update (held fds h) i none := by
  have hd : h i = if clients[i].udpSock < 0 then none else some clients[i].udpSock.toNat :=
    hi.trans (descriptor_of_active hactive)
  rw [closeFd]
  split
  · exact ⟨ho.forget i, held_forget i⟩
  · rename_i hneg
    rw [if_neg hneg] at hd
    exact ⟨ho.close hd, held_close ho hd⟩

/-- The socket that `socket` and `bind` leave. -/
def opened (a : Answers) (d : ℕ) (port : UInt16) : Option (ℕ × Socket) :=
  if a.socketOk then some (d, ⟨if a.bindOk then some port else none, []⟩) else none

/-- The descriptor that `socket` returns, as a slot keeps it. -/
def Os.descriptor (os : Os) : Option ℕ := if os.sock < 0 then none else some os.sock.toNat

theorem owned_socketAndBind {h : Fin MAX_CLIENTS → Option ℕ} (ho : Descriptors.Owned fds h)
    (i : Fin MAX_CLIENTS) (port : UInt16) (a : Answers) :
    Descriptors.Owned (socketAndBind fds port a).1
        (Function.update h i (socketAndBind fds port a).2.descriptor) ∧
      held (socketAndBind fds port a).1
          (Function.update h i (socketAndBind fds port a).2.descriptor)
        = Function.update (held fds h) i
          (opened a (socketAndBind fds port a).2.sock.toNat port) := by
  rw [socketAndBind, opened]
  cases a.socketOk with
  | false => exact ⟨ho.forget i, held_forget i⟩
  | true => exact ⟨ho.openFile i _, held_openFile ho i _⟩

end Slots

/-! ## What a call does to the slots -/

namespace Host

variable {s s' : Host} {srcId : UInt8} {connect : Bool} {a : Answers}

/-- What `get_or_create_client` does to the slots and their sockets; `sock` is what its call of
`socket` returned, if it made one. -/
inductive Handled (s : Host) (srcId : UInt8) (connect : Bool) (a : Answers) (s' : Host) (sock : ℤ) :
    Prop where
  | keep (hresets : ¬s.Resets srcId connect)
      (hleases : leases s'.gateway.clients = leases s.gateway.clients)
      (hsockets : s'.sockets = s.sockets)
      (hsock : ∀ j d sk, s.sockets j = some (d, sk) → sock ≠ d)
  | reset (i : Fin MAX_CLIENTS) (port : UInt16) (hresets : s.Resets srcId connect)
      (hlease : leases s.gateway.clients i = some (srcId, port))
      (hleases : leases s'.gateway.clients = leases s.gateway.clients)
      (hsockets : s'.sockets = Function.update s.sockets i (opened a sock.toNat port))
      (hsock : a.socketOk = true ↔ 0 ≤ sock)
  | created (i : Fin MAX_CLIENTS) (hresets : ¬s.Resets srcId connect)
      (hgrant : Grant (leases s.gateway.clients) (leases s'.gateway.clients) srcId i)
      (hsockets : s'.sockets
        = Function.update s.sockets i (some (sock.toNat, ⟨some (slotPort i), []⟩)))
      (hsock : 0 ≤ sock)

theorem sock_nonneg_iff (fds : Descriptors Socket) (port : UInt16) (a : Answers) :
    a.socketOk = true ↔ 0 ≤ (socketAndBind fds port a).2.sock := by
  rw [socketAndBind]
  cases a.socketOk with
  | false => exact iff_of_false Bool.false_ne_true (by decide : ¬(0 : ℤ) ≤ -1)
  | true => exact iff_of_true rfl (Int.natCast_nonneg _)

theorem bindOk_socketAndBind (fds : Descriptors Socket) (port : UInt16)
    (h : a.socketOk = true) : (socketAndBind fds port a).2.bindOk = a.bindOk := by
  rw [socketAndBind, h]
  rfl

/-- A CONNECT for the slot of its node. -/
theorem handled_reset (ho : s.Owned) {i : Fin MAX_CLIENTS}
    (hactive : s.gateway.clients[i].active = true) (hid : s.gateway.clients[i].nodeId = srcId) :
    let r := socketAndBind (closeFd s.fds s.gateway.clients[i].udpSock)
      s.gateway.clients[i].localPort a
    let s' : Host := ⟨{ s.gateway with
      clients := s.gateway.clients.set i
        (refreshClient s.gateway.clients[i] true r.2) i.isLt }, r.1⟩
    s'.Owned ∧ Handled s srcId true a s' r.2.sock := by
  intro r s'
  obtain ⟨hclosed, hheld⟩ := owned_closeFd ho rfl hactive
  obtain ⟨howned, hopened⟩ := owned_socketAndBind hclosed i s.gateway.clients[i].localPort a
  rw [Function.update_idem] at howned hopened
  have hnew : descriptors s'.gateway.clients
      = Function.update (descriptors s.gateway.clients) i r.2.descriptor := by
    rw [descriptors_set]
    exact congrArg _ (descriptor_of_active hactive)
  refine ⟨?_, .reset i s.gateway.clients[i].localPort ⟨rfl, i, hactive, hid⟩ ?_ ?_ ?_
    (sock_nonneg_iff _ _ a)⟩
  · rw [Owned, hnew]
    exact howned
  · exact Client.lease_eq_some_iff.mpr ⟨hactive, hid, rfl⟩
  · exact leases_set i (lease_refreshClient s.gateway.clients[i] true r.2)
  · rw [sockets, hnew, hopened, hheld, Function.update_idem]
    rfl

/-- A new slot whose socket is open and bound. -/
theorem handled_create (ho : s.Owned) {i : Fin MAX_CLIENTS}
    (hfree : s.gateway.clients[i].active = false) (hresets : ¬s.Resets srcId connect)
    (hnew : ∀ j : Fin MAX_CLIENTS, s.gateway.clients[j].active = true →
      s.gateway.clients[j].nodeId ≠ srcId)
    (hsock : a.socketOk = true) (hbind : a.bindOk = true) :
    let r := socketAndBind s.fds (slotPort i) a
    let s' : Host := ⟨{ s.gateway with
      clients := s.gateway.clients.set i
        (createClient s.gateway.clients[i] i srcId r.2) i.isLt }, r.1⟩
    s'.Owned ∧ Handled s srcId connect a s' r.2.sock := by
  intro r s'
  have hpos : 0 ≤ r.2.sock := (sock_nonneg_iff s.fds (slotPort i) a).mp hsock
  have hbound : r.2.bindOk = true := (bindOk_socketAndBind s.fds (slotPort i) hsock).trans hbind
  obtain ⟨howned, hopened⟩ := owned_socketAndBind ho i (slotPort i) a
  have hdesc : descriptors s'.gateway.clients
      = Function.update (descriptors s.gateway.clients) i r.2.descriptor := by
    rw [descriptors_set, descriptor_of_active (createClient_active _ _ _ hpos hbound).1]
    congr 1
    rw [createClient, if_neg (not_lt.mpr hpos), hbound]
    rfl
  refine ⟨?_, .created i hresets ⟨?_, ?_, ?_⟩ ?_ hpos⟩
  · rw [Owned, hdesc]
    exact howned
  · exact Client.lease_eq_none_iff.mpr hfree
  · intro j port hj
    obtain ⟨hactive, hid, -⟩ := Client.lease_eq_some_iff.mp hj
    exact hnew j hactive hid
  · rw [leases_set_eq, lease_createClient _ _ _ hpos hbound]
  · rw [sockets, hdesc, hopened, opened, hsock, hbind]
    rfl

/-- A slot is rewritten and keeps its lease and its descriptor, and all sockets stay. -/
theorem keep_of_set {i : Fin MAX_CLIENTS} {c : Client}
    {fds : Descriptors Socket} (hresets : ¬s.Resets srcId connect)
    (hlease : c.lease = s.gateway.clients[i].lease)
    (hdesc : c.descriptor = s.gateway.clients[i].descriptor)
    (hfds : Descriptors.Owned fds (descriptors s.gateway.clients))
    (hheld : held fds (descriptors s.gateway.clients) = s.sockets) {sock : ℤ}
    (hsock : ∀ j d sk, s.sockets j = some (d, sk) → sock ≠ d) :
    let s' : Host := ⟨{ s.gateway with clients := s.gateway.clients.set i c i.isLt }, fds⟩
    s'.Owned ∧ Handled s srcId connect a s' sock := by
  intro s'
  have heq : descriptors s'.gateway.clients = descriptors s.gateway.clients :=
    descriptors_set_of_eq hdesc
  refine ⟨?_, .keep hresets (leases_set i hlease) ?_ hsock⟩
  · rw [Owned, heq]
    exact hfds
  · rw [sockets, heq]
    exact hheld

/-- **What `get_or_create_client` does**, whatever the system answers. -/
theorem handled_getOrCreate (ho : s.Owned) (srcId : UInt8) (connect : Bool) (a : Answers) :
    (s.getOrCreate srcId connect a).Owned ∧
      Handled s srcId connect a (s.getOrCreate srcId connect a)
        (systemCalls s.gateway.clients s.fds srcId connect a).2.sock := by
  rw [getOrCreate, systemCalls]
  -- a call that fails returns no descriptor
  have hminus : ∀ j d sk, s.sockets j = some (d, sk) → (-1 : ℤ) ≠ d := by
    intro j d sk _ heq
    omega
  cases hreg : Slots.first (fun c ↦ c.active && c.nodeId == srcId) s.gateway.clients with
  | some i =>
    have hi := Slots.of_first_eq_some hreg
    rw [Bool.and_eq_true, beq_iff_eq] at hi
    simp only [getOrCreateClient, hreg]
    cases connect with
    | false =>
      have hresets : ¬s.Resets srcId false := fun h ↦ Bool.false_ne_true h.1
      exact keep_of_set (c := refreshClient s.gateway.clients[i] false ⟨a.time, -1, false⟩)
        hresets rfl rfl ho rfl hminus
    | true => exact handled_reset ho hi.1 hi.2
  | none =>
    have hnew : ∀ j : Fin MAX_CLIENTS, s.gateway.clients[j].active = true →
        s.gateway.clients[j].nodeId ≠ srcId := by
      intro j hactive hid
      have hj := Slots.first_eq_none_iff.mp hreg j
      rw [hactive, hid, beq_self_eq_true] at hj
      exact Bool.false_ne_true hj.symm
    have hresets : ¬s.Resets srcId connect := by
      rintro ⟨-, j, hactive, hid⟩
      exact hnew j hactive hid
    simp only [getOrCreateClient, hreg]
    cases hfree : Slots.first (fun c ↦ !c.active) s.gateway.clients with
    | none => exact ⟨ho, .keep hresets rfl rfl hminus⟩
    | some i =>
      have hi : s.gateway.clients[i].active = false := by simpa using Slots.of_first_eq_some hfree
      have hgiven : ∀ {c : Client}, c.active = false →
          c.lease = s.gateway.clients[i].lease ∧
          c.descriptor = s.gateway.clients[i].descriptor := by
        intro c hc
        rw [Client.lease_eq_none_iff.mpr hc, Client.lease_eq_none_iff.mpr hi,
          descriptor_eq_none hc, descriptor_eq_none hi]
        exact ⟨rfl, rfl⟩
      cases hsock : a.socketOk with
      | false =>
        have hcalls : socketAndBind s.fds (slotPort i) a = (s.fds, ⟨a.time, -1, false⟩) := by
          rw [socketAndBind, hsock]
          rfl
        simp only [hcalls]
        have hneg : (⟨a.time, -1, false⟩ : Os).sock < 0 := by
          change (-1 : ℤ) < 0
          decide
        obtain ⟨hlease, hdesc⟩ := hgiven (createClient_inactive s.gateway.clients[i] i srcId
          (Or.inl hneg))
        exact keep_of_set hresets hlease hdesc ho rfl hminus
      | true =>
        cases hbind : a.bindOk with
        | true =>
          have hcreate := handled_create ho hi hresets hnew hsock hbind
          dsimp only
          rw [if_neg (not_lt.mpr ((sock_nonneg_iff s.fds (slotPort i) a).mp hsock)),
            bindOk_socketAndBind _ _ hsock, hbind]
          exact hcreate
        | false =>
          -- what was opened is closed again
          have hcalls : socketAndBind s.fds (slotPort i) a
              = (s.fds.openFile ⟨none, []⟩, ⟨a.time, s.fds.free, false⟩) := by
            rw [socketAndBind, hsock, hbind]
            rfl
          have hneg : ¬(s.fds.free : ℤ) < 0 := not_lt.mpr (Int.natCast_nonneg _)
          have hclose : closeFd (s.fds.openFile ⟨none, []⟩) s.fds.free
              = (s.fds.openFile ⟨none, []⟩).close s.fds.free := by
            rw [closeFd, if_neg hneg, Int.toNat_natCast]
          dsimp only
          rw [hcalls, if_neg hneg, hclose]
          have hunbound : (⟨a.time, s.fds.free, false⟩ : Os).bindOk = false := rfl
          obtain ⟨hlease, hdesc⟩ := hgiven (createClient_inactive s.gateway.clients[i] i srcId
            (Or.inr hunbound))
          refine keep_of_set hresets hlease hdesc
            (ho.openFile_close _) (held_openFile_close ho _) ?_
          intro j d sk hj heq
          exact ho.ne_free (held_eq_some_iff.mp hj).1 (Int.ofNat_inj.mp heq).symm

/-- A slot has the socket that it had, or a new one without datagrams. -/
theorem Handled.slot {sock : ℤ} (h : Handled s srcId connect a s' sock) (ho : s'.Owned)
    {j : Fin MAX_CLIENTS} {d : ℕ} {sk : Socket} (hj : s'.sockets j = some (d, sk)) :
    s.sockets j = some (d, sk) ∧ sock ≠ d ∨ sock = d ∧ sk.queue = [] := by
  -- a new socket has a number of its own
  have hother : ∀ {i sk'}, s'.sockets i = some (sock.toNat, sk') → 0 ≤ sock → j ≠ i → sock ≠ d := by
    rintro i sk' hi hpos hji rfl
    exact hji (ho.unique (held_eq_some_iff.mp hj).1 (held_eq_some_iff.mp hi).1)
  cases h with
  | keep hresets hleases hsockets hsock =>
    rw [hsockets] at hj
    exact Or.inl ⟨hj, hsock j d sk hj⟩
  | reset i port hresets hlease hleases hsockets hsock =>
    by_cases hji : j = i
    · rw [hji, hsockets, Function.update_self, opened] at hj
      obtain ⟨hok, hpair⟩ := Option.ite_none_right_eq_some.mp hj
      obtain ⟨hd, hsk⟩ := Prod.mk.inj (Option.some_inj.mp hpair)
      refine Or.inr ⟨?_, by rw [← hsk]⟩
      rw [← hd, Int.toNat_of_nonneg (hsock.mp hok)]
    · refine Or.inl ⟨?_, ?_⟩
      · rwa [hsockets, Function.update_of_ne hji] at hj
      · by_cases hpos : 0 ≤ sock
        · have hi : s'.sockets i
              = some (sock.toNat, ⟨if a.bindOk then some port else none, []⟩) := by
            rw [hsockets, Function.update_self, opened, if_pos (hsock.mpr hpos)]
          exact hother hi hpos hji
        · rintro rfl
          exact hpos (Int.natCast_nonneg d)
  | created i hresets hgrant hsockets hsock =>
    by_cases hji : j = i
    · rw [hji, hsockets, Function.update_self] at hj
      obtain ⟨hd, hsk⟩ := Prod.mk.inj (Option.some_inj.mp hj)
      refine Or.inr ⟨?_, by rw [← hsk]⟩
      rw [← hd, Int.toNat_of_nonneg hsock]
    · refine Or.inl ⟨?_, ?_⟩
      · rwa [hsockets, Function.update_of_ne hji] at hj
      · have hi : s'.sockets i = some (sock.toNat, ⟨some (slotPort i), []⟩) := by
          rw [hsockets, Function.update_self]
        exact hother hi hsock hji

/-! ## What expiry does to the slots -/

theorem get_expireClients_eq (gw : Gateway) (now : ℤ) (j : Fin MAX_CLIENTS) :
    (expireClients gw now).clients[j]
      = if timedOut gw.clients[j] now then Client.zero else gw.clients[j] := by
  rw [Gateway.get_expireClients, timedOut]
  simp only [Bool.and_eq_true, decide_eq_true_eq]

/-- The slots in `l` are closed one after the other. -/
theorem owned_foldl_closeFd {clients : Vector Client MAX_CLIENTS} {fds : Descriptors Socket}
    {h : Fin MAX_CLIENTS → Option ℕ} (now : ℤ) {l : List (Fin MAX_CLIENTS)} (hl : l.Nodup)
    (hh : ∀ i ∈ l, h i = descriptors clients i) (ho : Descriptors.Owned fds h) :
    let fds' := l.foldl (fun fds i ↦
      if timedOut clients[i] now then closeFd fds clients[i].udpSock else fds) fds
    let h' := fun i ↦ if i ∈ l ∧ timedOut clients[i] now = true then none else h i
    Descriptors.Owned fds' h' ∧
      held fds' h' = fun i ↦
        if i ∈ l ∧ timedOut clients[i] now = true then none else held fds h i := by
  induction l generalizing fds h with
  | nil =>
    simp only [List.foldl_nil, List.not_mem_nil, false_and, if_false, and_true]
    exact ho
  | cons i l ih =>
    obtain ⟨hi, hl⟩ := List.nodup_cons.mp hl
    by_cases hold : timedOut clients[i] now = true
    · have hactive : clients[i].active = true := (Bool.and_eq_true _ _).mp hold |>.1
      obtain ⟨hclosed, hheld⟩ := owned_closeFd ho (hh i List.mem_cons_self) hactive
      have hrest := ih hl (fun k hk ↦ ?_) hclosed
      · have hfun : ∀ {β : Type} (g : Fin MAX_CLIENTS → Option β),
            (fun j ↦ if j ∈ l ∧ timedOut clients[j] now = true then none
              else Function.update g i none j)
              = fun j ↦ if j ∈ i :: l ∧ timedOut clients[j] now = true then none else g j := by
          intro β g
          funext j
          by_cases hji : j = i
          · rw [hji, Function.update_self, ite_self, if_pos ⟨List.mem_cons_self, hold⟩]
          · simp only [Function.update_of_ne hji, List.mem_cons, hji, false_or]
        rw [hheld, hfun, hfun] at hrest
        rw [List.foldl_cons, if_pos hold]
        exact hrest
      · have hne : k ≠ i := by
          rintro rfl
          exact hi hk
        rw [Function.update_of_ne hne]
        exact hh k (List.mem_cons_of_mem _ hk)
    · have hrest := ih hl (fun k hk ↦ hh k (List.mem_cons_of_mem _ hk)) ho
      have hmem : ∀ j, (j ∈ i :: l ∧ timedOut clients[j] now = true) ↔
          (j ∈ l ∧ timedOut clients[j] now = true) := by
        intro j
        refine and_congr_left fun hj ↦ ?_
        rw [List.mem_cons, or_iff_right]
        rintro rfl
        exact hold hj
      simp only [List.foldl_cons, if_neg hold, hmem]
      exact hrest

theorem leases_expire (s : Host) (now : ℤ) (j : Fin MAX_CLIENTS) :
    leases (s.expire now).gateway.clients j
      = if timedOut s.gateway.clients[j] now then none else leases s.gateway.clients j := by
  rw [leases, expire, get_expireClients_eq, apply_ite Client.lease]
  rfl

/-- **What `expire_clients` does**: the slots that it ends lose their sockets. -/
theorem sockets_expire (ho : s.Owned) (now : ℤ) :
    (s.expire now).Owned ∧ ∀ j, (s.expire now).sockets j
      = if timedOut s.gateway.clients[j] now then none else s.sockets j := by
  obtain ⟨howned, hheld⟩ := owned_foldl_closeFd now (List.nodup_finRange MAX_CLIENTS)
    (fun _ _ ↦ rfl) ho
  have hdesc : descriptors (s.expire now).gateway.clients = fun j ↦
      if j ∈ List.finRange MAX_CLIENTS ∧ timedOut s.gateway.clients[j] now = true then none
      else descriptors s.gateway.clients j := by
    funext j
    rw [descriptors, expire, get_expireClients_eq, apply_ite Client.descriptor]
    simp only [List.mem_finRange, true_and]
    rfl
  refine ⟨?_, fun j ↦ ?_⟩
  · rw [Owned, hdesc]
    exact howned
  · rw [sockets, hdesc]
    refine (congrFun hheld j).trans ?_
    simp only [List.mem_finRange, true_and]
    rfl

/-! ## Usable sockets -/

/-- The slots that are leased have a socket bound to their port. -/
theorem usable_iff : s.Usable ↔ ∀ j n port, leases s.gateway.clients j = some (n, port) →
    ∃ d sk, s.sockets j = some (d, sk) ∧ sk.port = some port := by
  constructor
  · intro h j n port hlease
    obtain ⟨hactive, -, hport⟩ := Client.lease_eq_some_iff.mp hlease
    obtain ⟨hpos, hbound⟩ := h j hactive
    obtain ⟨sk, hfile, hsk⟩ := Option.bind_eq_some_iff.mp hbound
    have hd : descriptors s.gateway.clients j = some s.gateway.clients[j].udpSock.toNat :=
      if_pos ⟨hactive, hpos⟩
    exact ⟨_, sk, held_eq_some_iff.mpr ⟨hd, hfile⟩, hsk.trans (congrArg some hport)⟩
  · intro h j hactive
    obtain ⟨d, sk, hheld, hsk⟩ := h j _ _ (Client.lease_eq_some_iff.mpr ⟨hactive, rfl, rfl⟩)
    obtain ⟨hd, hfile⟩ := held_eq_some_iff.mp hheld
    obtain ⟨⟨-, hpos⟩, hd⟩ := Option.ite_none_right_eq_some.mp hd
    refine ⟨hpos, ?_⟩
    rw [Option.some_inj.mp hd, hfile]
    exact hsk

/-- **The step**: the sockets stay usable if and only if a reset succeeds. -/
theorem usable_step_iff (ho : s.Owned) (hu : s.Usable) (e : Call) :
    (s.step e).Usable ↔ s.ResetSucceeds e := by
  rw [usable_iff] at hu ⊢
  cases e with
  | expire now =>
    -- a slot that expires is no longer active, and the others keep their sockets
    refine iff_of_true ?_ trivial
    intro j n port hlease
    rw [step, leases_expire] at hlease
    rw [step, (sockets_expire ho now).2]
    split at hlease
    · exact nomatch hlease
    · rename_i hold
      rw [if_neg hold]
      exact hu j n port hlease
  | getOrCreate srcId connect a =>
    obtain ⟨-, hhandled⟩ := handled_getOrCreate ho srcId connect a
    cases hhandled with
    | keep hresets hleases hsockets hsock =>
      refine iff_of_true ?_ fun hreset ↦ absurd hreset hresets
      rw [step, hleases, hsockets]
      exact hu
    | reset i port hresets hlease hleases hsockets hsock =>
      -- the old socket is closed in any case; what is left is what the two calls returned
      constructor
      · intro hu' _
        rw [step, hleases, hsockets] at hu'
        obtain ⟨d, sk, hsocket, hport⟩ := hu' i srcId port hlease
        rw [Function.update_self, opened] at hsocket
        obtain ⟨hok, hpair⟩ := Option.ite_none_right_eq_some.mp hsocket
        refine ⟨hok, ?_⟩
        rw [← (Prod.mk.inj (Option.some_inj.mp hpair)).2] at hport
        exact (Option.ite_none_right_eq_some.mp hport).1
      · intro hsucceeds
        obtain ⟨hok, hbind⟩ := hsucceeds hresets
        rw [step, hleases, hsockets]
        intro j n port' hj
        by_cases hji : j = i
        · rw [hji, hlease, Option.some_inj, Prod.mk.injEq] at hj
          rw [hji, Function.update_self, opened, hok, hbind, ← hj.2]
          exact ⟨_, _, rfl, rfl⟩
        · rw [Function.update_of_ne hji]
          exact hu j n port' hj
    | created i hresets hgrant hsockets hsock =>
      -- a new slot is given up unless both calls succeed
      refine iff_of_true ?_ fun hreset ↦ absurd hreset hresets
      rw [step, hgrant.eq, hsockets]
      intro j n port hj
      by_cases hji : j = i
      · rw [hji, Function.update_self, Option.some_inj, Prod.mk.injEq] at hj
        rw [hji, Function.update_self, ← hj.2]
        exact ⟨_, _, rfl, rfl⟩
      · rw [Function.update_of_ne hji] at hj ⊢
        exact hu j n port hj

/-! ## Runs -/

theorem Owned.step (ho : s.Owned) (e : Call) : (s.step e).Owned := by
  cases e with
  | getOrCreate srcId connect a => exact (handled_getOrCreate ho srcId connect a).1
  | expire now => exact (sockets_expire ho now).1

theorem boot_inactive (j : Fin MAX_CLIENTS) : Gateway.boot.clients[j] = Client.zero := by
  simp [Gateway.boot]

theorem Owned.boot (fds : Descriptors Socket) : (Host.boot fds).Owned := by
  have hnone : ∀ j, descriptors Gateway.boot.clients j = none := by
    intro j
    rw [descriptors, boot_inactive]
    rfl
  exact ⟨fun h ↦ (nomatch (hnone _).symm.trans h), fun h ↦ (nomatch (hnone _).symm.trans h)⟩

theorem Usable.boot (fds : Descriptors Socket) : (Host.boot fds).Usable := by
  intro j hactive
  rw [Host.boot, boot_inactive] at hactive
  exact absurd hactive Bool.false_ne_true

/-- **When the sockets are usable.** In every run of calls, with whatever the process has open and
whatever the system answers: every active slot has an open socket bound to its port in every state,
if and only if `socket` and `bind` succeed in every CONNECT of a node that has a slot. -/
theorem usable_always_iff (fds : Descriptors Socket) (es : List Call) :
    Trace.Always Host.step (fun s e ↦ (s.step e).Usable) (.boot fds) es ↔
      Trace.Always Host.step ResetSucceeds (.boot fds) es :=
  Trace.always_iff_always (P := fun s ↦ s.Owned ∧ s.Usable)
    (fun _ e hs ↦ usable_step_iff hs.1 hs.2 e)
    (fun _ e hs hok ↦ ⟨Owned.step hs.1 e, (usable_step_iff hs.1 hs.2 e).mpr hok⟩)
    ⟨Owned.boot fds, Usable.boot fds⟩

/-- Standard input, output and error. -/
def stdio : Descriptors Socket := List.replicate 3 (some ⟨none, []⟩)

/-- **A CONNECT loses the socket.** Node `0x21` connects, connects again, and the second `socket`
fails: descriptor 3 is closed and the slot is active with the descriptor -1. -/
theorem failed_reset_loses_socket :
    let s := Trace.run Host.step (.boot stdio)
      [.getOrCreate 0x21 true ⟨0, true, true⟩, .getOrCreate 0x21 true ⟨60, false, true⟩]
    ¬s.Usable ∧ s.fds.file 3 = none ∧
      (s.gateway.clients[0].active, s.gateway.clients[0].nodeId, s.gateway.clients[0].udpSock)
        = (true, 0x21, -1) := by
  decide +kernel

end Host

end Emcs.Bridge
