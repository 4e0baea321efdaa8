import Emcs.Paho.Identity
import Emcs.Paho.Served
import Emcs.System.Model

/-!
# What holds between the Arduinos and the gateway

The gateway has one client at most for an Arduino, and this client keeps its address. What is known
of a topic id is what stands in the book of this client: so the Arduino is told what the gateway
knows, and the gateway is told what the Arduino sends.

## The assumption on other clients

A datagram of another client may contain anything, but a CONNECT in it shows an id that is taken for
no Arduino, and no Arduino for it (`Setup.Foreign`). Then the keys of the list, the addresses with
the ids, always belong together: an id of an Arduino stands at its address and an address of an
Arduino has its id. So a client, once it is there, stays where it is, and what happens to it is a
service of its session.
-/

namespace Emcs.System

open Mqttsn Arduino Paho

variable {A : Type*} {S : Setup A} {s : Site A} {g : Gateway A}

/-! ## Addresses and client ids -/

theorem strncmpEq_self (id : List UInt8) : strncmpEq id id = true := by
  induction id with
  | nil => rfl
  | cons x id ih =>
    rw [strncmpEq, List.headD_cons, List.tail_cons, ih, Bool.or_true, beq_self_eq_true]
    rfl

/-- A client at the address of an Arduino has its id, and another client a foreign one. -/
def Setup.Knows (S : Setup A) (key : A × List UInt8) : Prop :=
  match S.clientId key.1 with
  | some id => key.2 = id
  | none => S.Foreign key.2

namespace Setup.Knows

variable {key key' : A × List UInt8} {id : List UInt8}

theorem id_eq (h : S.Knows key) (hid : S.clientId key.1 = some id) : key.2 = id := by
  rw [Setup.Knows, hid] at h
  exact h

theorem foreign (h : S.Knows key) (hnone : S.clientId key.1 = none) : S.Foreign key.2 := by
  rw [Setup.Knows, hnone] at h
  exact h

/-- A client whose id begins with that of an Arduino is at its address. -/
theorem addr_eq (h : S.Knows key) {addr : A} (hid : S.clientId addr = some id)
    (hmatch : strncmpEq key.2 id = true) : key.1 = addr := by
  cases hclient : S.clientId key.1 with
  | none => exact absurd ((h.foreign hclient addr id hid).1.symm.trans hmatch) Bool.false_ne_true
  | some id' =>
    rw [h.id_eq hclient] at hmatch
    exact S.apart hclient hid hmatch

/-- **An Arduino's client is at its address**, whoever has the same id. -/
theorem same_addr (h : S.Knows key) (h' : S.Knows key') (heq : key'.2 = key.2)
    (hid : S.clientId key.1 = some id) : key'.1 = key.1 := by
  refine h'.addr_eq hid ?_
  rw [heq, h.id_eq hid]
  exact strncmpEq_self id

/-- A client that is taken for another one moves to the address of a stranger. -/
theorem moved (h : S.Knows key) {sender : A} {id' : List UInt8} (h' : S.Knows (sender, id'))
    (hmatch : strncmpEq key.2 id' = true) (hne : key.1 ≠ sender) : S.Knows (sender, key.2) := by
  cases hsender : S.clientId sender with
  | some id =>
    have hid : id' = id := h'.id_eq hsender
    exact absurd (h.addr_eq hsender (hid ▸ hmatch)) hne
  | none =>
    have hforeign : S.Foreign id' := h'.foreign hsender
    cases hclient : S.clientId key.1 with
    | some id =>
      rw [h.id_eq hclient] at hmatch
      exact absurd ((hforeign key.1 id hclient).2.symm.trans hmatch) Bool.false_ne_true
    | none =>
      rw [Setup.Knows, hsender]
      exact h.foreign hclient

end Setup.Knows

section Keys

variable [DecidableEq A]

/-- **Addresses and ids belong together**, if an Arduino shows its own id and others a foreign
one. -/
theorem knows_step (hknows : ∀ key ∈ g.keys, S.Knows key) {e : GatewayStep A}
    (hfair : S.Fair (.gateway e))
    (hown : ∀ {sender datagram around id}, e = .clientRecv sender datagram around →
      S.clientId sender = some id → ∀ {id'}, Gateway.connectId datagram around = some id' →
        id' = id) :
    ∀ key ∈ (g.step S.params e).keys, S.Knows key := by
  cases e with
  | clientRecv sender datagram around =>
    rw [Gateway.step.eq_def]
    split
    · exact hknows
    dsimp only
    have hsender {id' : List UInt8} (hid : Gateway.connectId datagram around = some id') :
        S.Knows (sender, id') := by
      rw [Setup.Knows]
      dsimp only
      split
      · exact hown rfl ‹_› hid
      · exact hfair ‹_› id' hid
    rcases keys_clientRecv S.params g sender datagram around with
      heq | ⟨hunknown, id', hid, ⟨j, key, hkey, hmatch, heq⟩ | ⟨-, heq⟩⟩
    · rw [heq]
      exact hknows
    · rw [heq]
      intro x hx
      rcases List.mem_or_eq_of_mem_set hx with hx | rfl
      · exact hknows x hx
      · exact (hknows key (List.mem_of_getElem? hkey)).moved (hsender hid) hmatch fun haddr ↦
          hunknown (List.mem_map.mpr ⟨key, List.mem_of_getElem? hkey, haddr⟩)
    · rw [heq]
      intro x hx
      rcases List.mem_append.mp hx with hx | hx
      · exact hknows x hx
      · rw [List.mem_singleton.mp hx]
        exact hsender hid
  | _ =>
    rw [keys_step fun _ _ _ heq ↦ by cases heq]
    exact hknows

end Keys

/-! ## The client of an Arduino -/

/-- What was sent to an address was sent to the client that has it. -/
def Addressed (g : Gateway A) (addr : A) : Prop :=
  ∀ reply, (addr, reply) ∈ g.unicast → ∃ e ∈ g.clients, e.addr = addr ∧
    reply ∈ e.toClient

section Client

variable [DecidableEq A]

/-- Only `ClientSendTask` sends datagrams. -/
theorem unicast_step_of_ne (p : GWParams) (g : Gateway A) {e : GatewayStep A}
    (he : e ≠ .clientSend) : (g.step p e).unicast = g.unicast := by
  rw [Gateway.step.eq_def]
  split
  · rfl
  cases e with
  | clientSend => exact absurd rfl he
  | clientRecv sender datagram around =>
    dsimp only
    rcases g.clientRecv_cases p sender datagram around with
      heq | ⟨ev, heq⟩ | ⟨packet, -, ⟨j, -, heq⟩ | ⟨-, -, clientId, -, heq⟩⟩
    · rw [heq]
    · rw [heq]
    · rw [heq, Gateway.recvKnown]
      repeat' split
      all_goals rfl
    · rw [heq]
      rcases g.recvNew_cases p sender clientId packet with ⟨j, -, heq'⟩ | ⟨-, heq'⟩ | heq'
      · rw [heq']
        rfl
      · rw [heq']
        rfl
      · rw [heq']
  | packetHandle =>
    dsimp only
    rw [Gateway.packetHandle]
    repeat' split
    all_goals rfl
  | updateStatus =>
    dsimp only
    rw [Gateway.updateStatus]
    split
    · rfl
    · rfl
  | brokerSend result =>
    dsimp only
    rw [Gateway.brokerSend]
    repeat' split
    all_goals rfl
  | brokerRecv j packet =>
    dsimp only
    rw [Gateway.brokerRecv]
    repeat' split
    all_goals rfl
  | brokerLost j disconnected =>
    dsimp only
    rw [Gateway.brokerLost]
    repeat' split
    all_goals rfl

/-- `ClientSendTask` sends one packet, to the client that it is for. -/
theorem unicast_clientSend (p : GWParams) (g : Gateway A) :
    (g.step p .clientSend).unicast = g.unicast ∨
      ∃ x ∈ (g.step p .clientSend).clients, ∃ reply ∈ x.toClient,
        (g.step p .clientSend).unicast = g.unicast ++ [(x.addr, reply)] := by
  rw [Gateway.step.eq_def]
  split
  · exact Or.inl rfl
  dsimp only
  rw [Gateway.clientSend]
  split
  · exact Or.inl rfl
  rename_i j packet packets hque
  split
  · exact Or.inl rfl
  rename_i x hx
  refine Or.inr ⟨{ x with toClient := x.toClient ++ [packet] }, ?_, packet, ?_, rfl⟩
  · exact List.mem_of_getElem? (getElem?_modify_some hx)
  · exact List.mem_append_right _ (List.mem_singleton_self _)

theorem unicast_step (p : GWParams) (g : Gateway A) (e : GatewayStep A) {addr : A} {reply : SnReply}
    (h : (addr, reply) ∈ (g.step p e).unicast) : (addr, reply) ∈ g.unicast ∨
      ∃ x ∈ (g.step p e).clients, x.addr = addr ∧ reply ∈ x.toClient := by
  by_cases he : e = .clientSend
  · subst he
    rcases unicast_clientSend p g with heq | ⟨x, hx, reply', hreply, heq⟩
    · exact Or.inl (heq ▸ h)
    · rw [heq] at h
      rcases List.mem_append.mp h with h | h
      · exact Or.inl h
      · cases List.mem_singleton.mp h
        exact Or.inr ⟨x, hx, rfl, hreply⟩
  · exact Or.inl (unicast_step_of_ne p g he ▸ h)

/-- **What was sent stays sent.** -/
theorem unicast_prefix (p : GWParams) (g : Gateway A) (e : GatewayStep A) :
    g.unicast <+: (g.step p e).unicast := by
  by_cases he : e = .clientSend
  · subst he
    rcases unicast_clientSend p g with heq | ⟨x, -, reply, -, heq⟩
    · rw [heq]
    · rw [heq]
      exact List.prefix_append _ _
  · rw [unicast_step_of_ne p g he]

/-- A client keeps its place and its id. -/
theorem key_step (p : GWParams) {k : ℕ} {x : Entry A} (hx : g.clients[k]? = some x)
    (e : GatewayStep A) {x' : Entry A} (hx' : (g.step p e).clients[k]? = some x') :
    x'.key.2 = x.key.2 := by
  have hkey : g.keys[k]? = some x.key := by
    rw [Gateway.keys, List.getElem?_map, hx, Option.map_some]
  have hkey' : (g.step p e).keys[k]? = some x'.key := by
    rw [Gateway.keys, List.getElem?_map, hx', Option.map_some]
  have hsame (h : (g.step p e).keys = g.keys) : x'.key.2 = x.key.2 := by
    rw [h, hkey] at hkey'
    rw [Option.some.inj hkey']
  cases e with
  | clientRecv sender datagram around =>
    rw [Gateway.step.eq_def] at hsame hkey'
    split at hkey'
    · rename_i hcrashed
      rw [if_pos hcrashed] at hsame
      exact hsame rfl
    rename_i hcrashed
    rw [if_neg hcrashed] at hsame
    dsimp only at hsame hkey'
    rcases keys_clientRecv p g sender datagram around with
      heq | ⟨-, id', -, ⟨j, key, hj, -, heq⟩ | ⟨-, heq⟩⟩
    · exact hsame heq
    · rw [heq, List.getElem?_set] at hkey'
      split at hkey'
      · rename_i hjk
        subst hjk
        cases Option.some.inj (hj.symm.trans hkey)
        split at hkey'
        · rw [← Option.some.inj hkey']
        · cases hkey'
      · rw [hkey] at hkey'
        rw [Option.some.inj hkey']
    · have hlt := (List.getElem?_eq_some_iff.mp hkey).1
      rw [heq, List.getElem?_append_left hlt, hkey] at hkey'
      rw [Option.some.inj hkey']
  | _ => exact hsame (keys_step fun _ _ _ heq ↦ by cases heq)

variable {e : GatewayStep A} {addr : A} {id : List UInt8}

/-- **The client of an Arduino stays**, and what happens to it is a service of its session. -/
theorem client_stays (hknows : ∀ key ∈ g.keys, S.Knows key)
    (hknows' : ∀ key ∈ (g.step S.params e).keys, S.Knows key) (hid : S.clientId addr = some id)
    {k : ℕ} {x : Entry A} (hx : g.clients[k]? = some x) (haddr : x.addr = addr) :
    ∃ x', (g.step S.params e).clients[k]? = some x' ∧ x'.addr = addr ∧
      (g.session k x).Serves .none (e.packetsFrom addr) ((g.step S.params e).session k x') := by
  obtain ⟨s', addr', hserves, x', hx', rfl, rfl⟩ :=
    Gateway.Shows.step (p := S.params) ⟨x, hx, rfl, rfl⟩ e
  have hkey := hknows x.key (List.mem_map.mpr ⟨x, List.mem_of_getElem? hx, rfl⟩)
  have hkey' := hknows' x'.key (List.mem_map.mpr ⟨x', List.mem_of_getElem? hx', rfl⟩)
  have hsame : x'.addr = addr :=
    (hkey.same_addr hkey' (key_step S.params hx e hx') (haddr ▸ hid)).trans haddr
  exact ⟨x', hx', hsame, hsame ▸ hserves⟩

/-- **The client of an Arduino was there**, or has begun a session. -/
theorem client_was (hordered : g.Ordered S.params) (hknows : ∀ key ∈ g.keys, S.Knows key)
    (hknows' : ∀ key ∈ (g.step S.params e).keys, S.Knows key) (hid : S.clientId addr = some id)
    {k : ℕ} {x' : Entry A} (hx' : (g.step S.params e).clients[k]? = some x')
    (haddr : x'.addr = addr) :
    (∃ x, g.clients[k]? = some x ∧ x.addr = addr ∧
        (g.session k x).Serves .none (e.packetsFrom addr) ((g.step S.params e).session k x')) ∨
      g.clients[k]? = none ∧ ∃ id', (Session.new id').Serves .none (e.packetsFrom addr)
        ((g.step S.params e).session k x') := by
  cases hx : g.clients[k]? with
  | some x =>
    obtain ⟨s', addr', hserves, y, hy, rfl, rfl⟩ :=
      Gateway.Shows.step (p := S.params) ⟨x, hx, rfl, rfl⟩ e
    cases Option.some.inj (hx'.symm.trans hy)
    have hkey := hknows x.key (List.mem_map.mpr ⟨x, List.mem_of_getElem? hx, rfl⟩)
    have hkey' := hknows' x'.key (List.mem_map.mpr ⟨x', List.mem_of_getElem? hx', rfl⟩)
    have hsame : x.addr = x'.addr :=
      hkey'.same_addr hkey (key_step S.params hx e hx').symm (haddr ▸ hid)
    exact Or.inl ⟨x, rfl, hsame.trans haddr, haddr ▸ hserves⟩
  | none =>
    obtain ⟨id', s', addr', hserves, y, hy, rfl, rfl⟩ :=
      hordered.begins hx (List.getElem?_eq_some_iff.mp hx').1
    cases Option.some.inj (hx'.symm.trans hy)
    exact Or.inr ⟨rfl, id', haddr ▸ hserves⟩

end Client

end Emcs.System
