import Emcs.Paho.Clients

/-!
# Who a client is

A client keeps the id with which it was created, whatever is handled for it. So the gateway can tell
clients apart for good where their ids do not begin with each other's: whoever sends a CONNECT is
then the client of that id, and has its address.

## The assumption

The source compares ids by `strncmp` with the length of the one in the CONNECT, so an id that begins
another one is taken for it. Under the assumption that the ids of the clients in question do not
begin with each other's, the client found is the client meant. The assumption is on the ids alone,
and it is used in one place, for a CONNECT from an address that is not in the list.
-/

namespace Emcs.Paho

open SharedQueue

/-! ## The id of a client -/

section Handlers

variable {common : CommonTopics} {c : Client} {r : Client × List Posted}

theorem clientId_connackSended (c : Client) (rc : UInt8) :
    (c.connackSended rc).clientId = c.clientId := by
  rw [Client.connackSended]
  split <;> rfl

theorem clientId_updateStatus (c : Client) (type : UInt8) (duration : UInt16) :
    (c.updateStatus type duration).clientId = c.clientId := by
  rw [Client.updateStatus]
  repeat' split
  all_goals rfl

theorem clientId_lookUp (common : CommonTopics) (c : Client) (topicid : Topicid) :
    (lookUp common c topicid).1.clientId = c.clientId := by
  rw [lookUp]
  split
  · rfl
  · split <;> rfl

theorem clientId_forward (c : Client) (pub : Publish) (qos : QoS) (topicid : Topicid) :
    (forward c pub qos topicid).1.clientId = c.clientId := by
  rw [forward]
  dsimp only
  split <;> rfl

theorem clientId_handlePublish (common : CommonTopics) (c : Client) (dup : Bool) (qos : QoS)
    (retained : Bool) (msgId : UInt16) (topicid : Topicid) (payload : List UInt8) :
    (handlePublish common c dup qos retained msgId topicid payload).1.clientId = c.clientId := by
  have hfound := clientId_lookUp common c topicid
  rw [handlePublish]
  dsimp only
  split
  · exact clientId_forward _ _ _ _
  split
  · exact hfound
  split
  · exact hfound
  split
  · exact hfound
  · exact (clientId_forward _ _ _ _).trans hfound

theorem clientId_filterTopic (common : CommonTopics) (c : Client) (topicFilter : Topicid) :
    (filterTopic common c topicFilter).1.clientId = c.clientId := by
  rw [filterTopic]
  split
  · exact clientId_lookUp common c topicFilter
  · split <;> rfl

theorem clientId_handleRegAck (c : Client) (msgId : UInt16) :
    (handleRegAck c msgId).1.clientId = c.clientId := by
  have hreleased : (releasePublish c msgId).1.clientId = c.clientId := by
    rw [releasePublish]
    split <;> rfl
  rw [handleRegAck]
  split
  · dsimp only
    split
    · exact hreleased
    · exact hreleased
  · rfl

theorem clientId_beginSession (c : Client) (data : Connect) :
    (c.beginSession data).clientId = c.clientId := by
  rw [Client.beginSession.eq_def]
  dsimp only
  split <;> rfl

theorem clientId_handleConnect (c : Client) (cleansession willFlag : Bool) (duration : UInt16) :
    (handleConnect c cleansession willFlag duration).1.clientId = c.clientId := by
  rw [handleConnect]
  split
  · rfl
  · exact clientId_beginSession c _

/-- **A packet of the client leaves its id alone.** -/
theorem clientId_handleSnPacket {packet : SnPacket} (h : handleSnPacket common c packet = some r) :
    r.1.clientId = c.clientId := by
  cases packet with
  | register tid msgId topicName =>
    rw [handleSnPacket, handleRegister] at h
    split at h
    · obtain ⟨topic, -, rfl⟩ := Option.map_eq_some_iff.mp h
      rfl
    · rw [← Option.some.inj h]
  | connect => exact Option.some.inj h ▸ clientId_handleConnect c _ _ _
  | willMsg msg =>
    rw [← Option.some.inj h, handleWillmsg]
    split
    · rfl
    · split <;> rfl
  | regAck => exact Option.some.inj h ▸ clientId_handleRegAck c _
  | publish => exact Option.some.inj h ▸ clientId_handlePublish common c _ _ _ _ _ _
  | subscribe qos msgId topicFilter beyond =>
    rw [← Option.some.inj h, handleSubscribe]
    split
    · rfl
    dsimp only
    split <;> exact clientId_filterTopic common c topicFilter
  | pingreq =>
    rw [← Option.some.inj h, handlePingreq]
    split <;> rfl
  | _ => exact Option.some.inj h ▸ rfl

theorem clientId_publishUnknown {pub : Publish} (h : publishUnknown c pub = some r) :
    r.1.clientId = c.clientId := by
  rw [publishUnknown] at h
  split at h
  · split at h
    · rw [← Option.some.inj h]
    · cases h
  dsimp only at h
  split at h
  · rw [← Option.some.inj h]
  · split at h
    · rw [← Option.some.inj h]
      rfl
    · rw [← Option.some.inj h]

/-- **A packet of the broker leaves the id of the client alone.** -/
theorem clientId_handleMqttPacket {packet : MqttPacket} (h : handleMqttPacket c packet = some r) :
    r.1.clientId = c.clientId := by
  cases packet with
  | connack rc => exact Option.some.inj h ▸ clientId_connackSended c _
  | pingresp => exact Option.some.inj h ▸ clientId_updateStatus c _ _
  | publish pub =>
    rw [handleMqttPacket, handleBrokerPublish] at h
    split at h
    · rw [← Option.some.inj h]
    split at h
    · rw [← Option.some.inj h, Client.setClientSleepPacket]
      dsimp only
      split <;> rfl
    split at h
    · rw [← Option.some.inj h]
    split at h
    · rw [← Option.some.inj h]
    · exact clientId_publishUnknown h
  | ack type msgId =>
    cases type with
    | puback =>
      rw [← Option.some.inj h, handleBrokerPuback]
      split <;> rfl
    | _ => exact Option.some.inj h ▸ rfl
  | suback msgId rc =>
    rw [← Option.some.inj h, handleSuback]
    split <;> rfl
  | _ => exact Option.some.inj h ▸ rfl

theorem clientId_handle {ev : Recv} (h : ev.handle common c = some r) :
    r.1.clientId = c.clientId := by
  cases ev with
  | client packet => exact clientId_handleSnPacket h
  | broker packet => exact clientId_handleMqttPacket h

end Handlers

/-! ## The clients of the list -/

variable {A : Type*} {p : GWParams} {g : Gateway A}

/-- The address of a client and its id. -/
def Entry.key (e : Entry A) : A × List UInt8 := (e.addr, e.client.clientId)

def Gateway.keys (g : Gateway A) : List (A × List UInt8) := g.clients.map Entry.key

theorem map_modify {α β : Type*} {f : α → β} {l : List α} {j : ℕ} {m : α → α}
    (h : ∀ x, l[j]? = some x → f (m x) = f x) : (l.modify j m).map f = l.map f := by
  induction l generalizing j with
  | nil => rw [List.modify_nil]
  | cons x l ih =>
    cases j with
    | zero => rw [List.modify_zero_cons, List.map_cons, List.map_cons, h x rfl]
    | succ j =>
      rw [List.modify_succ_cons, List.map_cons, List.map_cons]
      exact congrArg (f x :: ·) (ih fun y hy ↦ h y hy)

theorem map_modify_const {α β : Type*} {f : α → β} {l : List α} {j : ℕ} {m : α → α}
    (h : ∀ x, f (m x) = f x) : (l.modify j m).map f = l.map f :=
  map_modify fun x _ ↦ h x

theorem map_modify_set {α β : Type*} {f : α → β} {l : List α} {j : ℕ} {m : α → α} {x : α}
    (h : l[j]? = some x) : (l.modify j m).map f = (l.map f).set j (f (m x)) := by
  induction l generalizing j with
  | nil => cases h
  | cons y l ih =>
    cases j with
    | zero =>
      cases h
      rw [List.modify_zero_cons, List.map_cons, List.map_cons, List.set_cons_zero]
    | succ j =>
      rw [List.modify_succ_cons, List.map_cons, List.map_cons, List.set_cons_succ]
      exact congrArg (f y :: ·) (ih h)

section Tasks

theorem keys_postRecv (j : ℕ) (packet : SnPacket) : (g.postRecv p j packet).keys = g.keys :=
  map_modify_const fun _ ↦ rfl

theorem keys_post {j : ℕ} {r : Client × List Posted}
    (h : ∀ e, g.clients[j]? = some e → r.1.clientId = e.client.clientId) :
    (g.post p j r).keys = g.keys :=
  map_modify fun e he ↦ Prod.ext rfl (h e he)

theorem keys_packetHandle (p : GWParams) (g : Gateway A) : (g.packetHandle p).keys = g.keys := by
  cases hidle : g.updating with
  | some x => rw [Gateway.packetHandle, hidle]
  | none =>
    cases hque : g.packetEventQue with
    | nil => rw [Gateway.packetHandle, hidle, hque]
    | cons x es =>
      obtain ⟨owner, ev⟩ := x
      rcases owner with - | j
      · rw [Gateway.packetHandle_of_nobody hidle hque]
        rfl
      cases he : g.clients[j]? with
      | none =>
        rw [Gateway.packetHandle, hidle, hque]
        dsimp only
        rw [he]
      | some e =>
        cases hr : ev.handle p.common e.client with
        | none =>
          rw [Gateway.packetHandle_of_none he hidle hque hr]
          rfl
        | some r =>
          rw [Gateway.packetHandle_of_some he hidle hque hr, keys_post]
          · exact map_modify_const fun _ ↦ rfl
          · intro x hx
            obtain ⟨y, hy, rfl⟩ : ∃ y, g.clients[j]? = some y ∧
                { y with handled := y.handled ++ ev.fromClient.toList } = x := by
              rw [List.getElem?_modify_eq, he] at hx
              exact ⟨e, he, Option.some.inj hx⟩
            cases Option.some.inj (he.symm.trans hy)
            exact clientId_handle hr

theorem key_sentBroker (packet : MqttPacket) (e : Entry A) :
    (Gateway.sentBroker packet e).key = e.key := by
  cases packet <;> rfl

theorem keys_brokerSend (p : GWParams) (g : Gateway A) (result : SendResult) :
    (g.brokerSend p result).keys = g.keys := by
  rw [Gateway.brokerSend]
  split
  · rfl
  split
  · rfl
  cases result with
  | refused =>
    dsimp only
    split
    · rfl
    · exact map_modify_const fun _ ↦ rfl
  | sent => exact map_modify_const fun e ↦ key_sentBroker _ e
  | failed closed => exact map_modify_const fun _ ↦ rfl

variable [DecidableEq A]

/-- **The tasks leave addresses and ids alone**, but for the one that takes datagrams. -/
theorem keys_step {e : GatewayStep A}
    (he : ∀ addr datagram around, e ≠ .clientRecv addr datagram around) :
    (g.step p e).keys = g.keys := by
  rw [Gateway.step.eq_def]
  split
  · rfl
  cases e with
  | clientRecv addr datagram around => exact absurd rfl (he addr datagram around)
  | packetHandle => exact keys_packetHandle p g
  | updateStatus =>
    dsimp only
    rw [Gateway.updateStatus]
    split
    · exact map_modify_const fun e ↦ Prod.ext rfl (clientId_updateStatus e.client _ _)
    · rfl
  | brokerSend result => exact keys_brokerSend p g result
  | brokerRecv j packet =>
    dsimp only
    rw [Gateway.brokerRecv]
    split
    · rfl
    · split
      · exact map_modify_const fun _ ↦ rfl
      · rfl
  | brokerLost j disconnected =>
    dsimp only
    rw [Gateway.brokerLost]
    split
    · rfl
    · split
      · exact map_modify_const fun _ ↦ rfl
      · rfl
  | clientSend =>
    dsimp only
    rw [Gateway.clientSend]
    split
    · rfl
    · split
      · rfl
      · exact map_modify_const fun _ ↦ rfl

end Tasks

/-! ## A CONNECT from an unknown address -/

section Datagrams

variable [DecidableEq A]

/-- **Who a datagram is from**: the client of its address, the client whose id begins with the one
in a CONNECT, which takes the address, or a new client. -/
theorem keys_clientRecv (p : GWParams) (g : Gateway A) (addr : A) (datagram : List UInt8)
    (around : Around) :
    (g.clientRecv p addr datagram around).keys = g.keys ∨
      addr ∉ g.keys.map Prod.fst ∧ ∃ clientId, Gateway.connectId datagram around = some clientId ∧
        ((∃ j key, g.keys[j]? = some key ∧ strncmpEq key.2 clientId = true ∧
            (g.clientRecv p addr datagram around).keys = g.keys.set j (addr, key.2)) ∨
          (∀ key ∈ g.keys, strncmpEq key.2 clientId = false) ∧
            (g.clientRecv p addr datagram around).keys = g.keys ++ [(addr, clientId)]) := by
  rcases g.clientRecv_cases p addr datagram around with
    heq | ⟨ev, heq⟩ | ⟨packet, -, ⟨j, -, heq⟩ | ⟨hclient, -, clientId, hid, heq⟩⟩
  · exact Or.inl (congrArg Gateway.keys heq)
  · left
    rw [heq]
    rfl
  · refine Or.inl ((congrArg Gateway.keys heq).trans ?_)
    rw [Gateway.recvKnown]
    split
    · rfl
    · split
      · rfl
      · exact keys_postRecv j packet
  · have hunknown : addr ∉ g.keys.map Prod.fst := by
      rw [Gateway.keys, List.map_map]
      exact Gateway.getClient_none hclient
    rw [heq, Gateway.recvNew]
    split
    · rename_i j hfound
      obtain ⟨hlt, hmatch, -⟩ := List.findIdx?_eq_some_iff_getElem.mp hfound
      refine Or.inr ⟨hunknown, clientId, hid, Or.inl ⟨j, g.clients[j].key, ?_, hmatch, ?_⟩⟩
      · rw [Gateway.keys, List.getElem?_map, List.getElem?_eq_getElem hlt]
        rfl
      · rw [keys_postRecv]
        exact map_modify_set (List.getElem?_eq_getElem hlt)
    · rename_i hnone
      rw [Gateway.createClient]
      split
      · rename_i g' hnew
        split at hnew
        · cases hnew
          refine Or.inr ⟨hunknown, clientId, hid, Or.inr ⟨fun key hkey ↦ ?_, ?_⟩⟩
          · obtain ⟨e, he, rfl⟩ := List.mem_map.mp hkey
            exact List.findIdx?_eq_none_iff.mp hnone e he
          · rw [keys_postRecv]
            exact List.map_append
        · cases hnew
      · exact Or.inl rfl

end Datagrams

end Emcs.Paho
