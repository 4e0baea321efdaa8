import Emcs.Paho.Provenance

/-!
# Runs of the gateway

Whatever the order in which the tasks take their turns, and whatever is lost on the way: the packets
that the gateway sends fit what it has heard (`Session.Good`), and its messages to the broker are
PUBLISHes of the client, each sent once at most and in the order in which they came.

## The invariant

`Session.Good` extends the invariant of a client by the queues: what waits in them fits, the packets
handled are a part of those received, and the messages to the broker, sent or still waiting,
translate a part of those handled, in order. A pass of a task moves a packet from one place to the
next. The book is the one with the names that were given ids in the run (`namesGiven`), since the
counter moves exactly when a name gets an id.
-/

namespace Emcs.Paho

open Mqttsn

variable {common : CommonTopics} {h : Heard} {b : TopicBook}

/-- What the tasks have heard. -/
def Session.heard (s : Session) : Heard := ⟨s.handled, s.fromBroker⟩

/-- The messages among the packets to the broker. -/
def messages (packets : List MqttPacket) : List Publish :=
  packets.filterMap fun
    | .publish pub => some pub
    | _ => none

/-- The packets of the client that wait to be handled. -/
def Recv.fromClient : Recv → Option SnPacket
  | .client packet => some packet
  | .broker _ => none

/-- **The tasks in order**: the client is, the packets on their way fit what has been heard, and the
messages to the broker are PUBLISHes of the client in the order in which they were handled. -/
structure Session.Good (common : CommonTopics) (b : TopicBook) (s : Session) : Prop where
  client : s.client.Good common s.heard b
  events : ∀ m, .broker m ∈ s.packetEventQue → m ∈ s.fromBroker ∨ m = .disconnect
  toBroker : ∀ m ∈ s.toBroker ++ s.brokerSendQue, m.Fits s.heard
  toClient : ∀ r ∈ s.toClient ++ s.clientSendQue, r.Fits common s.heard b
  handled : (s.handled ++ s.packetEventQue.filterMap Recv.fromClient).Sublist s.received
  order : ∃ l, l.Sublist s.handled ∧
    List.Forall₂ (Translates common b) l (messages (s.toBroker ++ s.brokerSendQue))

theorem messages_append (l l' : List MqttPacket) : messages (l ++ l') = messages l ++ messages l' :=
  List.filterMap_append

/-- A list of at most one message is a PUBLISH of the client, if each of its members is. -/
theorem exists_forall₂ {now : List SnPacket} {pubs : List Publish} (hlen : pubs.length ≤ 1)
    (h : ∀ pub ∈ pubs, ∃ packet ∈ now, Translates common b packet pub) :
    ∃ l, l.Sublist now ∧ List.Forall₂ (Translates common b) l pubs := by
  cases pubs with
  | nil => exact ⟨[], List.nil_sublist _, .nil⟩
  | cons pub pubs =>
    have hnil : pubs = [] :=
      List.eq_nil_of_length_eq_zero (Nat.le_zero.mp (Nat.le_of_succ_le_succ hlen))
    subst hnil
    obtain ⟨packet, hmem, ht⟩ := h pub (List.mem_singleton_self _)
    exact ⟨[packet], List.singleton_sublist.mpr hmem, .cons ht .nil⟩

theorem exists_sublist_forall₂ {α β : Type*} {R : α → β → Prop} {l : List α} {m m' : List β}
    (h : List.Forall₂ R l m) (hsub : m'.Sublist m) :
    ∃ l', l'.Sublist l ∧ List.Forall₂ R l' m' := by
  induction hsub generalizing l with
  | slnil =>
    cases h
    exact ⟨[], .slnil, .nil⟩
  | cons x _ ih =>
    cases h with
    | cons _ hrest =>
      obtain ⟨l', hl', hall⟩ := ih hrest
      exact ⟨l', hl'.cons _, hall⟩
  | cons_cons x _ ih =>
    cases h with
    | cons hR hrest =>
      obtain ⟨l', hl', hall⟩ := ih hrest
      exact ⟨_, hl'.cons_cons _, .cons hR hall⟩

theorem toBroker_sendStoredPublish (c : Client) :
    (sendStoredPublish c).2.filterMap Posted.toBroker = [] := by
  rw [List.filterMap_eq_nil_iff]
  intro p hp
  obtain ⟨m, -, rfl⟩ := List.mem_map.mp hp
  rfl

theorem length_toBroker_ack (c : Client) (type : UInt8) (msgId : UInt16) :
    ((handleAck c type msgId).2.filterMap Posted.toBroker).length ≤ 1 := by
  rw [handleAck]
  dsimp only
  split
  · cases ackType type with
    | none => exact Nat.zero_le _
    | some type => exact Nat.le_refl _
  · exact Nat.zero_le _

theorem length_toBroker_regAck (c : Client) (msgId : UInt16) :
    ((handleRegAck c msgId).2.filterMap Posted.toBroker).length ≤ 1 := by
  have hnil : (releasePublish c msgId).2.filterMap Posted.toBroker = [] := by
    rw [releasePublish]
    split <;> rfl
  rw [handleRegAck]
  dsimp only
  split
  · split
    · rw [List.filterMap_append, hnil]
      exact Nat.le_refl _
    · rw [hnil]
      exact Nat.zero_le _
  · exact Nat.zero_le _

theorem length_toBroker_publish (c : Client) (dup : Bool) (qos : QoS) (retained : Bool)
    (msgId : UInt16) (topicid : Topicid) (payload : List UInt8) :
    ((handlePublish common c dup qos retained msgId topicid payload).2.filterMap
      Posted.toBroker).length ≤ 1 := by
  rw [handlePublish]
  dsimp only
  split
  · exact Nat.le_refl _
  by_cases hminus : (lookUp common c topicid).2 = none ∧ qos = 3
  · rw [if_pos hminus]
    exact Nat.zero_le _
  rw [if_neg hminus]
  by_cases hzero : (qos = 0 ∨ qos = 3) ∧ msgId > 0
  · rw [if_pos hzero]
    exact Nat.zero_le _
  rw [if_neg hzero]
  split
  · exact Nat.zero_le _
  · exact Nat.le_refl _

/-- A handler posts one packet to the broker at most. -/
theorem length_toBroker_le {c : Client} {packet : SnPacket} {r : Client × List Posted}
    (hr : handleSnPacket common c packet = some r) :
    (r.2.filterMap Posted.toBroker).length ≤ 1 := by
  -- messages stored for a client that slept go to `PacketHandleTask` again
  have hstored : ((sendStoredPublish c).2.filterMap Posted.toBroker).length ≤ 1 := by
    rw [toBroker_sendStoredPublish]
    exact Nat.zero_le _
  cases packet with
  | register tid msgId topicName =>
    rw [handleSnPacket, handleRegister] at hr
    split at hr
    · obtain ⟨p, -, rfl⟩ := Option.map_eq_some_iff.mp hr
      exact Nat.zero_le _
    · rw [← Option.some.inj hr]
      exact Nat.zero_le _
  | connect cleansession willFlag duration =>
    rw [← Option.some.inj hr, handleConnect]
    split
    · exact hstored
    · cases willFlag
      · exact Nat.le_refl _
      · exact Nat.zero_le _
  | willMsg msg =>
    rw [← Option.some.inj hr, handleWillmsg]
    split
    · exact Nat.zero_le _
    split
    · exact Nat.le_refl _
    · exact Nat.zero_le _
  | regAck tid msgId rc =>
    rw [← Option.some.inj hr]
    exact length_toBroker_regAck c msgId
  | publish dup qos retained msgId topicid payload =>
    rw [← Option.some.inj hr]
    exact length_toBroker_publish c dup qos retained msgId topicid payload
  | puback tid msgId rc =>
    rw [← Option.some.inj hr, handlePuback]
    dsimp only
    split
    · exact Nat.le_refl _
    · exact Nat.zero_le _
  | ack type msgId =>
    rw [← Option.some.inj hr]
    exact length_toBroker_ack c type msgId
  | subscribe qos msgId topicFilter beyond =>
    rw [← Option.some.inj hr, handleSubscribe]
    split
    · exact Nat.zero_le _
    dsimp only
    split
    · exact Nat.zero_le _
    · exact Nat.le_refl _
  | unsubscribe msgId topicFilter =>
    rw [← Option.some.inj hr, handleUnsubscribe]
    dsimp only
    split
    · exact Nat.zero_le _
    · split
      · exact Nat.zero_le _
      · exact Nat.le_refl _
  | pingreq =>
    rw [← Option.some.inj hr, handlePingreq]
    split
    · exact hstored
    · exact Nat.le_refl _
  | disconnect duration =>
    rw [← Option.some.inj hr, handleDisconnect]
    dsimp only
    split
    · exact Nat.le_refl _
    · exact Nat.zero_le _
  | willTopic | willTopicUpd | willMsgUpd | malformed =>
    rw [← Option.some.inj hr]
    exact Nat.zero_le _

namespace Session.Good

variable {s : Session}

theorem new (common : CommonTopics) (clientId : List UInt8) :
    (Session.new clientId).Good common Book.empty where
  client :=
    { topics := .empty
      predefined := fun _ hp ↦ absurd hp List.not_mem_nil
      pubOk := TopicIdMap.ok_empty
      subOk := TopicIdMap.ok_empty
      pubWaits := fun _ he ↦ absurd he List.not_mem_nil
      subWaits := fun _ he ↦ absurd he List.not_mem_nil
      saved := fun _ hm ↦ absurd hm List.not_mem_nil
      room := Nat.zero_le _
      waits := fun _ hx ↦ absurd hx List.not_mem_nil
      count := rfl }
  events _ hm := absurd hm List.not_mem_nil
  toBroker _ hm := absurd hm List.not_mem_nil
  toClient _ hr := absurd hr List.not_mem_nil
  handled := List.nil_sublist _
  order := ⟨[], List.nil_sublist _, .nil⟩

theorem brokerSend_mem {posted : List Posted} {m : MqttPacket}
    (hm : m ∈ posted.filterMap Posted.toBroker) : .brokerSend m ∈ posted := by
  obtain ⟨p, hp, hto⟩ := List.mem_filterMap.mp hm
  cases p <;> cases hto
  exact hp

theorem clientSend_mem {posted : List Posted} {x : SnReply}
    (hx : x ∈ posted.filterMap Posted.toClient) : .clientSend x ∈ posted := by
  obtain ⟨p, hp, hto⟩ := List.mem_filterMap.mp hx
  cases p <;> cases hto
  exact hp

theorem brokerRecv_mem {posted : List Posted} {m : MqttPacket}
    (hm : .broker m ∈ posted.filterMap Posted.again) : .brokerRecv m ∈ posted := by
  obtain ⟨p, hp, hto⟩ := List.mem_filterMap.mp hm
  cases p <;> cases hto
  exact hp

theorem publish_mem {packets : List MqttPacket} {pub : Publish} (hpub : pub ∈ messages packets) :
    .publish pub ∈ packets := by
  obtain ⟨m, hm, hto⟩ := List.mem_filterMap.mp hpub
  cases m <;> cases hto
  exact hm

/-- What a handler posts is put behind what waits. `s₁` is the state in which the event has been
taken from the queue, and the packets `now` of the client are noted as handled. -/
theorem post (s₁ : Session) {now : List SnPacket} {r : Client × List Posted}
    (hs : s.Good common b)
    (hs₁ : s₁ = { s with
      packetEventQue := s₁.packetEventQue, updating := s₁.updating, handled := s.handled ++ now })
    (hevents : ∀ m, .broker m ∈ s₁.packetEventQue → m ∈ s.fromBroker ∨ m = .disconnect)
    (hsub : (s₁.handled ++ s₁.packetEventQue.filterMap Recv.fromClient).Sublist s.received)
    (hr : Handled common s₁.heard b now r)
    (hlen : (messages (r.2.filterMap Posted.toBroker)).length ≤ 1) :
    ∃ b' : TopicBook, b.Step b' ∧ (s₁.post r).Good common b' := by
  obtain ⟨b', hstep, hgood, hfits⟩ := hr
  have hheard : s.heard.Le s₁.heard := by
    rw [hs₁]
    exact ⟨fun p hp ↦ List.mem_append_left _ hp, fun _ ↦ id⟩
  have hbroker : s₁.toBroker ++ s₁.brokerSendQue = s.toBroker ++ s.brokerSendQue := by rw [hs₁]
  have hclient : s₁.toClient ++ s₁.clientSendQue = s.toClient ++ s.clientSendQue := by rw [hs₁]
  -- one goal for each queue, the last two for the packets handled and their order
  refine ⟨b', hstep, hgood, fun m hm ↦ ?_, fun m hm ↦ ?_, fun x hx ↦ ?_, ?_, ?_⟩
  · rcases List.mem_append.mp hm with hm | hm
    · have hfrom : (s₁.post r).fromBroker = s.fromBroker := by rw [Session.post, hs₁]
      exact hfrom ▸ hevents m hm
    · exact Or.inl (hfits _ (brokerRecv_mem hm))
  · change m ∈ s₁.toBroker ++ (s₁.brokerSendQue ++ r.2.filterMap Posted.toBroker) at hm
    rw [← List.append_assoc, hbroker] at hm
    rcases List.mem_append.mp hm with hm | hm
    · exact (hs.toBroker m hm).mono hheard
    · have hfit := hfits _ (brokerSend_mem hm)
      cases m with
      | publish => trivial
      | _ => exact hfit
  · change x ∈ s₁.toClient ++ (s₁.clientSendQue ++ r.2.filterMap Posted.toClient) at hx
    rw [← List.append_assoc, hclient] at hx
    rcases List.mem_append.mp hx with hx | hx
    · exact (hs.toClient x hx).mono hheard hstep.names_prefix
    · exact hfits _ (clientSend_mem hx)
  -- what is posted to `PacketHandleTask` comes from the broker
  · have hnil : (r.2.filterMap Posted.again).filterMap Recv.fromClient = [] := by
      rw [List.filterMap_filterMap, List.filterMap_eq_nil_iff]
      intro p _
      cases p <;> rfl
    change (s₁.handled ++ (s₁.packetEventQue ++ r.2.filterMap Posted.again).filterMap
      Recv.fromClient).Sublist s₁.received
    rw [List.filterMap_append, hnil, List.append_nil]
    have hreceived : s₁.received = s.received := by rw [hs₁]
    exact hreceived ▸ hsub
  · obtain ⟨l, hl, hall⟩ := hs.order
    obtain ⟨l', hl', hall'⟩ := exists_forall₂ hlen fun pub hpub ↦
      hfits _ (brokerSend_mem (publish_mem hpub))
    refine ⟨l ++ l', ?_, ?_⟩
    · have hhandled : (s₁.post r).handled = s.handled ++ now := by rw [Session.post, hs₁]
      rw [hhandled]
      exact hl.append hl'
    · change List.Forall₂ _ _ (messages (s₁.toBroker ++ (s₁.brokerSendQue ++
        r.2.filterMap Posted.toBroker)))
      rw [← List.append_assoc, hbroker, messages_append]
      exact List.rel_append (hall.imp fun _ _ ht ↦ ht.mono hstep.names_prefix) hall'

/-- `PacketHandleTask` takes an event. -/
theorem packetHandle (hs : s.Good common b) : ∃ b' : TopicBook, b.Step b' ∧
    (s.packetHandle common).Good common b' := by
  rw [Session.packetHandle]
  split
  · rename_i packet es hidle hque
    have hle : s.heard.Le ⟨s.handled ++ [packet], s.fromBroker⟩ :=
      ⟨fun p hp ↦ List.mem_append_left _ hp, fun _ ↦ id⟩
    cases hr : handleSnPacket common s.client packet with
    | none => exact ⟨b, .refl b, hs.client, hs.events, hs.toBroker, hs.toClient,
        hs.handled, hs.order⟩
    | some r =>
      have hhandled := (hs.client.mono hle).snPacket
        (List.mem_append_right _ (List.mem_singleton_self _)) hr
      have hlen : (messages (r.2.filterMap Posted.toBroker)).length ≤ 1 :=
        (List.length_filterMap_le _ _).trans (length_toBroker_le hr)
      refine post { s with
        packetEventQue := es, updating := some packet, handled := s.handled ++ [packet] }
        hs rfl (fun m hm ↦ hs.events m ?_) ?_ hhandled hlen
      · rw [hque]
        exact List.mem_cons_of_mem _ hm
      · have hsub := hs.handled
        rw [hque, List.filterMap_cons] at hsub
        rw [List.append_assoc]
        exact hsub
  · rename_i packet es hidle hque
    cases hr : handleMqttPacket s.client packet with
    | none => exact ⟨b, .refl b, hs.client, hs.events, hs.toBroker, hs.toClient,
        hs.handled, hs.order⟩
    | some r =>
      have hmem := hs.events packet (hque ▸ List.mem_cons_self)
      have hhandled : Handled common s.heard b [] r := hs.client.mqttPacket hmem hr
      -- no PUBLISH is handled, so no message is posted
      have hlen : (messages (r.2.filterMap Posted.toBroker)).length ≤ 1 := by
        obtain ⟨b', -, -, hfits⟩ := hhandled
        have hnil : messages (r.2.filterMap Posted.toBroker) = [] := by
          refine List.eq_nil_iff_forall_not_mem.mpr fun pub hpub ↦ ?_
          obtain ⟨p, hp, -⟩ := hfits _ (brokerSend_mem (publish_mem hpub))
          exact absurd hp List.not_mem_nil
        rw [hnil]
        exact Nat.zero_le _
      refine post { s with packetEventQue := es } hs (by rw [List.append_nil])
        (fun m hm ↦ hs.events m ?_) ?_ hhandled hlen
      · rw [hque]
        exact List.mem_cons_of_mem _ hm
      · have hsub := hs.handled
        rw [hque] at hsub
        exact hsub
  · exact ⟨b, .refl b, hs⟩

theorem updateStatus (hs : s.Good common b) : s.updateStatus.Good common b := by
  rw [Session.updateStatus]
  split
  · exact ⟨hs.client.updateStatus _ _, hs.events, hs.toBroker, hs.toClient, hs.handled, hs.order⟩
  · exact hs

theorem clientRecv (hs : s.Good common b) (packet : SnPacket) :
    (s.clientRecv packet).Good common b := by
  rw [Session.clientRecv]
  split
  · refine ⟨hs.client, hs.events, hs.toBroker, fun r hr ↦ ?_, hs.handled, hs.order⟩
    rw [← List.append_assoc] at hr
    rcases List.mem_append.mp hr with hr | hr
    · exact hs.toClient r hr
    · rw [List.mem_singleton.mp hr]
      trivial
  · refine ⟨hs.client, fun m hm ↦ hs.events m ?_, hs.toBroker, hs.toClient, ?_, hs.order⟩
    · exact (List.mem_append.mp hm).resolve_right (by simp)
    · rw [List.filterMap_append, ← List.append_assoc]
      exact hs.handled.append (List.Sublist.refl [packet])

theorem brokerRecv (hs : s.Good common b) (packet : MqttPacket) :
    (s.brokerRecv packet).Good common b := by
  rw [Session.brokerRecv]
  split
  · have hle : s.heard.Le ⟨s.handled, s.fromBroker ++ [packet]⟩ :=
      ⟨fun _ ↦ id, fun m hm ↦ List.mem_append_left _ hm⟩
    refine ⟨hs.client.mono hle, fun m hm ↦ ?_, fun m hm ↦ (hs.toBroker m hm).mono hle,
      fun r hr ↦ (hs.toClient r hr).mono hle (List.prefix_refl _), ?_, hs.order⟩
    · rcases List.mem_append.mp hm with hm | hm
      · exact (hs.events m hm).imp_left (List.mem_append_left _)
      · cases List.mem_singleton.mp hm
        exact Or.inl (List.mem_append_right _ (List.mem_singleton_self _))
    · rw [List.filterMap_append]
      exact (List.append_nil _).symm ▸ hs.handled
  · exact hs

theorem brokerLost (hs : s.Good common b) (disconnected : Bool) :
    (s.brokerLost disconnected).Good common b := by
  rw [Session.brokerLost]
  split
  · exact ⟨hs.client.same rfl rfl rfl (Or.inl rfl) rfl rfl, hs.events, hs.toBroker, hs.toClient,
      hs.handled, hs.order⟩
  · exact hs

theorem clientSend (hs : s.Good common b) : s.clientSend.Good common b := by
  rw [Session.clientSend]
  split
  · exact hs
  · rename_i packet packets hque
    refine ⟨hs.client, hs.events, hs.toBroker, fun r hr ↦ hs.toClient r ?_, hs.handled, hs.order⟩
    rw [List.append_assoc] at hr
    rw [hque]
    exact hr

theorem discard (hs : s.Good common b) (i : ℕ) :
    Good common b { s with packetEventQue := s.packetEventQue.eraseIdx i } where
  client := hs.client
  events m hm := hs.events m (List.mem_of_mem_eraseIdx hm)
  toBroker := hs.toBroker
  toClient := hs.toClient
  handled := (((List.eraseIdx_sublist _ i).filterMap _).append_left _).trans hs.handled
  order := hs.order

theorem of_lost (hs : s.Good common b) {packet : MqttPacket} {packets : List MqttPacket}
    (hque : s.brokerSendQue = packet :: packets) :
    (∀ m ∈ s.toBroker ++ packets, m.Fits s.heard) ∧ ∃ l, l.Sublist s.handled ∧
      List.Forall₂ (Translates common b) l (messages (s.toBroker ++ packets)) := by
  have hsub : (s.toBroker ++ packets).Sublist (s.toBroker ++ s.brokerSendQue) :=
    hque ▸ (List.sublist_cons_self packet packets).append_left _
  obtain ⟨l, hl, hall⟩ := hs.order
  obtain ⟨l', hl', hall'⟩ := exists_sublist_forall₂ hall (hsub.filterMap _)
  exact ⟨fun m hm ↦ hs.toBroker m (hsub.mem hm), l', hl'.trans hl, hall'⟩

/-- `BrokerSendTask` takes a packet, and sends it or not. -/
theorem brokerSend (hs : s.Good common b) (result : SendResult) :
    (s.brokerSend result).Good common b := by
  rw [Session.brokerSend]
  split
  · exact hs
  rename_i packet packets hque
  obtain ⟨htoBroker, horder⟩ := hs.of_lost hque
  cases result with
  | refused =>
    dsimp only
    split
    · exact hs
    · exact ⟨hs.client, hs.events, htoBroker, hs.toClient, hs.handled, horder⟩
  | failed closed =>
    refine ⟨hs.client, fun m hm ↦ ?_, htoBroker, hs.toClient, ?_, horder⟩
    · rcases List.mem_append.mp hm with hm | hm
      · exact hs.events m hm
      · cases List.mem_singleton.mp hm
        exact Or.inr rfl
    · rw [List.filterMap_append]
      exact (List.append_nil _).symm ▸ hs.handled
  | sent =>
    have hsent : s.toBroker ++ [packet] ++ packets = s.toBroker ++ s.brokerSendQue := by
      rw [List.append_assoc, hque]
      rfl
    have hclient : ∀ c : Client, (c = s.client ∨ c = { s.client with status := .connecting } ∨
        c = s.client.disconnect) → c.Good common s.heard b := by
      rintro c (rfl | rfl | rfl)
      · exact hs.client
      · exact hs.client.same rfl rfl rfl (Or.inl rfl) rfl rfl
      · exact hs.client.same rfl rfl rfl (Or.inl rfl) rfl rfl
    refine ⟨hclient _ ?_, hs.events, fun m hm ↦ hs.toBroker m (hsent ▸ hm), hs.toClient, hs.handled,
      ?_⟩
    · cases packet with
      | connect => exact Or.inr (Or.inl rfl)
      | disconnect => exact Or.inr (Or.inr rfl)
      | _ => exact Or.inl rfl
    · rw [hsent]
      exact hs.order

/-- **Every step of a task keeps the order**, and adds to the book at most. -/
theorem step (hs : s.Good common b) (e : TaskStep) : ∃ b' : TopicBook, b.Step b' ∧
    (s.step common e).Good common b' := by
  rw [Session.step.eq_def]
  split
  · cases e with
    | packetHandle => exact hs.packetHandle
    | clientRecv packet => exact ⟨b, .refl b, hs.clientRecv packet⟩
    | updateStatus => exact ⟨b, .refl b, hs.updateStatus⟩
    | brokerSend result => exact ⟨b, .refl b, hs.brokerSend result⟩
    | brokerRecv packet => exact ⟨b, .refl b, hs.brokerRecv packet⟩
    | brokerLost disconnected => exact ⟨b, .refl b, hs.brokerLost disconnected⟩
    | clientSend => exact ⟨b, .refl b, hs.clientSend⟩
    | discard i => exact ⟨b, .refl b, hs.discard i⟩
  · exact ⟨b, .refl b, hs⟩

end Session.Good

/-! ## The ids given out

The book of a run need not be believed: its names are those for which the counter of ids has moved,
and the newest topic of the table at that moment shows which they are. -/

def Session.nextTopicId (s : Session) : UInt16 := s.client.topics.nextTopicId

/-- The name of the newest topic with an id from the counter. -/
def Session.newest (s : Session) : Option (List UInt8) :=
  (s.client.topics.first.filter Topic.isNormal).getLast?.map Topic.topicName

/-- The names that were given ids in a run, in the order of these. -/
def namesGiven (common : CommonTopics) : Session → List TaskStep → List (List UInt8)
  | _, [] => []
  | s, e :: es =>
    let s' := s.step common e
    (if s'.nextTopicId = s.nextTopicId then [] else s'.newest.toList) ++ namesGiven common s' es

/-- The ids given out in a run, seen by the counter moving. -/
def idsGiven (common : CommonTopics) (s : Session) (es : List TaskStep) : ℕ :=
  Trace.changes (Session.step common) Session.nextTopicId s es

theorem length_namesGiven_le (common : CommonTopics) (s : Session) (es : List TaskStep) :
    (namesGiven common s es).length ≤ idsGiven common s es := by
  induction es generalizing s with
  | nil => exact Nat.le_refl 0
  | cons e es ih =>
    rw [namesGiven, idsGiven, Trace.changes, List.length_append]
    refine Nat.add_le_add ?_ (ih _)
    split
    · exact Nat.le_refl 0
    · exact Option.length_toList_le

theorem lastId_succ_ne (n : ℕ) : lastId (n + 1) ≠ lastId n := by
  cases n with
  | zero => decide
  | succ n =>
    rw [lastId, lastId, Ne, idAt_eq_idAt_iff]
    intro h
    have hmod : (n + 1) % 65534 = n % 65534 := h
    omega

theorem newest_eq {s : Session} (hs : s.Good common b) : s.newest = b.live.getLast? := by
  have hnames : (b.entries.map Topic.ofEntry).map Topic.topicName = b.live := by
    rw [List.map_map]
    exact List.zipIdx_map_fst b.past.length b.live
  rw [Session.newest, hs.client.topics.normal, ← List.getLast?_map, hnames]

namespace Session.Good

variable {s s' : Session}

/-- **An id that is given out is seen**: the book grows by the name of the newest topic if the
counter moves, and not at all if it does not. -/
theorem names_eq {b' : TopicBook} (hs : s.Good common b) (hs' : s'.Good common b')
    (hstep : b.Step b') : b'.names
      = b.names ++ if s'.nextTopicId = s.nextTopicId then [] else s'.newest.toList := by
  rw [Session.nextTopicId, Session.nextTopicId, hs'.client.topics.counter,
    hs.client.topics.counter]
  have hsame (heq : b'.names = b.names) : b'.names = b.names ++
      if lastId b'.names.length = lastId b.names.length then [] else s'.newest.toList := by
    rw [heq, if_pos rfl, List.append_nil]
  rcases hstep with rfl | rfl | ⟨room, k, rfl⟩
  · exact hsame rfl
  · exact hsame (Book.names_renew b)
  · rcases b.intern_cases room k with heq | ⟨-, -, heq⟩
    · exact hsame (congrArg Book.names heq)
    · have hnames : (b.intern room k).names = b.names ++ [k] := by
        rw [heq, Book.names, Book.names, List.append_assoc]
      have hlast : s'.newest = some k := by
        rw [newest_eq hs', heq]
        exact List.getLast?_concat
      rw [hnames, hlast, List.length_append, List.length_singleton, if_neg (lastId_succ_ne _)]
      rfl

theorem length_names_le {b' : TopicBook} (hs : s.Good common b) (hs' : s'.Good common b')
    (hstep : b.Step b') : b'.names.length
      ≤ b.names.length + if s'.nextTopicId = s.nextTopicId then 0 else 1 := by
  rw [hs.names_eq hs' hstep, List.length_append]
  refine Nat.add_le_add_left ?_ _
  split
  · exact Nat.le_refl 0
  · exact Option.length_toList_le

/-- **A run keeps the order**, by the book of the names that were given ids. -/
theorem run (hs : s.Good common b) (es : List TaskStep) : ∃ b' : TopicBook,
    b'.names = b.names ++ namesGiven common s es ∧
      (Trace.run (Session.step common) s es).Good common b' := by
  induction es generalizing s b with
  | nil => exact ⟨b, (List.append_nil _).symm, hs⟩
  | cons e es ih =>
    obtain ⟨b₁, hstep, hs₁⟩ := hs.step e
    obtain ⟨b₂, hnames, hs₂⟩ := ih hs₁
    refine ⟨b₂, ?_, hs₂⟩
    rw [hnames, hs.names_eq hs₁ hstep, namesGiven, List.append_assoc]

theorem of_run (common : CommonTopics) (clientId : List UInt8) (es : List TaskStep) :
    ∃ b : TopicBook, b.names = namesGiven common (.new clientId) es ∧
      (Trace.run (Session.step common) (.new clientId) es).Good common b :=
  (Session.Good.new common clientId).run es

end Session.Good

/-! ## What the gateway does in every run -/

/-- **The table of topics**: its names are different, and so are its ids, which are those a topic is
found by; it counts the topics right, 50 at most. -/
theorem topics_of_run (common : CommonTopics) (clientId : List UInt8) (es : List TaskStep) :
    let t := (Trace.run (Session.step common) (.new clientId) es).client.topics
    (t.first.map Topic.topicName).Nodup ∧ t.first.length ≤ MAX_TOPIC_PAR_CLIENT ∧
      t.cnt.toNat = t.first.length ∧
      (∀ p ∈ t.first, t.getTopicByName p.topicName = some p) ∧
      ∀ p ∈ t.first, p.isNormal = true → p.topicId ≠ 0 ∧ p.topicId ≠ 0xFFFF ∧
        t.getTopicById MQTTSN_TOPIC_TYPE_NORMAL p.topicId = some p := by
  obtain ⟨b, -, hgood⟩ := Session.Good.of_run common clientId es
  have ht := hgood.client.topics
  refine ⟨ht.names, ht.room, ht.count, fun p hp ↦ ht.getTopicByName_eq hp, fun p hp hnormal ↦ ?_⟩
  obtain ⟨⟨name, n⟩, he, rfl⟩ := ht.mem_first_iff.mp ⟨hp, hnormal⟩
  exact ⟨idAt_ne_zero n, idAt_ne_max n, ht.getTopicById_eq he⟩

/-- **An id is one name's for good.** However many sessions begin in between, an id that a lookup
finds later belongs to the name it belonged to before, unless all ids have been given out. -/
theorem topicName_of_id (common : CommonTopics) (clientId : List UInt8) (es es' : List TaskStep)
    {id : UInt16} {p q : Topic} (hcount : idsGiven common (.new clientId) (es ++ es') ≤ 65534)
    (hp : (Trace.run (Session.step common) (.new clientId) es).client.topics.getTopicById
      MQTTSN_TOPIC_TYPE_NORMAL id = some p)
    (hq : (Trace.run (Session.step common) (.new clientId) (es ++ es')).client.topics.getTopicById
      MQTTSN_TOPIC_TYPE_NORMAL id = some q) : q.topicName = p.topicName := by
  have happend : idsGiven common (.new clientId) (es ++ es') = idsGiven common (.new clientId) es +
      idsGiven common (Trace.run (Session.step common) (.new clientId) es) es' :=
    Trace.changes_append (Session.step common) _ _ es es'
  rw [happend] at hcount
  obtain ⟨b, hb, hs⟩ := Session.Good.of_run common clientId es
  obtain ⟨b', hb', hs'⟩ := hs.run es'
  have hnames : b.names <+: b'.names := hb' ▸ List.prefix_append _ _
  have hlen := length_namesGiven_le common (.new clientId) es
  have hlen' := length_namesGiven_le common
    (Trace.run (Session.step common) (.new clientId) es) es'
  rw [← hb] at hlen
  rw [Trace.run_append] at hq
  obtain ⟨m, hm, hidm⟩ := hs.client.topics.of_getTopicById hp
  obtain ⟨n, hn, hidn⟩ := hs'.client.topics.of_getTopicById hq
  have hm' := (Book.mem_entries_iff.mp hm).2.mono hnames
  have hn' := (Book.mem_entries_iff.mp hn).2
  have hmlt := hm'.lt
  have hnlt := hn'.lt
  rw [hb', List.length_append] at hmlt hnlt
  have hmod : m % 65534 = n % 65534 := idAt_eq_idAt_iff.mp (hidm.symm.trans hidn)
  have hplace : m = n := by omega
  subst hplace
  exact hn'.unique hm'

/-- A client connects and registers a topic. -/
def registration : List TaskStep :=
  [.clientRecv (.connect true false 60), .packetHandle, .updateStatus, .brokerSend .sent,
    .brokerRecv (.connack 0), .packetHandle, .clientRecv (.register 0 1 [0x61, 0x62, 0x63]),
    .packetHandle, .updateStatus]

theorem topicName_of_id_one :
    let later := registration ++ [.clientRecv (.register 0 2 [0x61, 0x62, 0x64]), .packetHandle]
    idsGiven .none (.new []) later = 2 ∧
      ∀ q, (Trace.run (Session.step .none) (.new []) later).client.topics.getTopicById
        MQTTSN_TOPIC_TYPE_NORMAL 1 = some q → q.topicName = [0x61, 0x62, 0x63] := by
  refine ⟨by decide, fun q hq ↦ ?_⟩
  have hfound : (Trace.run (Session.step .none) (.new []) registration).client.topics.getTopicById
      MQTTSN_TOPIC_TYPE_NORMAL 1 = some (.ofEntry ([0x61, 0x62, 0x63], 0)) := by decide
  exact topicName_of_id .none [] registration _ (by decide) hfound hq

/-- **No message is made up, doubled or overtaken**: the messages sent to the broker are, one by one
and in their order, PUBLISHes of the client under the names that their ids were given to. -/
theorem published_in_order (common : CommonTopics) (clientId : List UInt8) (es : List TaskStep) :
    let s := Trace.run (Session.step common) (.new clientId) es
    ∃ (b : TopicBook) (l : List SnPacket), b.names = namesGiven common (.new clientId) es ∧
      s.client.topics.Shows b ∧ l.Sublist s.received ∧
      List.Forall₂ (Translates common b) l (messages s.toBroker) := by
  obtain ⟨b, hb, hs⟩ := Session.Good.of_run common clientId es
  obtain ⟨l, hl, hall⟩ := hs.order
  obtain ⟨l', hl', hall'⟩ := exists_sublist_forall₂ hall
    ((List.sublist_append_left _ _).filterMap _)
  refine ⟨b, l', hb, hs.client.topics, ?_, hall'⟩
  exact (hl'.trans hl).trans ((List.sublist_append_left _ _).trans hs.handled)

/-- **What a client is told was asked for and answered**: its acknowledgements are answers of the
broker or of the table to packets of its own, and its messages are those of the broker. -/
theorem replies_fit (common : CommonTopics) (clientId : List UInt8) (es : List TaskStep) :
    let s := Trace.run (Session.step common) (.new clientId) es
    ∃ b : TopicBook, b.names = namesGiven common (.new clientId) es ∧
      s.client.topics.Shows b ∧ ∀ r ∈ s.toClient, r.Fits common ⟨s.received, s.fromBroker⟩ b := by
  obtain ⟨b, hb, hs⟩ := Session.Good.of_run common clientId es
  refine ⟨b, hb, hs.client.topics, fun r hr ↦ ?_⟩
  have hle : Heard.Le (Session.heard _) ⟨_, _⟩ :=
    ⟨fun p hp ↦ hs.handled.mem (List.mem_append_left _ hp), fun m hm ↦ hm⟩
  exact (hs.toClient r (List.mem_append_left _ hr)).mono hle (List.prefix_refl _)

end Emcs.Paho
