import Emcs.Paho.Tasks

/-!
# Where the packets of the gateway come from

Everything that the gateway sends to the broker or to a client goes back to packets that it was
given. The topic names and ids in it belong together by the book of the client's table, in which a
place keeps its name for good: so what was right when it was sent is right ever after, whatever
sessions follow.

One handler at a time: from a client in order (`Client.Good`), with the packets heard so far, each
handler leaves a client in order and posts packets that fit what was heard (`Handled`).

## The invariant

`Client.Good` says of everything the client keeps where it came from: its topics are those of the
book, the elements of its two maps stand for packets that were heard, the messages kept while it
sleeps are the broker's, and what waits for a REGACK fits. A handler may add a name to the book; the
old names keep their places, so that nothing already said has to be said again (`Handled`, with the
lemmas on more heard and more topics).
-/

namespace Emcs.Paho

open Mqttsn

/-- What has been heard from the client and from the broker. -/
structure Heard where
  client : List SnPacket
  broker : List MqttPacket

abbrev TopicBook := Book (List UInt8)

variable (common : CommonTopics) (h : Heard) (b : TopicBook)

/-! ## Topic names and ids -/

/-- The id was given to the name: by the table of the client, or as a topic of all clients. -/
def IdOf (id : UInt16) (name : List UInt8) : Prop :=
  (∃ n, b.At n name ∧ id = idAt n) ∨
    ∃ p ∈ common.topics.first, p.topicId = id ∧ cString p.topicName = name

/-- The topic in a PUBLISH of the client has this name: it stands in the packet, was given the id
by the table, or is a topic of all clients. There is none for an id that the gateway does not know,
and then it passes the PUBLISH on only without a message id. -/
structure NameOf (topicid : Topicid) (msgId : UInt16) (name : List UInt8) : Prop where
  short : topicid.type = MQTTSN_TOPIC_TYPE_SHORT → name = topicid.short
  normal : topicid.type = MQTTSN_TOPIC_TYPE_NORMAL →
    (∃ n, b.At n name ∧ topicid.id = idAt n) ∨ name = [] ∧ msgId = 0
  predefined : topicid.type ≠ MQTTSN_TOPIC_TYPE_SHORT → topicid.type ≠ MQTTSN_TOPIC_TYPE_NORMAL →
    (∃ p ∈ common.topics.first, p.topicId = topicid.id ∧ cString p.topicName = name) ∨
      name = [] ∧ msgId = 0

/-- **The message is the PUBLISH of the client**, under the name of its topic. -/
def Translates : SnPacket → Publish → Prop
  | .publish dup qos retained msgId topicid payload, pub =>
    pub.dup = dup ∧ pub.qos = (if qos = 3 then 0 else qos) ∧ pub.retain = retained ∧
      pub.msgId = msgId ∧ pub.payload = payload ∧ NameOf common b topicid msgId pub.topic
  | _, _ => False

/-- **The reply is the message of the broker**, with its topic, if that is short, or under an id of
it. -/
def Labels (pub : Publish) (reply : SnReply) : Prop :=
  ∃ topicid, reply = snPublish pub topicid ∧ topicid.long = [] ∧
    (topicid.type = MQTTSN_TOPIC_TYPE_SHORT ∧
        pub.topic <+: [topicid.shortName.1, topicid.shortName.2] ∨
      IdOf common b topicid.id pub.topic ∨ IdOf common b topicid.id (cString pub.topic))

variable {common h b}

theorem IdOf.mono {b' : TopicBook} (hle : b.names <+: b'.names) {id : UInt16} {name : List UInt8}
    (hid : IdOf common b id name) : IdOf common b' id name :=
  hid.imp_left fun ⟨n, hn, heq⟩ ↦ ⟨n, hn.mono hle, heq⟩

theorem Translates.mono {b' : TopicBook} (hle : b.names <+: b'.names) {packet : SnPacket}
    {pub : Publish} (ht : Translates common b packet pub) : Translates common b' packet pub := by
  cases packet with
  | publish =>
    obtain ⟨hdup, hqos, hretain, hid, hpayload, hname⟩ := ht
    exact ⟨hdup, hqos, hretain, hid, hpayload, hname.short, fun htype ↦
      (hname.normal htype).imp_left fun ⟨n, hn, heq⟩ ↦ ⟨n, hn.mono hle, heq⟩, hname.predefined⟩
  | _ => exact ht

theorem Labels.mono {b' : TopicBook} (hle : b.names <+: b'.names) {pub : Publish}
    {reply : SnReply} (hl : Labels common b pub reply) : Labels common b' pub reply := by
  obtain ⟨topicid, hreply, hlong, hid⟩ := hl
  exact ⟨topicid, hreply, hlong, hid.imp_right (Or.imp (IdOf.mono hle) (IdOf.mono hle))⟩

theorem topic_prefix_shortTopic {pub : Publish} (hshort : pub.topic.length ≤ 2) :
    pub.topic <+: [(shortTopic pub).shortName.1, (shortTopic pub).shortName.2] := by
  rw [shortTopic]
  dsimp only
  rcases htopic : pub.topic with - | ⟨x, - | ⟨y, - | ⟨z, rest⟩⟩⟩
  · exact List.nil_prefix
  · exact ⟨[_], rfl⟩
  · exact List.prefix_refl _
  · rw [htopic] at hshort
    contradiction

/-! ## Packets that fit -/

variable (common h b)

/-- The reply answers what was heard. -/
def SnReply.Fits : SnReply → Prop
  | .publish dup qos retain msgId topic payload =>
    ∃ pub, .publish pub ∈ h.broker ∧
      Labels common b pub (.publish dup qos retain msgId topic payload)
  | .register id _ name => (∃ pub, .publish pub ∈ h.broker ∧ pub.topic = name) ∧
      (IdOf common b id name ∨ IdOf common b id (cString name))
  | .regack id msgId _ => ∃ tid name, .register tid msgId name ∈ h.client ∧
      (IdOf common b id name ∨ IdOf common b id (cString name))
  | .suback _ id msgId rc => rc = 0 →
      (∃ qos topicFilter beyond, .subscribe qos msgId topicFilter beyond ∈ h.client ∧
        (topicFilter.type = MQTTSN_TOPIC_TYPE_NORMAL → id = 0 ∨
          IdOf common b id topicFilter.long ∨ IdOf common b id (cString topicFilter.long))) ∧
      ∃ rc, .suback msgId rc ∈ h.broker
  | .puback id msgId rc => rc = 0 →
      (∃ dup qos retained topicid payload,
        .publish dup qos retained msgId topicid payload ∈ h.client ∧ (qos = 1 ∨ qos = 2) ∧
          (id = topicid.id ∨ id = 0)) ∧
      .ack .puback msgId ∈ h.broker
  | .ack type msgId => ∃ t : AckType, type = t.toSn ∧ .ack t msgId ∈ h.broker
  | _ => True

/-- An acknowledgement of the broker's messages was heard, or the client was asleep. -/
def MqttPacket.Fits : MqttPacket → Prop
  | .ack .puback msgId => (∃ tid, .puback tid msgId 0 ∈ h.client) ∨
      ∃ pub, .publish pub ∈ h.broker ∧ pub.qos = 1 ∧ pub.msgId = msgId
  | _ => True

variable (now : List SnPacket)

/-- A posted event fits; a message to the broker is the PUBLISH that is handled now. -/
def Posted.Fits : Posted → Prop
  | .clientSend packet => packet.Fits common h b
  | .brokerSend (.publish pub) => ∃ packet ∈ now, Translates common b packet pub
  | .brokerSend packet => packet.Fits h
  | .brokerRecv packet => packet ∈ h.broker

/-! ## A client in order -/

/-- An element waits for the PUBACK of a PUBLISH that was heard. -/
def PubWaits (e : TopicIdMapElement) : Prop :=
  ∃ dup qos retained topicid payload,
    .publish dup qos retained e.msgId topicid payload ∈ h.client ∧ (qos = 1 ∨ qos = 2) ∧
      e.topicId = topicid.id

/-- An element waits for the SUBACK of a SUBSCRIBE that was heard. -/
def SubWaits (e : TopicIdMapElement) : Prop :=
  ∃ qos topicFilter beyond, .subscribe qos e.msgId topicFilter beyond ∈ h.client ∧
    (topicFilter.type = MQTTSN_TOPIC_TYPE_NORMAL →
      IdOf common b e.topicId topicFilter.long ∨ IdOf common b e.topicId (cString topicFilter.long))

/-- **A client in order**: its table shows the book, and all that it keeps was heard. -/
structure Client.Good (c : Client) : Prop where
  topics : c.topics.Shows b
  predefined : ∀ p ∈ c.topics.first, p.isNormal = false →
    ∃ q ∈ common.topics.first, q.topicId = p.topicId ∧ cString q.topicName = p.topicName
  pubOk : c.waitedPubTopicIdMap.Ok
  subOk : c.waitedSubTopicIdMap.Ok
  pubWaits : ∀ e ∈ c.waitedPubTopicIdMap.elements, PubWaits h e
  subWaits : ∀ e ∈ c.waitedSubTopicIdMap.elements, SubWaits common h b e
  saved : ∀ m ∈ c.clientSleepPacketQue, m ∈ h.broker
  room : c.clientSleepPacketQue.length ≤ MAX_SAVED_PUBLISH
  waits : ∀ x ∈ c.waitREGACKList, x.2.Fits common h b
  count : c.waitREGACKCount = UInt8.ofNat c.waitREGACKList.length

/-- A handler has left the client in order, and what it posts fits. -/
def Handled (r : Client × List Posted) : Prop :=
  ∃ b' : TopicBook, b.Step b' ∧ r.1.Good common h b' ∧ ∀ p ∈ r.2, p.Fits common h b' now

variable {common h b now}

/-! ### More heard, more topics -/

/-- More has been heard. -/
structure Heard.Le (h h' : Heard) : Prop where
  client : ∀ p ∈ h.client, p ∈ h'.client
  broker : ∀ m ∈ h.broker, m ∈ h'.broker

variable {h' : Heard} {b' : TopicBook}

theorem SnReply.Fits.mono (hh : h.Le h') (hb : b.names <+: b'.names) {reply : SnReply}
    (hf : reply.Fits common h b) : reply.Fits common h' b' := by
  cases reply with
  | publish =>
    obtain ⟨pub, hmem, hl⟩ := hf
    exact ⟨pub, hh.broker _ hmem, hl.mono hb⟩
  | register =>
    obtain ⟨⟨pub, hmem, hname⟩, hid⟩ := hf
    exact ⟨⟨pub, hh.broker _ hmem, hname⟩, hid.imp (IdOf.mono hb) (IdOf.mono hb)⟩
  | regack =>
    obtain ⟨tid, name, hmem, hid⟩ := hf
    exact ⟨tid, name, hh.client _ hmem, hid.imp (IdOf.mono hb) (IdOf.mono hb)⟩
  | suback =>
    intro hrc
    obtain ⟨⟨qos, f, beyond, hmem, hid⟩, rc, hrcmem⟩ := hf hrc
    exact ⟨⟨qos, f, beyond, hh.client _ hmem, fun htype ↦
      (hid htype).imp_right (Or.imp (IdOf.mono hb) (IdOf.mono hb))⟩, rc, hh.broker _ hrcmem⟩
  | puback =>
    intro hrc
    obtain ⟨⟨dup, qos, retained, topicid, payload, hmem, hrest⟩, hack⟩ := hf hrc
    exact ⟨⟨dup, qos, retained, topicid, payload, hh.client _ hmem, hrest⟩, hh.broker _ hack⟩
  | ack =>
    obtain ⟨t, htype, hmem⟩ := hf
    exact ⟨t, htype, hh.broker _ hmem⟩
  | _ => trivial

theorem MqttPacket.Fits.mono (hh : h.Le h') {packet : MqttPacket} (hf : packet.Fits h) :
    packet.Fits h' := by
  cases packet with
  | ack type =>
    cases type with
    | puback =>
      rcases hf with ⟨tid, hmem⟩ | ⟨pub, hmem, hrest⟩
      · exact Or.inl ⟨tid, hh.client _ hmem⟩
      · exact Or.inr ⟨pub, hh.broker _ hmem, hrest⟩
    | _ => trivial
  | _ => trivial

theorem Client.Good.mono {c : Client} (hh : h.Le h') (hc : c.Good common h b) :
    c.Good common h' b where
  topics := hc.topics
  predefined := hc.predefined
  pubOk := hc.pubOk
  subOk := hc.subOk
  pubWaits e he := by
    obtain ⟨dup, qos, retained, topicid, payload, hmem, hrest⟩ := hc.pubWaits e he
    exact ⟨dup, qos, retained, topicid, payload, hh.client _ hmem, hrest⟩
  subWaits e he := by
    obtain ⟨qos, f, beyond, hmem, hid⟩ := hc.subWaits e he
    exact ⟨qos, f, beyond, hh.client _ hmem, hid⟩
  saved m hm := hh.broker m (hc.saved m hm)
  room := hc.room
  waits x hx := (hc.waits x hx).mono hh (List.prefix_refl _)
  count := hc.count

/-- What waits in the client, when its table has come to show another book. -/
theorem Client.Good.table {c c' : Client} (hc : c.Good common h b) (hb : b.names <+: b'.names)
    (hshows : c'.topics.Shows b')
    (hpre : ∀ p ∈ c'.topics.first, p.isNormal = false → p ∈ c.topics.first ∨
      ∃ q ∈ common.topics.first, q.topicId = p.topicId ∧ cString q.topicName = p.topicName)
    (hpub : c'.waitedPubTopicIdMap = c.waitedPubTopicIdMap ∨ c'.waitedPubTopicIdMap = .empty)
    (hsub : c'.waitedSubTopicIdMap = c.waitedSubTopicIdMap ∨ c'.waitedSubTopicIdMap = .empty)
    (hsaved : c'.clientSleepPacketQue = c.clientSleepPacketQue ∨ c'.clientSleepPacketQue = [])
    (hlist : c'.waitREGACKList = c.waitREGACKList)
    (hcount : c'.waitREGACKCount = c.waitREGACKCount) : c'.Good common h b' where
  topics := hshows
  predefined p hp hnormal := (hpre p hp hnormal).elim (fun hold ↦ hc.predefined p hold hnormal) id
  pubOk := by
    rcases hpub with heq | heq
    · exact heq ▸ hc.pubOk
    · exact heq ▸ TopicIdMap.ok_empty
  subOk := by
    rcases hsub with heq | heq
    · exact heq ▸ hc.subOk
    · exact heq ▸ TopicIdMap.ok_empty
  pubWaits e he := by
    rcases hpub with heq | heq
    · exact hc.pubWaits e (heq ▸ he)
    · rw [heq] at he
      exact absurd he List.not_mem_nil
  subWaits e he := by
    rcases hsub with heq | heq
    · obtain ⟨qos, f, beyond, hmem, hid⟩ := hc.subWaits e (heq ▸ he)
      exact ⟨qos, f, beyond, hmem, fun htype ↦ (hid htype).imp (IdOf.mono hb) (IdOf.mono hb)⟩
    · rw [heq] at he
      exact absurd he List.not_mem_nil
  saved m hm := by
    rcases hsaved with heq | heq
    · exact hc.saved m (heq ▸ hm)
    · rw [heq] at hm
      exact absurd hm List.not_mem_nil
  room := by
    rcases hsaved with heq | heq
    · exact heq ▸ hc.room
    · rw [heq]
      exact Nat.zero_le _
  waits x hx := (hc.waits x (hlist ▸ hx)).mono ⟨fun _ ↦ id, fun _ ↦ id⟩ hb
  count := by rw [hcount, hlist, hc.count]

theorem Client.Good.same {c c' : Client} (hc : c.Good common h b)
    (htopics : c'.topics = c.topics) (hpub : c'.waitedPubTopicIdMap = c.waitedPubTopicIdMap)
    (hsub : c'.waitedSubTopicIdMap = c.waitedSubTopicIdMap)
    (hsaved : c'.clientSleepPacketQue = c.clientSleepPacketQue ∨ c'.clientSleepPacketQue = [])
    (hlist : c'.waitREGACKList = c.waitREGACKList)
    (hcount : c'.waitREGACKCount = c.waitREGACKCount) : c'.Good common h b :=
  hc.table (List.prefix_refl _) (htopics ▸ hc.topics) (fun _ hp _ ↦ Or.inl (htopics ▸ hp))
    (Or.inl hpub) (Or.inl hsub) hsaved hlist hcount

/-- A topic of the table has an id that was given to its name. -/
theorem Client.Good.idOf {c : Client} (hc : c.Good common h b) {p : Topic}
    (hp : p ∈ c.topics.first) : IdOf common b p.topicId p.topicName := by
  cases hnormal : p.isNormal with
  | true =>
    obtain ⟨⟨name, n⟩, he, rfl⟩ := hc.topics.mem_first_iff.mp ⟨hp, hnormal⟩
    exact Or.inl ⟨n, (Book.mem_entries_iff.mp he).2, rfl⟩
  | false =>
    obtain ⟨q, hq, hid, hname⟩ := hc.predefined p hp hnormal
    exact Or.inr ⟨q, hq, hid, hname⟩

/-! ## The handlers of the client's packets -/

theorem Client.Good.handled {c' : Client} (hc' : c'.Good common h b) {posted : List Posted}
    (hposted : ∀ p ∈ posted, p.Fits common h b now) : Handled common h b now (c', posted) :=
  ⟨b, .refl b, hc', hposted⟩

namespace Client.Good

variable {c : Client} (hc : c.Good common h b)

include hc

theorem sendStoredPublish : Handled common h b now (Paho.sendStoredPublish c) := by
  have hsame : Good common h b (Paho.sendStoredPublish c).1 :=
    hc.same rfl rfl rfl (Or.inr rfl) rfl rfl
  refine hsame.handled fun p hp ↦ ?_
  obtain ⟨m, hm, rfl⟩ := List.mem_map.mp hp
  exact hc.saved m hm

/-- A new session lets the names go, and what waits for the broker. -/
theorem renew : c.renew.Good common h b.renew := by
  have hnames : b.names <+: b.renew.names := by
    rw [Book.names_renew]
  refine hc.table hnames hc.topics.eraseNormal (fun p hp _ ↦ ?_) (Or.inr rfl) (Or.inr rfl)
    (Or.inl rfl) rfl rfl
  exact Or.inl (List.mem_of_mem_filter hp)

theorem beginSession (data : Connect) : ∃ b' : TopicBook, b.Step b' ∧
    (c.beginSession data).Good common h b' := by
  have hsame : Good common h b
      { c.disconnect with connectData := data, sessionStatus := data.cleanstart } :=
    hc.same rfl rfl rfl (Or.inl rfl) rfl rfl
  rw [Client.beginSession]
  split
  · exact ⟨b.renew, Or.inr (Or.inl rfl), hsame.renew⟩
  · exact ⟨b, .refl b, hsame⟩

theorem connect (cleansession willFlag : Bool) (duration : UInt16) :
    Handled common h b now (handleConnect c cleansession willFlag duration) := by
  rw [handleConnect]
  split
  · obtain ⟨b', hb, hgood, hfits⟩ := hc.sendStoredPublish
    refine ⟨b', hb, hgood, List.forall_mem_cons.mpr ⟨trivial, hfits⟩⟩
  · obtain ⟨b', hb, hgood⟩ := hc.beginSession
      { Connect.zero with cleanstart := cleansession, will := willFlag, keepAliveTimer := duration }
    refine ⟨b', hb, hgood, List.forall_mem_singleton.mpr ?_⟩
    cases willFlag <;> trivial

theorem willtopic (willQos : QoS) (willRetain : Bool) (willTopic : List UInt8) :
    Handled common h b now (handleWilltopic c willQos willRetain willTopic) := by
  refine ⟨b, .refl b, hc.same rfl rfl rfl (Or.inl rfl) rfl rfl, ?_⟩
  exact List.forall_mem_singleton.mpr trivial

theorem willmsg (msg : List UInt8) : Handled common h b now (handleWillmsg c msg) := by
  rw [handleWillmsg]
  split
  · exact handled hc (List.forall_mem_nil _)
  split
  · refine ⟨b, .refl b, hc.same rfl rfl rfl (Or.inl rfl) rfl rfl, ?_⟩
    exact List.forall_mem_singleton.mpr trivial
  · exact handled hc (List.forall_mem_nil _)

theorem disconnect (duration : UInt16) : Handled common h b now (handleDisconnect c duration) := by
  refine handled hc fun p hp ↦ ?_
  rcases List.mem_append.mp hp with hp | hp
  · split at hp
    · rw [List.mem_singleton.mp hp]
      trivial
    · exact absurd hp List.not_mem_nil
  · rw [List.mem_singleton.mp hp]
    trivial

theorem pingreq : Handled common h b now (handlePingreq c) := by
  rw [handlePingreq]
  split
  · obtain ⟨b', hb, hgood, hfits⟩ := hc.sendStoredPublish
    exact ⟨b', hb, hgood.same rfl rfl rfl (Or.inl rfl) rfl rfl, hfits⟩
  · refine ⟨b, .refl b, hc.same rfl rfl rfl (Or.inl rfl) rfl rfl, ?_⟩
    exact List.forall_mem_singleton.mpr trivial

/-- A topic is added, a predefined one only as the list of predefined topics has it. -/
theorem addTopic (topicName : List UInt8) (id : UInt16)
    (hid : id ≠ 0 → ∃ q ∈ common.topics.first, q.topicId = id ∧
      cString q.topicName = cString topicName) :
    ∃ b' : TopicBook, b.Step b' ∧
      Good common h b' { c with topics := (c.topics.addTopic topicName id).1 } ∧
      ∀ p, (c.topics.addTopic topicName id).2 = some p →
        p ∈ (c.topics.addTopic topicName id).1.first ∧ p.topicName = cString topicName := by
  obtain ⟨b', hshows, hor, hres⟩ := hc.topics.addTopic topicName id
  have hstep : b.Step b' := by
    rcases hor with rfl | rfl
    · exact .refl _
    · exact Or.inr (Or.inr ⟨_, _, rfl⟩)
  refine ⟨b', hstep, hc.table hstep.names_prefix hshows (fun p hp hnormal ↦ ?_) (Or.inl rfl)
    (Or.inl rfl) (Or.inl rfl) rfl rfl, hres⟩
  rcases hc.topics.mem_addTopic hp with hold | hnew | ⟨hne, rfl⟩
  · exact Or.inl hold
  · exact absurd (hnormal.symm.trans hnew) Bool.false_ne_true
  · exact Or.inr (hid hne)

/-- The topic of a packet is found or added. -/
theorem add (type : UInt8) (name : List UInt8) :
    ∃ b' : TopicBook, b.Step b' ∧
      Good common h b' { c with topics := (c.topics.add type name).1 } ∧
      ∀ p, (c.topics.add type name).2 = some p →
        IdOf common b' p.topicId name ∨ IdOf common b' p.topicId (cString name) := by
  rw [Topics.add]
  split
  · exact ⟨b, .refl b, hc, fun p hp ↦ absurd hp (by simp)⟩
  cases hfind : c.topics.getTopicByName name with
  | some q =>
    obtain ⟨hmem, rfl⟩ := Topics.Shows.mem_of_getTopicByName hfind
    refine ⟨b, .refl b, hc, fun p hp ↦ Or.inl ?_⟩
    rw [← Option.some.inj hp]
    exact hc.idOf hmem
  | none =>
    obtain ⟨b', hstep, hgood, hres⟩ := hc.addTopic name 0 fun hne ↦ absurd rfl hne
    refine ⟨b', hstep, hgood, fun p hp ↦ Or.inr ?_⟩
    obtain ⟨hmem, hname⟩ := hres p hp
    rw [← hname]
    exact hgood.idOf hmem

/-- **Looking up a topic id**: what is found is the name of the id. -/
theorem lookUp (topicid : Topicid) : ∃ b' : TopicBook, b.Step b' ∧
    (lookUp common c topicid).1.Good common h b' ∧
    ∀ p, (Paho.lookUp common c topicid).2 = some p →
      (topicid.type = MQTTSN_TOPIC_TYPE_NORMAL → ∃ n, b'.At n p.topicName ∧ topicid.id = idAt n) ∧
        (topicid.type ≠ MQTTSN_TOPIC_TYPE_NORMAL → ∃ q ∈ common.topics.first,
          q.topicId = topicid.id ∧ cString q.topicName = p.topicName) := by
  rw [Paho.lookUp]
  cases hown : c.topics.getTopicById topicid.type topicid.id with
  | some q =>
    refine ⟨b, .refl b, hc, fun p hp ↦ ?_⟩
    rw [← Option.some.inj hp]
    refine ⟨fun htype ↦ ?_, fun htype ↦ ?_⟩
    · rw [htype] at hown
      obtain ⟨n, he, hid⟩ := hc.topics.of_getTopicById hown
      exact ⟨n, (Book.mem_entries_iff.mp he).2, hid⟩
    · have hfound := List.find?_some hown
      rw [Bool.and_eq_true, beq_iff_eq, beq_iff_eq] at hfound
      have hnormal : q.isNormal = false := beq_eq_false_iff_ne.mpr (hfound.1 ▸ htype)
      rw [← hfound.2]
      exact hc.predefined q (List.mem_of_find?_eq_some hown) hnormal
  | none =>
    cases hcommon : common.topics.getTopicById topicid.type topicid.id with
    | none => exact ⟨b, .refl b, hc, fun p hp ↦ absurd hp (by simp)⟩
    | some q =>
      have hmem := List.mem_of_find?_eq_some hcommon
      have htype := List.find?_some hcommon
      rw [Bool.and_eq_true, beq_iff_eq, beq_iff_eq, common.predefined q hmem] at htype
      obtain ⟨b', hstep, hgood, hres⟩ :=
        hc.addTopic q.topicName q.topicId fun _ ↦ ⟨q, hmem, rfl, rfl⟩
      refine ⟨b', hstep, hgood, fun p hp ↦ ⟨fun hnormal ↦ ?_, fun _ ↦ ?_⟩⟩
      · rw [hnormal] at htype
        exact absurd htype.1 (by decide)
      · exact ⟨q, hmem, htype.2, (hres p hp).2.symm⟩

/-- A message is passed on, and waits for its PUBACK. -/
theorem forward {pub : Publish} {dup : Bool} {qos : QoS} {retained : Bool} {topicid : Topicid}
    {payload : List UInt8}
    (hmem : .publish dup qos retained pub.msgId topicid payload ∈ h.client)
    (hnow : .publish dup qos retained pub.msgId topicid payload ∈ now)
    (ht : Translates common b (.publish dup qos retained pub.msgId topicid payload) pub) :
    (forward c pub qos topicid).1.Good common h b ∧
      ∀ p ∈ (Paho.forward c pub qos topicid).2, p.Fits common h b now := by
  have hfits : ∀ p ∈ [Posted.brokerSend (.publish pub)], p.Fits common h b now :=
    List.forall_mem_singleton.mpr ⟨_, hnow, ht⟩
  rw [Paho.forward]
  split
  · rename_i hqos
    refine ⟨⟨hc.topics, hc.predefined, hc.pubOk.add .., hc.subOk, fun e he ↦ ?_, hc.subWaits,
      hc.saved, hc.room, hc.waits, hc.count⟩, hfits⟩
    rcases TopicIdMap.mem_add he with hold | rfl
    · exact hc.pubWaits e hold
    · exact ⟨dup, qos, retained, topicid, payload, hmem, qos_acked qos hqos.2, rfl⟩
  · exact ⟨hc, hfits⟩

/-- **A PUBLISH of the client** is passed on under the name of its topic, or not at all. -/
theorem publish {dup : Bool} {qos : QoS} {retained : Bool} {msgId : UInt16} {topicid : Topicid}
    {payload : List UInt8} (hmem : .publish dup qos retained msgId topicid payload ∈ h.client)
    (hnow : .publish dup qos retained msgId topicid payload ∈ now) :
    Handled common h b now (handlePublish common c dup qos retained msgId topicid payload) := by
  rw [handlePublish]
  dsimp only
  by_cases hshort : topicid.type = MQTTSN_TOPIC_TYPE_SHORT
  · rw [if_pos hshort]
    refine ⟨b, .refl b, hc.forward hmem hnow ⟨rfl, rfl, rfl, rfl, rfl, fun _ ↦ rfl,
      fun hnormal ↦ ?_, fun hlong ↦ absurd hshort hlong⟩⟩
    rw [hshort] at hnormal
    exact absurd hnormal (by decide)
  obtain ⟨b', hstep, hgood, hname⟩ := hc.lookUp topicid
  rw [if_neg hshort]
  by_cases hminus : (Paho.lookUp common c topicid).2 = none ∧ qos = 3
  · rw [if_pos hminus]
    exact ⟨b', hstep, hgood, List.forall_mem_nil _⟩
  rw [if_neg hminus]
  by_cases hzero : (qos = 0 ∨ qos = 3) ∧ msgId > 0
  · rw [if_pos hzero]
    exact ⟨b', hstep, hgood, List.forall_mem_nil _⟩
  rw [if_neg hzero]
  by_cases hreject : (Paho.lookUp common c topicid).2 = none ∧ msgId ≠ 0 ∧ qos > 0 ∧ qos < 3
  · rw [if_pos hreject]
    exact ⟨b', hstep, hgood, List.forall_mem_singleton.mpr fun hrc ↦ absurd hrc (by decide)⟩
  rw [if_neg hreject]
  -- without a topic, only a PUBLISH without a message id comes here
  have hnameOf : NameOf common b' topicid msgId
      (((Paho.lookUp common c topicid).2.map Topic.topicName).getD []) := by
    have hfree (hfound : (Paho.lookUp common c topicid).2 = none) : msgId = 0 := by
      refine not_not.mp fun hid ↦ ?_
      have hends := qos_ends qos fun hqos ↦ hreject ⟨hfound, hid, hqos⟩
      exact hzero ⟨hends, UInt16.pos_iff_ne_zero.mpr hid⟩
    cases hfound : (Paho.lookUp common c topicid).2 with
    | some p =>
      exact ⟨fun htype ↦ absurd htype hshort, fun htype ↦ Or.inl ((hname p hfound).1 htype),
        fun _ htype ↦ Or.inl ((hname p hfound).2 htype)⟩
    | none =>
      exact ⟨fun htype ↦ absurd htype hshort, fun _ ↦ Or.inr ⟨rfl, hfree hfound⟩,
        fun _ _ ↦ Or.inr ⟨rfl, hfree hfound⟩⟩
  have ht : Translates common b' (.publish dup qos retained msgId topicid payload)
      ⟨dup, if qos = 3 then 0 else qos, retained, msgId,
        ((Paho.lookUp common c topicid).2.map Topic.topicName).getD [], payload⟩ :=
    ⟨rfl, rfl, rfl, rfl, rfl, hnameOf⟩
  exact ⟨b', hstep, hgood.forward hmem hnow ht⟩

theorem puback {tid msgId : UInt16} {rc : UInt8} (hmem : .puback tid msgId rc ∈ h.client) :
    Handled common h b now (handlePuback c msgId rc) := by
  rw [handlePuback]
  refine handled hc ?_
  split
  · rename_i hrc
    exact List.forall_mem_singleton.mpr (Or.inl ⟨tid, hrc.2 ▸ hmem⟩)
  · exact List.forall_mem_nil _

theorem ack (type : UInt8) (msgId : UInt16) : Handled common h b now (handleAck c type msgId) := by
  rw [handleAck]
  refine handled hc ?_
  split
  · rw [ackType]
    split
    · exact List.forall_mem_singleton.mpr trivial
    split
    · exact List.forall_mem_singleton.mpr trivial
    split
    · exact List.forall_mem_singleton.mpr trivial
    · exact List.forall_mem_nil _
  · exact List.forall_mem_nil _

/-- **A REGISTER** is acknowledged with an id that was given to its name. -/
theorem register {tid msgId : UInt16} {topicName : List UInt8}
    (hmem : .register tid msgId topicName ∈ h.client) {r : Client × List Posted}
    (hr : handleRegister c msgId topicName = some r) : Handled common h b now r := by
  rw [handleRegister] at hr
  split at hr
  · obtain ⟨b', hstep, hgood, hid⟩ := hc.add MQTTSN_TOPIC_TYPE_NORMAL topicName
    obtain ⟨p, hp, rfl⟩ := Option.map_eq_some_iff.mp hr
    exact ⟨b', hstep, hgood, List.forall_mem_singleton.mpr ⟨tid, topicName, hmem, hid p hp⟩⟩
  · rw [← Option.some.inj hr]
    exact handled hc (List.forall_mem_nil _)

/-- A packet that waited for a REGACK is sent, and waits no more. -/
theorem eraseWaitREGACK (msgId : UInt16) : (c.eraseWaitREGACK msgId).Good common h b := by
  refine ⟨hc.topics, hc.predefined, hc.pubOk, hc.subOk, hc.pubWaits, hc.subWaits, hc.saved, hc.room,
    fun x hx ↦ hc.waits x (List.mem_of_mem_eraseP hx), ?_⟩
  have hcount := hc.count
  rw [Client.eraseWaitREGACK]
  dsimp only
  split
  · rename_i hany
    obtain ⟨x, hx, hid⟩ := List.any_eq_true.mp hany
    have hpos := List.length_pos_of_mem hx
    rw [List.length_eraseP_of_mem hx hid, hcount, ← UInt8.ofNat_one, ← UInt8.ofNat_sub hpos]
  · rename_i hany
    rw [List.eraseP_of_forall_not fun x hx hid ↦ hany (List.any_eq_true.mpr ⟨x, hx, hid⟩), hcount]

theorem releasePublish (msgId : UInt16) :
    (Paho.releasePublish c msgId).1.Good common h b ∧
      ∀ p ∈ (Paho.releasePublish c msgId).2, p.Fits common h b now := by
  rw [Paho.releasePublish]
  cases hfound : c.getWaitREGACK msgId with
  | none => exact ⟨hc, List.forall_mem_nil _⟩
  | some packet =>
    obtain ⟨x, hx, rfl⟩ := Option.map_eq_some_iff.mp hfound
    exact ⟨hc.eraseWaitREGACK msgId,
      List.forall_mem_singleton.mpr (hc.waits x (List.mem_of_find?_eq_some hx))⟩

theorem regAck (msgId : UInt16) : Handled common h b now (handleRegAck c msgId) := by
  obtain ⟨hgood, hfits⟩ := hc.releasePublish msgId
  rw [handleRegAck]
  split
  · dsimp only
    split
    · refine ⟨b, .refl b, hgood.same rfl rfl rfl (Or.inl rfl) rfl rfl, ?_⟩
      exact List.forall_mem_append.mpr ⟨hfits, List.forall_mem_singleton.mpr trivial⟩
    · exact handled hgood hfits
  · exact handled hc (List.forall_mem_nil _)

/-- The topic of a SUBSCRIBE is acknowledged with an id that was given to its name. -/
theorem filterTopic (topicFilter : Topicid) : ∃ b' : TopicBook, b.Step b' ∧
    (filterTopic common c topicFilter).1.Good common h b' ∧
    ∀ x, (Paho.filterTopic common c topicFilter).2 = some x →
      topicFilter.type = MQTTSN_TOPIC_TYPE_NORMAL →
      IdOf common b' x.2 topicFilter.long ∨ IdOf common b' x.2 (cString topicFilter.long) := by
  rw [Paho.filterTopic]
  split
  · rename_i htype
    obtain ⟨b', hstep, hgood, -⟩ := hc.lookUp topicFilter
    refine ⟨b', hstep, hgood, fun x _ hnormal ↦ ?_⟩
    rw [htype] at hnormal
    exact absurd hnormal (by decide)
  split
  · obtain ⟨b', hstep, hgood, hid⟩ := hc.add topicFilter.type topicFilter.long
    refine ⟨b', hstep, hgood, fun x hx _ ↦ ?_⟩
    obtain ⟨p, hp, rfl⟩ := Option.map_eq_some_iff.mp hx
    exact hid p hp
  · rename_i hnormal
    exact ⟨b, .refl b, hc, fun x _ htype ↦ absurd htype hnormal⟩

theorem subscribe {qos : QoS} {msgId : UInt16} {topicFilter : Topicid} {beyond : List UInt8}
    (hmem : .subscribe qos msgId topicFilter beyond ∈ h.client) :
    Handled common h b now (handleSubscribe common c qos msgId topicFilter beyond) := by
  rw [handleSubscribe]
  split
  · exact handled hc (List.forall_mem_nil _)
  obtain ⟨b', hstep, hgood, hid⟩ := hc.filterTopic topicFilter
  dsimp only
  cases hfound : (Paho.filterTopic common c topicFilter).2 with
  | none =>
    refine ⟨b', hstep, hgood, List.forall_mem_singleton.mpr fun hrc ↦ ?_⟩
    exact absurd hrc (by decide)
  | some x =>
    refine ⟨b', hstep, ?_, List.forall_mem_singleton.mpr trivial⟩
    refine ⟨hgood.topics, hgood.predefined, hgood.pubOk, hgood.subOk.add .., hgood.pubWaits,
      fun e he ↦ ?_, hgood.saved, hgood.room, hgood.waits, hgood.count⟩
    rcases TopicIdMap.mem_add he with hold | rfl
    · exact hgood.subWaits e hold
    · exact ⟨qos, topicFilter, beyond, hmem, hid x hfound⟩

theorem unsubscribe (msgId : UInt16) (topicFilter : Topicid) :
    Handled common h b now (handleUnsubscribe c msgId topicFilter) := by
  rw [handleUnsubscribe]
  refine handled hc ?_
  split
  · exact List.forall_mem_nil _
  · split
    · exact List.forall_mem_singleton.mpr trivial
    · exact List.forall_mem_singleton.mpr trivial

/-- **Every packet of the client** that has been heard is handled in order. -/
theorem snPacket {packet : SnPacket} (hmem : packet ∈ h.client) {r : Client × List Posted}
    (hr : handleSnPacket common c packet = some r) : Handled common h b [packet] r := by
  cases packet with
  | register tid msgId topicName => exact hc.register hmem hr
  | connect cleansession willFlag duration =>
    exact Option.some.inj hr ▸ hc.connect cleansession willFlag duration
  | willTopic willQos willRetain willTopic =>
    exact Option.some.inj hr ▸ hc.willtopic willQos willRetain willTopic
  | willMsg msg => exact Option.some.inj hr ▸ hc.willmsg msg
  | regAck tid msgId rc => exact Option.some.inj hr ▸ hc.regAck msgId
  | publish dup qos retained msgId topicid payload =>
    exact Option.some.inj hr ▸ hc.publish hmem (List.mem_singleton_self _)
  | puback tid msgId rc => exact Option.some.inj hr ▸ hc.puback hmem
  | ack type msgId => exact Option.some.inj hr ▸ hc.ack type msgId
  | subscribe qos msgId topicFilter beyond => exact Option.some.inj hr ▸ hc.subscribe hmem
  | unsubscribe msgId topicFilter => exact Option.some.inj hr ▸ hc.unsubscribe msgId topicFilter
  | pingreq => exact Option.some.inj hr ▸ hc.pingreq
  | disconnect duration => exact Option.some.inj hr ▸ hc.disconnect duration
  | willTopicUpd => exact Option.some.inj hr ▸ handled hc (List.forall_mem_singleton.mpr trivial)
  | willMsgUpd => exact Option.some.inj hr ▸ handled hc (List.forall_mem_singleton.mpr trivial)
  | malformed => exact Option.some.inj hr ▸ handled hc (List.forall_mem_nil _)

/-! ## The handlers of the broker's packets -/

theorem connack (rc : UInt8) : Handled common h b now (handleConnack c rc) := by
  have hsame : ∀ rc, (c.connackSended rc).Good common h b := by
    intro rc
    rw [Client.connackSended]
    split <;> exact hc.same rfl rfl rfl (Or.inl rfl) rfl rfl
  exact ⟨b, .refl b, hsame _, List.forall_mem_singleton.mpr trivial⟩

theorem updateStatus (type : UInt8) (duration : UInt16) :
    (c.updateStatus type duration).Good common h b := by
  rw [Client.updateStatus]
  repeat' split
  all_goals exact hc.same rfl rfl rfl (Or.inl rfl) rfl rfl

theorem pingresp : Handled common h b now (handlePingresp c) :=
  ⟨b, .refl b, hc.updateStatus _ _, List.forall_mem_singleton.mpr trivial⟩

omit hc in
theorem fits_replyAck {pub : Publish} (hmem : .publish pub ∈ h.broker) :
    ∀ p ∈ replyAck pub, p.Fits common h b now := by
  rw [replyAck]
  split
  · rename_i hqos
    exact List.forall_mem_singleton.mpr (Or.inr ⟨pub, hmem, hqos, rfl⟩)
  split
  · exact List.forall_mem_singleton.mpr trivial
  · exact List.forall_mem_nil _

theorem setClientSleepPacket {m : MqttPacket} (hmem : m ∈ h.broker) :
    (c.setClientSleepPacket m).Good common h b := by
  rw [Client.setClientSleepPacket]
  split
  · rename_i hroom
    refine ⟨hc.topics, hc.predefined, hc.pubOk, hc.subOk, hc.pubWaits, hc.subWaits, fun x hx ↦ ?_,
      ?_, hc.waits, hc.count⟩
    · rcases List.mem_append.mp hx with hx | hx
      · exact hc.saved x hx
      · exact List.mem_singleton.mp hx ▸ hmem
    · rw [List.length_append]
      exact hroom
  · exact hc

theorem setWaitREGACK {packet : SnReply} (hfits : packet.Fits common h b) (regackMsgId : UInt16) :
    (c.setWaitREGACK packet regackMsgId).Good common h b := by
  refine ⟨hc.topics, hc.predefined, hc.pubOk, hc.subOk, hc.pubWaits, hc.subWaits, hc.saved, hc.room,
    fun x hx ↦ ?_, ?_⟩
  · rcases List.mem_append.mp hx with hx | hx
    · exact hc.waits x hx
    · exact List.mem_singleton.mp hx ▸ hfits
  · have hcount := hc.count
    rw [Client.setWaitREGACK]
    dsimp only
    rw [hcount, List.length_append, List.length_singleton, UInt8.ofNat_add]
    rfl

/-- **A message under a name that is new** waits until the client knows its id. -/
theorem publishUnknown {pub : Publish} (hmem : .publish pub ∈ h.broker)
    {r : Client × List Posted} (hr : publishUnknown c pub = some r) : Handled common h b now r := by
  rw [Paho.publishUnknown] at hr
  split at hr
  · split at hr
    · rw [← Option.some.inj hr]
      exact handled hc (fits_replyAck hmem)
    · cases hr
  obtain ⟨b', hstep, hgood, hid⟩ := hc.add MQTTSN_TOPIC_TYPE_NORMAL pub.topic
  dsimp only at hr
  cases hfound : (c.topics.add MQTTSN_TOPIC_TYPE_NORMAL pub.topic).2 with
  | none =>
    rw [hfound] at hr
    rw [← Option.some.inj hr]
    exact ⟨b', hstep, hgood, List.forall_mem_nil _⟩
  | some topic =>
    rw [hfound] at hr
    dsimp only at hr
    split at hr
    · rw [← Option.some.inj hr]
      have hfits : (snPublish pub ⟨MQTTSN_TOPIC_TYPE_NORMAL, topic.topicId, (0, 0), []⟩).Fits
          common h b' := ⟨pub, hmem, _, rfl, rfl, Or.inr (hid topic hfound)⟩
      have hsame : Good common h b' { c with
          topics := (c.topics.add MQTTSN_TOPIC_TYPE_NORMAL pub.topic).1
          snMsgId := getNextSnMsgId c.snMsgId } := hgood.same rfl rfl rfl (Or.inl rfl) rfl rfl
      exact ⟨b', hstep, hsame.setWaitREGACK hfits _,
        List.forall_mem_singleton.mpr ⟨⟨pub, hmem, rfl⟩, hid topic hfound⟩⟩
    · rw [← Option.some.inj hr]
      exact ⟨b', hstep, hgood, List.forall_mem_nil _⟩

/-- **A message of the broker** comes to the client with its topic, or not at all. -/
theorem brokerPublish {pub : Publish} (hmem : .publish pub ∈ h.broker)
    {r : Client × List Posted} (hr : handleBrokerPublish c pub = some r) :
    Handled common h b now r := by
  rw [handleBrokerPublish] at hr
  split at hr
  · rw [← Option.some.inj hr]
    exact handled hc (List.forall_mem_nil _)
  split at hr
  · rw [← Option.some.inj hr]
    exact handled (hc.setClientSleepPacket hmem) (fits_replyAck hmem)
  split at hr
  · rename_i hshort
    rw [← Option.some.inj hr]
    exact handled hc (List.forall_mem_singleton.mpr ⟨pub, hmem, _, rfl, rfl,
      Or.inl ⟨rfl, topic_prefix_shortTopic hshort⟩⟩)
  cases hfound : c.topics.getTopicByName pub.topic with
  | some topic =>
    rw [hfound] at hr
    obtain ⟨htopic, hname⟩ := Topics.Shows.mem_of_getTopicByName hfound
    rw [← Option.some.inj hr]
    refine handled hc
      (List.forall_mem_singleton.mpr ⟨pub, hmem, _, rfl, rfl, Or.inr (Or.inl ?_)⟩)
    exact hname ▸ hc.idOf htopic
  | none =>
    rw [hfound] at hr
    exact hc.publishUnknown hmem hr

/-- **A PUBACK of the broker** is passed on for a PUBLISH that waits for it. -/
theorem brokerPuback {msgId : UInt16} (hmem : .ack .puback msgId ∈ h.broker) :
    Handled common h b now (handleBrokerPuback c msgId) := by
  rw [handleBrokerPuback]
  cases hfound : c.waitedPubTopicIdMap.getElement msgId with
  | none => exact handled hc (List.forall_mem_nil _)
  | some e =>
    obtain ⟨he, rfl⟩ := TopicIdMap.of_getElement hfound
    obtain ⟨hok, -⟩ := hc.pubOk.erase (Option.isSome_iff_exists.mpr ⟨e, hfound⟩)
    refine ⟨b, .refl b, ⟨hc.topics, hc.predefined, hok, hc.subOk,
      fun x hx ↦ hc.pubWaits x (TopicIdMap.mem_erase hx), hc.subWaits, hc.saved, hc.room, hc.waits,
      hc.count⟩, List.forall_mem_singleton.mpr fun _ ↦ ⟨?_, hmem⟩⟩
    obtain ⟨dup, qos, retained, topicid, payload, hpub, hqos, hid⟩ := hc.pubWaits e he
    refine ⟨dup, qos, retained, topicid, payload, hpub, hqos, ?_⟩
    rw [TopicIdMapElement.getTopicId]
    split
    · exact Or.inr rfl
    · exact Or.inl hid

theorem brokerAck {type : AckType} {msgId : UInt16} (hmem : .ack type msgId ∈ h.broker) :
    Handled common h b now (handleBrokerAck c type msgId) := by
  rw [handleBrokerAck]
  refine handled hc ?_
  split
  · exact List.forall_mem_singleton.mpr ⟨type, rfl, hmem⟩
  split
  · exact List.forall_mem_singleton.mpr trivial
  · exact List.forall_mem_nil _

/-- **A SUBACK of the broker** is passed on for a SUBSCRIBE that waits for it. -/
theorem suback {msgId : UInt16} {rc : UInt8} (hmem : .suback msgId rc ∈ h.broker) :
    Handled common h b now (handleSuback c msgId rc) := by
  rw [handleSuback]
  cases hfound : c.waitedSubTopicIdMap.getElement msgId with
  | none => exact handled hc (List.forall_mem_nil _)
  | some e =>
    obtain ⟨he, rfl⟩ := TopicIdMap.of_getElement hfound
    obtain ⟨hok, -⟩ := hc.subOk.erase (Option.isSome_iff_exists.mpr ⟨e, hfound⟩)
    refine ⟨b, .refl b, ⟨hc.topics, hc.predefined, hc.pubOk, hok, hc.pubWaits,
      fun x hx ↦ hc.subWaits x (TopicIdMap.mem_erase hx), hc.saved, hc.room, hc.waits, hc.count⟩,
      List.forall_mem_singleton.mpr ?_⟩
    split
    · exact fun hrc ↦ absurd hrc (by decide)
    · obtain ⟨qos, f, beyond, hsub, hid⟩ := hc.subWaits e he
      refine fun _ ↦ ⟨⟨qos, f, beyond, hsub, fun htype ↦ ?_⟩, rc, hmem⟩
      rw [TopicIdMapElement.getTopicId]
      split
      · exact Or.inl rfl
      · exact Or.inr (hid htype)

/-- **Every packet of the broker** that has been heard is handled in order, and so is the DISCONNECT
that a task posts itself. -/
theorem mqttPacket {packet : MqttPacket} (hmem : packet ∈ h.broker ∨ packet = .disconnect)
    {r : Client × List Posted} (hr : handleMqttPacket c packet = some r) :
    Handled common h b now r := by
  cases packet with
  | disconnect =>
    rw [← Option.some.inj hr]
    exact ⟨b, .refl b, hc.same rfl rfl rfl (Or.inl rfl) rfl rfl, List.forall_mem_nil _⟩
  | publish pub => exact hc.brokerPublish (hmem.resolve_right (by simp)) hr
  | connack rc => exact Option.some.inj hr ▸ hc.connack rc
  | pingresp => exact Option.some.inj hr ▸ hc.pingresp
  | suback msgId rc => exact Option.some.inj hr ▸ hc.suback (hmem.resolve_right (by simp))
  | unsuback =>
    exact Option.some.inj hr ▸ handled hc (List.forall_mem_singleton.mpr trivial)
  | ack type msgId =>
    cases type with
    | puback => exact Option.some.inj hr ▸ hc.brokerPuback (hmem.resolve_right (by simp))
    | _ => exact Option.some.inj hr ▸ hc.brokerAck (hmem.resolve_right (by simp))
  | _ => exact Option.some.inj hr ▸ handled hc (List.forall_mem_nil _)

end Client.Good

end Emcs.Paho
