import Emcs.Arduino.Effects
import Emcs.Lib.Trace

/-!
# Ready and registered

`STATE_READY` is entered when the four topics have an id, and the sketch never leaves it. In that
state the table is full and every entry is registered, so no acknowledgement finds an entry to
complete: the only packet that changes the table is an accepted CONNACK. It wipes the table, and
nothing in `STATE_READY` fills it again.

So the four topics stay registered exactly as long as no accepted CONNACK is handled in
`STATE_READY`, and as long as they do no PUBLISH goes out with topic id 0.

## The invariant

`ReadyOk` has two clauses: in `STATE_READY` all four topics are registered, and no message that is
kept for a retry has topic id 0. An accepted CONNACK in that state breaks the first, and what is
published after it breaks the second; nothing else breaks either. Calls that keep the invariant and
calls that break it are told apart by `NoConnackWhenReady`, a condition on the packets of the call.
-/

namespace Emcs.Arduino

open Bytes Mqttsn

/-! ## The four topics -/

/-- The topics of `config.h`. -/
def TOPICS : List (List UInt8) := [TOPIC_DATA_1, TOPIC_DATA_2, TOPIC_CMD_1, TOPIC_CMD_2]

/-- The table has the topic, registered, with an id. -/
def HasTopic (v : Vector TopicEntry MAX_CUSTOM_TOPICS) (topicName : List UInt8) : Prop :=
  ∃ i : Fin MAX_CUSTOM_TOPICS, v[i].inUse = true ∧ v[i].isRegistered = true ∧
    v[i].topicName.val = topicName ∧ v[i].topicId ≠ 0

/-- All four topics are in the table, registered, with an id. -/
def AllRegistered (v : Vector TopicEntry MAX_CUSTOM_TOPICS) : Prop :=
  ∀ topicName ∈ TOPICS, HasTopic v topicName

theorem sameName_iff {a b : List UInt8} (ha : a.length ≤ TOPIC_NAME_MAX_LEN - 1)
    (hb : b.length ≤ TOPIC_NAME_MAX_LEN - 1) : sameName a b = true ↔ a = b := by
  rw [sameName, List.take_of_length_le ha, List.take_of_length_le hb, beq_iff_eq]

theorem length_le_of_mem_topics : ∀ s ∈ TOPICS, s.length ≤ TOPIC_NAME_MAX_LEN - 1 := by
  decide

/-- **The four topics fill the table**: every entry is one of them. -/
theorem AllRegistered.full {v : Vector TopicEntry MAX_CUSTOM_TOPICS} (h : AllRegistered v)
    (i : Fin MAX_CUSTOM_TOPICS) :
    v[i].inUse = true ∧ v[i].isRegistered = true ∧ v[i].topicId ≠ 0 := by
  have hentry : ∀ k : Fin TOPICS.length, HasTopic v TOPICS[k] :=
    fun k ↦ h _ (List.getElem_mem k.isLt)
  choose f huse hreg hname hid using hentry
  -- two topics have two entries, so the four of them have all four
  have hinj : Function.Injective f := by
    intro k l hkl
    have hname' : TOPICS[k] = TOPICS[l] := by rw [← hname k, ← hname l, hkl]
    have hnodup : TOPICS.Nodup := by decide
    exact Fin.ext ((List.Nodup.getElem_inj_iff hnodup).mp hname')
  obtain ⟨k, rfl⟩ := (Finite.injective_iff_surjective (α := Fin 4)).mp hinj i
  exact ⟨huse k, hreg k, hid k⟩

theorem hasTopic_of_getTopicId {c : Client} {s : List UInt8}
    (hs : s.length ≤ TOPIC_NAME_MAX_LEN - 1) (h : mqttSnGetTopicId c s ≠ 0) :
    HasTopic c.customTopics s := by
  rw [mqttSnGetTopicId] at h
  split at h
  · exact absurd rfl h
  · rename_i i hi
    have hi' := Slots.of_first_eq_some hi
    rw [Bool.and_eq_true, Bool.and_eq_true, sameName_iff c.customTopics[i].topicName.property hs]
      at hi'
    exact ⟨i, hi'.1.1, hi'.1.2, hi'.2, h⟩

theorem AllRegistered.getTopicId_ne_zero {c : Client} (h : AllRegistered c.customTopics)
    {s : List UInt8} (hs : s ∈ TOPICS) : mqttSnGetTopicId c s ≠ 0 := by
  obtain ⟨i, huse, hreg, hname, -⟩ := h s hs
  have hmatch : (c.customTopics[i].inUse && c.customTopics[i].isRegistered &&
      sameName c.customTopics[i].topicName.val s) = true := by
    rw [huse, hreg, hname, sameName_iff (length_le_of_mem_topics s hs)
      (length_le_of_mem_topics s hs)
      |>.mpr rfl]
    rfl
  obtain ⟨j, hj⟩ := Slots.exists_first
    (p := fun e : TopicEntry ↦ e.inUse && e.isRegistered && sameName e.topicName.val s) hmatch
  rw [mqttSnGetTopicId, hj]
  exact (h.full j).2.2

theorem allRegistered_of_topicsReady {c : Client} (h : topicsReady c = true) :
    AllRegistered c.customTopics := by
  have hpos : ∀ {x : UInt16}, decide (x > 0) = true → x ≠ 0 := by
    rintro x hx rfl
    exact absurd hx (by decide)
  rw [topicsReady, Bool.and_eq_true, Bool.and_eq_true, Bool.and_eq_true] at h
  obtain ⟨⟨⟨h₁, h₂⟩, h₃⟩, h₄⟩ := h
  intro s hs
  have hlen := length_le_of_mem_topics s hs
  simp only [TOPICS, List.mem_cons, List.not_mem_nil, or_false] at hs
  rcases hs with rfl | rfl | rfl | rfl
  · exact hasTopic_of_getTopicId hlen (hpos h₁)
  · exact hasTopic_of_getTopicId hlen (hpos h₂)
  · exact hasTopic_of_getTopicId hlen (hpos h₃)
  · exact hasTopic_of_getTopicId hlen (hpos h₄)

/-! ## Packets in `STATE_READY` -/

theorem Rx.onTopics_of_registered {v : Vector TopicEntry MAX_CUSTOM_TOPICS}
    (h : ∀ i : Fin MAX_CUSTOM_TOPICS, v[i].isRegistered = true) {rx : Rx}
    (hrx : rx.acceptedConnack = false) : rx.onTopics v = v := by
  rw [Rx.onTopics, hrx, if_neg Bool.false_ne_true]
  split
  · rfl
  · rename_i sender mid tid _
    have hnone : Slots.first (TopicEntry.awaits sender mid) v = none := by
      refine Slots.first_eq_none_iff.mpr fun i ↦ ?_
      rw [← Bool.not_eq_true, awaits_iff, h i]
      exact fun hawaits ↦ Bool.false_ne_true hawaits.2.2.1.symm
    rw [completeTopic, hnone]

theorem Rx.onTopics_zero (rx : Rx) :
    rx.onTopics (Vector.replicate _ TopicEntry.zero) = Vector.replicate _ TopicEntry.zero := by
  rw [Rx.onTopics]
  split
  · rfl
  split
  · rfl
  · rename_i sender mid tid _
    have hnone : Slots.first (TopicEntry.awaits sender mid)
        (Vector.replicate MAX_CUSTOM_TOPICS TopicEntry.zero) = none := by
      refine Slots.first_eq_none_iff.mpr fun i ↦ ?_
      rw [Slots.getElem_fin, Vector.getElem_replicate]
      rfl
    rw [completeTopic, hnone]

theorem customTopics_deliver_of_registered {c : Client}
    (h : ∀ i : Fin MAX_CUSTOM_TOPICS, c.customTopics[i].isRegistered = true) {rxs : List Rx}
    (hrxs : ∀ rx ∈ rxs, rx.acceptedConnack = false) :
    (deliver c rxs).1.customTopics = c.customTopics := by
  rw [customTopics_deliver]
  induction rxs with
  | nil => rfl
  | cons rx rxs ih =>
    obtain ⟨hrx, hrest⟩ := List.forall_mem_cons.mp hrxs
    rw [List.foldl_cons, Rx.onTopics_of_registered h hrx]
    exact ih hrest

theorem foldl_onTopics_zero (rxs : List Rx) :
    rxs.foldl (fun v rx ↦ rx.onTopics v) (Vector.replicate _ TopicEntry.zero)
      = Vector.replicate _ TopicEntry.zero := by
  induction rxs with
  | nil => rfl
  | cons rx rxs ih => rw [List.foldl_cons, Rx.onTopics_zero, ih]

/-- **An accepted CONNACK among the packets leaves the table empty.** -/
theorem customTopics_deliver_of_connack {c : Client} {rxs : List Rx} {rx : Rx} (hmem : rx ∈ rxs)
    (hrx : rx.acceptedConnack = true) :
    (deliver c rxs).1.customTopics = Vector.replicate _ TopicEntry.zero := by
  rw [customTopics_deliver]
  generalize c.customTopics = v
  induction rxs generalizing v with
  | nil => exact absurd hmem List.not_mem_nil
  | cons rx' rxs ih =>
    rw [List.foldl_cons]
    rcases List.mem_cons.mp hmem with rfl | hmem
    · rw [Rx.onTopics, if_pos hrx]
      exact foldl_onTopics_zero rxs
    · exact ih hmem _

theorem not_allRegistered_zero : ¬AllRegistered (Vector.replicate _ TopicEntry.zero) := by
  intro h
  have huse := (h.full ⟨0, by decide⟩).1
  rw [Slots.getElem_fin, Vector.getElem_replicate] at huse
  exact Bool.false_ne_true huse

/-! ## What is published -/

/-- A PUBLISH with topic id 0. -/
def Action.PublishesZero : Action → Prop
  | .send buf => buf.getD 1 0 = MQTTSN_MSG_TYPE_PUBLISH ∧ be16 (buf.getD 3 0) (buf.getD 4 0) = 0
  | .showCmd _ => False

/-- None of the actions is a PUBLISH with topic id 0. -/
def NoZero (acts : List Action) : Prop := ∀ a ∈ acts, ¬a.PublishesZero

/-- The messages kept for a retry have a topic id, and a payload that fits the packet. -/
def PendingOk (v : Vector (QosMsg UInt32) MAX_PENDING_QOS_MSGS) : Prop :=
  ∀ i : Fin MAX_PENDING_QOS_MSGS, v[i].inUse = true →
    v[i].topicId ≠ 0 ∧ v[i].payload.length ≤ MQTTSN_RETRY_PAYLOAD_SIZE

theorem noZero_nil : NoZero [] := fun _ h ↦ absurd h List.not_mem_nil

theorem NoZero.append {l l' : List Action} (h : NoZero l) (h' : NoZero l') : NoZero (l ++ l') :=
  fun a ha ↦ (List.mem_append.mp ha).elim (h a) (h' a)

theorem noZero_send {len mt : UInt8} {rest : List UInt8} (h : mt ≠ MQTTSN_MSG_TYPE_PUBLISH) :
    NoZero [.send (len :: mt :: rest)] := by
  intro a ha
  rw [List.mem_singleton.mp ha]
  exact fun hzero ↦ h hzero.1

theorem noZero_deliver (c : Client) (rxs : List Rx) : NoZero (deliver c rxs).2 := by
  intro a ha
  have htype : MQTTSN_MSG_TYPE_PUBREL ≠ MQTTSN_MSG_TYPE_PUBLISH := by decide
  rcases actions_deliver c rxs ha with ⟨mid, rfl⟩ | ⟨msg, rfl⟩
  · exact fun hzero ↦ htype hzero.1
  · exact id

theorem topicId_publishPacket (topicId : UInt16) {payload : List UInt8} (qos : ℤ) (msgId : UInt16)
    (h : payload.length ≤ 248) :
    let buf := (publishPacket topicId payload qos msgId).take
      ((MQTTSN_PUBLISH_HEADER_LEN + payload.length) % 256)
    be16 (buf.getD 3 0) (buf.getD 4 0) = topicId := by
  have hlen : (MQTTSN_PUBLISH_HEADER_LEN + payload.length) % 256 = payload.length + 7 := by
    change (7 + payload.length) % 256 = _
    omega
  rw [hlen]
  exact be16_hi8_lo8 topicId

theorem noZero_publish (c : Client) {topicId : UInt16} (htid : topicId ≠ 0) {payload : List UInt8}
    (h : payload.length ≤ 248) (qos : ℤ) (msgId : UInt16) (isRetransmit : Bool) (now : UInt32)
    (ok : Bool) :
    NoZero (mqttSnPublishTopicId c topicId payload qos msgId isRetransmit now ok).2 := by
  intro a ha
  rw [actions_publish ha]
  exact fun hzero ↦ htid ((topicId_publishPacket topicId qos msgId h).symm.trans hzero.2)

theorem pendingOk_publish {c : Client} (hc : PendingOk c.pendingMsgs) {topicId : UInt16}
    (htid : topicId ≠ 0) (payload : List UInt8) (qos : ℤ) (msgId : UInt16) (isRetransmit : Bool)
    (now : UInt32) (ok : Bool) :
    PendingOk (mqttSnPublishTopicId c topicId payload qos msgId isRetransmit now ok).1.pendingMsgs
      := by
  rcases pendingMsgs_publish c topicId payload qos msgId isRetransmit now ok with heq | ⟨-, heq⟩
  · rw [heq]
    exact hc
  · rw [heq]
    intro i
    rcases get_storePending _ c.pendingMsgs i with heq | ⟨-, heq⟩
    · rw [heq]
      exact hc i
    · rw [heq]
      exact fun _ ↦ ⟨htid, List.length_take_le _ _⟩

theorem pendingOk_publishAuto {c : Client} (hc : PendingOk c.pendingMsgs) {topicId : UInt16}
    (htid : topicId ≠ 0) (payload : List UInt8) (qos : ℤ) (now : UInt32) (ok : Bool) :
    PendingOk (mqttSnPublishTopicIdAuto c topicId payload qos now ok).1.pendingMsgs :=
  pendingOk_publish (c := { c with nextMsgId := (publishId c qos).2 }) hc htid payload qos _ false
    now ok

theorem noZero_publishAuto (c : Client) {topicId : UInt16} (htid : topicId ≠ 0)
    {payload : List UInt8} (h : payload.length ≤ 248) (qos : ℤ) (now : UInt32) (ok : Bool) :
    NoZero (mqttSnPublishTopicIdAuto c topicId payload qos now ok).2 :=
  noZero_publish _ htid h qos _ false now ok

theorem pendingOk_udpRecv (c : Client) (rx : Rx) (hc : PendingOk c.pendingMsgs) :
    PendingOk (udpRecvCallbackArduino c rx).1.pendingMsgs := by
  rw [pendingMsgs_udpRecv, Rx.onPending]
  split
  · exact hc
  intro i
  rcases get_onPacket rx.data rx.now c.pendingMsgs i with heq | ⟨-, -, heq⟩ | ⟨huse, -, -, heq⟩
  · rw [heq]
    exact hc i
  · rw [heq]
    exact fun huse ↦ absurd huse Bool.false_ne_true
  · rw [heq]
    exact fun _ ↦ hc i huse

theorem pendingOk_deliver {c : Client} (hc : PendingOk c.pendingMsgs) (rxs : List Rx) :
    PendingOk (deliver c rxs).1.pendingMsgs :=
  deliver_invariant (P := fun c ↦ PendingOk c.pendingMsgs)
    (fun c rx ↦ pendingOk_udpRecv c rx) hc rxs

theorem pendingOk_checkQosTimeouts {c : Client} (hc : PendingOk c.pendingMsgs) (now : UInt32)
    (ok : Bool) : PendingOk (checkQosTimeouts c now ok).1.pendingMsgs := by
  intro i
  rw [get_checkQosTimeouts]
  intro huse
  obtain ⟨hold, _, _, heq⟩ := QosMsg.of_inUse_retry huse
  rw [heq]
  exact hc i hold

theorem noZero_checkQosTimeouts {c : Client} (hc : PendingOk c.pendingMsgs) (now : UInt32)
    (ok : Bool) : NoZero (checkQosTimeouts c now ok).2 := by
  have hpubrel : ∀ mid, NoZero [.send (pubrelPacket mid)] := fun _ ↦ noZero_send (by decide)
  intro a ha
  obtain ⟨i, hretry, ha⟩ := exists_of_mem_checkQosTimeouts ha
  obtain ⟨huse, _, _, heq⟩ := QosMsg.of_inUse_retry (QosMsg.inUse_retry hretry)
  obtain ⟨htid, hlen⟩ := hc i huse
  rw [heq, resend] at ha
  split at ha
  · exact noZero_publish c htid (Nat.le_trans hlen (by decide)) _ _ _ _ _ a ha
  · exact hpubrel _ a ha

/-! ## The branches of `loop` -/

/-- What holds in `STATE_READY`, and of the messages kept for a retry in every state. -/
structure ReadyOk (s : Sketch) : Prop where
  registered : s.state = .ready → AllRegistered s.client.customTopics
  pending : PendingOk s.client.pendingMsgs

theorem pendingOk_processTopicRegistrations {c : Client} (hc : PendingOk c.pendingMsgs)
    (now : UInt32) (reply : Option Rx) :
    PendingOk (mqttSnProcessTopicRegistrations c now reply).1.pendingMsgs := by
  rcases mqttSnProcessTopicRegistrations_cases c now with ⟨-, heq⟩ | ⟨i, -, heq⟩
  · rw [heq reply]
    exact hc
  · rw [heq reply]
    exact pendingOk_deliver (c := attempt c i now) hc reply.toList

theorem noZero_processTopicRegistrations (c : Client) (now : UInt32) (reply : Option Rx) :
    NoZero (mqttSnProcessTopicRegistrations c now reply).2 := by
  rcases mqttSnProcessTopicRegistrations_cases c now with ⟨-, heq⟩ | ⟨i, -, heq⟩
  · rw [heq reply]
    exact noZero_nil
  · rw [heq reply]
    refine NoZero.append (l := [.send _]) ?_ (noZero_deliver (attempt c i now) reply.toList)
    rw [request]
    split
    · exact noZero_send (by decide)
    · exact noZero_send (by decide)

theorem pendingMsgs_addAllTopics (c : Client) : (addAllTopics c).pendingMsgs = c.pendingMsgs := by
  obtain ⟨v, hv⟩ := addAllTopics_eq c
  rw [hv]

section Branches

variable (clientId : List UInt8) {s : Sketch} (x : Inputs)

theorem loopInit_ok (h : ReadyOk s) :
    ReadyOk (loopInit clientId s x).1 ∧ NoZero (loopInit clientId s x).2 :=
  ⟨⟨fun hstate ↦ (nomatch hstate), h.pending⟩, noZero_send (by decide)⟩

theorem loopConnecting_ok (h : ReadyOk s) :
    ReadyOk (loopConnecting s x).1 ∧ NoZero (loopConnecting s x).2 := by
  have hadd : PendingOk (addAllTopics s.client).pendingMsgs := by
    rw [pendingMsgs_addAllTopics]
    exact h.pending
  rw [loopConnecting]
  generalize addAllTopics s.client = c at hadd ⊢
  split
  · exact ⟨⟨fun hready ↦ (nomatch hready),
      pendingOk_processTopicRegistrations hadd x.regNow x.reply⟩,
      noZero_processTopicRegistrations c x.regNow x.reply⟩
  split
  · exact ⟨⟨fun hready ↦ (nomatch hready), h.pending⟩, noZero_nil⟩
  · exact ⟨h, noZero_nil⟩

/-- `STATE_READY` is entered with the four topics registered. -/
theorem loopRegistering_ok (hstate : s.state = .registering) (h : ReadyOk s) :
    ReadyOk (loopRegistering s x).1 ∧ NoZero (loopRegistering s x).2 := by
  have hnot : s.state ≠ .ready := fun hready ↦ nomatch hstate.symm.trans hready
  rw [loopRegistering]
  cases hack : registeringAck s.client with
  | some r =>
    refine ⟨⟨fun hready ↦ absurd hready hnot, ?_⟩, ?_⟩
    · rw [registeringAck] at hack
      split_ifs at hack <;> (rw [← Option.some_inj.mp hack]; exact h.pending)
    · rw [registeringAck] at hack
      split_ifs at hack <;> (rw [← Option.some_inj.mp hack]; exact noZero_send (by decide))
  | none =>
    dsimp only
    generalize hr : (if waitingForAck s.client then (s.client, [])
      else mqttSnProcessTopicRegistrations s.client x.regNow x.reply) = r
    have hok : PendingOk r.1.pendingMsgs ∧ NoZero r.2 := by
      rw [← hr]
      split
      · exact ⟨h.pending, noZero_nil⟩
      · exact ⟨pendingOk_processTopicRegistrations h.pending x.regNow x.reply,
          noZero_processTopicRegistrations s.client x.regNow x.reply⟩
    split
    · exact ⟨⟨fun _ ↦ allRegistered_of_topicsReady ‹_›, hok.1⟩, hok.2⟩
    split
    · exact ⟨⟨fun hready ↦ (nomatch hready), hok.1⟩, hok.2⟩
    · exact ⟨⟨fun hready ↦ absurd hready hnot, hok.1⟩, hok.2⟩

theorem length_reading (count : UInt16) : (reading clientId count).length ≤ 248 :=
  Nat.le_trans (List.length_take_le _ _) (by decide)

theorem readyPublish_topics {r : Sketch × List Action} (h : readyPublish clientId s x = some r) :
    r.1.state = s.state ∧ r.1.client.customTopics = s.client.customTopics := by
  rw [readyPublish] at h
  split_ifs at h
  · rw [← Option.some_inj.mp h]
    exact ⟨rfl, customTopics_publishAuto _ _ _ _ _ _⟩
  · rw [← Option.some_inj.mp h]
    exact ⟨rfl, customTopics_publishAuto _ _ _ _ _ _⟩
  · rw [← Option.some_inj.mp h]
    exact ⟨rfl, rfl⟩

/-- A publish phase sends with the id of a topic in the table. -/
theorem readyPublish_ok (htopics : AllRegistered s.client.customTopics)
    (hpending : PendingOk s.client.pendingMsgs) {r : Sketch × List Action}
    (h : readyPublish clientId s x = some r) :
    PendingOk r.1.client.pendingMsgs ∧ NoZero r.2 := by
  have htid₁ := htopics.getTopicId_ne_zero (s := TOPIC_DATA_1) (by simp [TOPICS])
  have htid₂ := htopics.getTopicId_ne_zero (s := TOPIC_DATA_2) (by simp [TOPICS])
  rw [readyPublish] at h
  split_ifs at h
  · rw [← Option.some_inj.mp h]
    exact ⟨pendingOk_publishAuto hpending htid₂ _ _ _ _,
      noZero_publishAuto _ htid₂ (length_reading clientId _) _ _ _⟩
  · rw [← Option.some_inj.mp h]
    exact ⟨pendingOk_publishAuto hpending htid₁ _ _ _ _,
      noZero_publishAuto _ htid₁ (length_reading clientId _) _ _ _⟩
  · rw [← Option.some_inj.mp h]
    exact ⟨hpending, noZero_nil⟩

theorem readyAck_ok {c : Client} {r : Client × List Action} (h : readyAck c = some r) :
    r.1.customTopics = c.customTopics ∧ r.1.pendingMsgs = c.pendingMsgs ∧ NoZero r.2 := by
  rw [readyAck] at h
  split_ifs at h <;>
    (rw [← Option.some_inj.mp h]; exact ⟨rfl, rfl, noZero_send (by decide)⟩)

/-- In `STATE_READY` no step of the sketch itself changes the table or leaves the state. -/
theorem loopReady_topics (s : Sketch) :
    (loopReady clientId s x).1.state = s.state ∧
      (loopReady clientId s x).1.client.customTopics = s.client.customTopics := by
  rw [loopReady]
  dsimp only
  generalize hs : (if s.client.pubackPending || s.client.pubrecPending || s.client.pubcompPending
    then { s with lastPubQos0 := x.now, lastPubQos1 := x.now } else s) = s'
  have hsame : s'.state = s.state ∧ s'.client = s.client := by
    rw [← hs]
    split <;> exact ⟨rfl, rfl⟩
  rw [← hsame.1, ← hsame.2]
  cases hack : readyAck s'.client with
  | some r => exact ⟨rfl, (readyAck_ok hack).1⟩
  | none =>
    dsimp only
    cases hpub : readyPublish clientId s' x with
    | some r => exact readyPublish_topics clientId x hpub
    | none =>
      dsimp only
      split <;> exact ⟨rfl, rfl⟩

theorem loopReady_ok (hstate : s.state = .ready) (h : ReadyOk s) :
    ReadyOk (loopReady clientId s x).1 ∧ NoZero (loopReady clientId s x).2 := by
  obtain ⟨-, htopics⟩ := loopReady_topics clientId x s
  have hall : AllRegistered (loopReady clientId s x).1.client.customTopics := by
    rw [htopics]
    exact h.registered hstate
  suffices hrest : PendingOk (loopReady clientId s x).1.client.pendingMsgs ∧
      NoZero (loopReady clientId s x).2 from ⟨⟨fun _ ↦ hall, hrest.1⟩, hrest.2⟩
  rw [loopReady]
  dsimp only
  generalize hs : (if s.client.pubackPending || s.client.pubrecPending || s.client.pubcompPending
    then { s with lastPubQos0 := x.now, lastPubQos1 := x.now } else s) = s'
  have hsame : s'.client = s.client := by
    rw [← hs]
    split <;> rfl
  have hpending : PendingOk s'.client.pendingMsgs := hsame ▸ h.pending
  have hregistered : AllRegistered s'.client.customTopics := hsame ▸ h.registered hstate
  cases hack : readyAck s'.client with
  | some r =>
    obtain ⟨-, hp, hz⟩ := readyAck_ok hack
    exact ⟨hp ▸ hpending, hz⟩
  | none =>
    dsimp only
    cases hpub : readyPublish clientId s' x with
    | some r => exact readyPublish_ok clientId x hregistered hpending hpub
    | none =>
      dsimp only
      split
      · exact ⟨pendingOk_checkQosTimeouts hpending x.qosNow x.qosOk,
          noZero_checkQosTimeouts hpending x.qosNow x.qosOk⟩
      · exact ⟨hpending, noZero_nil⟩

theorem loopSwitch_ok (h : ReadyOk s) :
    ReadyOk (loopSwitch clientId s x).1 ∧ NoZero (loopSwitch clientId s x).2 := by
  rw [loopSwitch]
  cases hstate : s.state with
  | init => exact loopInit_ok clientId x h
  | connecting => exact loopConnecting_ok x h
  | registering => exact loopRegistering_ok x hstate h
  | ready => exact loopReady_ok clientId x hstate h
  | error => exact ⟨⟨fun hready ↦ (nomatch hready), h.pending⟩, noZero_nil⟩

/-! ## One call of `loop` -/

/-- The packets handled at the head of `loop`. -/
def Inputs.polled (x : Inputs) : List Rx := x.first.toList ++ x.drain.take 4

/-- An accepted CONNACK is handled at the head of `loop` only outside `STATE_READY`. -/
def NoConnackWhenReady (s : Sketch) (x : Inputs) : Prop :=
  s.state = .ready → ∀ rx ∈ x.polled, rx.acceptedConnack = false

/-- After the call, `STATE_READY` means that the four topics are registered, and the call has sent
no PUBLISH with topic id 0. -/
def ReadyMeansRegistered (s : Sketch) (x : Inputs) : Prop :=
  ((loop clientId s x).1.state = .ready →
    AllRegistered (loop clientId s x).1.client.customTopics) ∧ NoZero (loop clientId s x).2

/-- **A call without a CONNACK in `STATE_READY` keeps the topics registered.** -/
theorem loop_ok (h : ReadyOk s) (hx : NoConnackWhenReady s x) :
    ReadyOk (loop clientId s x).1 ∧ NoZero (loop clientId s x).2 := by
  have hpoll : ReadyOk { s with client := (mqttSnPoll s.client x.first x.drain).1 } := by
    refine ⟨fun hready ↦ ?_, pendingOk_deliver h.pending x.polled⟩
    have hreg := h.registered hready
    have hsame := customTopics_deliver_of_registered (c := s.client) (fun i ↦ (hreg.full i).2.1)
      (hx hready)
    rw [mqttSnPoll]
    exact hsame ▸ hreg
  obtain ⟨hok, hzero⟩ := loopSwitch_ok clientId x hpoll
  exact ⟨hok, (noZero_deliver s.client x.polled).append hzero⟩

/-- **A call with a CONNACK in `STATE_READY` leaves it with an empty table.** -/
theorem noConnack_of_readyMeansRegistered (h : ReadyMeansRegistered clientId s x) :
    NoConnackWhenReady s x := by
  intro hready rx hrx
  by_contra hacc
  have hwiped := customTopics_deliver_of_connack (c := s.client) hrx (Bool.not_eq_false _ ▸ hacc)
  obtain ⟨hstate, htopics⟩ :=
    loopReady_topics clientId x { s with client := (mqttSnPoll s.client x.first x.drain).1 }
  have hloop : (loop clientId s x).1
      = (loopReady clientId { s with client := (mqttSnPoll s.client x.first x.drain).1 } x).1 := by
    rw [loop, loopSwitch]
    simp only [hready]
  have hall := h.1 (by rw [hloop, hstate, hready])
  rw [hloop, htopics, mqttSnPoll] at hall
  exact not_allRegistered_zero (hwiped ▸ hall)

theorem readyOk_setup : ReadyOk setup :=
  ⟨fun hready ↦ (nomatch hready), fun i huse ↦ by
    rw [setup, pendingMsgs_addAllTopics, Client.boot, Slots.getElem_fin, Vector.getElem_replicate]
      at huse
    exact absurd huse Bool.false_ne_true⟩

/-- **Ready means registered** in exactly the runs in which no accepted CONNACK is handled in
`STATE_READY`. -/
theorem readyMeansRegistered_iff (xs : List Inputs) :
    Trace.Always (fun s x ↦ (loop clientId s x).1) (ReadyMeansRegistered clientId) setup xs ↔
      Trace.Always (fun s x ↦ (loop clientId s x).1) NoConnackWhenReady setup xs := by
  constructor
  · exact fun h ↦ h.mono fun s x ↦ noConnack_of_readyMeansRegistered clientId x
  · refine Trace.always_of_invariant (P := ReadyOk) (fun s x hs hx ↦ (loop_ok clientId x hs hx).1)
      (fun s x hs hx ↦ ?_) readyOk_setup
    obtain ⟨hok, hzero⟩ := loop_ok clientId x hs hx
    exact ⟨hok.registered, hzero⟩

end Branches

/-! ## A late CONNACK -/

/-- A call of `loop` at time zero that receives `first` in the poll and `reply` in the wait. -/
def receiving (first reply : Option Rx) : Inputs where
  now := 0
  first := first
  drain := []
  regNow := 0
  reply := reply
  pubNow := 0
  pubOk := true
  qosNow := 0
  qosOk := true

def connack : Rx := ⟨[3, MQTTSN_MSG_TYPE_CONNACK, MQTTSN_RETURN_ACCEPTED], 3, 0⟩

/-- The endpoint connects and gets the ids 1 to 4 for its topics. -/
def registers : List Inputs :=
  [receiving none none,
    receiving (some connack) (some ⟨regackPacket 1 1 0, 7, 0⟩),
    receiving none (some ⟨regackPacket 2 2 0, 7, 0⟩),
    receiving none (some ⟨subackPacket 0 3 3 0, 8, 0⟩),
    receiving none (some ⟨subackPacket 0 4 4 0, 8, 0⟩)]

/-- **The CONNACK arrives a second time**, and the next reading is published with topic id 0. -/
theorem late_connack_publishes_zero :
    ¬Trace.Always (fun s x ↦ (loop (cstr "arduino-04") s x).1)
      (ReadyMeansRegistered (cstr "arduino-04")) setup
      (registers ++ [receiving (some connack) none]) := by
  intro h
  have hsent : Action.send (publishPacket 0 (cstr "arduino-04 1") 0 0) ∈
      (loop (cstr "arduino-04")
        (Trace.run (fun s x ↦ (loop (cstr "arduino-04") s x).1) setup registers)
        (receiving (some connack) none)).2 := by
    decide +kernel
  exact h.at.2 _ hsent ⟨rfl, rfl⟩

end Emcs.Arduino
