import Emcs.Arduino.Effects
import Emcs.Lib.Trace
import Emcs.Mqttsn.Gateway

/-!
# Topic ids agree with the gateway

The client together with a gateway that gives every topic name one id and answers requests, and a
channel that may delay, reorder, lose and duplicate. The gateway remembers the requests it has seen
sent; an acknowledgement that arrives is the answer to any of them, any number of times.

The invariant ties everything in flight to a topic name by its message id: requests under one id are
for one name, and an entry that waits for an id waits for the answer to requests for its own name.
Ids are not drawn twice as long as the counter does not come round, and an entry that is free waits
for nothing, which is what `mqtt_sn_add_topic_for_subscription` relies on.

## Runs

The step rule has one case for each function of the client. Most of them leave requests and waiting
entries alone; the two that matter are an attempt, which puts a new request under the id the entry
then waits for, and a packet, which completes an entry with the id of the request it answers. The
bound on the draws enters in one place: a new id is above all ids drawn before.
-/

namespace Emcs.Arduino

open Bytes Mqttsn

/-! ## The gateway and the channel -/

/-- The request in what the client sends, if it is one. -/
def Action.request : Action → Option Request
  | .send buf => Request.parse buf
  | .showCmd _ => none

/-- The packet can arrive when these requests have been sent. -/
def Rx.deliverable (assign : Assignment) (requests : List Request) (rx : Rx) : Bool :=
  Mqttsn.deliverable assign requests rx.data rx.length.toNat

/-! ## The machine -/

/-- The client, the requests it has sent, and how many message ids it has drawn. -/
structure Session where
  client : Client
  requests : List Request
  draws : ℕ

def Session.boot : Session := ⟨Client.boot, [], 0⟩

inductive Event where
  | addForRegistration (topicName : List UInt8)
  | addForSubscription (topicName : List UInt8) (qos : UInt8)
  | process (now : UInt32) (reply : Option Rx)
  | invalidate
  | receive (rx : Rx)
  | publish (topicId : UInt16) (payload : List UInt8) (qos : ℤ) (now : UInt32) (ok : Bool)
  | checkTimeouts (now : UInt32) (ok : Bool)

/-- A function of the client has run. A draw is seen by the counter moving. -/
def Session.after (s : Session) (r : Client × List Action) : Session where
  client := r.1
  requests := s.requests ++ r.2.filterMap Action.request
  draws := s.draws + if r.1.nextMsgId = s.client.nextMsgId then 0 else 1

variable (assign : Assignment)

/-- The requests sent when a registration pass begins to wait. -/
def Session.asked (s : Session) (now : UInt32) : List Request :=
  s.requests ++ (mqttSnProcessTopicRegistrations s.client now none).2.filterMap Action.request

/-- A packet that cannot arrive does not. -/
def Session.step (s : Session) : Event → Session
  | .addForRegistration topicName =>
    s.after ((mqttSnAddTopicForRegistration s.client topicName).1, [])
  | .addForSubscription topicName qos =>
    s.after ((mqttSnAddTopicForSubscription s.client topicName qos).1, [])
  | .process now reply =>
    s.after (mqttSnProcessTopicRegistrations s.client now
      (reply.filter (Rx.deliverable assign (s.asked now))))
  | .invalidate => s.after (mqttSnInvalidateAllTopics s.client, [])
  | .receive rx =>
    if rx.deliverable assign s.requests then s.after (udpRecvCallbackArduino s.client rx) else s
  | .publish topicId payload qos now ok =>
    s.after (mqttSnPublishTopicIdAuto s.client topicId payload qos now ok)
  | .checkTimeouts now ok => s.after (checkQosTimeouts s.client now ok)

/-! ## Requests on the wire -/

theorem request_request (e : TopicEntry) (mid : UInt16) :
    (Action.send (request e mid)).request = some ⟨e.isSender, mid, e.topicName.val⟩ := by
  rw [request]
  cases h : e.isSender
  · exact parse_subscribePacket e.qos mid e.topicName.val
  · exact parse_registerPacket mid e.topicName.val

theorem request_deliver (c : Client) (rxs : List Rx) :
    (deliver c rxs).2.filterMap Action.request = [] := by
  rw [List.filterMap_eq_nil_iff]
  intro a ha
  rcases actions_deliver c rxs ha with ⟨mid, rfl⟩ | ⟨msg, rfl⟩
  · rfl
  · rfl

/-- An accepted acknowledgement has the type of its role and shows its ids. -/
theorem of_topicAck {rx : Rx} {sender : Bool} {mid tid : UInt16}
    (h : rx.topicAck = some (sender, mid, tid)) :
    sender = true ∧ rx.data.getD 1 0 = MQTTSN_MSG_TYPE_REGACK ∧
      be16 (rx.data.getD 4 0) (rx.data.getD 5 0) = mid ∧
      be16 (rx.data.getD 2 0) (rx.data.getD 3 0) = tid ∨
    sender = false ∧ rx.data.getD 1 0 = MQTTSN_MSG_TYPE_SUBACK ∧
      be16 (rx.data.getD 5 0) (rx.data.getD 6 0) = mid ∧
      be16 (rx.data.getD 3 0) (rx.data.getD 4 0) = tid := by
  rw [Rx.topicAck] at h
  split at h
  · contradiction
  split at h
  · split at h
    · contradiction
    · obtain ⟨rfl, rfl, rfl⟩ := Option.some.inj h
      exact Or.inl ⟨rfl, ‹_›, rfl, rfl⟩
  split at h
  · split at h
    · contradiction
    · obtain ⟨rfl, rfl, rfl⟩ := Option.some.inj h
      exact Or.inr ⟨rfl, ‹_›, rfl, rfl⟩
  · contradiction

/-- **A well-formed acknowledgement shows what it answers.** -/
theorem topicAck_of_deliverable {rx : Rx} {requests : List Request} {sender : Bool}
    {mid tid : UInt16} (h : rx.deliverable assign requests = true)
    (hack : rx.topicAck = some (sender, mid, tid)) :
    ∃ r ∈ requests, r.sender = sender ∧ r.mid = mid ∧ assign r.topicName = tid := by
  have hne : MQTTSN_MSG_TYPE_REGACK ≠ MQTTSN_MSG_TYPE_SUBACK := by decide
  rcases of_topicAck hack with ⟨rfl, htype, hmid, htid⟩ | ⟨rfl, htype, hmid, htid⟩
  · obtain ⟨r, hr, hans⟩ := exists_of_deliverable h (Or.inl htype)
    refine ⟨r, hr, ?_⟩
    cases hs : r.sender with
    | true =>
      obtain ⟨-, htid', hmid'⟩ := r.answeredBy_regack hans hs
      exact ⟨rfl, hmid'.symm.trans hmid, htid'.symm.trans htid⟩
    | false =>
      have htype' := (r.answeredBy_suback hans hs).1
      exact absurd (htype.symm.trans htype') hne
  · obtain ⟨r, hr, hans⟩ := exists_of_deliverable h (Or.inr htype)
    refine ⟨r, hr, ?_⟩
    cases hs : r.sender with
    | true =>
      have htype' := (r.answeredBy_regack hans hs).1
      exact absurd (htype'.symm.trans htype) hne
    | false =>
      obtain ⟨-, htid', hmid'⟩ := r.answeredBy_suback hans hs
      exact ⟨rfl, hmid'.symm.trans hmid, htid'.symm.trans htid⟩

/-! ## The invariant -/

/-- What an entry waits for has been asked for, and what it has got is right. -/
structure Waits (requests : List Request) (e : TopicEntry) : Prop where
  free : e.inUse = false → e.pendingMsgId = 0
  asked : e.pendingMsgId ≠ 0 → ⟨e.isSender, e.pendingMsgId, e.topicName.val⟩ ∈ requests
  agrees : e.inUse = true → e.isRegistered = true → e.topicId = assign e.topicName.val

/-- Everything in flight is tied to one topic name by its message id. -/
structure Agrees (s : Session) : Prop where
  counter : s.client.nextMsgId.toNat = s.draws + 1
  drawn : ∀ r ∈ s.requests, r.mid ≠ 0 ∧ r.mid.toNat ≤ s.draws
  one_name : ∀ r ∈ s.requests, ∀ r' ∈ s.requests, r.mid = r'.mid →
    r.sender = r'.sender ∧ r.topicName = r'.topicName
  entry : ∀ i : Fin MAX_CUSTOM_TOPICS, Waits assign s.requests s.client.customTopics[i]

variable {assign}

theorem Waits.mono {requests requests' : List Request} {e : TopicEntry}
    (h : Waits assign requests e) (hsub : ∀ r ∈ requests, r ∈ requests') :
    Waits assign requests' e :=
  ⟨h.free, fun hne ↦ hsub _ (h.asked hne), h.agrees⟩

theorem waits_zero (requests : List Request) : Waits assign requests TopicEntry.zero :=
  ⟨fun _ ↦ rfl, fun hne ↦ absurd rfl hne, fun huse ↦ absurd huse Bool.false_ne_true⟩

theorem agrees_boot : Agrees assign Session.boot where
  counter := rfl
  drawn _ hr := absurd hr List.not_mem_nil
  one_name _ hr := absurd hr List.not_mem_nil
  entry i := by
    rw [Session.boot, Client.boot, Slots.getElem_fin, Vector.getElem_replicate]
    exact waits_zero []

/-- A function that draws no id and sends no request leaves the rest to its table. -/
theorem Agrees.table {s : Session} (h : Agrees assign s) {r : Client × List Action}
    (hnext : r.1.nextMsgId = s.client.nextMsgId) (hreq : r.2.filterMap Action.request = [])
    (hentry : ∀ i : Fin MAX_CUSTOM_TOPICS, Waits assign s.requests r.1.customTopics[i]) :
    Agrees assign (s.after r) := by
  have hsame : s.after r = ⟨r.1, s.requests, s.draws⟩ := by
    rw [Session.after, hreq, List.append_nil, if_pos hnext, Nat.add_zero]
  rw [hsame]
  exact ⟨hnext ▸ h.counter, h.drawn, h.one_name, hentry⟩

/-! ## Packets -/

/-- **An answer completes an entry with the id of its own topic.** -/
theorem Agrees.onTopics {s : Session} (h : Agrees assign s) {rx : Rx}
    (hrx : rx.deliverable assign s.requests = true) (i : Fin MAX_CUSTOM_TOPICS) :
    Waits assign s.requests (rx.onTopics s.client.customTopics)[i] := by
  rcases get_onTopics rx s.client.customTopics i with
      ⟨-, heq⟩ | ⟨-, heq | ⟨sender, mid, tid, hack, hawaits, heq⟩⟩
  · rw [heq]
    exact waits_zero s.requests
  · rw [heq]
    exact h.entry i
  · obtain ⟨r, hr, rfl, rfl, rfl⟩ := topicAck_of_deliverable assign hrx hack
    obtain ⟨huse, hsender, -, hmid⟩ := awaits_iff.mp hawaits
    -- the entry waits for the id of the request that is answered, so it is for the same name
    have hne : s.client.customTopics[i].pendingMsgId ≠ 0 := by
      rw [hmid]
      exact (h.drawn r hr).1
    have hname := (h.one_name _ ((h.entry i).asked hne) r hr hmid).2
    rw [heq]
    exact ⟨fun _ ↦ rfl, fun hzero ↦ absurd rfl hzero, fun _ _ ↦ congrArg assign hname.symm⟩

theorem Agrees.receive {s : Session} (h : Agrees assign s) {rx : Rx}
    (hrx : rx.deliverable assign s.requests = true) :
    Agrees assign (s.after (udpRecvCallbackArduino s.client rx)) := by
  refine h.table (nextMsgId_udpRecv s.client rx) ?_ fun i ↦ ?_
  · have hnil := request_deliver s.client [rx]
    rw [deliver, deliver, List.append_nil] at hnil
    exact hnil
  · rw [customTopics_udpRecv]
    exact h.onTopics hrx i

/-! ## The table -/

theorem Agrees.addTopic {s : Session} (h : Agrees assign s) (topicName : List UInt8)
    {fill : TopicEntry → TopicEntry}
    (hfill : ∀ e : TopicEntry, e.inUse = false → e.pendingMsgId = 0 →
      Waits assign s.requests (fill e)) :
    Agrees assign (s.after ((Arduino.addTopic s.client topicName fill).1, [])) := by
  refine h.table ?_ rfl fun i ↦ ?_
  · rw [Arduino.addTopic]
    split
    · rfl
    · split <;> rfl
  · rcases get_addTopic s.client topicName fill i with heq | ⟨hfree, heq⟩
    · rw [heq]
      exact h.entry i
    · rw [heq]
      exact hfill _ hfree ((h.entry i).free hfree)

theorem Agrees.unchanged {s : Session} (h : Agrees assign s) {c : Client} (hc : c = s.client) :
    Agrees assign (s.after (c, [])) := by
  subst hc
  exact h.table rfl rfl h.entry

theorem Agrees.addForRegistration {s : Session} (h : Agrees assign s) (topicName : List UInt8) :
    Agrees assign (s.after ((mqttSnAddTopicForRegistration s.client topicName).1, [])) := by
  rw [mqttSnAddTopicForRegistration]
  split
  · exact h.unchanged rfl
  · refine h.addTopic topicName fun e _ _ ↦ ⟨fun _ ↦ rfl, fun hne ↦ absurd rfl hne, ?_⟩
    exact fun _ hreg ↦ absurd hreg Bool.false_ne_true

/-- The entry filled here keeps its `pending_msg_id`, which is zero because the entry was free. -/
theorem Agrees.addForSubscription {s : Session} (h : Agrees assign s) (topicName : List UInt8)
    (qos : UInt8) :
    Agrees assign (s.after ((mqttSnAddTopicForSubscription s.client topicName qos).1, [])) := by
  rw [mqttSnAddTopicForSubscription]
  split
  · exact h.unchanged rfl
  split
  · exact h.unchanged rfl
  · refine h.addTopic topicName fun e _ hzero ↦ ⟨fun _ ↦ hzero, fun hne ↦ absurd hzero hne, ?_⟩
    exact fun _ hreg ↦ absurd hreg Bool.false_ne_true

theorem Agrees.invalidate {s : Session} (h : Agrees assign s) :
    Agrees assign (s.after (mqttSnInvalidateAllTopics s.client, [])) := by
  refine h.table rfl rfl fun i ↦ ?_
  simp only [mqttSnInvalidateAllTopics, Slots.getElem_fin, Vector.getElem_map]
  have hi := h.entry i
  simp only [Slots.getElem_fin] at hi
  split
  · exact ⟨hi.free, hi.asked, fun _ hreg ↦ absurd hreg Bool.false_ne_true⟩
  · exact hi

/-! ## Attempts -/

/-- The state in which an attempt waits for its reply. -/
def Session.attempted (s : Session) (i : Fin MAX_CUSTOM_TOPICS) (now : UInt32) : Session :=
  s.after (attempt s.client i now,
    [.send (request s.client.customTopics[i]
      (attemptId s.client.customTopics[i] s.client.nextMsgId).1)])

theorem requests_attempted (s : Session) (i : Fin MAX_CUSTOM_TOPICS) (now : UInt32) :
    (s.attempted i now).requests = s.requests ++ [⟨s.client.customTopics[i].isSender,
      (attemptId s.client.customTopics[i] s.client.nextMsgId).1,
      s.client.customTopics[i].topicName.val⟩] := by
  rw [Session.attempted, Session.after, List.filterMap_cons, request_request, List.filterMap_nil]

/-- A retry sends a request again that was sent before. -/
theorem Agrees.retry {s : Session} (h : Agrees assign s) {i : Fin MAX_CUSTOM_TOPICS} {now : UInt32}
    (hdue : s.client.customTopics[i].due now = true)
    (hne : s.client.customTopics[i].pendingMsgId ≠ 0) : Agrees assign (s.attempted i now) := by
  have hid : attemptId s.client.customTopics[i] s.client.nextMsgId
      = (s.client.customTopics[i].pendingMsgId, s.client.nextMsgId) := if_pos hne
  have hold := (h.entry i).asked hne
  have hreq := requests_attempted s i now
  rw [hid] at hreq
  have hmem : ∀ r, r ∈ (s.attempted i now).requests ↔ r ∈ s.requests := by
    intro r
    rw [hreq, List.mem_append, List.mem_singleton]
    refine ⟨fun hr ↦ hr.elim id fun heq ↦ heq ▸ hold, Or.inl⟩
  have hnext : (attempt s.client i now).nextMsgId = s.client.nextMsgId := by
    rw [attempt, hid]
  have hdraws : (s.attempted i now).draws = s.draws := by
    rw [Session.attempted, Session.after]
    dsimp only
    rw [if_pos hnext, Nat.add_zero]
  refine ⟨?_, fun r hr ↦ ?_, fun r hr r' hr' ↦ ?_, fun j ↦ ?_⟩
  · rw [hdraws]
    exact hnext ▸ h.counter
  · rw [hdraws]
    exact h.drawn r ((hmem r).mp hr)
  · exact h.one_name r ((hmem r).mp hr) r' ((hmem r').mp hr')
  · suffices hwait : Waits assign s.requests (s.attempted i now).client.customTopics[j] from
      hwait.mono fun r hr ↦ (hmem r).mpr hr
    rcases get_attempt s.client i j now with ⟨rfl, heq⟩ | heq
    · change Waits assign s.requests (attempt s.client j now).customTopics[j]
      rw [heq, hid]
      exact ⟨(h.entry j).free, (h.entry j).asked, (h.entry j).agrees⟩
    · change Waits assign s.requests (attempt s.client i now).customTopics[j]
      rw [heq]
      exact h.entry j

/-- A draw from the counter, as long as it does not come round. -/
theorem draw_of_counter {next : UInt16} {d : ℕ} (h : next.toNat = d + 1) (hd : d < 65534) :
    getNextMsgId next = (next, next + 1) ∧ next ≠ 0 ∧ (next + 1).toNat = d + 2 := by
  have hne : next ≠ 0 := by
    rintro rfl
    exact absurd h (Nat.succ_ne_zero d).symm
  have hlt : next ≠ 0xFFFF := by
    rintro rfl
    have hmax : 65535 = d + 1 := h
    omega
  refine ⟨getNextMsgId_of_lt hne hlt, hne, ?_⟩
  rw [UInt16.toNat_add, h]
  change (d + 1 + 1) % 65536 = d + 2
  omega

/-- A first attempt sends a request under an id that no request has had. -/
theorem Agrees.first {s : Session} (h : Agrees assign s) {i : Fin MAX_CUSTOM_TOPICS} {now : UInt32}
    (hdue : s.client.customTopics[i].due now = true)
    (hzero : s.client.customTopics[i].pendingMsgId = 0)
    (hdraws : s.draws < 65534) : Agrees assign (s.attempted i now) := by
  obtain ⟨hdraw, hne, htoNat⟩ := draw_of_counter h.counter hdraws
  have hid : attemptId s.client.customTopics[i] s.client.nextMsgId
      = (s.client.nextMsgId, s.client.nextMsgId + 1) := by
    rw [attemptId, if_neg (not_not.mpr hzero), hdraw]
  have hreq := requests_attempted s i now
  rw [hid] at hreq
  have hnext : (attempt s.client i now).nextMsgId = s.client.nextMsgId + 1 := by
    rw [attempt, hid]
  have hcount : (s.attempted i now).draws = s.draws + 1 := by
    rw [Session.attempted, Session.after]
    dsimp only
    rw [hnext, if_neg (succ_ne_self _)]
  have hmem : ∀ r ∈ (s.attempted i now).requests, r ∈ s.requests ∨
      r = ⟨s.client.customTopics[i].isSender, s.client.nextMsgId,
        s.client.customTopics[i].topicName.val⟩ := by
    intro r hr
    rw [hreq] at hr
    exact (List.mem_append.mp hr).imp_right List.mem_singleton.mp
  -- the id is above every id drawn before
  have hfresh : ∀ r ∈ s.requests, r.mid ≠ s.client.nextMsgId := by
    intro r hr heq
    have hle := (h.drawn r hr).2
    rw [heq, h.counter] at hle
    omega
  refine ⟨?_, fun r hr ↦ ?_, fun r hr r' hr' heq ↦ ?_, fun j ↦ ?_⟩
  · rw [hcount]
    exact hnext ▸ htoNat
  · rw [hcount]
    rcases hmem r hr with hr | rfl
    · exact ⟨(h.drawn r hr).1, Nat.le_succ_of_le (h.drawn r hr).2⟩
    · exact ⟨hne, Nat.le_of_eq h.counter⟩
  · rcases hmem r hr with hr | rfl
    · rcases hmem r' hr' with hr' | rfl
      · exact h.one_name r hr r' hr' heq
      · exact absurd heq (hfresh r hr)
    · rcases hmem r' hr' with hr' | rfl
      · exact absurd heq.symm (hfresh r' hr')
      · exact ⟨rfl, rfl⟩
  · rcases get_attempt s.client i j now with ⟨rfl, heq⟩ | heq
    · change Waits assign (s.attempted j now).requests (attempt s.client j now).customTopics[j]
      obtain ⟨huse, hreg⟩ := inUse_of_due hdue
      rw [heq, hid, hreq]
      refine ⟨fun hfree ↦ ?_, fun _ ↦ List.mem_append_right _ (List.mem_singleton_self _), ?_⟩
      · exact absurd (huse.symm.trans hfree) (by decide)
      · exact fun _ hregistered ↦ absurd (hreg.symm.trans hregistered) Bool.false_ne_true
    · change Waits assign (s.attempted i now).requests (attempt s.client i now).customTopics[j]
      rw [heq, hreq]
      exact (h.entry j).mono fun r hr ↦ List.mem_append_left _ hr

theorem Agrees.attempted {s : Session} (h : Agrees assign s) {i : Fin MAX_CUSTOM_TOPICS}
    {now : UInt32} (hdue : s.client.customTopics[i].due now = true) (hdraws : s.draws < 65534) :
    Agrees assign (s.attempted i now) := by
  by_cases hzero : s.client.customTopics[i].pendingMsgId = 0
  · exact h.first hdue hzero hdraws
  · exact h.retry hdue hzero

theorem after_awaitReply (s : Session) (i : Fin MAX_CUSTOM_TOPICS) (now : UInt32) (rx : Rx) :
    s.after (awaitReply (attempt s.client i now) (request s.client.customTopics[i]
        (attemptId s.client.customTopics[i] s.client.nextMsgId).1) (some rx))
      = (s.attempted i now).after (udpRecvCallbackArduino (s.attempted i now).client rx) := by
  have hclient : (s.attempted i now).client = attempt s.client i now := rfl
  have hnext := nextMsgId_udpRecv (attempt s.client i now) rx
  have hnil := request_deliver (attempt s.client i now) [rx]
  rw [deliver, deliver, List.append_nil] at hnil
  rw [awaitReply, Option.toList_some, deliver, deliver, List.append_nil, Session.after,
    Session.after, hclient, hnil, List.append_nil, if_pos hnext, Nat.add_zero, requests_attempted,
    List.filterMap_cons, request_request, hnil]
  rw [hnext]
  rfl

/-- **A registration pass keeps the invariant**, whatever answer it receives. -/
theorem Agrees.process {s : Session} (h : Agrees assign s) (hdraws : s.draws < 65534)
    (now : UInt32) (reply : Option Rx) :
    Agrees assign (s.step assign (.process now reply)) := by
  rw [Session.step, Session.asked]
  rcases mqttSnProcessTopicRegistrations_cases s.client now with ⟨-, heq⟩ | ⟨i, hfirst, heq⟩
  · rw [heq]
    exact h.unchanged rfl
  · have hattempt := h.attempted (Slots.of_first_eq_some hfirst) hdraws
    have hasked : s.requests ++ (awaitReply (attempt s.client i now)
        (request s.client.customTopics[i]
          (attemptId s.client.customTopics[i] s.client.nextMsgId).1) none).2.filterMap
            Action.request = (s.attempted i now).requests := rfl
    rw [heq, heq, hasked]
    cases hreply : reply.filter (Rx.deliverable assign (s.attempted i now).requests) with
    | none => exact hattempt
    | some rx =>
      rw [after_awaitReply]
      exact hattempt.receive (Option.filter_eq_some_iff.mp hreply).2

/-! ## Publishing -/

theorem request_publish (c : Client) (topicId : UInt16) (payload : List UInt8) (qos : ℤ)
    (msgId : UInt16) (isRetransmit : Bool) (now : UInt32) (ok : Bool) :
    (mqttSnPublishTopicId c topicId payload qos msgId isRetransmit now ok).2.filterMap
      Action.request = [] := by
  rw [List.filterMap_eq_nil_iff]
  intro a ha
  rw [actions_publish ha]
  exact parse_publishPacket topicId payload qos msgId _

/-- A draw by a function that sends no request moves the counter and nothing else. -/
theorem Agrees.draw {s : Session} (h : Agrees assign s) (hdraws : s.draws < 65534)
    {r : Client × List Action} (hnext : r.1.nextMsgId = (getNextMsgId s.client.nextMsgId).2)
    (hreq : r.2.filterMap Action.request = [])
    (hentry : r.1.customTopics = s.client.customTopics) : Agrees assign (s.after r) := by
  obtain ⟨hdraw, -, htoNat⟩ := draw_of_counter h.counter hdraws
  rw [hdraw] at hnext
  have hmoved : s.after r = ⟨r.1, s.requests, s.draws + 1⟩ := by
    rw [Session.after, hreq, List.append_nil, hnext, if_neg (succ_ne_self _)]
  rw [hmoved]
  refine ⟨hnext ▸ htoNat, fun x hx ↦ ?_, h.one_name, fun i ↦ ?_⟩
  · exact ⟨(h.drawn x hx).1, Nat.le_succ_of_le (h.drawn x hx).2⟩
  · change Waits assign s.requests r.1.customTopics[i]
    rw [hentry]
    exact h.entry i

/-- A publish draws at most one id and sends no request. -/
theorem Agrees.publish {s : Session} (h : Agrees assign s) (hdraws : s.draws < 65534)
    (topicId : UInt16) (payload : List UInt8) (qos : ℤ) (now : UInt32) (ok : Bool) :
    Agrees assign (s.after (mqttSnPublishTopicIdAuto s.client topicId payload qos now ok)) := by
  have htopics := customTopics_publishAuto s.client topicId payload qos now ok
  have hreq : (mqttSnPublishTopicIdAuto s.client topicId payload qos now ok).2.filterMap
      Action.request = [] := request_publish _ topicId payload qos _ false now ok
  have hnext : (mqttSnPublishTopicIdAuto s.client topicId payload qos now ok).1.nextMsgId
      = (publishId s.client qos).2 := nextMsgId_publish _ topicId payload qos _ false now ok
  rw [publishId] at hnext
  by_cases hqos : qos > 0
  · rw [if_pos hqos] at hnext
    exact h.draw hdraws hnext hreq htopics
  · rw [if_neg hqos] at hnext
    refine h.table hnext hreq fun i ↦ ?_
    rw [htopics]
    exact h.entry i

theorem Agrees.checkTimeouts {s : Session} (h : Agrees assign s) (now : UInt32) (ok : Bool) :
    Agrees assign (s.after (checkQosTimeouts s.client now ok)) := by
  refine h.table rfl (List.filterMap_eq_nil_iff.mpr fun a ha ↦ ?_) h.entry
  obtain ⟨i, -, ha⟩ := exists_of_mem_checkQosTimeouts ha
  rw [resend] at ha
  split at ha
  · rw [actions_publish ha]
    exact parse_publishPacket _ _ _ _ _
  · rw [List.mem_singleton.mp ha]
    rfl

/-! ## Runs -/

/-- **The step rule**: every function of the client keeps the invariant while ids are left. -/
theorem Agrees.step {s : Session} (h : Agrees assign s) (e : Event) (hdraws : s.draws < 65534) :
    Agrees assign (s.step assign e) := by
  cases e with
  | addForRegistration topicName => exact h.addForRegistration topicName
  | addForSubscription topicName qos => exact h.addForSubscription topicName qos
  | process now reply => exact h.process hdraws now reply
  | invalidate => exact h.invalidate
  | receive rx =>
    rw [Session.step]
    split
    · exact h.receive ‹_›
    · exact h
  | publish topicId payload qos now ok => exact h.publish hdraws topicId payload qos now ok
  | checkTimeouts now ok => exact h.checkTimeouts now ok

theorem draws_le_step (assign : Assignment) (s : Session) (e : Event) :
    s.draws ≤ (s.step assign e).draws := by
  have hafter : ∀ r, s.draws ≤ (s.after r).draws := fun r ↦ Nat.le_add_right _ _
  cases e with
  | receive rx =>
    rw [Session.step]
    split
    · exact hafter _
    · exact Nat.le_refl _
  | _ => exact hafter _

theorem draws_le_run (assign : Assignment) (s : Session) (es : List Event) :
    s.draws ≤ (Trace.run (Session.step assign) s es).draws := by
  induction es generalizing s with
  | nil => exact Nat.le_refl _
  | cons e es ih => exact (draws_le_step assign s e).trans (ih _)

/-- **The invariant holds in every run that leaves ids.** -/
theorem agrees_run {s : Session} (h : Agrees assign s) {es : List Event}
    (hdraws : (Trace.run (Session.step assign) s es).draws < 65534) :
    Agrees assign (Trace.run (Session.step assign) s es) := by
  induction es generalizing s with
  | nil => exact h
  | cons e es ih =>
    -- the count only grows, so ids were left in the states before
    have hlater : (s.step assign e).draws < 65534 := (draws_le_run assign _ es).trans_lt hdraws
    exact ih (h.step e ((draws_le_step assign s e).trans_lt hlater)) hdraws

/-! ## Roles -/

/-- The entry has been acknowledged. -/
def TopicEntry.complete (e : TopicEntry) : Bool := e.inUse && e.isRegistered

/-- The packet that arrives in the event. -/
def Event.packet : Event → Option Rx
  | .process _ reply => reply
  | .receive rx => some rx
  | _ => none

theorem type_of_topicAck {rx : Rx} {sender : Bool} {mid tid : UInt16}
    (h : rx.topicAck = some (sender, mid, tid)) :
    rx.data.getD 1 0 = if sender then MQTTSN_MSG_TYPE_REGACK else MQTTSN_MSG_TYPE_SUBACK := by
  rcases of_topicAck h with ⟨rfl, htype, -⟩ | ⟨rfl, htype, -⟩
  · exact htype
  · exact htype

/-- **A packet completes an entry of its own role only.** -/
theorem role_of_onTopics {rx : Rx} {v : Vector TopicEntry MAX_CUSTOM_TOPICS}
    {i : Fin MAX_CUSTOM_TOPICS} (hbefore : v[i].complete = false)
    (hafter : (rx.onTopics v)[i].complete = true) : rx.data.getD 1 0
      = if (rx.onTopics v)[i].isSender then MQTTSN_MSG_TYPE_REGACK else MQTTSN_MSG_TYPE_SUBACK := by
  rcases get_onTopics rx v i with ⟨-, heq⟩ | ⟨-, heq | ⟨sender, mid, tid, hack, hawaits, heq⟩⟩
  · rw [heq] at hafter
    exact absurd hafter (by decide)
  · rw [heq] at hafter
    exact absurd (hbefore.symm.trans hafter) Bool.false_ne_true
  · rw [heq, type_of_topicAck hack]
    dsimp only
    rw [(awaits_iff.mp hawaits).2.1]

theorem role_of_udpRecv {c : Client} {rx : Rx} {i : Fin MAX_CUSTOM_TOPICS}
    (hbefore : c.customTopics[i].complete = false)
    (hafter : (udpRecvCallbackArduino c rx).1.customTopics[i].complete = true) : rx.data.getD 1 0
      = if (udpRecvCallbackArduino c rx).1.customTopics[i].isSender then MQTTSN_MSG_TYPE_REGACK
        else MQTTSN_MSG_TYPE_SUBACK := by
  rw [customTopics_udpRecv] at hafter ⊢
  exact role_of_onTopics hbefore hafter

theorem complete_attempt (c : Client) (i j : Fin MAX_CUSTOM_TOPICS) (now : UInt32) :
    (attempt c i now).customTopics[j].complete = c.customTopics[j].complete := by
  rcases get_attempt c i j now with ⟨rfl, heq⟩ | heq
  · rw [heq]
    rfl
  · rw [heq]

theorem complete_addTopic {c : Client} {i : Fin MAX_CUSTOM_TOPICS}
    (h : c.customTopics[i].complete = false) (topicName : List UInt8)
    {fill : TopicEntry → TopicEntry} (hfill : ∀ e, (fill e).complete = false) :
    (addTopic c topicName fill).1.customTopics[i].complete = false := by
  rcases get_addTopic c topicName fill i with heq | ⟨-, heq⟩
  · rw [heq]
    exact h
  · rw [heq]
    exact hfill _

/-- **An entry is completed by a packet**, an acknowledgement of its own role. -/
theorem role_of_step {s : Session} {e : Event} {i : Fin MAX_CUSTOM_TOPICS}
    (hbefore : s.client.customTopics[i].complete = false)
    (hafter : (s.step assign e).client.customTopics[i].complete = true) :
    ∃ rx, e.packet = some rx ∧ rx.data.getD 1 0
      = if (s.step assign e).client.customTopics[i].isSender then MQTTSN_MSG_TYPE_REGACK
        else MQTTSN_MSG_TYPE_SUBACK := by
  have hsame : ∀ {e' : TopicEntry}, e' = s.client.customTopics[i] → e'.complete ≠ true := by
    rintro e' rfl hcomplete
    exact absurd (hbefore.symm.trans hcomplete) Bool.false_ne_true
  cases e with
  | addForRegistration topicName =>
    have h : (mqttSnAddTopicForRegistration s.client topicName).1.customTopics[i].complete = true :=
      hafter
    rw [mqttSnAddTopicForRegistration] at h
    split at h
    · exact absurd h (hsame rfl)
    · rw [complete_addTopic hbefore topicName] at h
      · exact absurd h Bool.false_ne_true
      · exact fun _ ↦ rfl
  | addForSubscription topicName qos =>
    have h : (mqttSnAddTopicForSubscription s.client topicName qos).1.customTopics[i].complete
        = true := hafter
    rw [mqttSnAddTopicForSubscription] at h
    split at h
    · exact absurd h (hsame rfl)
    split at h
    · exact absurd h (hsame rfl)
    · rw [complete_addTopic hbefore topicName] at h
      · exact absurd h Bool.false_ne_true
      · exact fun _ ↦ rfl
  | process now reply =>
    rw [Session.step] at hafter ⊢
    rcases mqttSnProcessTopicRegistrations_cases s.client now with ⟨-, heq⟩ | ⟨j, -, heq⟩
    · rw [heq] at hafter
      exact absurd hafter (hsame rfl)
    rw [heq] at hafter ⊢
    -- an attempt completes nothing, so it was the reply
    have hattempt : (s.attempted j now).client.customTopics[i].complete = false :=
      (complete_attempt s.client j i now).trans hbefore
    cases hreply : reply.filter (Rx.deliverable assign (s.asked now)) with
    | none =>
      rw [hreply] at hafter
      exact absurd (hattempt.symm.trans hafter) Bool.false_ne_true
    | some rx =>
      rw [hreply, after_awaitReply] at hafter
      rw [after_awaitReply]
      exact ⟨rx, Option.eq_some_of_filter_eq_some hreply, role_of_udpRecv hattempt hafter⟩
  | invalidate =>
    have h : (mqttSnInvalidateAllTopics s.client).customTopics[i].complete = true := hafter
    simp only [mqttSnInvalidateAllTopics, Slots.getElem_fin, Vector.getElem_map] at h
    split at h
    · rw [TopicEntry.complete, Bool.and_false] at h
      exact absurd h Bool.false_ne_true
    · exact absurd h (hsame rfl)
  | receive rx =>
    by_cases hrx : rx.deliverable assign s.requests = true
    · have hstep : s.step assign (.receive rx) = s.after (udpRecvCallbackArduino s.client rx) :=
        if_pos hrx
      rw [hstep] at hafter ⊢
      exact ⟨rx, rfl, role_of_udpRecv hbefore hafter⟩
    · have hstep : s.step assign (.receive rx) = s := if_neg hrx
      rw [hstep] at hafter
      exact absurd hafter (hsame rfl)
  | publish topicId payload qos now ok =>
    refine absurd hafter (hsame ?_)
    exact congrArg (fun v ↦ v[i]) (customTopics_publishAuto s.client topicId payload qos now ok)
  | checkTimeouts now ok => exact absurd hafter (hsame rfl)

/-- **Topic ids agree with the gateway**, and acknowledgements complete entries of their own
role. -/
theorem registered_agrees (assign : Assignment) (es : List Event)
    (hdraws : (Trace.run (Session.step assign) Session.boot es).draws < 65534) :
    let s := Trace.run (Session.step assign) Session.boot es
    (∀ i : Fin MAX_CUSTOM_TOPICS, s.client.customTopics[i].inUse = true →
      s.client.customTopics[i].isRegistered = true →
      s.client.customTopics[i].topicId = assign s.client.customTopics[i].topicName.val) ∧
    ∀ (e : Event) (i : Fin MAX_CUSTOM_TOPICS), s.client.customTopics[i].complete = false →
      (s.step assign e).client.customTopics[i].complete = true →
      ∃ rx, e.packet = some rx ∧ rx.data.getD 1 0
        = if (s.step assign e).client.customTopics[i].isSender then MQTTSN_MSG_TYPE_REGACK
          else MQTTSN_MSG_TYPE_SUBACK :=
  ⟨fun i ↦ ((agrees_run agrees_boot hdraws).entry i).agrees, fun _ _ ↦ role_of_step⟩

/-- A topic is asked for twice under one id, and the answer arrives twice. -/
def registerRun : List Event :=
  let regack : Rx := ⟨regackPacket 5 1 0, 7, 9000⟩
  [.addForRegistration (cstr "power"), .process 500 none, .process 9000 none, .receive regack,
    .receive regack]

theorem registered_agrees_power :
    let i : Fin MAX_CUSTOM_TOPICS := ⟨0, by decide⟩
    (Trace.run (Session.step byLength) Session.boot registerRun).client.customTopics[i].topicId
      = byLength (cstr "power") := by
  intro i
  have hdraws : (Trace.run (Session.step byLength) Session.boot registerRun).draws < 65534 := by
    decide +kernel
  have hname : (Trace.run (Session.step byLength) Session.boot
      registerRun).client.customTopics[i].topicName.val = cstr "power" := by
    decide +kernel
  rw [← hname]
  exact (registered_agrees byLength registerRun hdraws).1 i (by decide +kernel) (by decide +kernel)

end Emcs.Arduino
