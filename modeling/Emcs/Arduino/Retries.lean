import Emcs.Arduino.Moments
import Emcs.Arduino.Ready

/-!
# Retrying a registration

`mqtt_sn_process_topic_registrations` asks again for a topic whose last attempt is
`TOPIC_RETRY_INTERVAL_MS` old, under the message id of that attempt. In `STATE_REGISTERING` the
sketch calls it only while no topic waits for an acknowledgement. Since an attempt leaves a message
id that only an accepted acknowledgement or a CONNACK clears, a topic with a lost request waits for
good, and nothing is sent until the session times out.

The book below notes beside the sketch when the request that is out for an entry was sent. A request
is out if and only if the entry has a message id.

## The proof

While a request is out, the topic waits for an acknowledgement, so the sketch does not call the
function that would send the request again (`silent_of_overdue`). Hence in `STATE_REGISTERING` there
is never a retry, and the property holds in exactly the runs in which none is due. The invariant
`Noted` is what lets the book, which the sketch does not have, speak about the entries of its table.
-/

namespace Emcs.Arduino

open Mqttsn

/-! ## Requests that are out -/

/-- For each entry, the reading of the clock at the last request, if that one is out. -/
abbrev Asked := Fin MAX_CUSTOM_TOPICS → Option UInt32

/-- An acknowledgement that is accepted, or a CONNACK that wipes the table, ends the wait. -/
def Rx.onAsked (rx : Rx) (v : Vector TopicEntry MAX_CUSTOM_TOPICS) (asked : Asked) : Asked :=
  fun i ↦ if rx.acceptedConnack || (!v[i].isRegistered && (rx.onTopics v)[i].isRegistered) then none
    else asked i

/-- A registration pass sends a request for one entry, and handles a packet. -/
def passAsked (c : Client) (now : UInt32) (reply : Option Rx) (asked : Asked) : Asked :=
  match Slots.first (TopicEntry.due now) c.customTopics with
  | none => asked
  | some i =>
    let asked := Function.update asked i (some now)
    match reply with
    | none => asked
    | some rx => rx.onAsked (attempt c i now).customTopics asked

/-- The sketch and the requests that are out. -/
structure Book where
  sketch : Sketch
  asked : Asked

namespace Book

def boot : Book := ⟨setup, fun _ ↦ none⟩

variable (clientId : List UInt8)

def next (b : Book) (e : Moment) : Book where
  sketch := b.sketch.step clientId e
  asked := match e with
    | .receive rx => rx.onAsked b.sketch.client.customTopics b.asked
    | .iterate x => match b.sketch.passes with
      | none => b.asked
      | some c => passAsked c x.regNow x.reply b.asked

/-- The request for the topic was sent the retry interval ago, or longer, and is out. -/
def Overdue (b : Book) (now : UInt32) (i : Fin MAX_CUSTOM_TOPICS) : Prop :=
  b.sketch.client.customTopics[i].inUse = true ∧
    b.sketch.client.customTopics[i].isRegistered = false ∧
    ∃ t ∈ b.asked i, now - t ≥ TOPIC_RETRY_INTERVAL_MS

/-- The sketch registers: it owes no acknowledgement, and the session has not timed out. -/
def Registers (b : Book) (x : Inputs) : Prop :=
  b.sketch.state = .registering ∧ registeringAck b.sketch.client = none ∧
    ¬x.now - b.sketch.stateMs > REGISTER_TIMEOUT_MS

/-- **Lost registrations are retried**: where a request is overdue, one that is overdue is sent
again under its message id. -/
def Retries (b : Book) : Moment → Prop
  | .receive _ => True
  | .iterate x => b.Registers x → (∃ i, b.Overdue x.now i) → ∃ i, b.Overdue x.now i ∧
      b.sketch.client.customTopics[i].pendingMsgId ≠ 0 ∧
      .send (request b.sketch.client.customTopics[i] b.sketch.client.customTopics[i].pendingMsgId) ∈
        (b.sketch.exec clientId (.iterate x)).2

/-- No request is overdue where the sketch registers. -/
def AnsweredInTime (b : Book) : Moment → Prop
  | .receive _ => True
  | .iterate x => b.Registers x → ∀ i, ¬b.Overdue x.now i

end Book

/-! ## The invariant -/

/-- An entry has a message id if and only if a request is out for it, and then it is in use and not
registered. -/
structure Noted (e : TopicEntry) (t : Option UInt32) : Prop where
  pending : t.isSome ↔ e.pendingMsgId ≠ 0
  waits : t.isSome → e.inUse = true ∧ e.isRegistered = false

/-- Every entry of the table is noted. -/
def AllNoted (v : Vector TopicEntry MAX_CUSTOM_TOPICS) (asked : Asked) : Prop :=
  ∀ i, Noted v[i] (asked i)

theorem noted_none {e : TopicEntry} (h : e.pendingMsgId = 0) : Noted e none :=
  ⟨iff_of_false Bool.false_ne_true fun hne ↦ hne h, fun hsome ↦ absurd hsome Bool.false_ne_true⟩

theorem Noted.of_free {e : TopicEntry} {t : Option UInt32} (h : Noted e t)
    (hfree : e.inUse = false) :
    t = none ∧ e.pendingMsgId = 0 := by
  cases t with
  | none => exact ⟨rfl, not_not.mp fun hne ↦ Bool.false_ne_true (h.pending.mpr hne)⟩
  | some t => exact absurd (hfree.symm.trans (h.waits rfl).1) Bool.false_ne_true

theorem allNoted_packet {v : Vector TopicEntry MAX_CUSTOM_TOPICS} {asked : Asked}
    (h : AllNoted v asked) (rx : Rx) : AllNoted (rx.onTopics v) (rx.onAsked v asked) := by
  intro i
  rw [Rx.onAsked]
  rcases get_onTopics rx v i with ⟨hconnack, heq⟩ | ⟨hconnack, heq | ⟨_, _, _, -, hawaits, heq⟩⟩
  · rw [heq, hconnack, Bool.true_or, if_pos rfl]
    exact noted_none rfl
  · rw [heq, hconnack, Bool.false_or, Bool.not_and_self, if_neg Bool.false_ne_true]
    exact h i
  · rw [heq, (awaits_iff.mp hawaits).2.2.1, Bool.not_false, Bool.true_and, Bool.or_true, if_pos rfl]
    exact noted_none rfl

theorem attemptId_ne_zero (e : TopicEntry) (next : UInt16) : (attemptId e next).1 ≠ 0 := by
  rw [attemptId]
  split
  · assumption
  · exact getNextMsgId_ne_zero next

theorem allNoted_attempt {c : Client} {asked : Asked} (h : AllNoted c.customTopics asked)
    {i : Fin MAX_CUSTOM_TOPICS} {now : UInt32} (hdue : c.customTopics[i].due now = true) :
    AllNoted (attempt c i now).customTopics (Function.update asked i (some now)) := by
  intro j
  by_cases hij : j = i
  · subst hij
    rw [Function.update_self, attempt, Slots.get_set_self]
    obtain ⟨huse, hreg⟩ := inUse_of_due hdue
    exact ⟨iff_of_true rfl (attemptId_ne_zero _ _), fun _ ↦ ⟨huse, hreg⟩⟩
  · rw [Function.update_of_ne hij, attempt, Slots.get_set_of_ne _ _ (Ne.symm hij)]
    exact h j

/-- **A registration pass notes its request.** -/
theorem allNoted_pass {c : Client} {asked : Asked} (h : AllNoted c.customTopics asked)
    (now : UInt32) (reply : Option Rx) :
    AllNoted (mqttSnProcessTopicRegistrations c now reply).1.customTopics
      (passAsked c now reply asked) := by
  rw [passAsked]
  rcases mqttSnProcessTopicRegistrations_cases c now with ⟨hfirst, heq⟩ | ⟨i, hfirst, heq⟩
  · rw [hfirst, heq]
    exact h
  · rw [hfirst, heq]
    have hattempt := allNoted_attempt h (Slots.of_first_eq_some hfirst)
    cases reply with
    | none => exact hattempt
    | some rx =>
      dsimp only
      rw [awaitReply, Option.toList_some, deliver, deliver, customTopics_udpRecv]
      exact allNoted_packet hattempt rx

theorem allNoted_addTopic {c : Client} {asked : Asked} (h : AllNoted c.customTopics asked)
    (topicName : List UInt8) {fill : TopicEntry → TopicEntry}
    (hfill : ∀ e, e.pendingMsgId = 0 → (fill e).pendingMsgId = 0) :
    AllNoted (addTopic c topicName fill).1.customTopics asked := by
  intro i
  rcases get_addTopic c topicName fill i with heq | ⟨hfree, heq⟩
  · rw [heq]
    exact h i
  · obtain ⟨hnone, hpending⟩ := (h i).of_free hfree
    rw [heq, hnone]
    exact noted_none (hfill _ hpending)

theorem allNoted_addAllTopics {c : Client} {asked : Asked} (h : AllNoted c.customTopics asked) :
    AllNoted (addAllTopics c).customTopics asked := by
  have hregistration : ∀ (c : Client) (name : List UInt8), AllNoted c.customTopics asked →
      AllNoted (mqttSnAddTopicForRegistration c name).1.customTopics asked := by
    intro c name h
    rw [mqttSnAddTopicForRegistration]
    split
    · exact h
    · exact allNoted_addTopic h name fun _ _ ↦ rfl
  have hsubscription : ∀ (c : Client) (name : List UInt8) (qos : UInt8),
      AllNoted c.customTopics asked →
      AllNoted (mqttSnAddTopicForSubscription c name qos).1.customTopics asked := by
    intro c name qos h
    rw [mqttSnAddTopicForSubscription]
    split
    · exact h
    split
    · exact h
    · exact allNoted_addTopic h name fun _ hpending ↦ hpending
  exact hsubscription _ _ _ (hsubscription _ _ _ (hregistration _ _ (hregistration _ _ h)))

theorem allNoted_invalidate {c : Client} {asked : Asked} (h : AllNoted c.customTopics asked) :
    AllNoted (mqttSnInvalidateAllTopics c).customTopics asked := by
  intro i
  have hi := h i
  simp only [mqttSnInvalidateAllTopics, Slots.getElem_fin, Vector.getElem_map] at hi ⊢
  split
  · exact ⟨hi.pending, fun hsome ↦ ⟨(hi.waits hsome).1, rfl⟩⟩
  · exact hi

/-- **The `switch` notes its requests.** -/
theorem allNoted_loopSwitch (clientId : List UInt8) {s : Sketch} {asked : Asked}
    (h : AllNoted s.client.customTopics asked) (x : Inputs) :
    AllNoted (loopSwitch clientId s x).1.client.customTopics (match s.passes with
      | none => asked
      | some c => passAsked c x.regNow x.reply asked) := by
  cases hpasses : s.passes with
  | none =>
    refine loopSwitch_rule clientId (P := fun r ↦ AllNoted r.1.customTopics asked) h (fun _ ↦ h)
      (fun hstate hping ↦ ?_) (fun hstate hack hwaiting ↦ ?_) (fun _ hr ↦ allNoted_invalidate hr)
      (fun _ ↦ h) (fun _ ↦ h) (fun _ ↦ h) ?_ (fun _ ↦ ?_) h
    · rw [Sketch.passes, hstate, hping] at hpasses
      contradiction
    · rw [Sketch.passes, hstate, hack, hwaiting] at hpasses
      contradiction
    · rw [customTopics_publishAuto]
      exact h
    · rw [customTopics_publishAuto]
      exact h
  | some c =>
    have hc : AllNoted c.customTopics asked := by
      rcases eq_of_passes hpasses with rfl | rfl
      · exact h
      · exact allNoted_addAllTopics h
    have hpass := allNoted_pass hc x.regNow x.reply
    obtain ⟨-, heq | heq⟩ := loopSwitch_of_passes clientId hpasses x
    · rw [heq]
      exact hpass
    · rw [heq]
      exact allNoted_invalidate hpass

/-! ## Runs -/

namespace Book

variable (clientId : List UInt8)

theorem allNoted_boot : AllNoted boot.sketch.client.customTopics boot.asked := by
  refine allNoted_addAllTopics fun i ↦ ?_
  rw [Client.boot, Slots.getElem_fin, Vector.getElem_replicate]
  exact noted_none rfl

theorem allNoted_next {b : Book} (h : AllNoted b.sketch.client.customTopics b.asked) (e : Moment) :
    AllNoted (b.next clientId e).sketch.client.customTopics (b.next clientId e).asked := by
  cases e with
  | receive rx =>
    change AllNoted (udpRecvCallbackArduino b.sketch.client rx).1.customTopics _
    rw [customTopics_udpRecv]
    exact allNoted_packet h rx
  | iterate x => exact allNoted_loopSwitch clientId h x

/-- **A request that is overdue keeps the sketch from sending anything.** -/
theorem silent_of_overdue {b : Book} (h : AllNoted b.sketch.client.customTopics b.asked)
    {x : Inputs}
    (hreg : b.Registers x) {i : Fin MAX_CUSTOM_TOPICS} (hi : b.Overdue x.now i) :
    (b.sketch.exec clientId (.iterate x)).2 = [] := by
  obtain ⟨hstate, hack, htime⟩ := hreg
  obtain ⟨huse, hunreg, t, ht, -⟩ := hi
  have hpending : b.sketch.client.customTopics[i].pendingMsgId ≠ 0 := by
    refine (h i).pending.mp ?_
    rw [Option.mem_def.mp ht]
    rfl
  have hwaiting : waitingForAck b.sketch.client = true := by
    rw [waitingForAck, Vector.any_eq_true]
    refine ⟨i, i.isLt, ?_⟩
    rw [← Slots.getElem_fin, huse, hunreg, bne_iff_ne.mpr hpending]
    rfl
  rw [Sketch.exec, loopSwitch, hstate]
  dsimp only
  rw [loopRegistering, hack, hwaiting]
  dsimp only
  rw [if_pos rfl, if_neg htime]
  split
  · rfl
  · rfl

theorem retries_iff {b : Book} (h : AllNoted b.sketch.client.customTopics b.asked) (e : Moment) :
    b.Retries clientId e ↔ b.AnsweredInTime e := by
  cases e with
  | receive rx => exact Iff.rfl
  | iterate x =>
    refine forall_congr' fun hreg ↦ ⟨fun hretries i hi ↦ ?_, fun hnone hsome ↦ ?_⟩
    · obtain ⟨j, -, -, hsent⟩ := hretries ⟨i, hi⟩
      rw [silent_of_overdue clientId h hreg hi] at hsent
      exact absurd hsent List.not_mem_nil
    · exact absurd hsome.choose_spec (hnone _)

/-- **Lost registrations are retried** in exactly those runs in which no request is out for the
retry interval while the sketch registers, so that there is nothing to retry. -/
theorem retries_always_iff (es : List Moment) :
    Trace.Always (next clientId) (Retries clientId) boot es ↔
      Trace.Always (next clientId) AnsweredInTime boot es :=
  Trace.always_iff_always (P := fun b ↦ AllNoted b.sketch.client.customTopics b.asked)
    (fun _ e h ↦ retries_iff clientId h e) (fun _ e h _ ↦ allNoted_next clientId h e) allNoted_boot

end Book

/-! ## A lost REGACK -/

/-- The gateway accepts the connection, and its answer to the first REGISTER, sent at `1000`, gets
lost. -/
def lostRegack : List Moment :=
  [.iterate (receiving none none), .receive connack,
    .iterate { receiving none none with now := 1000, regNow := 1000 }]

/-- **The answer is lost**, and nine seconds later nothing is sent. -/
theorem stalls_after_lost_regack :
    ¬Trace.Always (Book.next (cstr "arduino-04")) (Book.Retries (cstr "arduino-04")) .boot
      (lostRegack ++ [.iterate { receiving none none with now := 10000, regNow := 10000 }]) := by
  intro h
  have hoverdue : (Trace.run (Book.next (cstr "arduino-04")) .boot lostRegack).Overdue 10000
      ⟨0, by decide⟩ := ⟨by decide +kernel, by decide +kernel, 1000, by decide +kernel, by decide⟩
  obtain ⟨i, -, -, hsent⟩ := h.at ⟨by decide +kernel, by decide +kernel, by decide +kernel⟩
    ⟨_, hoverdue⟩
  have hsilent : ((Trace.run (Book.next (cstr "arduino-04")) .boot lostRegack).sketch.exec
      (cstr "arduino-04") (.iterate { receiving none none with now := 10000, regNow := 10000 })).2
      = [] := by decide +kernel
  rw [hsilent] at hsent
  exact absurd hsent List.not_mem_nil

end Emcs.Arduino
