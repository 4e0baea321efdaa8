import Emcs.Lib.Trace
import Emcs.Mqttsn.Gateway
import Emcs.Pico.Effects

/-!
# The main loop and the background

The main loop of the Pico runs its functions in parts, and `udp_recv_callback` runs between any two
of them. An event is a part of a function or a packet; a part that does not come next in the main
loop does nothing.

The machine also records what has gone out, which message ids have been drawn and which PUBRECs have
been handled. The last section says that the functions of the client are what the machine does when
no packet comes between their parts.

## The construction

`Control` is the client together with the place of its main loop: idle, or within one of the three
functions that can be interrupted. `Control.exec` runs one event. An event that cannot happen at
this place leaves everything as it is, so every list of events is a run, and no hypothesis on their
order is needed anywhere.

`State` adds the record: what has gone out, the ids drawn, the ids of the PUBRECs. It is written and
never read by the machine, and serves to say what a run has done.
-/

namespace Emcs.Pico

open Bytes Mqttsn

/-! ## The machine -/

/-- Where the main loop is. -/
inductive Task where
  | idle
  /-- In `mqtt_sn_publish_topic_id`, before the message is stored. -/
  | storing (p : Publish)
  /-- In `check_qos_timeouts`, with this much of `retry_list` left. -/
  | retrying (entries : List RetryEntry)
  /-- In `mqtt_sn_process_topic_registrations`, with these entries left. -/
  | registering (now : ℕ) (entries : List (Fin MAX_CUSTOM_TOPICS))
  /-- In a round of it, between the two parts. -/
  | requesting (now : ℕ) (i : Fin MAX_CUSTOM_TOPICS) (mid : UInt16)
      (entries : List (Fin MAX_CUSTOM_TOPICS))

inductive Event where
  | receive (rx : Rx)
  | setDropAcks (drop : Bool)
  | addForRegistration (topicName : List UInt8)
  | addForSubscription (topicName : List UInt8) (qos : UInt8)
  | invalidate
  | publish (topicId : UInt16) (payload : List UInt8) (qos : ℤ) (ok : Bool)
  | store (now : ℕ)
  | checkTimeouts (now : ℕ) (stamp : ℕ → ℕ)
  | resend (ok : Bool)
  | processRegistrations (now : ℕ)
  | attempt
  | request (ok : Bool)

/-- The client and the place of its main loop. -/
structure Control where
  client : Client
  task : Task

/-- A part of a function has run, or a packet was handled. -/
def Control.exec (s : Control) (e : Event) : Control × List Action :=
  match s.task, e with
  | _, .receive rx =>
    ({ s with client := (udpRecvCallback s.client rx).1 }, (udpRecvCallback s.client rx).2)
  | _, .setDropAcks drop => ({ s with client := { s.client with dropAcks := drop } }, [])
  | .idle, .addForRegistration topicName =>
    ({ s with client := (mqttSnAddTopicForRegistration s.client topicName).1 }, [])
  | .idle, .addForSubscription topicName qos =>
    ({ s with client := (mqttSnAddTopicForSubscription s.client topicName qos).1 }, [])
  | .idle, .invalidate => ({ s with client := mqttSnInvalidateAllTopics s.client }, [])
  | .idle, .publish topicId payload qos ok =>
    let r := publishId s.client qos
    let p : Publish := ⟨topicId, payload, qos, r.1⟩
    (⟨{ s.client with nextMsgId := r.2 }, if p.tracked false ok then .storing p else .idle⟩,
      p.transmit ok)
  | .storing p, .store now => (⟨store s.client p now, .idle⟩, [])
  | .idle, .checkTimeouts now stamp =>
    (⟨(snapshot s.client now stamp).1, .retrying (snapshot s.client now stamp).2⟩, [])
  | .retrying [], .resend _ => (⟨s.client, .idle⟩, [])
  | .retrying (r :: rs), .resend ok => (⟨s.client, .retrying rs⟩, r.resend ok)
  | .idle, .processRegistrations now =>
    (⟨s.client, .registering now (List.finRange MAX_CUSTOM_TOPICS)⟩, [])
  | .registering _ [], .attempt => (⟨s.client, .idle⟩, [])
  | .registering now (i :: is), .attempt =>
    if s.client.customTopics[i].due now then
      (⟨Pico.attempt s.client i now,
        .requesting now i (getNextMsgId s.client.nextMsgId).1 is⟩, [])
    else (⟨s.client, .registering now is⟩, [])
  | .requesting now i mid is, .request ok =>
    (⟨s.client, .registering now is⟩, requestTopic s.client i mid ok)
  | _, _ => (s, [])

/-- What goes out. -/
def Action.out : Action → Option (List UInt8)
  | .send buf true => some buf
  | _ => none

theorem mem_out {as : List Action} {buf : List UInt8} :
    buf ∈ as.filterMap Action.out ↔ Action.send buf true ∈ as := by
  rw [List.mem_filterMap]
  constructor
  · rintro ⟨a, ha, hout⟩
    match a, hout with
    | .send _ true, rfl => exact ha
  · exact fun h ↦ ⟨_, h, rfl⟩

/-- The id of the PUBREC, where the packet is handled as one. -/
def Rx.pubrec (rx : Rx) (dropAcks : Bool) : Option UInt16 :=
  if rx.len < MQTTSN_HEADER_SIZE ∨ dropAcks = true then none else receivedId rx.data

/-- The client and what has happened. -/
structure State extends Control where
  sent : List (List UInt8)
  drawn : List UInt16
  pubrecs : List UInt16

def State.boot : State := ⟨⟨Client.boot, .idle⟩, [], [], []⟩

/-- The id drawn in an event. A draw is seen by the counter moving. -/
def State.draw (s : State) (e : Event) : Option UInt16 :=
  if (s.exec e).1.client.nextMsgId = s.client.nextMsgId then none
  else some (getNextMsgId s.client.nextMsgId).1

/-- The id of the PUBREC handled in an event. -/
def State.pubrec (s : State) : Event → Option UInt16
  | .receive rx => rx.pubrec s.client.dropAcks
  | _ => none

def State.step (s : State) (e : Event) : State where
  toControl := (s.exec e).1
  sent := s.sent ++ (s.exec e).2.filterMap Action.out
  drawn := s.drawn ++ (s.draw e).toList
  pubrecs := s.pubrecs ++ (s.pubrec e).toList

/-! ## Functions without interruption -/

/-- A run of the main loop, and what it sends. -/
def Control.run : Control → List Event → Control × List Action
  | s, [] => (s, [])
  | s, e :: es => (((s.exec e).1.run es).1, (s.exec e).2 ++ ((s.exec e).1.run es).2)

/-- The machine runs the main loop and records what goes out. -/
theorem run_step (s : State) (es : List Event) :
    (Trace.run State.step s es).toControl = (s.toControl.run es).1 ∧
      (Trace.run State.step s es).sent = s.sent ++ (s.toControl.run es).2.filterMap Action.out := by
  induction es generalizing s with
  | nil => exact ⟨rfl, (List.append_nil s.sent).symm⟩
  | cons e es ih =>
    obtain ⟨hcontrol, hsent⟩ := ih (s.step e)
    refine ⟨hcontrol, ?_⟩
    rw [Trace.run_cons, hsent, Control.run, List.filterMap_append, ← List.append_assoc]
    rfl

/-- `mqtt_sn_publish_topic_id_auto` is its two parts. -/
theorem run_publish (c : Client) (topicId : UInt16) (payload : List UInt8) (qos : ℤ) (ok : Bool)
    (now : ℕ) :
    Control.run ⟨c, .idle⟩ [.publish topicId payload qos ok, .store now]
      = (⟨(mqttSnPublishTopicIdAuto c topicId payload qos ok now).1, .idle⟩,
        (mqttSnPublishTopicIdAuto c topicId payload qos ok now).2) := by
  rw [mqttSnPublishTopicIdAuto, mqttSnPublishTopicId]
  cases htracked : Publish.tracked ⟨topicId, payload, qos, (publishId c qos).1⟩ false ok
  · simp [Control.run, Control.exec, htracked]
  · simp [Control.run, Control.exec, htracked]

theorem run_retrying (c : Client) (ok : RetryEntry → Bool) (rs : List RetryEntry) :
    Control.run ⟨c, .retrying rs⟩ (rs.map (fun r ↦ .resend (ok r)) ++ [.resend true])
      = (⟨c, .idle⟩, rs.flatMap fun r ↦ r.resend (ok r)) := by
  induction rs with
  | nil => rfl
  | cons r rs ih =>
    have hround : ∀ es, Control.run ⟨c, .retrying (r :: rs)⟩ (.resend (ok r) :: es)
        = ((Control.run ⟨c, .retrying rs⟩ es).1,
          r.resend (ok r) ++ (Control.run ⟨c, .retrying rs⟩ es).2) := fun _ ↦ rfl
    rw [List.map_cons, List.cons_append, hround, ih, List.flatMap_cons]

/-- `check_qos_timeouts` is its snapshot and then a round for each entry. -/
theorem run_checkTimeouts (c : Client) (now : ℕ) (stamp : ℕ → ℕ) (ok : RetryEntry → Bool) :
    Control.run ⟨c, .idle⟩ (.checkTimeouts now stamp ::
        ((snapshot c now stamp).2.map (fun r ↦ .resend (ok r)) ++ [.resend true]))
      = (⟨(checkQosTimeouts c now stamp ok).1, .idle⟩, (checkQosTimeouts c now stamp ok).2) := by
  have hphase : ∀ es, Control.run ⟨c, .idle⟩ (.checkTimeouts now stamp :: es)
      = Control.run ⟨(snapshot c now stamp).1, .retrying (snapshot c now stamp).2⟩ es := fun _ ↦ rfl
  rw [hphase, run_retrying, checkQosTimeouts]

/-- A round of the pass is its two parts; where the entry is not due there is no second one. -/
theorem run_round (c : Client) (now : ℕ) (i : Fin MAX_CUSTOM_TOPICS)
    (is : List (Fin MAX_CUSTOM_TOPICS)) (ok : Bool) (es : List Event) :
    Control.run ⟨c, .registering now (i :: is)⟩ (.attempt :: .request ok :: es)
      = if c.customTopics[i].due now then
          ((Control.run ⟨attempt c i now, .registering now is⟩ es).1,
            requestTopic (attempt c i now) i (getNextMsgId c.nextMsgId).1 ok ++
              (Control.run ⟨attempt c i now, .registering now is⟩ es).2)
        else Control.run ⟨c, .registering now is⟩ es := by
  by_cases hdue : c.customTopics[i].due now = true
  · simp only [Control.run, Control.exec, if_pos hdue, List.nil_append]
  · simp only [Control.run, Control.exec, if_neg hdue, List.nil_append]

theorem run_registering (now : ℕ) (ok : Fin MAX_CUSTOM_TOPICS → Bool)
    (is : List (Fin MAX_CUSTOM_TOPICS)) (c : Client) (as : List Action) :
    let s := Control.run ⟨c, .registering now is⟩
      (is.flatMap (fun i ↦ [.attempt, .request (ok i)]) ++ [.attempt])
    let r := is.foldl (registrationRound now ok) (c, as)
    s.1 = ⟨r.1, .idle⟩ ∧ as ++ s.2 = r.2 := by
  induction is generalizing c as with
  | nil => exact ⟨rfl, List.append_nil as⟩
  | cons i is ih =>
    dsimp only at ih ⊢
    rw [List.flatMap_cons, List.append_assoc, List.cons_append, List.cons_append, List.nil_append,
      List.foldl_cons, run_round, registrationRound]
    split
    · obtain ⟨hcontrol, hsent⟩ := ih (attempt c i now)
        (as ++ requestTopic (attempt c i now) i (getNextMsgId c.nextMsgId).1 (ok i))
      rw [List.append_assoc] at hsent
      exact ⟨hcontrol, hsent⟩
    · exact ih c as

/-- `mqtt_sn_process_topic_registrations` is its rounds. -/
theorem run_processRegistrations (c : Client) (now : ℕ) (ok : Fin MAX_CUSTOM_TOPICS → Bool) :
    Control.run ⟨c, .idle⟩ (.processRegistrations now ::
        ((List.finRange MAX_CUSTOM_TOPICS).flatMap (fun i ↦ [.attempt, .request (ok i)]) ++
          [.attempt]))
      = (⟨(mqttSnProcessTopicRegistrations c now ok).1, .idle⟩,
        (mqttSnProcessTopicRegistrations c now ok).2) := by
  have hbegin : ∀ es, Control.run ⟨c, .idle⟩ (.processRegistrations now :: es)
      = Control.run ⟨c, .registering now (List.finRange MAX_CUSTOM_TOPICS)⟩ es := fun _ ↦ rfl
  rw [hbegin, mqttSnProcessTopicRegistrations]
  generalize List.finRange MAX_CUSTOM_TOPICS = entries
  obtain ⟨hcontrol, hsent⟩ := run_registering now ok entries c []
  exact Prod.ext hcontrol hsent

end Emcs.Pico
