import Emcs.Arduino.Effects
import Emcs.Lib.Tenure

/-!
# The moments of `loop`

A call of `loop` handles the packets of `mqtt_sn_poll` one after the other and then takes a branch
of its `switch`. Each of these is a moment of the sketch, so a run of `loop` is a run of moments,
and what holds at every moment holds also between the packets of one poll.

A branch handles a packet itself where it asks for a topic and waits for the reply.

## Why moments

A property that may be lost and regained within a call of `loop` cannot be stated about calls.
Packets are therefore steps of their own, and so is the rest of the call. The rules at the end say
what a branch of the `switch` does in terms of a registration pass, a publish and a timeout check,
so that later modules prove a property of these three and not of the branches.
-/

namespace Emcs.Arduino

open Mqttsn

/-- A packet is handled, or the `switch` of `loop` runs. -/
inductive Moment where
  | receive (rx : Rx)
  | iterate (x : Inputs)

variable (clientId : List UInt8)

def Sketch.exec (s : Sketch) : Moment → Sketch × List Action
  | .receive rx =>
    ({ s with client := (udpRecvCallbackArduino s.client rx).1 },
      (udpRecvCallbackArduino s.client rx).2)
  | .iterate x => loopSwitch clientId s x

def Sketch.step (s : Sketch) (e : Moment) : Sketch := (s.exec clientId e).1

/-- The moments of one call of `loop`. -/
def Inputs.moments (x : Inputs) : List Moment :=
  (x.first.toList ++ x.drain.take 4).map .receive ++ [.iterate x]

/-- What is sent and shown in a run. -/
def actions (s : Sketch) (es : List Moment) : List Action :=
  Trace.logged (Sketch.step clientId) (fun s e ↦ (s.exec clientId e).2) s es

theorem run_receive (s : Sketch) (rxs : List Rx) :
    Trace.run (Sketch.step clientId) s (rxs.map .receive)
        = { s with client := (deliver s.client rxs).1 } ∧
      actions clientId s (rxs.map .receive) = (deliver s.client rxs).2 := by
  induction rxs generalizing s with
  | nil => exact ⟨rfl, rfl⟩
  | cons rx rxs ih =>
    obtain ⟨hrun, hactions⟩ := ih { s with client := (udpRecvCallbackArduino s.client rx).1 }
    exact ⟨hrun, congrArg ((udpRecvCallbackArduino s.client rx).2 ++ ·) hactions⟩

/-- **A call of `loop` is its moments.** -/
theorem run_moments (s : Sketch) (x : Inputs) :
    (Trace.run (Sketch.step clientId) s x.moments, actions clientId s x.moments)
      = loop clientId s x := by
  obtain ⟨hrun, hactions⟩ := run_receive clientId s (x.first.toList ++ x.drain.take 4)
  refine Prod.ext ?_ ?_
  · change Trace.run _ s (_ ++ _) = _
    rw [Trace.run_append, hrun]
    rfl
  · change Trace.logged _ _ s (_ ++ _) = _
    rw [Trace.logged_append, hrun]
    refine congrArg₂ (· ++ ·) hactions ?_
    exact List.append_nil _

/-! ## The packet of a moment -/

/-- `mqtt_sn_process_topic_registrations` sends a request, and waits for the reply. -/
def asksForTopic (c : Client) (now : UInt32) : Bool :=
  (Slots.first (TopicEntry.due now) c.customTopics).isSome

/-- The packet handled in a moment. -/
def Moment.packet (s : Sketch) : Moment → Option Rx
  | .receive rx => some rx
  | .iterate x =>
    match s.state with
    | .connecting =>
      if s.client.pingAckReceived && asksForTopic (addAllTopics s.client) x.regNow then x.reply
      else none
    | .registering =>
      if (registeringAck s.client).isNone && !waitingForAck s.client &&
          asksForTopic s.client x.regNow then x.reply
      else none
    | _ => none

/-- **A registration pass**: an attempt, a request and the reply, or nothing. -/
theorem mqttSnProcessTopicRegistrations_eq (c : Client) (now : UInt32) (reply : Option Rx) :
    (asksForTopic c now = false ∧ mqttSnProcessTopicRegistrations c now reply = (c, [])) ∨
    ∃ i mid, asksForTopic c now = true ∧ mqttSnProcessTopicRegistrations c now reply
      = awaitReply (attempt c i now) (request c.customTopics[i] mid) reply := by
  rw [asksForTopic]
  rcases mqttSnProcessTopicRegistrations_cases c now with ⟨hfirst, heq⟩ | ⟨i, hfirst, heq⟩
  · exact Or.inl ⟨by rw [hfirst]; rfl, heq reply⟩
  · exact Or.inr ⟨i, (attemptId c.customTopics[i] c.nextMsgId).1, by rw [hfirst]; rfl, heq reply⟩

/-- The client on which the `switch` runs a registration pass, if it does. -/
def Sketch.passes (s : Sketch) : Option Client :=
  match s.state with
  | .connecting => if s.client.pingAckReceived then some (addAllTopics s.client) else none
  | .registering =>
    if (registeringAck s.client).isNone && !waitingForAck s.client then some s.client else none
  | _ => none

theorem eq_of_passes {s : Sketch} {c : Client} (h : s.passes = some c) :
    c = s.client ∨ c = addAllTopics s.client := by
  rw [Sketch.passes] at h
  split at h
  · split at h
    · exact Or.inr (Option.some_inj.mp h).symm
    · contradiction
  · split at h
    · exact Or.inl (Option.some_inj.mp h).symm
    · contradiction
  · contradiction

/-- **A branch with a registration pass** does what the pass does, and may invalidate the table. -/
theorem loopSwitch_of_passes {s : Sketch} {c : Client} (h : s.passes = some c) (x : Inputs) :
    let r := mqttSnProcessTopicRegistrations c x.regNow x.reply
    (loopSwitch clientId s x).2 = r.2 ∧ ((loopSwitch clientId s x).1.client = r.1 ∨
      (loopSwitch clientId s x).1.client = mqttSnInvalidateAllTopics r.1) := by
  intro r
  have hr : mqttSnProcessTopicRegistrations c x.regNow x.reply = r := rfl
  rw [Sketch.passes] at h
  rw [loopSwitch]
  split at h
  · rename_i hstate
    split at h
    · rename_i hping
      rw [hstate, loopConnecting, if_pos hping, Option.some_inj.mp h, hr]
      exact ⟨rfl, Or.inl rfl⟩
    · contradiction
  · rename_i hstate
    split at h
    · rename_i hfree
      rw [Bool.and_eq_true, Option.isNone_iff_eq_none, Bool.not_eq_true'] at hfree
      rw [hstate, loopRegistering, hfree.1, hfree.2,
        if_neg Bool.false_ne_true, Option.some_inj.mp h,
        hr]
      dsimp only
      split
      · exact ⟨rfl, Or.inl rfl⟩
      split
      · exact ⟨rfl, Or.inr rfl⟩
      · exact ⟨rfl, Or.inl rfl⟩
    · contradiction
  · contradiction

/-- The packet handled in a branch is the reply to the request of a registration pass. -/
theorem passes_of_packet {s : Sketch} {x : Inputs} {rx : Rx}
    (h : (Moment.iterate x).packet s = some rx) : ∃ c, s.passes = some c ∧
      asksForTopic c x.regNow = true ∧ x.reply = some rx := by
  rw [Moment.packet] at h
  rw [Sketch.passes]
  split at h
  · split at h
    · rename_i hasks
      rw [Bool.and_eq_true] at hasks
      exact ⟨_, if_pos hasks.1, hasks.2, h⟩
    · contradiction
  · split at h
    · rename_i hasks
      rw [Bool.and_eq_true] at hasks
      exact ⟨_, if_pos hasks.1, hasks.2, h⟩
    · contradiction
  · contradiction

/-- **A branch that handles a packet** asks for a topic and handles the reply. -/
theorem loopSwitch_of_packet {s : Sketch} {x : Inputs} {rx : Rx}
    (h : (Moment.iterate x).packet s = some rx) :
    ∃ c i mid, (c = s.client ∨ c = addAllTopics s.client) ∧
      (loopSwitch clientId s x).2 = .send (request c.customTopics[i] mid) ::
        (udpRecvCallbackArduino (attempt c i x.regNow) rx).2 ∧
      ((loopSwitch clientId s x).1.client = (udpRecvCallbackArduino (attempt c i x.regNow) rx).1 ∨
        (loopSwitch clientId s x).1.client
          = mqttSnInvalidateAllTopics (udpRecvCallbackArduino (attempt c i x.regNow) rx).1) := by
  obtain ⟨c, hpasses, hasks, hreply⟩ := passes_of_packet h
  obtain ⟨hactions, hclient⟩ := loopSwitch_of_passes clientId hpasses x
  rcases mqttSnProcessTopicRegistrations_eq c x.regNow x.reply with ⟨hnot, -⟩ | ⟨i, mid, -, heq⟩
  · exact absurd (hnot.symm.trans hasks) Bool.false_ne_true
  · rw [heq, hreply, awaitReply, Option.toList_some, deliver, deliver, List.append_nil]
      at hactions hclient
    exact ⟨c, i, mid, eq_of_passes hpasses, hactions, hclient⟩

/-! ## The branches of `loop` -/

/-- The QoS 1 phase of `STATE_READY` publishes. -/
def publishesQos1 (s : Sketch) (x : Inputs) : Bool :=
  s.state == .ready && (readyAck s.client).isNone && s.seqPhase == 3 &&
    decide (x.now - s.seqPhaseMs ≥ PUB_QOS1_MS)

theorem publishesQos1_iff {s : Sketch} {x : Inputs} : publishesQos1 s x = true ↔
    s.state = .ready ∧ readyAck s.client = none ∧ s.seqPhase = 3 ∧
      x.now - s.seqPhaseMs ≥ PUB_QOS1_MS := by
  rw [publishesQos1, Bool.and_eq_true, Bool.and_eq_true, Bool.and_eq_true, beq_iff_eq, beq_iff_eq,
    Option.isNone_iff_eq_none, decide_eq_true_iff, and_assoc, and_assoc]

/-- What the publish phases do, where one of them acts. -/
theorem readyPublish_cases (s : Sketch) (x : Inputs) : readyPublish clientId s x = none ∨
    ∃ r, readyPublish clientId s x = some r ∧
      ((r.1.client, r.2) =
        mqttSnPublishTopicIdAuto s.client (mqttSnGetTopicId s.client TOPIC_DATA_2)
          (reading clientId (s.pubCountQos0 + 1)) 0 x.pubNow x.pubOk ∨
        (s.seqPhase = 3 ∧ x.now - s.seqPhaseMs ≥ PUB_QOS1_MS ∧
          (r.1.client, r.2) = mqttSnPublishTopicIdAuto s.client
            (mqttSnGetTopicId s.client TOPIC_DATA_1) (reading clientId (s.pubCountQos1 + 1)) 1
            x.pubNow x.pubOk) ∨
        (r.1.client, r.2) = (s.client, [])) := by
  rw [readyPublish]
  split_ifs with h₁ h₂ h₃ h₄ h₅ h₆
  · exact Or.inr ⟨_, rfl, Or.inl rfl⟩
  · exact Or.inl rfl
  · exact Or.inr ⟨_, rfl, Or.inr (Or.inl ⟨h₃, h₄, rfl⟩)⟩
  · exact Or.inl rfl
  · exact Or.inr ⟨_, rfl, Or.inr (Or.inr rfl)⟩
  · exact Or.inl rfl
  · exact Or.inl rfl

/-- **The rule of the `switch`**: what holds of every branch holds of a pass. -/
theorem loopSwitch_rule {P : Client × List Action → Prop} {s : Sketch} {x : Inputs}
    (hnone : P (s.client, []))
    (hconnect : s.state = .init →
      P ({ s.client with pingAckReceived := false }, [.send (connectPacket clientId)]))
    (hconnected : s.state = .connecting → s.client.pingAckReceived = true →
      P (mqttSnProcessTopicRegistrations (addAllTopics s.client) x.regNow x.reply))
    (hregister : s.state = .registering → registeringAck s.client = none →
      waitingForAck s.client = false →
      P (mqttSnProcessTopicRegistrations s.client x.regNow x.reply))
    (hinvalidate : ∀ r, P r → P (mqttSnInvalidateAllTopics r.1, r.2))
    (hpuback : s.client.pubackPending = true → P (sendPuback s.client))
    (hpubrec : s.client.pubrecPending = true → P (sendPubrec s.client))
    (hpubcomp : s.client.pubcompPending = true → P (sendPubcomp s.client))
    (hqos0 : P (mqttSnPublishTopicIdAuto s.client (mqttSnGetTopicId s.client TOPIC_DATA_2)
      (reading clientId (s.pubCountQos0 + 1)) 0 x.pubNow x.pubOk))
    (hqos1 : publishesQos1 s x = true →
      P (mqttSnPublishTopicIdAuto s.client (mqttSnGetTopicId s.client TOPIC_DATA_1)
        (reading clientId (s.pubCountQos1 + 1)) 1 x.pubNow x.pubOk))
    (hcheck : P (checkQosTimeouts s.client x.qosNow x.qosOk)) :
    P ((loopSwitch clientId s x).1.client, (loopSwitch clientId s x).2) := by
  rw [loopSwitch]
  cases hstate : s.state with
  | init => exact hconnect hstate
  | connecting =>
    dsimp only
    rw [loopConnecting]
    by_cases hping : s.client.pingAckReceived = true
    · have hpass := hconnected hstate hping
      rw [if_pos hping]
      generalize mqttSnProcessTopicRegistrations (addAllTopics s.client) x.regNow x.reply = r
        at hpass ⊢
      exact hpass
    · rw [if_neg hping]
      split
      · exact hnone
      · exact hnone
  | registering =>
    dsimp only
    rw [loopRegistering]
    cases hack : registeringAck s.client with
    | some r =>
      rw [registeringAck] at hack
      split_ifs at hack
      · exact Option.some_inj.mp hack ▸ hpuback ‹_›
      · exact Option.some_inj.mp hack ▸ hpubrec ‹_›
      · exact Option.some_inj.mp hack ▸ hpubcomp ‹_›
    | none =>
      dsimp only
      -- the pass runs only while nothing is waited for; then the session may time out
      have hpass : P (if waitingForAck s.client then (s.client, [])
          else mqttSnProcessTopicRegistrations s.client x.regNow x.reply) := by
        split
        · exact hnone
        · exact hregister hstate hack (Bool.not_eq_true _ ▸ ‹_›)
      generalize (if waitingForAck s.client then (s.client, [])
        else mqttSnProcessTopicRegistrations s.client x.regNow x.reply) = r at hpass ⊢
      split
      · exact hpass
      split
      · exact hinvalidate r hpass
      · exact hpass
  | ready =>
    change P ((loopReady clientId s x).1.client, (loopReady clientId s x).2)
    rw [loopReady]
    dsimp only
    -- a pending acknowledgement puts off the times, which the property does not see
    generalize hs : (if s.client.pubackPending || s.client.pubrecPending || s.client.pubcompPending
      then { s with lastPubQos0 := x.now, lastPubQos1 := x.now } else s) = s'
    have hsame : s'.client = s.client ∧ s'.seqPhase = s.seqPhase ∧ s'.seqPhaseMs = s.seqPhaseMs ∧
        s'.pubCountQos0 = s.pubCountQos0 ∧ s'.pubCountQos1 = s.pubCountQos1 := by
      rw [← hs]
      split <;> exact ⟨rfl, rfl, rfl, rfl, rfl⟩
    obtain ⟨hclient, hphase, hphaseMs, hcount₀, hcount₁⟩ := hsame
    rw [hclient]
    cases hack : readyAck s.client with
    | some r =>
      rw [readyAck] at hack
      split_ifs at hack
      · exact Option.some_inj.mp hack ▸ hpubrec ‹_›
      · exact Option.some_inj.mp hack ▸ hpubcomp ‹_›
      · exact Option.some_inj.mp hack ▸ hpuback ‹_›
    | none =>
      dsimp only
      rcases readyPublish_cases clientId s' x with hpub | ⟨r, hpub, hr⟩
      · rw [hpub]
        dsimp only
        split
        · exact hclient ▸ hcheck
        · exact hclient ▸ hnone
      · rw [hpub]
        rw [hclient, hphase, hphaseMs, hcount₀, hcount₁] at hr
        change P (r.1.client, r.2)
        rcases hr with heq | ⟨hthree, htime, heq⟩ | heq
        · rw [heq]
          exact hqos0
        · rw [heq]
          exact hqos1 (publishesQos1_iff.mpr ⟨hstate, hack, hthree, htime⟩)
        · rw [heq]
          exact hnone
  | error => exact hinvalidate (s.client, []) hnone

end Emcs.Arduino
