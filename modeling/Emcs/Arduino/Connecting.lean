import Emcs.Arduino.Moments
import Emcs.Arduino.Ready

/-!
# Waiting for the CONNACK

`STATE_CONNECTING` is left for `STATE_REGISTERING` when `g_ping_ack_received` is set. Two handlers
set that flag: the one of CONNACK, for every return code, and the one of PINGRESP. It is cleared
when a CONNECT is sent, so it says that one of the two has come since, and not that the gateway has
accepted.

## The invariant

The watch collects the packets that were handled since the last CONNECT was sent. The flag is set if
and only if one of them is a CONNACK or a PINGRESP, in every run. `STATE_CONNECTING` is left when
the flag is set; whether an accepting CONNACK is among the packets that set it is then a question
about this list.
-/

namespace Emcs.Arduino

open Mqttsn

/-- A handler sets `g_ping_ack_received` for this packet. -/
def Rx.setsPingAck (rx : Rx) : Bool :=
  decide (MQTTSN_HEADER_SIZE ≤ rx.length.toNat) &&
    (rx.data.getD 1 0 == MQTTSN_MSG_TYPE_CONNACK || rx.data.getD 1 0 == MQTTSN_MSG_TYPE_PINGRESP)

/-- A CONNACK that accepts: it has a return code, and that is the one for acceptance. -/
def Rx.accepts (rx : Rx) : Bool :=
  decide (3 ≤ rx.length.toNat) && rx.data.getD 1 0 == MQTTSN_MSG_TYPE_CONNACK &&
    rx.data.getD 2 0 == MQTTSN_RETURN_ACCEPTED

theorem setsPingAck_iff {rx : Rx} : rx.setsPingAck = true ↔
    rx.Is MQTTSN_MSG_TYPE_CONNACK ∨ rx.Is MQTTSN_MSG_TYPE_PINGRESP := by
  rw [Rx.setsPingAck, Bool.and_eq_true, Bool.or_eq_true, decide_eq_true_iff, beq_iff_eq, beq_iff_eq,
    Rx.Is, Rx.Is, Nat.not_lt, and_or_left]

/-! ## The flag -/

/-- **A packet sets the flag**, or leaves it as it is. -/
theorem pingAck_udpRecv (c : Client) (rx : Rx) :
    (udpRecvCallbackArduino c rx).1.pingAckReceived = (c.pingAckReceived || rx.setsPingAck) := by
  by_cases hconnack : rx.Is MQTTSN_MSG_TYPE_CONNACK
  · have hack : isQosAck MQTTSN_MSG_TYPE_CONNACK = false := by decide
    rw [setsPingAck_iff.mpr (Or.inl hconnack), Bool.or_true, udpRecvCallbackArduino,
      if_neg hconnack.1, hconnack.2, hack, Bool.and_false]
    rfl
  by_cases hpingresp : rx.Is MQTTSN_MSG_TYPE_PINGRESP
  · have hack : isQosAck MQTTSN_MSG_TYPE_PINGRESP = false := by decide
    rw [setsPingAck_iff.mpr (Or.inr hpingresp), Bool.or_true, udpRecvCallbackArduino,
      if_neg hpingresp.1, hpingresp.2, hack, Bool.and_false]
    rfl
  have hnot : rx.setsPingAck = false := by
    rw [← Bool.not_eq_true, setsPingAck_iff]
    exact not_or.mpr ⟨hconnack, hpingresp⟩
  rw [hnot, Bool.or_false]
  exact udpRecv_rule (P := fun r ↦ r.1.pingAckReceived = c.pingAckReceived) rfl
    (fun h ↦ absurd h hconnack) (fun _ ↦ rfl) (fun _ ↦ rfl) (fun _ ↦ rfl) (fun _ ↦ rfl)
    (fun _ ↦ rfl) (fun _ ↦ (handlePublish_frame c rx.data rx.length).2.2.2)
    fun h ↦ absurd h hpingresp

section Moments

variable (clientId : List UInt8)

theorem pingAck_processTopicRegistrations {c : Client} {now : UInt32} {reply : Option Rx}
    (h : asksForTopic c now = true → reply = none) :
    (mqttSnProcessTopicRegistrations c now reply).1.pingAckReceived = c.pingAckReceived := by
  rcases mqttSnProcessTopicRegistrations_eq c now reply with ⟨-, heq⟩ | ⟨i, mid, hasks, heq⟩
  · rw [heq]
  · rw [heq, h hasks]
    rfl

theorem pingAck_publishAuto (c : Client) (topicId : UInt16) (payload : List UInt8) (qos : ℤ)
    (now : UInt32) (ok : Bool) :
    (mqttSnPublishTopicIdAuto c topicId payload qos now ok).1.pingAckReceived
      = c.pingAckReceived := by
  rw [mqttSnPublishTopicIdAuto, mqttSnPublishTopicId]
  dsimp only
  split
  · rfl
  split
  · rfl
  split
  · rfl
  split
  · rfl
  · rfl

/-- **The flag after a branch of `loop`**: cleared where the branch connects, and set by the packet
it handles. -/
theorem pingAck_loopSwitch (s : Sketch) (x : Inputs) :
    (loopSwitch clientId s x).1.client.pingAckReceived
      = (s.state != .init && s.client.pingAckReceived
        || ((Moment.iterate x).packet s).any Rx.setsPingAck) := by
  by_cases hinit : s.state = .init
  · have hpacket : (Moment.iterate x).packet s = none := by
      rw [Moment.packet, hinit]
    rw [hpacket, loopSwitch, hinit]
    rfl
  rw [bne_iff_ne.mpr hinit, Bool.true_and]
  cases hpacket : (Moment.iterate x).packet s with
  | some rx =>
    obtain ⟨c, i, mid, hc, -, hclient⟩ := loopSwitch_of_packet clientId hpacket
    have hsame : (attempt c i x.regNow).pingAckReceived = s.client.pingAckReceived := by
      rcases hc with rfl | rfl
      · rfl
      · obtain ⟨v, hv⟩ := addAllTopics_eq s.client
        rw [hv]
        rfl
    have hflag := pingAck_udpRecv (attempt c i x.regNow) rx
    rw [hsame] at hflag
    rcases hclient with heq | heq
    · rw [heq]
      exact hflag
    · rw [heq]
      exact hflag
  | none =>
    rw [Option.any_none, Bool.or_false]
    rw [Moment.packet] at hpacket
    refine loopSwitch_rule clientId
      (P := fun r ↦ r.1.pingAckReceived = s.client.pingAckReceived) rfl
      (fun h ↦ absurd h hinit) (fun hstate hping ↦ ?_) (fun hstate hack hwaiting ↦ ?_)
      (fun _ hr ↦ hr)
      (fun _ ↦ rfl) (fun _ ↦ rfl) (fun _ ↦ rfl) (pingAck_publishAuto ..)
      (fun _ ↦ pingAck_publishAuto ..) rfl
    · rw [hstate, hping, Bool.true_and] at hpacket
      obtain ⟨v, hv⟩ := addAllTopics_eq s.client
      rw [pingAck_processTopicRegistrations, hv]
      intro hasks
      rw [if_pos hasks] at hpacket
      exact hpacket
    · rw [hstate, hack, hwaiting] at hpacket
      refine pingAck_processTopicRegistrations fun hasks ↦ ?_
      rw [hasks] at hpacket
      exact hpacket

/-! ## Since the last CONNECT -/

/-- The sketch, and the packets received since it last sent a CONNECT. -/
structure Watch where
  sketch : Sketch
  since : List Rx

def Watch.boot : Watch := ⟨setup, []⟩

/-- The moment sends a CONNECT. -/
def Moment.connects (s : Sketch) (e : Moment) : Prop :=
  Action.send (connectPacket clientId) ∈ (s.exec clientId e).2

instance (s : Sketch) (e : Moment) : Decidable (e.connects clientId s) :=
  inferInstanceAs (Decidable (_ ∈ _))

def Watch.next (w : Watch) (e : Moment) : Watch where
  sketch := w.sketch.step clientId e
  since := (if e.connects clientId w.sketch then [] else w.since) ++ (e.packet w.sketch).toList

theorem not_connects_of_type {buf : List UInt8} (h : buf.getD 1 0 ≠ MQTTSN_MSG_TYPE_CONNECT) :
    Action.send (connectPacket clientId) ≠ .send buf := by
  intro heq
  exact h (congrArg (fun l ↦ l.getD 1 0) (Action.send.inj heq)).symm

theorem not_connects_deliver (c : Client) (rxs : List Rx) :
    Action.send (connectPacket clientId) ∉ (deliver c rxs).2 := by
  intro h
  rcases actions_deliver c rxs h with ⟨mid, heq⟩ | ⟨msg, heq⟩
  · refine not_connects_of_type clientId ?_ heq
    change MQTTSN_MSG_TYPE_PUBREL ≠ _
    decide
  · exact nomatch heq

theorem not_connects_processTopicRegistrations (c : Client) (now : UInt32) (reply : Option Rx) :
    Action.send (connectPacket clientId) ∉ (mqttSnProcessTopicRegistrations c now reply).2 := by
  rcases mqttSnProcessTopicRegistrations_eq c now reply with ⟨-, heq⟩ | ⟨i, mid, -, heq⟩
  · rw [heq]
    exact List.not_mem_nil
  · rw [heq]
    intro h
    rcases List.mem_cons.mp h with h | h
    · refine not_connects_of_type clientId ?_ h
      rw [request]
      split
      · change MQTTSN_MSG_TYPE_REGISTER ≠ _
        decide
      · change MQTTSN_MSG_TYPE_SUBSCRIBE ≠ _
        decide
    · exact not_connects_deliver clientId (attempt c i now) reply.toList h

/-- What a publish sends, and what the timeout check sends again, is no CONNECT. -/
theorem not_connects_publish {c : Client} {topicId : UInt16} {payload : List UInt8} {qos : ℤ}
    {msgId : UInt16} {isRetransmit : Bool} {now : UInt32} {ok : Bool} :
    Action.send (connectPacket clientId)
      ∉ (mqttSnPublishTopicId c topicId payload qos msgId isRetransmit now ok).2 := by
  intro h
  refine not_connects_of_type clientId ?_ (actions_publish h)
  rcases type_take_publishPacket topicId payload qos msgId
      ((MQTTSN_PUBLISH_HEADER_LEN + payload.length) % 256) with htype | htype
  · rw [htype]
    decide
  · rw [htype]
    decide

theorem not_connects_checkQosTimeouts (c : Client) (now : UInt32) (ok : Bool) :
    Action.send (connectPacket clientId) ∉ (checkQosTimeouts c now ok).2 := by
  intro h
  obtain ⟨i, -, h⟩ := exists_of_mem_checkQosTimeouts h
  rw [resend] at h
  split at h
  · exact not_connects_publish clientId h
  · refine not_connects_of_type clientId ?_ (List.mem_singleton.mp h)
    change MQTTSN_MSG_TYPE_PUBREL ≠ _
    decide

/-- **A CONNECT is sent in `STATE_INIT`**, and nowhere else. -/
theorem connects_iff (s : Sketch) (e : Moment) :
    e.connects clientId s ↔ s.state = .init ∧ ∃ x, e = .iterate x := by
  rcases e with rx | x
  · refine ⟨fun h ↦ ?_, fun h ↦ nomatch h.2.choose_spec⟩
    refine absurd ?_ (not_connects_deliver clientId s.client [rx])
    rw [deliver]
    exact List.mem_append_left _ h
  by_cases hinit : s.state = .init
  · refine ⟨fun _ ↦ ⟨hinit, x, rfl⟩, fun _ ↦ ?_⟩
    change _ ∈ (loopSwitch clientId s x).2
    rw [loopSwitch, hinit]
    exact List.mem_singleton_self _
  · refine ⟨fun h ↦ absurd h ?_, fun h ↦ absurd h.1 hinit⟩
    have hack : ∀ buf : List UInt8, buf.getD 1 0 ≠ MQTTSN_MSG_TYPE_CONNECT →
        Action.send (connectPacket clientId) ∉ [Action.send buf] := fun buf hbuf hmem ↦
      not_connects_of_type clientId hbuf (List.mem_singleton.mp hmem)
    exact loopSwitch_rule clientId (P := fun r ↦ Action.send (connectPacket clientId) ∉ r.2)
      List.not_mem_nil (fun h ↦ absurd h hinit)
      (fun _ _ ↦ not_connects_processTopicRegistrations clientId _ _ _)
      (fun _ _ _ ↦ not_connects_processTopicRegistrations clientId _ _ _) (fun _ hr ↦ hr)
      (fun _ ↦ hack _ (by change MQTTSN_MSG_TYPE_PUBACK ≠ _; decide))
      (fun _ ↦ hack _ (by change MQTTSN_MSG_TYPE_PUBREC ≠ _; decide))
      (fun _ ↦ hack _ (by change MQTTSN_MSG_TYPE_PUBCOMP ≠ _; decide))
      (not_connects_publish clientId) (fun _ ↦ not_connects_publish clientId)
      (not_connects_checkQosTimeouts clientId _ _ _)

/-- **The flag says what has come since the last CONNECT.** -/
theorem pingAck_next {w : Watch} (h : w.sketch.client.pingAckReceived = w.since.any Rx.setsPingAck)
    (e : Moment) : (w.next clientId e).sketch.client.pingAckReceived
      = (w.next clientId e).since.any Rx.setsPingAck := by
  rw [Watch.next]
  dsimp only
  rw [List.any_append]
  rcases e with rx | x
  · have hnot : ¬(Moment.receive rx).connects clientId w.sketch := fun h ↦
      nomatch ((connects_iff clientId _ _).mp h).2.choose_spec
    rw [if_neg hnot, ← h]
    refine (pingAck_udpRecv w.sketch.client rx).trans ?_
    change _ = (_ || (rx.setsPingAck || false))
    rw [Bool.or_false]
  · refine (pingAck_loopSwitch clientId w.sketch x).trans ?_
    have hpacket : ((Moment.iterate x).packet w.sketch).any Rx.setsPingAck
        = ((Moment.iterate x).packet w.sketch).toList.any Rx.setsPingAck := by
      cases (Moment.iterate x).packet w.sketch with
      | none => rfl
      | some rx => exact (Bool.or_false _).symm
    rw [hpacket]
    congr 1
    by_cases hinit : w.sketch.state = .init
    · rw [if_pos ((connects_iff clientId _ _).mpr ⟨hinit, x, rfl⟩), hinit]
      rfl
    · rw [if_neg fun h ↦ hinit ((connects_iff clientId _ _).mp h).1, ← h, bne_iff_ne.mpr hinit,
        Bool.true_and]

/-- **Registration only after acceptance**: the moment does not move from `STATE_CONNECTING` to
`STATE_REGISTERING` without an accepting CONNACK since the last CONNECT. -/
def OnlyAccepted (w : Watch) (e : Moment) : Prop :=
  w.sketch.state = .connecting → (w.next clientId e).sketch.state = .registering →
    ∃ rx ∈ w.since, rx.accepts = true

/-- In `STATE_CONNECTING` no other CONNACK and no PINGRESP has come since the last CONNECT when the
`switch` runs, unless an accepting CONNACK has. -/
def AcceptedIfAnswered (w : Watch) : Moment → Prop
  | .receive _ => True
  | .iterate _ => w.sketch.state = .connecting → (∃ rx ∈ w.since, rx.setsPingAck = true) →
      ∃ rx ∈ w.since, rx.accepts = true

/-- The sketch moves on when the flag is set. -/
theorem onlyAccepted_iff {w : Watch}
    (h : w.sketch.client.pingAckReceived = w.since.any Rx.setsPingAck) (e : Moment) :
    OnlyAccepted clientId w e ↔ AcceptedIfAnswered w e := by
  rw [OnlyAccepted]
  rcases e with rx | x
  · refine iff_of_true (fun hstate hnext ↦ ?_) trivial
    cases hstate.symm.trans hnext
  · refine forall_congr' fun hstate ↦ imp_congr_left ?_
    rw [← List.any_eq_true, ← h]
    change (loopSwitch clientId w.sketch x).1.state = _ ↔ _
    rw [loopSwitch, hstate]
    change (loopConnecting w.sketch x).1.state = _ ↔ _
    rw [loopConnecting]
    by_cases hping : w.sketch.client.pingAckReceived = true
    · rw [if_pos hping]
      exact iff_of_true rfl hping
    · rw [if_neg hping]
      split
      · refine iff_of_false (fun hnext ↦ ?_) hping
        cases hnext
      · refine iff_of_false (fun hnext ↦ ?_) hping
        cases hstate.symm.trans hnext

/-- **Registration only after acceptance** holds in exactly those runs of the sketch in which every
answer to a CONNECT that the `switch` acts on comes with an accepting CONNACK. -/
theorem onlyAccepted_always_iff (es : List Moment) :
    Trace.Always (Watch.next clientId) (OnlyAccepted clientId) .boot es ↔
      Trace.Always (Watch.next clientId) AcceptedIfAnswered .boot es := by
  have hflag : Watch.boot.sketch.client.pingAckReceived = Watch.boot.since.any Rx.setsPingAck := by
    obtain ⟨v, hv⟩ := addAllTopics_eq Client.boot
    rw [Watch.boot, setup, hv]
    rfl
  exact Trace.always_iff_always
    (P := fun w ↦ w.sketch.client.pingAckReceived = w.since.any Rx.setsPingAck)
    (fun _ e h ↦ onlyAccepted_iff clientId h e) (fun _ e h _ ↦ pingAck_next clientId h e) hflag

end Moments

/-- A CONNACK whose return code says that the gateway is congested. -/
def rejection : Rx := ⟨[3, MQTTSN_MSG_TYPE_CONNACK, 0x01], 3, 0⟩

/-- The sketch sends a CONNECT, and the gateway rejects it. -/
def rejected : List Moment := [.iterate (receiving none none), .receive rejection]

/-- **The gateway rejects the connection**, and the sketch registers its topics. -/
theorem registers_after_rejection :
    ¬Trace.Always (Watch.next (cstr "arduino-04")) (OnlyAccepted (cstr "arduino-04")) .boot
      (rejected ++ [.iterate (receiving none none)]) := by
  intro h
  have hsince : (Trace.run (Watch.next (cstr "arduino-04")) .boot rejected).since.any Rx.accepts
      = false := by decide +kernel
  have haccepts := h.at (by decide +kernel) (by decide +kernel)
  exact absurd (hsince.symm.trans (List.any_eq_true.mpr haccepts)) Bool.false_ne_true

end Emcs.Arduino
