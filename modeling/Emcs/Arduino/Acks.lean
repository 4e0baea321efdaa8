import Emcs.Arduino.LifeCycle
import Emcs.Arduino.Moments
import Emcs.Arduino.Ready
import Mathlib.Algebra.Group.Units.Basic
import Mathlib.Data.Multiset.OrderedMonoid

/-!
# The acknowledgements that the Arduino owes

`handle_publish` and `handle_pubrel` send nothing: they note the acknowledgement in the variables of
its kind, and `loop` sends one of the three per call. Each kind has room for one, so a packet can
overwrite what is noted there, and a PUBLISH of QoS 2 clears a PUBCOMP besides.

The books below count every acknowledgement as owed, sent, recorded or overwritten. Nothing else can
happen to one.

## The books

`Books` counts what the client owed and what it has sent, beside a sketch that knows neither. A
packet owes one acknowledgement at most, which is recorded, and it may overwrite others. So the
difference between owed and sent is what is recorded plus what was overwritten, at every point of
every run, and the balance is kept exactly while nothing is overwritten.
-/

namespace Emcs.Arduino

open Bytes Mqttsn

inductive Ack where
  | puback (tid mid : UInt16)
  | pubrec (mid : UInt16)
  | pubcomp (mid : UInt16)
  deriving DecidableEq

/-- What a buffer acknowledges. -/
def Ack.ofPacket (buf : List UInt8) : Option Ack :=
  if buf.getD 1 0 = MQTTSN_MSG_TYPE_PUBACK ∧ buf.getD 6 0 = MQTTSN_RETURN_ACCEPTED then
    some (.puback (be16 (buf.getD 2 0) (buf.getD 3 0)) (be16 (buf.getD 4 0) (buf.getD 5 0)))
  else if buf.getD 1 0 = MQTTSN_MSG_TYPE_PUBREC then
    some (.pubrec (be16 (buf.getD 2 0) (buf.getD 3 0)))
  else if buf.getD 1 0 = MQTTSN_MSG_TYPE_PUBCOMP then
    some (.pubcomp (be16 (buf.getD 2 0) (buf.getD 3 0)))
  else none

/-- The acknowledgements among what is sent. -/
def acksSent (as : List Action) : Multiset Ack := as.filterMap fun a ↦ a.buffer.bind Ack.ofPacket

/-- The acknowledgement that the client owes for a packet. -/
def Rx.owes (rx : Rx) : Option Ack :=
  if rx.length.toNat < MQTTSN_HEADER_SIZE then none
  else if rx.data.getD 1 0 = MQTTSN_MSG_TYPE_PUBREL then
    some (.pubcomp (be16 (rx.data.getD 2 0) (rx.data.getD 3 0)))
  else if rx.data.getD 1 0 = MQTTSN_MSG_TYPE_PUBLISH ∧ ¬rx.length < 7 then
    let qos := (rx.data.getD 2 0 >>> MQTTSN_QOS_SHIFT) &&& MQTTSN_FLAG_QOS_MASK
    if qos = 1 then
      some (.puback (be16 (rx.data.getD 3 0) (rx.data.getD 4 0))
        (be16 (rx.data.getD 5 0) (rx.data.getD 6 0)))
    else if qos = 2 then some (.pubrec (be16 (rx.data.getD 5 0) (rx.data.getD 6 0)))
    else none
  else none

/-- An acknowledgement that is pending, or nothing. -/
def noted (pending : Bool) (a : Ack) : Multiset Ack := if pending then {a} else 0

/-- What the pending variables record. -/
def Client.recorded (c : Client) : Multiset Ack :=
  noted c.pubackPending (.puback c.pubackTid c.pubackMid)
    + noted c.pubrecPending (.pubrec c.pubrecMid)
    + noted c.pubcompPending (.pubcomp c.pubcompMid)

/-- A packet that this is owed for takes the place of an acknowledgement that is still pending. -/
def Client.overwrites (c : Client) : Option Ack → Bool
  | none => false
  | some (.puback _ _) => c.pubackPending
  | some (.pubrec _) => c.pubrecPending || c.pubcompPending
  | some (.pubcomp _) => c.pubcompPending

/-- The acknowledgements that are lost to it. -/
def Client.overwritten (c : Client) : Option Ack → Multiset Ack
  | none => 0
  | some (.puback _ _) => noted c.pubackPending (.puback c.pubackTid c.pubackMid)
  | some (.pubrec _) =>
    noted c.pubrecPending (.pubrec c.pubrecMid) + noted c.pubcompPending (.pubcomp c.pubcompMid)
  | some (.pubcomp _) => noted c.pubcompPending (.pubcomp c.pubcompMid)

theorem noted_eq_zero {pending : Bool} {a : Ack} : noted pending a = 0 ↔ pending = false := by
  cases pending with
  | false => exact ⟨fun _ ↦ rfl, fun _ ↦ rfl⟩
  | true => exact ⟨fun h ↦ absurd h (Multiset.singleton_ne_zero a), nofun⟩

theorem overwritten_eq_zero {c : Client} {owed : Option Ack} :
    c.overwritten owed = 0 ↔ c.overwrites owed = false := by
  rcases owed with _ | (⟨tid, mid⟩ | mid | mid)
  · exact ⟨fun _ ↦ rfl, fun _ ↦ rfl⟩
  · exact noted_eq_zero
  · rw [Client.overwritten, Client.overwrites, add_eq_zero, noted_eq_zero, noted_eq_zero,
      Bool.or_eq_false_iff]
  · exact noted_eq_zero

/-! ## One packet -/

/-- What is owed, as a part of the books. -/
def owedFor (owed : Option Ack) : Multiset Ack := (owed.toList : Multiset Ack)

/-- What becomes of the pending acknowledgements when one more is owed. -/
def Client.note (c : Client) : Option Ack → Client
  | none => c
  | some (.puback tid mid) => { c with pubackPending := true, pubackTid := tid, pubackMid := mid }
  | some (.pubrec mid) =>
      { c with pubrecPending := true, pubrecMid := mid, pubcompPending := false }
  | some (.pubcomp mid) => { c with pubcompPending := true, pubcompMid := mid }

/-- **The books of one acknowledgement**: what it is noted over is lost. -/
theorem recorded_note (c : Client) (owed : Option Ack) :
    c.recorded + owedFor owed = (c.note owed).recorded + c.overwritten owed := by
  rcases owed with _ | (⟨tid, mid⟩ | mid | mid)
  · rfl
  · simp only [Client.recorded, Client.note, Client.overwritten, owedFor, noted, Option.toList_some,
      Multiset.coe_singleton, if_true]
    ac_rfl
  · simp only [Client.recorded, Client.note, Client.overwritten, owedFor, noted, Option.toList_some,
      Multiset.coe_singleton, if_true, Bool.false_eq_true, if_false, add_zero]
    ac_rfl
  · simp only [Client.recorded, Client.note, Client.overwritten, owedFor, noted, Option.toList_some,
      Multiset.coe_singleton, if_true]
    ac_rfl

theorem recorded_handlePublish (c : Client) {rx : Rx} (h : rx.Is MQTTSN_MSG_TYPE_PUBLISH) :
    (handlePublish c rx.data rx.length).1.recorded = (c.note rx.owes).recorded := by
  have hrel : MQTTSN_MSG_TYPE_PUBLISH ≠ MQTTSN_MSG_TYPE_PUBREL := by decide
  rw [handlePublish, Rx.owes, if_neg h.1, h.2, if_neg hrel]
  by_cases hshort : rx.length < 7
  · rw [if_pos hshort, if_neg fun h ↦ h.2 hshort]
    rfl
  rw [if_neg hshort, if_pos ⟨rfl, hshort⟩]
  dsimp only
  split_ifs
  · rfl
  · rfl
  · rfl

/-- A packet that nothing is owed for is neither a PUBREL nor a PUBLISH of QoS 1 or 2. -/
theorem owes_of_not_is {rx : Rx} (hrel : ¬rx.Is MQTTSN_MSG_TYPE_PUBREL)
    (hpub : ¬rx.Is MQTTSN_MSG_TYPE_PUBLISH) : rx.owes = none := by
  rw [Rx.owes]
  split
  · rfl
  · rename_i hlen
    rw [if_neg fun h ↦ hrel ⟨hlen, h⟩, if_neg fun h ↦ hpub ⟨hlen, h.1⟩]

/-- **A packet is noted in the pending variables**, and changes nothing else there. -/
theorem recorded_udpRecv (c : Client) (rx : Rx) :
    (udpRecvCallbackArduino c rx).1.recorded = (c.note rx.owes).recorded := by
  by_cases hrel : rx.Is MQTTSN_MSG_TYPE_PUBREL
  · have howes : rx.owes = some (.pubcomp (be16 (rx.data.getD 2 0) (rx.data.getD 3 0))) := by
      rw [Rx.owes, if_neg hrel.1, if_pos hrel.2]
    have hack : isQosAck MQTTSN_MSG_TYPE_PUBREL = false := by decide
    rw [howes, udpRecvCallbackArduino, if_neg hrel.1, hrel.2, hack, Bool.and_false]
    rfl
  by_cases hpub : rx.Is MQTTSN_MSG_TYPE_PUBLISH
  · have hack : isQosAck MQTTSN_MSG_TYPE_PUBLISH = false := by decide
    rw [← recorded_handlePublish c hpub, udpRecvCallbackArduino, if_neg hpub.1, hpub.2, hack,
      Bool.and_false]
    rfl
  rw [owes_of_not_is hrel hpub]
  exact udpRecv_rule (P := fun r ↦ r.1.recorded = c.recorded) rfl (fun _ ↦ rfl)
    (fun _ ↦ rfl) (fun _ ↦ rfl) (fun _ ↦ rfl) (fun _ ↦ rfl) (fun h ↦ absurd h hrel)
    (fun h ↦ absurd h hpub) fun _ ↦ rfl

/-! ## What is sent -/

theorem acksSent_append (as bs : List Action) :
    acksSent (as ++ bs) = acksSent as + acksSent bs := by
  rw [acksSent, List.filterMap_append]
  rfl

theorem acksSent_eq_zero {as : List Action} (h : ∀ a ∈ as, a.buffer.bind Ack.ofPacket = none) :
    acksSent as = 0 := by
  rw [acksSent, List.filterMap_eq_nil_iff.mpr h]
  rfl

theorem ofPacket_of_type {buf : List UInt8}
    (h : isQosAck (buf.getD 1 0) = false) : Ack.ofPacket buf = none := by
  have hnot : ¬(buf.getD 1 0 = MQTTSN_MSG_TYPE_PUBACK ∨ buf.getD 1 0 = MQTTSN_MSG_TYPE_PUBREC ∨
      buf.getD 1 0 = MQTTSN_MSG_TYPE_PUBCOMP) := by
    rw [← isQosAck_iff, h]
    exact Bool.false_ne_true
  obtain ⟨hpuback, hother⟩ := not_or.mp hnot
  obtain ⟨hpubrec, hpubcomp⟩ := not_or.mp hother
  rw [Ack.ofPacket, if_neg fun h ↦ hpuback h.1, if_neg hpubrec, if_neg hpubcomp]

theorem ofPacket_take_publish (topicId : UInt16) (payload : List UInt8) (qos : ℤ) (msgId : UInt16)
    (k : ℕ) : Ack.ofPacket ((publishPacket topicId payload qos msgId).take k) = none := by
  refine ofPacket_of_type ?_
  rcases type_take_publishPacket topicId payload qos msgId k with h | h
  · rw [h]
    decide
  · rw [h]
    decide

/-- **A packet makes the client send no acknowledgement.** -/
theorem acksSent_udpRecv (c : Client) (rx : Rx) : acksSent (udpRecvCallbackArduino c rx).2 = 0 := by
  refine acksSent_eq_zero fun a ha ↦ ?_
  rcases actions_udpRecv c rx a ha with ⟨mid, rfl⟩ | ⟨msg, rfl⟩
  · rfl
  · rfl

theorem acksSent_publishAuto (c : Client) (topicId : UInt16) (payload : List UInt8) (qos : ℤ)
    (now : UInt32) (ok : Bool) :
    acksSent (mqttSnPublishTopicIdAuto c topicId payload qos now ok).2 = 0 := by
  refine acksSent_eq_zero fun a ha ↦ ?_
  rw [actions_publish ha]
  exact ofPacket_take_publish ..

theorem acksSent_checkQosTimeouts (c : Client) (now : UInt32) (ok : Bool) :
    acksSent (checkQosTimeouts c now ok).2 = 0 := by
  refine acksSent_eq_zero fun a ha ↦ ?_
  obtain ⟨i, -, ha⟩ := exists_of_mem_checkQosTimeouts ha
  rw [resend] at ha
  split at ha
  · rw [actions_publish ha]
    exact ofPacket_take_publish ..
  · rw [List.mem_singleton.mp ha]
    rfl

theorem ofPacket_request (e : TopicEntry) (mid : UInt16) : Ack.ofPacket (request e mid) = none := by
  rw [request]
  split
  · rfl
  · rfl

@[simp] theorem ofPacket_pubackPacket (tid mid : UInt16) :
    Ack.ofPacket (pubackPacket tid mid MQTTSN_RETURN_ACCEPTED) = some (.puback tid mid) := by
  simp [Ack.ofPacket, pubackPacket]

@[simp] theorem ofPacket_pubrecPacket (mid : UInt16) :
    Ack.ofPacket (pubrecPacket mid) = some (.pubrec mid) := by
  simp [Ack.ofPacket, pubrecPacket, show MQTTSN_MSG_TYPE_PUBREC ≠ MQTTSN_MSG_TYPE_PUBACK by decide]

@[simp] theorem ofPacket_pubcompPacket (mid : UInt16) :
    Ack.ofPacket (pubcompPacket mid) = some (.pubcomp mid) := by
  simp [Ack.ofPacket, pubcompPacket,
    show MQTTSN_MSG_TYPE_PUBCOMP ≠ MQTTSN_MSG_TYPE_PUBACK by decide,
    show MQTTSN_MSG_TYPE_PUBCOMP ≠ MQTTSN_MSG_TYPE_PUBREC by decide]

theorem acksSent_send (buf : List UInt8) : acksSent [.send buf] = owedFor (Ack.ofPacket buf) := by
  have hbind : (Action.send buf).buffer.bind Ack.ofPacket = Ack.ofPacket buf := rfl
  rw [acksSent, List.filterMap_cons, List.filterMap_nil, hbind]
  cases Ack.ofPacket buf with
  | none => rfl
  | some a => rfl

/-! ## The moments of `loop` -/

section Moments

variable (clientId : List UInt8)

/-- What is owed for the packet of a moment. -/
def Moment.owes (s : Sketch) (e : Moment) : Option Ack := (e.packet s).bind Rx.owes

theorem acks_processTopicRegistrations {c : Client} {now : UInt32} {reply : Option Rx}
    (h : asksForTopic c now = true → reply = none) :
    acksSent (mqttSnProcessTopicRegistrations c now reply).2 = 0 ∧
      (mqttSnProcessTopicRegistrations c now reply).1.recorded = c.recorded := by
  rcases mqttSnProcessTopicRegistrations_eq c now reply with ⟨-, heq⟩ | ⟨i, mid, hasks, heq⟩
  · rw [heq]
    exact ⟨rfl, rfl⟩
  · rw [heq, h hasks]
    refine ⟨?_, rfl⟩
    change acksSent [.send _] = 0
    rw [acksSent_send, ofPacket_request]
    rfl

theorem acks_sendPuback {c : Client} (h : c.pubackPending = true) :
    acksSent (sendPuback c).2 + (sendPuback c).1.recorded = c.recorded := by
  rw [sendPuback, acksSent_send, ofPacket_pubackPacket, Client.recorded, Client.recorded, h]
  dsimp only [noted, owedFor, Option.toList_some, Multiset.coe_singleton]
  rw [if_pos rfl, if_neg Bool.false_ne_true, zero_add, add_assoc]

theorem acks_sendPubrec {c : Client} (h : c.pubrecPending = true) :
    acksSent (sendPubrec c).2 + (sendPubrec c).1.recorded = c.recorded := by
  rw [sendPubrec, acksSent_send, ofPacket_pubrecPacket, Client.recorded, Client.recorded, h]
  dsimp only [noted, owedFor, Option.toList_some, Multiset.coe_singleton]
  rw [if_pos rfl, if_neg Bool.false_ne_true, add_zero, ← add_assoc,
    add_comm {Ack.pubrec c.pubrecMid}]

theorem acks_sendPubcomp {c : Client} (h : c.pubcompPending = true) :
    acksSent (sendPubcomp c).2 + (sendPubcomp c).1.recorded = c.recorded := by
  rw [sendPubcomp, acksSent_send, ofPacket_pubcompPacket, Client.recorded, Client.recorded, h]
  dsimp only [noted, owedFor, Option.toList_some, Multiset.coe_singleton]
  rw [if_pos rfl, if_neg Bool.false_ne_true, add_zero, add_comm]

theorem acks_publishAuto (c : Client) (topicId : UInt16) (payload : List UInt8) (qos : ℤ)
    (now : UInt32) (ok : Bool) :
    acksSent (mqttSnPublishTopicIdAuto c topicId payload qos now ok).2
      + (mqttSnPublishTopicIdAuto c topicId payload qos now ok).1.recorded = c.recorded := by
  rw [acksSent_publishAuto, zero_add, mqttSnPublishTopicIdAuto, mqttSnPublishTopicId]
  dsimp only
  split
  · rfl
  split
  · rfl
  split
  · rfl
  split
  · rfl
  · rfl

/-- A branch of `loop` in which no packet comes sends what it takes out of the pending variables. -/
theorem acks_loopSwitch {s : Sketch} {x : Inputs} (h : (Moment.iterate x).packet s = none) :
    acksSent (loopSwitch clientId s x).2 + (loopSwitch clientId s x).1.client.recorded
      = s.client.recorded := by
  have hpass : ∀ c, c.recorded = s.client.recorded →
      (asksForTopic c x.regNow = true → x.reply = none) →
      acksSent (mqttSnProcessTopicRegistrations c x.regNow x.reply).2
        + (mqttSnProcessTopicRegistrations c x.regNow x.reply).1.recorded = s.client.recorded := by
    intro c hc hnone
    obtain ⟨hsent, hsame⟩ := acks_processTopicRegistrations hnone
    rw [hsent, hsame, zero_add, hc]
  rw [Moment.packet] at h
  refine loopSwitch_rule clientId
    (P := fun r ↦ acksSent r.2 + r.1.recorded = s.client.recorded) (zero_add _) (fun _ ↦ zero_add _)
    (fun hstate hping ↦ ?_) (fun hstate hack hwaiting ↦ ?_) (fun _ hr ↦ hr) acks_sendPuback
    acks_sendPubrec acks_sendPubcomp (acks_publishAuto ..) (fun _ ↦ acks_publishAuto ..) ?_
  · rw [hstate, hping, Bool.true_and] at h
    obtain ⟨v, hv⟩ := addAllTopics_eq s.client
    refine hpass _ (by rw [hv]; rfl) fun hasks ↦ ?_
    rw [if_pos hasks] at h
    exact h
  · rw [hstate, hack, hwaiting] at h
    refine hpass _ rfl fun hasks ↦ ?_
    rw [hasks] at h
    exact h
  · rw [acksSent_checkQosTimeouts, zero_add]
    rfl

/-- **The books of a moment**: what is owed is sent, recorded or overwritten. -/
theorem acks_exec (s : Sketch) (e : Moment) :
    s.client.recorded + owedFor (e.owes s)
      = acksSent (s.exec clientId e).2 + (s.exec clientId e).1.client.recorded
        + s.client.overwritten (e.owes s) := by
  rcases e with rx | x
  · have hsent : acksSent (s.exec clientId (.receive rx)).2 = 0 := acksSent_udpRecv s.client rx
    have hnoted :
        (s.exec clientId (.receive rx)).1.client.recorded = (s.client.note rx.owes).recorded :=
      recorded_udpRecv s.client rx
    rw [hsent, hnoted, zero_add]
    exact recorded_note s.client rx.owes
  · rw [Moment.owes]
    cases hpacket : (Moment.iterate x).packet s with
    | none =>
      refine (add_zero _).trans (Eq.trans ?_ (add_zero _).symm)
      exact (acks_loopSwitch clientId hpacket).symm
    | some rx =>
      obtain ⟨c, i, mid, hc, hactions, hclient⟩ := loopSwitch_of_packet clientId hpacket
      have hsame : c.recorded = s.client.recorded ∧
          c.overwritten rx.owes = s.client.overwritten rx.owes := by
        rcases hc with rfl | rfl
        · exact ⟨rfl, rfl⟩
        · obtain ⟨v, hv⟩ := addAllTopics_eq s.client
          rw [hv]
          exact ⟨rfl, rfl⟩
      have hsent : acksSent (loopSwitch clientId s x).2 = 0 := by
        rw [hactions, ← List.singleton_append, acksSent_append, acksSent_send, ofPacket_request,
          acksSent_udpRecv]
        rfl
      have hnoted : (loopSwitch clientId s x).1.client.recorded
          = ((attempt c i x.regNow).note rx.owes).recorded := by
        rw [← recorded_udpRecv]
        rcases hclient with heq | heq
        · rw [heq]
        · rw [heq]
          rfl
      change s.client.recorded + owedFor rx.owes = acksSent (loopSwitch clientId s x).2
        + (loopSwitch clientId s x).1.client.recorded + s.client.overwritten rx.owes
      rw [hsent, hnoted, zero_add, ← hsame.1, ← hsame.2]
      exact recorded_note (attempt c i x.regNow) rx.owes

/-! ## The books -/

/-- The sketch, and the acknowledgements that were owed and sent so far. -/
structure Books where
  sketch : Sketch
  owed : Multiset Ack
  sent : Multiset Ack

/-- What is recorded at first is owed. -/
def Books.opening (s : Sketch) : Books := ⟨s, s.client.recorded, 0⟩

def Books.next (b : Books) (e : Moment) : Books where
  sketch := b.sketch.step clientId e
  owed := b.owed + owedFor (e.owes b.sketch)
  sent := b.sent + acksSent (b.sketch.exec clientId e).2

/-- **No owed acknowledgement is dropped**: what is owed has been sent, or is recorded. -/
def Books.Balanced (b : Books) : Prop := b.owed = b.sent + b.sketch.client.recorded

instance (b : Books) : Decidable b.Balanced :=
  inferInstanceAs (Decidable (b.owed = b.sent + b.sketch.client.recorded))

/-- The packet of a moment overwrites no pending acknowledgement. -/
def Books.NothingOverwritten (b : Books) (e : Moment) : Prop :=
  b.sketch.client.overwrites (e.owes b.sketch) = false

theorem balanced_opening (s : Sketch) : (Books.opening s).Balanced := (zero_add _).symm

/-- A moment keeps the books balanced in which nothing is overwritten, and no other. -/
theorem balanced_next {b : Books} (h : b.Balanced) (e : Moment) :
    (b.next clientId e).Balanced ↔ b.NothingOverwritten e := by
  have hbooks := acks_exec clientId b.sketch e
  have howed : (b.next clientId e).owed
      = (b.next clientId e).sent + (b.next clientId e).sketch.client.recorded
        + b.sketch.client.overwritten (e.owes b.sketch) := by
    calc b.owed + owedFor (e.owes b.sketch)
        = b.sent + (b.sketch.client.recorded + owedFor (e.owes b.sketch)) := by
          rw [h, add_assoc]
      _ = b.sent + (acksSent (b.sketch.exec clientId e).2
            + (b.sketch.exec clientId e).1.client.recorded
            + b.sketch.client.overwritten (e.owes b.sketch)) := by
          rw [hbooks]
      _ = b.sent + acksSent (b.sketch.exec clientId e).2
            + (b.sketch.exec clientId e).1.client.recorded
            + b.sketch.client.overwritten (e.owes b.sketch) := by
          rw [← add_assoc, ← add_assoc]
  rw [Books.Balanced, howed, Books.NothingOverwritten, ← overwritten_eq_zero]
  exact add_eq_left

/-- **The acknowledgements of the Arduino**: at every point what is owed has been sent or is
recorded, in exactly those runs in which no packet overwrites a pending acknowledgement. -/
theorem balanced_iff (s : Sketch) (es : List Moment) :
    Trace.Always (Books.next clientId) (fun b e ↦ (b.next clientId e).Balanced) (.opening s) es ↔
      Trace.Always (Books.next clientId) Books.NothingOverwritten (.opening s) es :=
  Trace.always_iff_always (P := Books.Balanced)
    (fun _ e h ↦ balanced_next clientId h e)
    (fun _ e h he ↦ (balanced_next clientId h e).mpr he)
    (balanced_opening s)

end Moments

/-- A command of QoS 1 to the third topic of the sketch. -/
def command (msgId : UInt16) : Rx := ⟨publishPacket 3 (cstr "led on") 1 msgId, 13, 0⟩

/-- The endpoint registers its topics, and then two commands come in one poll. -/
def twoCommands : List Moment :=
  registers.flatMap Inputs.moments ++ [.receive (command 1), .receive (command 2)]

/-- **The first PUBACK is dropped**: the second command of the poll takes its place. -/
theorem second_command_drops_puback :
    (Trace.run (Sketch.step (cstr "arduino-04")) setup twoCommands).state = .ready ∧
      ¬Trace.Always (Books.next (cstr "arduino-04"))
        (fun b e ↦ (b.next (cstr "arduino-04") e).Balanced) (.opening setup) twoCommands := by
  refine ⟨by decide +kernel, fun h ↦ ?_⟩
  rw [twoCommands, List.append_cons] at h
  have hlast := h.at
  revert hlast
  decide +kernel

end Emcs.Arduino
