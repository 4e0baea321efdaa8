import Emcs.Arduino.Effects
import Emcs.Mqttsn.Inbound
import Emcs.Pico.Effects

/-!
# Commands to the clients

Both clients act on the payload of a PUBLISH in its handler, the Arduino on its display and the Pico
with its LED, and keep no record of the message ids. The acknowledgements play no part in that:
those of the Arduino wait for the next call of `loop`.

## One theorem for both

Each client is a `Receiver`: what a packet is to it, and how often its handler acts on the payload.
The handlers act on every command they get, and remember nothing that the next packet could be
compared with. So the condition is about the sequence of the packets only, the same for both, and
independent of the state they start from.
-/

namespace Emcs

open Bytes Mqttsn

/-! ## The Arduino -/

namespace Arduino

/-- A PUBLISH of QoS 2 is shown whatever its payload is. -/
def Rx.inbound (rx : Rx) : Inbound :=
  if rx.length.toNat < MQTTSN_HEADER_SIZE then .other
  else if rx.data.getD 1 0 = MQTTSN_MSG_TYPE_PUBREL then
    .release (be16 (rx.data.getD 2 0) (rx.data.getD 3 0))
  else if rx.data.getD 1 0 = MQTTSN_MSG_TYPE_PUBLISH ∧ ¬rx.length < 7 ∧ publishQos rx.data = 2 then
    .command (publishMid rx.data)
  else .other

/-- The action is a call of `oledShowCmd`. -/
def Action.shows : Action → Bool
  | .showCmd _ => true
  | .send _ => false

theorem of_inbound_command {rx : Rx} {mid : UInt16} (h : rx.inbound = .command mid) :
    ¬rx.length.toNat < MQTTSN_HEADER_SIZE ∧ rx.data.getD 1 0 = MQTTSN_MSG_TYPE_PUBLISH ∧
      ¬rx.length < 7 := by
  rw [Rx.inbound] at h
  split_ifs at h with hlen hrel hpub
  exact ⟨hlen, hpub.1, hpub.2.1⟩

theorem udpRecv_of_publish {rx : Rx} (hlen : ¬rx.length.toNat < MQTTSN_HEADER_SIZE)
    (htype : rx.data.getD 1 0 = MQTTSN_MSG_TYPE_PUBLISH) (c : Client) :
    udpRecvCallbackArduino c rx = handlePublish c rx.data rx.length := by
  have hack : isQosAck MQTTSN_MSG_TYPE_PUBLISH = false := by decide
  rw [udpRecvCallbackArduino, if_neg hlen, htype, hack, Bool.and_false, if_neg Bool.false_ne_true]
  rfl

theorem shows_handlePublish (c : Client) (d : List UInt8) {length : UInt8} (h : ¬length < 7) :
    (handlePublish c d length).2.countP Action.shows = 1 := by
  rw [handlePublish, if_neg h]
  rfl

def receiver : Receiver Client Rx where
  handle c rx := (udpRecvCallbackArduino c rx).1
  acts c rx := (udpRecvCallbackArduino c rx).2.countP Action.shows
  kind := Rx.inbound
  acts_command c rx mid h := by
    obtain ⟨hlen, htype, hlong⟩ := of_inbound_command h
    rw [udpRecv_of_publish hlen htype]
    exact shows_handlePublish c rx.data hlong
  acts_publish c rx mid h := by
    rw [Rx.inbound] at h
    split_ifs at h

end Arduino

/-! ## The Pico -/

namespace Pico

/-- The payload of a PUBLISH, as its length byte has it. -/
def Rx.payload (rx : Rx) : List UInt8 := (rx.data.drop 7).take (rx.data.getD 0 0 - 7).toNat

/-- Two payloads are commands. -/
def Rx.inbound (rx : Rx) : Inbound :=
  if rx.len < MQTTSN_HEADER_SIZE then .other
  else if rx.data.getD 1 0 = MQTTSN_MSG_TYPE_PUBREL then
    .release (be16 (rx.data.getD 2 0) (rx.data.getD 3 0))
  else if rx.data.getD 1 0 = MQTTSN_MSG_TYPE_PUBLISH ∧ ¬rx.data.getD 0 0 < 7 ∧
      publishQos rx.data = 2 then
    if rx.payload = cstr "led on" ∨ rx.payload = cstr "led off" then .command (publishMid rx.data)
    else .publish (publishMid rx.data)
  else .other

/-- The action switches the LED. -/
def Action.switches : Action → Bool
  | .led _ => true
  | .send _ _ => false

theorem udpRecv_of_publish {rx : Rx} (hlen : ¬rx.len < MQTTSN_HEADER_SIZE)
    (htype : rx.data.getD 1 0 = MQTTSN_MSG_TYPE_PUBLISH) (c : Client) :
    udpRecvCallback c rx = (c, handlePublishReceived rx.data (rx.data.getD 0 0) rx.ok) := by
  have hack : isQosAck MQTTSN_MSG_TYPE_PUBLISH = false := by decide
  rw [udpRecvCallback, if_neg hlen, htype, hack, Bool.and_false, if_neg Bool.false_ne_true]
  rfl

/-- The handler switches the LED once for a command, and not for another payload. -/
theorem switches_handlePublish {rx : Rx} (h : ¬rx.data.getD 0 0 < 7) :
    (handlePublishReceived rx.data (rx.data.getD 0 0) rx.ok).countP Action.switches =
      if rx.payload = cstr "led on" ∨ rx.payload = cstr "led off" then 1 else 0 := by
  have hack : ∀ qos topicId msgId,
      (sendQosAck qos topicId msgId rx.ok).countP Action.switches = 0 := by
    intro qos topicId msgId
    rw [sendQosAck]
    split
    · rfl
    split <;> rfl
  rw [handlePublishReceived, if_neg h]
  change List.countP _ (_ ++ _) = _
  rw [List.countP_append, hack, Nat.add_zero, ← Rx.payload]
  by_cases hon : rx.payload = cstr "led on"
  · rw [if_pos hon, if_pos (Or.inl hon)]
    rfl
  by_cases hoff : rx.payload = cstr "led off"
  · rw [if_neg hon, if_pos hoff, if_pos (Or.inr hoff)]
    rfl
  · rw [if_neg hon, if_neg hoff, if_neg (not_or.mpr ⟨hon, hoff⟩)]
    rfl

def receiver : Receiver Client Rx where
  handle c rx := (udpRecvCallback c rx).1
  acts c rx := (udpRecvCallback c rx).2.countP Action.switches
  kind := Rx.inbound
  acts_command c rx mid h := by
    rw [Rx.inbound] at h
    split_ifs at h with hlen hrel hpub hcommand
    rw [udpRecv_of_publish hlen hpub.1, switches_handlePublish hpub.2.1, if_pos hcommand]
  acts_publish c rx mid h := by
    rw [Rx.inbound] at h
    split_ifs at h with hlen hrel hpub hcommand
    rw [udpRecv_of_publish hlen hpub.1, switches_handlePublish hpub.2.1, if_neg hcommand]

end Pico

/-! ## Exactly once -/

/-- **A client acts on a PUBLISH of QoS 2 at most once before its PUBREL** in exactly those
sequences of packets in which no command comes a second time before its PUBREL. -/
theorem acted_once_iff (a : Arduino.Client) (arduinoRxs : List Arduino.Rx) (p : Pico.Client)
    (picoRxs : List Pico.Rx) :
    (Trace.Always Arduino.receiver.receive Arduino.receiver.ActedOnce (.boot a) arduinoRxs ↔
      Trace.Always Arduino.receiver.receive Arduino.receiver.NotRepeated (.boot a) arduinoRxs) ∧
    (Trace.Always Pico.receiver.receive Pico.receiver.ActedOnce (.boot p) picoRxs ↔
      Trace.Always Pico.receiver.receive Pico.receiver.NotRepeated (.boot p) picoRxs) :=
  ⟨Arduino.receiver.actedOnce_iff a arduinoRxs, Pico.receiver.actedOnce_iff p picoRxs⟩

/-- A command of QoS 2 with message id 7. -/
def ledOn : List UInt8 := publishPacket 3 (cstr "led on") 2 7

def arduinoLedOn : Arduino.Rx := ⟨ledOn, 13, 0⟩

def picoLedOn : Pico.Rx := ⟨ledOn, 13, fun _ ↦ 0, true⟩

/-- **The gateway sends a command again** because it has seen no PUBREC, and both clients act on it
twice. -/
theorem retransmission_acts_twice :
    FromGateway [ledOn, ledOn] ∧
      ¬Trace.Always Arduino.receiver.receive Arduino.receiver.ActedOnce (.boot Arduino.Client.boot)
        [arduinoLedOn, arduinoLedOn] ∧
      ¬Trace.Always Pico.receiver.receive Pico.receiver.ActedOnce (.boot Pico.Client.boot)
        [picoLedOn, picoLedOn] := by
  refine ⟨⟨[.publish ledOn, .deliver ledOn, .publish ledOn, .deliver ledOn], by decide +kernel⟩,
    ?_, ?_⟩
  · intro h
    have htwice : (Arduino.receiver.receive (Arduino.receiver.receive (.boot Arduino.Client.boot)
        arduinoLedOn) arduinoLedOn).acted.count 7 = 2 := by decide +kernel
    exact absurd (htwice ▸ h.2.1 7) (by decide)
  · intro h
    have htwice : (Pico.receiver.receive (Pico.receiver.receive (.boot Pico.Client.boot)
        picoLedOn) picoLedOn).acted.count 7 = 2 := by decide +kernel
    exact absurd (htwice ▸ h.2.1 7) (by decide)

end Emcs
