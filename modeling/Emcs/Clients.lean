import Emcs.Arduino.Publishing
import Emcs.Pico.LifeCycle
import Emcs.Pico.Publishing

/-!
# Pending messages of both clients

The clients have the same table of pending messages and different loops around it. The life of a
message is the same on both, for payloads that the client stores and sends whole. So is what a
PUBACK says about the gateway: both clients look at its message id and not at its return code.

## One theorem for both

Each statement is a conjunction over the two clients. The proofs are instances: of the rule of
tenures for the life of a message, and of the rule for clients that keep books for the PUBACK. What
differs between the clients (slots, clocks, payload sizes, retransmission) has been dealt with where
each of them is shown to be an instance.
-/

namespace Emcs

open Mqttsn

/-! ## The life of a message -/

/-- **The life of a pending message**, on the Arduino and on the Pico. -/
theorem pending_life_cycle :
    (∀ es, Trace.Always Arduino.sender.step (Arduino.sender.Fits Arduino.MQTTSN_RETRY_PAYLOAD_SIZE)
        Arduino.Client.boot es → Arduino.sender.LifeCycle Arduino.Client.boot es) ∧
      ∀ es, Trace.Always Pico.sender.step (Pico.sender.Fits Pico.MAX_PAYLOAD) Pico.Client.boot es →
        Pico.sender.LifeCycle Pico.Client.boot es :=
  ⟨fun _ hfits ↦ Arduino.lawful_sender.lifeCycle (Sender.not_busy_of_free rfl rfl) hfits,
    fun _ hfits ↦ Pico.lawful_sender.lifeCycle (Sender.not_busy_of_free rfl rfl) hfits⟩

/-- On the Arduino a message of QoS 2 is sent again, received and sent again. -/
def arduinoRun : List Arduino.QosEvent :=
  [.publish 1 (cstr "on") 2 0 true, .checkTimeouts 10000 true,
    .receive ⟨pubrecPacket 1, 5, 11000⟩, .checkTimeouts 21000 true]

/-- On the Pico so is one between two of QoS 1, one of which is acknowledged. -/
def picoRun : List Pico.QosEvent :=
  [.publish 1 (cstr "a") 1 true 0, .publish 1 (cstr "b") 2 true 0, .publish 1 (cstr "c") 1 true 0,
    .checkTimeouts 2000001 (fun _ ↦ 2000001) fun _ ↦ true,
    .receive ⟨pubrecPacket 2, 5, fun _ ↦ 2100000, true⟩,
    .receive ⟨pubackPacket 1 3 0, 7, fun _ ↦ 2100000, true⟩,
    .checkTimeouts 4200000 (fun _ ↦ 4200000) fun _ ↦ true]

theorem pending_life_cycle_runs : Arduino.sender.LifeCycle Arduino.Client.boot arduinoRun ∧
    Pico.sender.LifeCycle Pico.Client.boot picoRun :=
  ⟨pending_life_cycle.1 arduinoRun (by decide +kernel),
    pending_life_cycle.2 picoRun (by decide +kernel)⟩

/-! ## At least once -/

/-- **A PUBACK frees a slot of QoS 1 only when the gateway has accepted its publish**, in the runs
in which no PUBACK that comes for a slot is a rejection, or has an id that was used twice. -/
theorem accepted_when_freed (clientId : List UInt8) (loops : List (Turn Arduino.Moment))
    (turns : List (Turn Pico.Event)) :
    (Trace.Always (Arduino.publisher clientId).next (Arduino.publisher clientId).NotRejected
        (.boot Arduino.setup) loops →
      Trace.Always (Arduino.publisher clientId).next (Arduino.publisher clientId).AcceptedWhenFreed
        (.boot Arduino.setup) loops) ∧
    (Trace.Always Pico.publisher.next Pico.publisher.NotRejected (.boot ⟨Pico.Client.boot, .idle⟩)
        turns →
      Trace.Always Pico.publisher.next Pico.publisher.AcceptedWhenFreed
        (.boot ⟨Pico.Client.boot, .idle⟩) turns) := by
  constructor
  · intro hloops
    exact (Arduino.keeps_publisher clientId).accepted hloops
  · intro hturns
    exact Pico.keeps_publisher.accepted hturns

/-- A call of `loop` at `now` in which nothing is received. -/
def quiet (now : UInt32) : Arduino.Inputs := { Arduino.receiving none none with now := now }

/-- The endpoint registers its topics and publishes its first reading of QoS 1, which the gateway
answers. -/
def arduinoTurns (returnCode : UInt8) : List (Turn Arduino.Moment) :=
  ((Arduino.registers ++ [quiet 0, quiet 10000, quiet 20000, quiet 30000]).flatMap
      Arduino.Inputs.moments).map .client ++
    [.answer ⟨publishPacket 1 (cstr "arduino-04 1") 1 5, returnCode⟩]

def arduinoPuback (returnCode : UInt8) : Turn Arduino.Moment :=
  .client (.receive ⟨pubackPacket 1 5 returnCode, 7, 0⟩)

/-- So does the Pico, to a topic with id 5. -/
def picoTurns (returnCode : UInt8) : List (Turn Pico.Event) :=
  [.client (.publish 5 (cstr "on") 1 true), .client (.store 0),
    .answer ⟨publishPacket 5 (cstr "on") 1 1, returnCode⟩]

def picoPuback (returnCode : UInt8) : Turn Pico.Event :=
  .client (.receive ⟨pubackPacket 5 1 returnCode, 7, fun _ ↦ 1000, true⟩)

theorem accepted_when_freed_first :
    Trace.Always (Arduino.publisher (cstr "arduino-04")).next
        (Arduino.publisher (cstr "arduino-04")).AcceptedWhenFreed (.boot Arduino.setup)
        (arduinoTurns 0 ++ [arduinoPuback 0]) ∧
      Trace.Always Pico.publisher.next Pico.publisher.AcceptedWhenFreed
        (.boot ⟨Pico.Client.boot, .idle⟩) (picoTurns 0 ++ [picoPuback 0]) := by
  obtain ⟨harduino, hpico⟩ := accepted_when_freed (cstr "arduino-04")
    (arduinoTurns 0 ++ [arduinoPuback 0]) (picoTurns 0 ++ [picoPuback 0])
  exact ⟨harduino (by decide +kernel), hpico (by decide +kernel)⟩

/-- **The gateway rejects the publish**, and the slot is freed all the same. -/
theorem rejection_frees :
    ¬Trace.Always (Arduino.publisher (cstr "arduino-04")).next
        (Arduino.publisher (cstr "arduino-04")).AcceptedWhenFreed (.boot Arduino.setup)
        (arduinoTurns 2 ++ [arduinoPuback 2]) ∧
      ¬Trace.Always Pico.publisher.next Pico.publisher.AcceptedWhenFreed
        (.boot ⟨Pico.Client.boot, .idle⟩) (picoTurns 2 ++ [picoPuback 2]) := by
  constructor
  · intro h
    exact Publisher.not_acceptedWhenFreed rfl (by decide +kernel) rfl ⟨0, by decide⟩
      (by decide +kernel)
      (by decide +kernel) (by decide +kernel) h.at
  · intro h
    exact Publisher.not_acceptedWhenFreed rfl (by decide +kernel) rfl ⟨0, by decide⟩
      (by decide +kernel)
      (by decide +kernel) (by decide +kernel) h.at

end Emcs
