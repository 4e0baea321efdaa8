import Emcs.Mqttsn.LifeCycle
import Emcs.Pico.Effects
import Mathlib.Data.List.Basic

/-!
# Pending messages of the Pico client

The client publishes, receives packets and checks for timeouts, in any order and at any times, each
run to completion. What these do to the table is what may happen to a pending message; payloads of
up to 248 bytes are stored and sent whole.
-/

namespace Emcs.Pico

open Mqttsn

/-- A call that concerns the pending messages. -/
inductive QosEvent where
  | publish (topicId : UInt16) (payload : List UInt8) (qos : ℤ) (ok : Bool) (now : ℕ)
  | receive (rx : Rx)
  | checkTimeouts (now : ℕ) (stamp : ℕ → ℕ) (ok : RetryEntry → Bool)
  | setDropAcks (drop : Bool)

def Client.exec (c : Client) : QosEvent → Client × List Action
  | .publish topicId payload qos ok now => mqttSnPublishTopicIdAuto c topicId payload qos ok now
  | .receive rx => udpRecvCallback c rx
  | .checkTimeouts now stamp ok => checkQosTimeouts c now stamp ok
  | .setDropAcks drop => ({ c with dropAcks := drop }, [])

/-- The buffer that the action hands to the network. -/
def Action.buffer : Action → Option (List UInt8)
  | .send buf _ => some buf
  | .led _ => none

/-- The longest payload of a PUBLISH. -/
def MAX_PAYLOAD : ℕ := 248

def QosEvent.kind (c : Client) : QosEvent → Kind
  | .publish topicId payload qos _ _ => .publish ⟨topicId, payload, qos, (publishId c qos).1⟩
  | .receive rx =>
    if rx.len < MQTTSN_HEADER_SIZE ∨ c.dropAcks = true then .other else .ofPacket rx.data
  | .checkTimeouts _ _ _ => .check
  | .setDropAcks _ => .other

/-- What is sent for a slot that is copied to `retry_list`. -/
def resendBuffers (ok : RetryEntry → Bool) (m : QosMsg ℕ) : List (List UInt8) :=
  ((RetryEntry.copy m).resend (ok (RetryEntry.copy m))).filterMap Action.buffer

/-- What the check sends for slot `i`. -/
def QosEvent.resent (c : Client) : QosEvent → Fin MAX_PENDING_QOS_MSGS → List (List UInt8)
  | .checkTimeouts now stamp ok, i =>
    if (c.pendingMsgs[i].retry (qosExpired now) (stamp i)).2 then
      resendBuffers ok (c.pendingMsgs[i].retry (qosExpired now) (stamp i)).1
    else []
  | _, _ => []

theorem sent_checkTimeouts (c : Client) (now : ℕ) (stamp : ℕ → ℕ) (ok : RetryEntry → Bool) :
    (checkQosTimeouts c now stamp ok).2.filterMap Action.buffer
      = (List.finRange MAX_PENDING_QOS_MSGS).flatMap
        (QosEvent.resent c (.checkTimeouts now stamp ok)) := by
  rw [checkQosTimeouts, snapshot, List.filterMap_flatMap, List.filterMap_eq_flatMap_toList,
    List.flatMap_assoc, Slots.toList_eq_map, List.flatMap_map]
  congr 1
  funext i
  rw [QosEvent.resent, retrySlots, Slots.getElem_fin, Vector.getElem_ofFn]
  generalize c.pendingMsgs[i].retry (qosExpired now) (stamp i) = r
  cases r.2
  · rfl
  · exact List.append_nil _

/-- The Pico client as one that has a table of pending messages. -/
def sender : Sender Client QosEvent ℕ MAX_PENDING_QOS_MSGS where
  step c e := (c.exec e).1
  sent c e := (c.exec e).2.filterMap Action.buffer
  slots := Client.pendingMsgs
  kind c e := e.kind c
  resent c e := e.resent c
  sent_check := by
    intro c e hkind
    cases e with
    | publish => exact nomatch hkind
    | receive rx =>
      change (if _ then _ else _) = Kind.check at hkind
      split at hkind
      · exact nomatch hkind
      · exact absurd hkind (Kind.ofPacket_ne_check rx.data)
    | checkTimeouts now stamp ok => exact sent_checkTimeouts c now stamp ok
    | setDropAcks => exact nomatch hkind

/-! ## What the events do to a slot -/

/-- A PUBLISH that fits is handed to the network whole. -/
theorem transmit_of_fits {p : Publish} (hqos : 0 ≤ p.qos ∧ p.qos ≤ 2)
    (hfits : p.payload.length ≤ MAX_PAYLOAD) (ok : Bool) :
    p.transmit ok = [.send (publishPacket p.topicId p.payload p.qos p.msgId) ok] := by
  have hsize : p.payload.length ≤ 248 := hfits
  have hlen : p.packetLen = MQTTSN_PUBLISH_HEADER_LEN + p.payload.length := by
    change (7 + p.payload.length) % 65536 = 7 + p.payload.length
    omega
  have hmax : MQTTSN_PUBLISH_HEADER_LEN + p.payload.length ≤ MQTTSN_MAX_PACKET_LEN := by
    change 7 + p.payload.length ≤ 255
    omega
  have haccepted : p.accepted = true := by
    rw [Publish.accepted, decide_eq_true hqos.1, decide_eq_true hqos.2, hlen, decide_eq_true hmax]
    rfl
  rw [Publish.transmit, if_pos haccepted, hlen,
    take_publishPacket p.topicId p.qos p.msgId (Nat.le_refl _)]

theorem slotStep_publish (c : Client) (topicId : UInt16) (payload : List UInt8) (qos : ℤ)
    (ok : Bool) (now : ℕ) (i : Fin MAX_PENDING_QOS_MSGS) :
    SlotStep MAX_PAYLOAD (.publish ⟨topicId, payload, qos, (publishId c qos).1⟩)
      ((mqttSnPublishTopicIdAuto c topicId payload qos ok now).2.filterMap Action.buffer)
      c.pendingMsgs[i] (mqttSnPublishTopicIdAuto c topicId payload qos ok now).1.pendingMsgs[i]
      [] := by
  rw [mqttSnPublishTopicIdAuto, mqttSnPublishTopicId]
  dsimp only
  split
  · rename_i htracked
    have hqos := qos_of_tracked htracked
    refine .ofPublish ⟨topicId, payload, qos, (publishId c qos).1⟩ now c.pendingMsgs i hqos
      fun hfits ↦ ⟨List.take_of_length_le (Nat.le_trans hfits (by decide)), ?_⟩
    rw [transmit_of_fits ⟨Int.le_of_lt hqos.1, hqos.2⟩ hfits]
    rfl
  · exact .kept

/-- For a slot its PUBLISH is sent again, or in step 1 of QoS 2 its PUBREL. -/
theorem resends_resendBuffers (ok : RetryEntry → Bool) {m : QosMsg ℕ} (hqos : m.qos = 1 ∨ m.qos = 2)
    (hfits : m.payload.length ≤ MAX_PAYLOAD) :
    ∃ buf, resendBuffers ok m = [buf] ∧ Resends m m.packet buf := by
  have hvalid : 0 ≤ (m.qos.toNat : ℤ) ∧ (m.qos.toNat : ℤ) ≤ 2 := by
    rcases hqos with hone | htwo
    · rw [hone]
      decide
    · rw [htwo]
      decide
  have htransmit := fun b ↦ transmit_of_fits (p := ⟨m.topicId, m.payload, m.qos.toNat, m.msgId⟩)
    hvalid hfits b
  have hne : (2 : UInt8) ≠ 1 := by decide
  rw [resendBuffers, RetryEntry.resend, RetryEntry.copy]
  dsimp only
  rcases hqos with hone | htwo
  · refine ⟨m.packet, ?_, Or.inl ⟨rfl, fun htwo ↦ absurd (htwo.symm.trans hone) hne⟩⟩
    rw [if_pos hone, htransmit]
    rfl
  · rw [if_neg (htwo ▸ hne), if_pos htwo, htransmit]
    split
    · exact ⟨m.packet, rfl, Or.inl ⟨rfl, fun _ ↦ ‹_›⟩⟩
    · exact ⟨pubrelPacket m.msgId, rfl, Or.inr ⟨rfl, ‹_›⟩⟩

theorem lawful_sender : sender.Lawful MAX_PAYLOAD := by
  intro c e i
  cases e with
  | publish topicId payload qos ok now => exact slotStep_publish c topicId payload qos ok now i
  | receive rx =>
    change SlotStep _ (if _ then _ else _) _ _ (udpRecvCallback c rx).1.pendingMsgs[i] []
    rw [pendingMsgs_udpRecv, Rx.onPending]
    split
    · exact .kept
    · exact .ofPacket rx.data (rx.clock 0) c.pendingMsgs i
  | checkTimeouts now stamp ok =>
    change SlotStep _ .check _ _ (snapshot c now stamp).1.pendingMsgs[i] _
    rw [get_snapshot]
    exact .ofCheck (qosExpired now) (stamp i) c.pendingMsgs[i] (resendBuffers ok)
      fun hqos hfits ↦ resends_resendBuffers ok hqos hfits
  | setDropAcks drop => exact .kept

end Emcs.Pico
