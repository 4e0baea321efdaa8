import Emcs.Lib.Slots
import Emcs.Mqttsn.Wire

/-!
# The table of pending messages

`g_pending_msgs` of both clients: the publishes of QoS 1 and 2 that wait for their acknowledgement.
The clients differ in the number of slots, in the clock, in the time after which a message is sent
again and in what is sent then; the loops over the table are the same and stand here once.

## What the loops do

Storing takes the first free slot, removing frees every slot in use with the id, marking notes a
PUBREC in the first one with it, and a check goes over all slots. For each there is a lemma about
the slot at a place (`get_…`), which says that it stays, or what has become of it. Nothing is
removed under the id 0, which a message has that was published without one.
-/

namespace Emcs.Mqttsn

open Bytes

/-- `qos_msg_t`; `payload` is the valid part, so `payload_len` is its length. -/
structure QosMsg (τ : Type) where
  msgId : UInt16
  qos : UInt8
  step : UInt8
  timestamp : τ
  retryCount : UInt8
  topicId : UInt16
  payload : List UInt8
  inUse : Bool
  deriving DecidableEq

def QOS_MAX_RETRIES : UInt8 := 3

variable {τ : Type} {n : ℕ}

/-- The store loop of `mqtt_sn_publish_topic_id`: the first free slot. -/
def storePending (m : QosMsg τ) (v : Vector (QosMsg τ) n) : Vector (QosMsg τ) n :=
  match Slots.first (fun m ↦ !m.inUse) v with
  | none => v
  | some i => v.set i m i.isLt

/-- The loop of `remove_pending_qos_msg`: every slot with the id. -/
def removePending (msgId : UInt16) (v : Vector (QosMsg τ) n) : Vector (QosMsg τ) n :=
  if msgId = 0 then v
  else v.map fun m ↦ if m.inUse && m.msgId == msgId then { m with inUse := false } else m

/-- The loop of the PUBREC handler: the first slot with the id. -/
def markReceived (msgId : UInt16) (now : τ) (v : Vector (QosMsg τ) n) : Vector (QosMsg τ) n :=
  match Slots.first (fun m ↦ m.inUse && m.msgId == msgId) v with
  | none => v
  | some i => v.set i { v[i] with step := 1, timestamp := now } i.isLt

/-- The types that the `drop_acks` hooks of the clients drop. -/
def isQosAck (mt : UInt8) : Bool :=
  mt == MQTTSN_MSG_TYPE_PUBACK || mt == MQTTSN_MSG_TYPE_PUBREC || mt == MQTTSN_MSG_TYPE_PUBCOMP

/-- The message id of a PUBACK or PUBCOMP, which removes the message. -/
def finishedId (data : List UInt8) : Option UInt16 :=
  if data.getD 1 0 = MQTTSN_MSG_TYPE_PUBACK then some (be16 (data.getD 4 0) (data.getD 5 0))
  else if data.getD 1 0 = MQTTSN_MSG_TYPE_PUBCOMP then some (be16 (data.getD 2 0) (data.getD 3 0))
  else none

/-- The message id of a PUBREC. -/
def receivedId (data : List UInt8) : Option UInt16 :=
  if data.getD 1 0 = MQTTSN_MSG_TYPE_PUBREC then some (be16 (data.getD 2 0) (data.getD 3 0))
  else none

/-- What the handler of a packet does to the table. -/
def onPacket (data : List UInt8) (now : τ) (v : Vector (QosMsg τ) n) : Vector (QosMsg τ) n :=
  match finishedId data, receivedId data with
  | some mid, _ => removePending mid v
  | none, some mid => markReceived mid now v
  | none, none => v

/-- The loop body of `check_qos_timeouts`: the slot afterwards, and whether it is sent again. -/
def QosMsg.retry (expired : τ → Bool) (now : τ) (m : QosMsg τ) : QosMsg τ × Bool :=
  if !m.inUse then (m, false)
  else if !expired m.timestamp then (m, false)
  else if m.retryCount ≥ QOS_MAX_RETRIES then ({ m with inUse := false }, false)
  else ({ m with retryCount := m.retryCount + 1, timestamp := now }, true)

/-! ## One slot -/

theorem storePending_cases (m : QosMsg τ) (v : Vector (QosMsg τ) n) : storePending m v = v ∨
    ∃ i : Fin n, v[i].inUse = false ∧ storePending m v = v.set i m i.isLt := by
  rw [storePending]
  split
  · exact Or.inl rfl
  · rename_i i hi
    have hfree := Slots.of_first_eq_some hi
    rw [Bool.not_eq_true'] at hfree
    exact Or.inr ⟨i, hfree, rfl⟩

theorem get_storePending (m : QosMsg τ) (v : Vector (QosMsg τ) n) (i : Fin n) :
    (storePending m v)[i] = v[i] ∨ v[i].inUse = false ∧ (storePending m v)[i] = m := by
  rcases storePending_cases m v with heq | ⟨j, hfree, heq⟩
  · exact Or.inl (congrArg (fun v ↦ v[i]) heq)
  · rw [heq]
    by_cases hij : j = i
    · subst hij
      exact Or.inr ⟨hfree, Slots.get_set_self v j m⟩
    · exact Or.inl (Slots.get_set_of_ne v m hij)

theorem get_removePending (msgId : UInt16) (v : Vector (QosMsg τ) n) (i : Fin n) :
    (removePending msgId v)[i] = v[i] ∨ v[i].inUse = true ∧ v[i].msgId = msgId ∧
      (removePending msgId v)[i] = { v[i] with inUse := false } := by
  rw [removePending]
  split
  · exact Or.inl rfl
  · simp only [Slots.getElem_fin, Vector.getElem_map]
    split
    · rename_i h
      rw [Bool.and_eq_true, beq_iff_eq] at h
      exact Or.inr ⟨h.1, h.2, rfl⟩
    · exact Or.inl rfl

/-- The acknowledgement leaves the table as it is exactly if no message in use has its id. -/
theorem removePending_eq_self_iff {msgId : UInt16} {v : Vector (QosMsg τ) n} :
    removePending msgId v = v ↔
      ∀ i : Fin n, v[i].inUse = true → v[i].msgId = msgId → msgId = 0 := by
  constructor
  · intro h i huse hid
    by_contra hzero
    have hget := congrArg (fun v ↦ v[i].inUse) h
    rw [removePending, if_neg hzero] at hget
    simp only [Slots.getElem_fin, Vector.getElem_map] at hget huse hid
    rw [huse, hid, beq_self_eq_true, Bool.and_self, if_pos rfl] at hget
    exact absurd hget Bool.false_ne_true
  · intro h
    apply Vector.ext
    intro k hk
    rcases get_removePending msgId v ⟨k, hk⟩ with heq | ⟨huse, hid, -⟩
    · exact heq
    · rw [removePending, if_pos (h ⟨k, hk⟩ huse hid)]

/-- Two ids with the same effect have none: a slot holds one id only. -/
theorem removePending_eq_self_of_eq {msgId msgId' : UInt16} {v : Vector (QosMsg τ) n}
    (hne : msgId ≠ msgId') (h : removePending msgId v = removePending msgId' v) :
    removePending msgId v = v := by
  apply Vector.ext
  intro k hk
  rcases get_removePending msgId v ⟨k, hk⟩ with heq | ⟨-, hid, -⟩
  · exact heq
  · rcases get_removePending msgId' v ⟨k, hk⟩ with heq' | ⟨-, hid', -⟩
    · rw [h]
      exact heq'
    · exact absurd (hid.symm.trans hid') hne

theorem get_markReceived (msgId : UInt16) (now : τ) (v : Vector (QosMsg τ) n) (i : Fin n) :
    (markReceived msgId now v)[i] = v[i] ∨ v[i].inUse = true ∧ v[i].msgId = msgId ∧
      (markReceived msgId now v)[i] = { v[i] with step := 1, timestamp := now } := by
  rw [markReceived]
  split
  · exact Or.inl rfl
  · rename_i j hj
    by_cases hij : j = i
    · subst hij
      have h := Slots.of_first_eq_some hj
      rw [Bool.and_eq_true, beq_iff_eq] at h
      exact Or.inr ⟨h.1, h.2, Slots.get_set_self v j _⟩
    · exact Or.inl (Slots.get_set_of_ne v _ hij)

theorem isQosAck_iff {mt : UInt8} : isQosAck mt = true ↔ mt = MQTTSN_MSG_TYPE_PUBACK ∨
    mt = MQTTSN_MSG_TYPE_PUBREC ∨ mt = MQTTSN_MSG_TYPE_PUBCOMP := by
  rw [isQosAck, Bool.or_eq_true, Bool.or_eq_true, beq_iff_eq, beq_iff_eq, beq_iff_eq, or_assoc]

theorem onPacket_of_not_isQosAck {data : List UInt8}
    (h : ¬isQosAck (data.getD 1 0) = true) (now : τ)
    (v : Vector (QosMsg τ) n) : onPacket data now v = v := by
  rw [isQosAck_iff, not_or, not_or] at h
  rw [onPacket, finishedId, receivedId, if_neg h.1, if_neg h.2.1, if_neg h.2.2]

/-- A packet leaves a slot alone, frees it, or marks it as received, the latter two by its own
id. -/
theorem get_onPacket (data : List UInt8) (now : τ) (v : Vector (QosMsg τ) n) (i : Fin n) :
    (onPacket data now v)[i] = v[i] ∨
    (v[i].inUse = true ∧ finishedId data = some v[i].msgId ∧
      (onPacket data now v)[i] = { v[i] with inUse := false }) ∨
    (v[i].inUse = true ∧ finishedId data = none ∧ receivedId data = some v[i].msgId ∧
      (onPacket data now v)[i] = { v[i] with step := 1, timestamp := now }) := by
  rw [onPacket]
  cases hfinished : finishedId data with
  | some mid =>
    rcases get_removePending mid v i with heq | ⟨huse, rfl, heq⟩
    · exact Or.inl heq
    · exact Or.inr (Or.inl ⟨huse, rfl, heq⟩)
  | none =>
    cases hreceived : receivedId data with
    | some mid =>
      rcases get_markReceived mid now v i with heq | ⟨huse, rfl, heq⟩
      · exact Or.inl heq
      · exact Or.inr (Or.inr ⟨huse, rfl, rfl, heq⟩)
    | none => exact Or.inl rfl

theorem get_markReceived_of_unique {msgId : UInt16} (now : τ) {v : Vector (QosMsg τ) n} {i : Fin n}
    (huse : v[i].inUse = true) (hid : v[i].msgId = msgId)
    (hunique : ∀ j : Fin n, v[j].inUse = true → v[j].msgId = msgId → j = i) :
    (markReceived msgId now v)[i] = { v[i] with step := 1, timestamp := now } := by
  obtain ⟨j, hj⟩ := Slots.exists_first (p := fun m : QosMsg τ ↦ m.inUse && m.msgId == msgId)
    (v := v) (i := i) (by rw [huse, hid, beq_self_eq_true, Bool.true_and])
  have hmatch := Slots.of_first_eq_some hj
  rw [Bool.and_eq_true, beq_iff_eq] at hmatch
  obtain rfl := hunique j hmatch.1 hmatch.2
  rw [markReceived, hj]
  exact Slots.get_set_self v j _

/-- **What a timeout check does to a slot**: nothing, the end after the last retry, or a retry. -/
theorem QosMsg.retry_cases (expired : τ → Bool) (now : τ) (m : QosMsg τ) :
    m.retry expired now = (m, false) ∨
    (m.inUse = true ∧ QOS_MAX_RETRIES ≤ m.retryCount ∧
      m.retry expired now = ({ m with inUse := false }, false)) ∨
    (m.inUse = true ∧ m.retryCount < QOS_MAX_RETRIES ∧
      m.retry expired now =
        ({ m with retryCount := m.retryCount + 1, timestamp := now }, true)) := by
  rw [QosMsg.retry]
  cases huse : m.inUse
  · exact Or.inl rfl
  cases expired m.timestamp
  · exact Or.inl rfl
  by_cases hmax : m.retryCount ≥ QOS_MAX_RETRIES
  · refine Or.inr (Or.inl ⟨rfl, hmax, ?_⟩)
    simp [hmax]
  · refine Or.inr (Or.inr ⟨rfl, UInt8.not_le.mp hmax, ?_⟩)
    simp [hmax]

section Retry

variable {expired : τ → Bool} {now : τ} {m : QosMsg τ}

theorem QosMsg.of_inUse_retry (h : (m.retry expired now).1.inUse = true) :
    m.inUse = true ∧ ∃ count time,
      (m.retry expired now).1 = { m with retryCount := count, timestamp := time } := by
  rcases m.retry_cases expired now with heq | ⟨-, -, heq⟩ | ⟨huse, -, heq⟩
  · rw [heq] at h ⊢
    exact ⟨h, m.retryCount, m.timestamp, rfl⟩
  · rw [heq] at h
    exact absurd h Bool.false_ne_true
  · rw [heq]
    exact ⟨huse, _, _, rfl⟩

theorem QosMsg.inUse_retry (h : (m.retry expired now).2 = true) :
    (m.retry expired now).1.inUse = true := by
  rcases m.retry_cases expired now with heq | ⟨-, -, heq⟩ | ⟨huse, -, heq⟩
  · rw [heq] at h
    exact absurd h Bool.false_ne_true
  · rw [heq] at h
    exact absurd h Bool.false_ne_true
  · rw [heq]
    exact huse

end Retry

end Emcs.Mqttsn
