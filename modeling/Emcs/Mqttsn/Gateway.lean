import Emcs.Mqttsn.Wire

/-!
# A gateway that gives every topic name one id

What the gateway reads in a packet of a client, and which acknowledgements are answers to it: a
REGACK or SUBACK with the message id of the request and the topic id of its name. The channel may
delay, reorder, lose and duplicate, so an acknowledgement that arrives is the answer to any request
sent before.
-/

namespace Emcs.Mqttsn

open Bytes

/-- The ids the gateway gives to topic names. -/
abbrev Assignment := List UInt8 → UInt16

/-- Topics are numbered by the length of their names. -/
def byLength : Assignment := fun topicName ↦ UInt16.ofNat topicName.length

/-- A REGISTER (`sender`) or SUBSCRIBE as the gateway reads it. -/
structure Request where
  sender : Bool
  mid : UInt16
  topicName : List UInt8
  deriving DecidableEq

/-- The gateway reads a packet. -/
def Request.parse (buf : List UInt8) : Option Request :=
  if buf.getD 1 0 = MQTTSN_MSG_TYPE_REGISTER then
    some ⟨true, be16 (buf.getD 4 0) (buf.getD 5 0), buf.drop 6⟩
  else if buf.getD 1 0 = MQTTSN_MSG_TYPE_SUBSCRIBE then
    some ⟨false, be16 (buf.getD 3 0) (buf.getD 4 0), buf.drop 5⟩
  else none

/-- The packet answers the request, with any return code. -/
def Request.answeredBy (assign : Assignment) (r : Request) (data : List UInt8) (len : ℕ) : Bool :=
  if r.sender then
    len == 7 && data.take 7 == regackPacket (assign r.topicName) r.mid (data.getD 6 0)
  else
    len == 8 && data.take 8
      == subackPacket (data.getD 2 0) (assign r.topicName) r.mid (data.getD 7 0)

/-- The packet can arrive when these requests have been sent: it is an answer to one of them, or
neither a REGACK nor a SUBACK. -/
def deliverable (assign : Assignment) (requests : List Request) (data : List UInt8) (len : ℕ) :
    Bool :=
  (data.getD 1 0 != MQTTSN_MSG_TYPE_REGACK && data.getD 1 0 != MQTTSN_MSG_TYPE_SUBACK) ||
    requests.any fun r ↦ r.answeredBy assign data len

/-! ## Requests on the wire -/

theorem parse_registerPacket (mid : UInt16) (topicName : List UInt8) :
    Request.parse (registerPacket mid topicName) = some ⟨true, mid, topicName⟩ := by
  have hmid : be16 (hi8 mid) (lo8 mid) = mid := be16_hi8_lo8 mid
  have htype : (registerPacket mid topicName).getD 1 0 = MQTTSN_MSG_TYPE_REGISTER := rfl
  rw [Request.parse, if_pos htype]
  exact congrArg some (congrArg (fun m ↦ (⟨true, m, topicName⟩ : Request)) hmid)

theorem parse_subscribePacket (qos : UInt8) (mid : UInt16) (topicName : List UInt8) :
    Request.parse (subscribePacket qos mid topicName) = some ⟨false, mid, topicName⟩ := by
  have hmid : be16 (hi8 mid) (lo8 mid) = mid := be16_hi8_lo8 mid
  have htype : (subscribePacket qos mid topicName).getD 1 0 = MQTTSN_MSG_TYPE_SUBSCRIBE := rfl
  have hnot : MQTTSN_MSG_TYPE_SUBSCRIBE ≠ MQTTSN_MSG_TYPE_REGISTER := by decide
  rw [← htype] at hnot
  rw [Request.parse, if_neg hnot, if_pos htype]
  exact congrArg some (congrArg (fun m ↦ (⟨false, m, topicName⟩ : Request)) hmid)

theorem getD_of_take {l p : List UInt8} {n k : ℕ} (h : l.take n = p) (hk : k < n) :
    l.getD k 0 = p.getD k 0 := by
  rw [← h]
  simp [hk]

/-- No part of a PUBLISH is a request. -/
theorem parse_publishPacket (topicId : UInt16) (payload : List UInt8) (qos : ℤ) (msgId : UInt16)
    (k : ℕ) : Request.parse ((publishPacket topicId payload qos msgId).take k) = none := by
  have htype :
      ((publishPacket topicId payload qos msgId).take k).getD 1 0 = MQTTSN_MSG_TYPE_PUBLISH ∨
      ((publishPacket topicId payload qos msgId).take k).getD 1 0 = 0 := by
    by_cases hk : 1 < k
    · exact Or.inl (getD_of_take rfl hk).symm
    · refine Or.inr ?_
      rw [List.getD_eq_getElem?_getD, List.getElem?_eq_none, Option.getD_none]
      exact Nat.le_trans (List.length_take_le _ _) (Nat.not_lt.mp hk)
  rw [Request.parse]
  rcases htype with h | h
  · rw [h]
    rfl
  · rw [h]
    rfl

/-! ## Answers -/

variable {assign : Assignment} {r : Request} {data : List UInt8} {len : ℕ}

/-- **A REGACK shows what it answers.** -/
theorem Request.answeredBy_regack (h : r.answeredBy assign data len = true)
    (hsender : r.sender = true) :
    data.getD 1 0 = MQTTSN_MSG_TYPE_REGACK ∧
      be16 (data.getD 2 0) (data.getD 3 0) = assign r.topicName ∧
      be16 (data.getD 4 0) (data.getD 5 0) = r.mid := by
  rw [Request.answeredBy, if_pos hsender, Bool.and_eq_true, beq_iff_eq, beq_iff_eq] at h
  have hbyte := fun (k : ℕ) (hk : k < 7) ↦ getD_of_take h.2 hk
  refine ⟨hbyte 1 (by decide), ?_, ?_⟩
  · rw [hbyte 2 (by decide), hbyte 3 (by decide)]
    exact be16_hi8_lo8 (assign r.topicName)
  · rw [hbyte 4 (by decide), hbyte 5 (by decide)]
    exact be16_hi8_lo8 r.mid

/-- **A SUBACK shows what it answers.** -/
theorem Request.answeredBy_suback (h : r.answeredBy assign data len = true)
    (hsender : r.sender = false) :
    data.getD 1 0 = MQTTSN_MSG_TYPE_SUBACK ∧
      be16 (data.getD 3 0) (data.getD 4 0) = assign r.topicName ∧
      be16 (data.getD 5 0) (data.getD 6 0) = r.mid := by
  rw [Request.answeredBy, hsender, if_neg Bool.false_ne_true, Bool.and_eq_true, beq_iff_eq,
    beq_iff_eq] at h
  have hbyte := fun (k : ℕ) (hk : k < 8) ↦ getD_of_take h.2 hk
  refine ⟨hbyte 1 (by decide), ?_, ?_⟩
  · rw [hbyte 3 (by decide), hbyte 4 (by decide)]
    exact be16_hi8_lo8 (assign r.topicName)
  · rw [hbyte 5 (by decide), hbyte 6 (by decide)]
    exact be16_hi8_lo8 r.mid

theorem exists_of_deliverable {requests : List Request}
    (h : deliverable assign requests data len = true)
    (hack : data.getD 1 0 = MQTTSN_MSG_TYPE_REGACK ∨ data.getD 1 0 = MQTTSN_MSG_TYPE_SUBACK) :
    ∃ r ∈ requests, r.answeredBy assign data len = true := by
  rw [deliverable, Bool.or_eq_true, Bool.and_eq_true, bne_iff_ne, bne_iff_ne, List.any_eq_true] at h
  rcases h with ⟨h₁, h₂⟩ | hans
  · exact absurd hack (not_or.mpr ⟨h₁, h₂⟩)
  · exact hans

end Emcs.Mqttsn
