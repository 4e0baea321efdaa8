import Emcs.Lib.Trace
import Emcs.Mqttsn.Gateway
import Emcs.Mqttsn.LifeCycle

/-!
# A client that publishes and a gateway that answers

The gateway answers a PUBLISH with a PUBACK: it accepts the message, or rejects it with a return
code. The channel may lose, duplicate and reorder in both directions, so the gateway may receive
anything sent before, and what arrives at the client is the answer to any PUBLISH received before.

A client keeps books of its publishes: what it holds and what it sends stands for a call of publish.
From that follows what a PUBACK that frees a slot says about the gateway, as long as the PUBACK does
not carry a rejection, and the message id does not stand for two publishes.

## The invariant

`Sound` ties the world together: what the client holds stands for one of its calls (the books of the
client), what is on the air was sent for one of them, and what the gateway has answered was on the
air. A PUBACK that arrives leads from its answer to a PUBLISH, from there to a call, and by its
message id to the slot it frees. The id leads to the right call only where it was drawn for one
publish; that is the second half of the condition.
-/

namespace Emcs.Mqttsn

open Bytes

/-! ## The gateway -/

/-- The gateway reads the packet as a PUBLISH. -/
def isPublish (buf : List UInt8) : Bool :=
  decide (MQTTSN_PUBLISH_HEADER_LEN ≤ buf.length) && buf.getD 1 0 == MQTTSN_MSG_TYPE_PUBLISH

def publishTid (buf : List UInt8) : UInt16 := be16 (buf.getD 3 0) (buf.getD 4 0)

def publishMid (buf : List UInt8) : UInt16 := be16 (buf.getD 5 0) (buf.getD 6 0)

/-- A PUBLISH that the gateway has received, and the return code with which it answers. -/
structure Answer where
  publish : List UInt8
  returnCode : UInt8
  deriving DecidableEq

def Answer.packet (a : Answer) : List UInt8 :=
  pubackPacket (publishTid a.publish) (publishMid a.publish) a.returnCode

/-- The largest return code: accepted, or one of three rejections. -/
def MAX_RETURN_CODE : UInt8 := 3

/-- The packet can arrive when the gateway has given these answers. -/
def arrives (answers : List Answer) (data : List UInt8) : Bool :=
  data.getD 1 0 != MQTTSN_MSG_TYPE_PUBACK || answers.any fun a ↦ data.take 7 == a.packet

theorem exists_answer {answers : List Answer} {data : List UInt8} (h : arrives answers data = true)
    (htype : data.getD 1 0 = MQTTSN_MSG_TYPE_PUBACK) :
    ∃ a ∈ answers, be16 (data.getD 4 0) (data.getD 5 0) = publishMid a.publish ∧
      data.getD 6 0 = a.returnCode := by
  rw [arrives, htype, bne_self_eq_false, Bool.false_or, List.any_eq_true] at h
  obtain ⟨a, ha, hdata⟩ := h
  have hbyte := fun (k : ℕ) (hk : k < 7) ↦ getD_of_take (beq_iff_eq.mp hdata) hk
  refine ⟨a, ha, ?_, hbyte 6 (by decide)⟩
  rw [hbyte 4 (by decide), hbyte 5 (by decide)]
  exact be16_hi8_lo8 (publishMid a.publish)

/-! ## Calls and packets -/

/-- The buffer is a PUBLISH of the call, with the whole payload or the beginning of it. -/
def Call.Sends (call : Call) (buf : List UInt8) : Prop :=
  ∃ payload k, payload <+: call.payload ∧
    buf = (publishPacket call.topicId payload call.qos call.msgId).take k

/-- The slot holds the message of the call. -/
structure Call.Stores {τ : Type} (call : Call) (m : QosMsg τ) : Prop where
  msgId : m.msgId = call.msgId
  topicId : m.topicId = call.topicId
  qos : (m.qos.toNat : ℤ) = call.qos
  payload : m.payload <+: call.payload

/-- **A PUBLISH shows the message id of its call.** -/
theorem Call.Sends.mid {call : Call} {buf : List UInt8} (h : call.Sends buf)
    (hbuf : isPublish buf = true) (hmid : publishMid buf ≠ 0) : publishMid buf = call.msgId := by
  obtain ⟨payload, k, -, rfl⟩ := h
  rw [isPublish, Bool.and_eq_true, decide_eq_true_iff] at hbuf
  have hk : 7 ≤ k := Nat.le_trans hbuf.1 (List.length_take_le _ _)
  have hbyte := fun (j : ℕ) (hj : j < 7) ↦ getD_of_take
    (l := publishPacket call.topicId payload call.qos call.msgId) rfl (Nat.lt_of_lt_of_le hj hk)
  rw [publishMid, ← hbyte 5 (by decide), ← hbyte 6 (by decide)] at hmid ⊢
  change be16 (if call.qos > 0 then hi8 call.msgId else 0)
    (if call.qos > 0 then lo8 call.msgId else 0) ≠ 0 at hmid
  change be16 (if call.qos > 0 then hi8 call.msgId else 0)
    (if call.qos > 0 then lo8 call.msgId else 0) = call.msgId
  by_cases hqos : call.qos > 0
  · rw [if_pos hqos, if_pos hqos]
    exact be16_hi8_lo8 call.msgId
  · rw [if_neg hqos, if_neg hqos] at hmid
    exact absurd (by decide) hmid

/-- A PUBLISH with a message id is one of these calls. -/
def Covered (calls : List Call) (buf : List UInt8) : Prop :=
  isPublish buf = true → publishMid buf ≠ 0 → ∃ call ∈ calls, call.Sends buf

theorem Covered.append {calls : List Call} {buf : List UInt8} (h : Covered calls buf)
    (calls' : List Call) : Covered (calls ++ calls') buf := by
  intro hpub hmid
  obtain ⟨call, hcall, hsends⟩ := h hpub hmid
  exact ⟨call, List.mem_append_left _ hcall, hsends⟩

theorem covered_of_type (calls : List Call) {buf : List UInt8}
    (h : buf.getD 1 0 ≠ MQTTSN_MSG_TYPE_PUBLISH) : Covered calls buf := by
  intro hpub
  rw [isPublish, beq_false_of_ne h, Bool.and_false] at hpub
  exact absurd hpub Bool.false_ne_true

theorem Call.Sends.covered {calls : List Call} {call : Call} {buf : List UInt8}
    (h : call.Sends buf) (hcall : call ∈ calls) : Covered calls buf :=
  fun _ _ ↦ ⟨call, hcall, h⟩

theorem covered_of_qos0 (calls : List Call) (topicId : UInt16) (payload : List UInt8)
    (msgId : UInt16) (k : ℕ) : Covered calls ((publishPacket topicId payload 0 msgId).take k) := by
  intro hpub hmid
  have hsends :
      (⟨topicId, payload, 0, 0⟩ : Call).Sends ((publishPacket topicId payload 0 0).take k) :=
    ⟨payload, k, List.prefix_refl _, rfl⟩
  exact absurd (hsends.mid hpub hmid) hmid

/-- A PUBACK frees a slot by its message id, which is not zero. -/
theorem of_freed_onPacket {τ : Type} {n : ℕ} {data : List UInt8} {now : τ}
    {v : Vector (QosMsg τ) n} {i : Fin n} (htype : data.getD 1 0 = MQTTSN_MSG_TYPE_PUBACK)
    (huse : v[i].inUse = true) (hfree : (onPacket data now v)[i].inUse = false) :
    v[i].msgId = be16 (data.getD 4 0) (data.getD 5 0) ∧ v[i].msgId ≠ 0 := by
  have hid : finishedId data = some (be16 (data.getD 4 0) (data.getD 5 0)) := by
    rw [finishedId, if_pos htype]
  have hremove : onPacket data now v = removePending (be16 (data.getD 4 0) (data.getD 5 0)) v := by
    rw [onPacket, hid]
  rw [hremove] at hfree
  rcases get_removePending (be16 (data.getD 4 0) (data.getD 5 0)) v i with heq | ⟨-, hmid, -⟩
  · rw [heq, huse] at hfree
    exact absurd hfree.symm Bool.false_ne_true
  · refine ⟨hmid, fun hzero ↦ ?_⟩
    rw [removePending, if_pos (hmid.symm.trans hzero), huse] at hfree
    exact absurd hfree.symm Bool.false_ne_true

/-! ## Slots that stand for calls -/

section Known

variable {τ : Type} {n : ℕ} {calls : List Call} {v v' : Vector (QosMsg τ) n}

/-- Every message that is held is the message of a call. -/
def Known (calls : List Call) (v : Vector (QosMsg τ) n) : Prop :=
  ∀ i : Fin n, v[i].inUse = true → ∃ call ∈ calls, call.Stores v[i]

theorem Known.append (h : Known calls v) (calls' : List Call) : Known (calls ++ calls') v := by
  intro i huse
  obtain ⟨call, hcall, hstores⟩ := h i huse
  exact ⟨call, List.mem_append_left _ hcall, hstores⟩

/-- Slots may be freed, and change what does not belong to the call. -/
theorem Known.slots (h : Known calls v) (hslot : ∀ i : Fin n, v'[i].inUse = true →
    v[i].inUse = true ∧ v'[i].msgId = v[i].msgId ∧ v'[i].topicId = v[i].topicId ∧
      v'[i].qos = v[i].qos ∧ v'[i].payload = v[i].payload) : Known calls v' := by
  intro i huse
  obtain ⟨hold, hid, htid, hqos, hpayload⟩ := hslot i huse
  obtain ⟨call, hcall, hstores⟩ := h i hold
  exact ⟨call, hcall, hid.trans hstores.msgId, htid.trans hstores.topicId, hqos ▸ hstores.qos,
    hpayload ▸ hstores.payload⟩

theorem Known.onPacket (h : Known calls v) (data : List UInt8) (now : τ) :
    Known calls (onPacket data now v) := by
  refine h.slots fun i huse ↦ ?_
  rcases get_onPacket data now v i with heq | ⟨-, -, heq⟩ | ⟨hold, -, -, heq⟩
  · rw [heq] at huse ⊢
    exact ⟨huse, rfl, rfl, rfl, rfl⟩
  · rw [heq] at huse
    exact absurd huse Bool.false_ne_true
  · rw [heq]
    exact ⟨hold, rfl, rfl, rfl, rfl⟩

theorem Known.retry (h : Known calls v) (expired : τ → Bool) (now : Fin n → τ)
    (hv : ∀ i : Fin n, v'[i] = (v[i].retry expired (now i)).1) : Known calls v' := by
  refine h.slots fun i huse ↦ ?_
  rw [hv] at huse ⊢
  obtain ⟨hold, _, _, heq⟩ := QosMsg.of_inUse_retry huse
  rw [heq]
  exact ⟨hold, rfl, rfl, rfl, rfl⟩

/-- A publish stores the message of its call. -/
theorem Known.store (h : Known calls v) {call : Call} (hcall : call ∈ calls)
    (hqos : 0 < call.qos ∧ call.qos ≤ 2) (now : τ) (k : ℕ) :
    Known calls (storePending ⟨call.msgId, UInt8.ofNat call.qos.toNat, 0, now, 0, call.topicId,
      call.payload.take k, true⟩ v) := by
  intro i
  rcases get_storePending ⟨call.msgId, UInt8.ofNat call.qos.toNat, 0, now, 0,
      call.topicId, call.payload.take k, true⟩ v i with heq | ⟨-, heq⟩
  · rw [heq]
    exact h i
  · rw [heq]
    refine fun _ ↦ ⟨call, hcall, rfl, rfl, ?_, List.take_prefix _ _⟩
    have hcases : call.qos = 1 ∨ call.qos = 2 := by omega
    rcases hcases with hone | htwo
    · rw [hone]
      rfl
    · rw [htwo]
      rfl

theorem known_of_free (calls : List Call) {m : QosMsg τ} (hfree : m.inUse = false) :
    Known calls (Vector.replicate n m) := by
  intro i huse
  rw [Slots.getElem_fin, Vector.getElem_replicate] at huse
  exact absurd (hfree.symm.trans huse) Bool.false_ne_true

end Known

/-! ## The client -/

/-- A client that publishes: its step function, what goes out in a step, its pending messages, the
call of publish with QoS 1 or 2 that it makes, and the packet that it handles. -/
structure Publisher (σ ε τ : Type) (n : ℕ) where
  step : σ → ε → σ
  sent : σ → ε → List (List UInt8)
  slots : σ → Vector (QosMsg τ) n
  call : σ → ε → Option Call
  packet : σ → ε → Option (List UInt8)

variable {σ ε τ : Type} {n : ℕ}

/-- The client with what has happened: the calls of publish, what the client has sent, and the
answers of the gateway. -/
structure World (σ : Type) where
  client : σ
  calls : List Call
  air : List (List UInt8)
  answers : List Answer

def World.boot (s₀ : σ) : World σ := ⟨s₀, [], [], []⟩

/-- The client takes a step, or the gateway answers. -/
inductive Turn (ε : Type) where
  | client (e : ε)
  | answer (a : Answer)

namespace Publisher

variable (P : Publisher σ ε τ n)

/-- A PUBACK that the client handles has been sent, and the gateway answers what it can have
received. Other turns do not take place. -/
def next (w : World σ) : Turn ε → World σ
  | .client e =>
    if (P.packet w.client e).all (arrives w.answers) then
      ⟨P.step w.client e, w.calls ++ (P.call w.client e).toList, w.air ++ P.sent w.client e,
        w.answers⟩
    else w
  | .answer a =>
    if a.publish ∈ w.air ∧ isPublish a.publish = true ∧ a.returnCode ≤ MAX_RETURN_CODE then
      { w with answers := w.answers ++ [a] }
    else w

/-- **At least once**: where a PUBACK frees a slot of QoS 1, the gateway has accepted its
publish. -/
def AcceptedWhenFreed (w : World σ) : Turn ε → Prop
  | .client e => (P.packet w.client e).all (arrives w.answers) = true →
    ∀ data ∈ P.packet w.client e, data.getD 1 0 = MQTTSN_MSG_TYPE_PUBACK →
    ∀ i : Fin n, (P.slots w.client)[i].inUse = true → (P.slots w.client)[i].qos = 1 →
      (P.slots (P.step w.client e))[i].inUse = false →
      ∃ call ∈ w.calls, call.Stores (P.slots w.client)[i] ∧
        ∃ a ∈ w.answers, a.returnCode = MQTTSN_RETURN_ACCEPTED ∧ call.Sends a.publish
  | .answer _ => True

/-- No PUBACK that is handled for a slot of QoS 1 is a rejection, or has an id that two publishes
had. -/
def NotRejected (w : World σ) : Turn ε → Prop
  | .client e => ∀ data ∈ P.packet w.client e, data.getD 1 0 = MQTTSN_MSG_TYPE_PUBACK →
    ∀ i : Fin n, (P.slots w.client)[i].inUse = true → (P.slots w.client)[i].qos = 1 →
      (P.slots w.client)[i].msgId = be16 (data.getD 4 0) (data.getD 5 0) →
      data.getD 6 0 = MQTTSN_RETURN_ACCEPTED ∧
        w.calls.countP (fun call ↦ call.msgId == (P.slots w.client)[i].msgId) ≤ 1
  | .answer _ => True

instance (w : World σ) : ∀ t : Turn ε, Decidable (P.NotRejected w t)
  | .client e => inferInstanceAs (Decidable (∀ data ∈ P.packet w.client e,
      data.getD 1 0 = MQTTSN_MSG_TYPE_PUBACK → ∀ i : Fin n, (P.slots w.client)[i].inUse = true →
      (P.slots w.client)[i].qos = 1 →
      (P.slots w.client)[i].msgId = be16 (data.getD 4 0) (data.getD 5 0) →
      data.getD 6 0 = MQTTSN_RETURN_ACCEPTED ∧
        w.calls.countP (fun call ↦ call.msgId == (P.slots w.client)[i].msgId) ≤ 1))
  | .answer _ => .isTrue trivial

/-- A client that keeps books: what it knows of its calls covers what it holds and what it sends. -/
structure Keeps (Books : List Call → σ → Prop) (s₀ : σ) : Prop where
  init : Books [] s₀
  step : ∀ {calls s} e, Books calls s → Books (calls ++ (P.call s e).toList) (P.step s e)
  sent : ∀ {calls s} e, Books calls s → ∀ buf ∈ P.sent s e,
    Covered (calls ++ (P.call s e).toList) buf
  slot : ∀ {calls s}, Books calls s → ∀ i : Fin n, (P.slots s)[i].inUse = true →
    ∃ call ∈ calls, call.Stores (P.slots s)[i]
  freed : ∀ s e, ∀ data ∈ P.packet s e, data.getD 1 0 = MQTTSN_MSG_TYPE_PUBACK →
    ∀ i : Fin n, (P.slots s)[i].inUse = true → (P.slots (P.step s e))[i].inUse = false →
    (P.slots s)[i].msgId = be16 (data.getD 4 0) (data.getD 5 0) ∧ (P.slots s)[i].msgId ≠ 0

/-! ## The rule -/

/-- What the client knows holds of the world. -/
structure Sound (Books : List Call → σ → Prop) (w : World σ) : Prop where
  books : Books w.calls w.client
  air : ∀ buf ∈ w.air, Covered w.calls buf
  answers : ∀ a ∈ w.answers, a.publish ∈ w.air ∧ isPublish a.publish = true

variable {P} {Books : List Call → σ → Prop} {s₀ : σ} {w : World σ}

theorem Sound.boot (h : P.Keeps Books s₀) : Sound Books (World.boot s₀) :=
  ⟨h.init, fun _ hbuf ↦ absurd hbuf List.not_mem_nil, fun _ ha ↦ absurd ha List.not_mem_nil⟩

/-- **A turn keeps the books sound.** -/
theorem Sound.next (h : P.Keeps Books s₀) (hw : Sound Books w) (t : Turn ε) :
    Sound Books (P.next w t) := by
  cases t with
  | client e =>
    rw [Publisher.next]
    split
    · refine ⟨h.step e hw.books, fun buf hbuf ↦ ?_, fun a ha ↦ ?_⟩
      · rcases List.mem_append.mp hbuf with hold | hnew
        · exact (hw.air buf hold).append _
        · exact h.sent e hw.books buf hnew
      · obtain ⟨hair, hpub⟩ := hw.answers a ha
        exact ⟨List.mem_append_left _ hair, hpub⟩
    · exact hw
  | answer a =>
    rw [Publisher.next]
    split
    · rename_i hreceived
      refine ⟨hw.books, hw.air, fun a' ha ↦ ?_⟩
      rcases List.mem_append.mp ha with hold | hnew
      · exact hw.answers a' hold
      · rw [List.mem_singleton.mp hnew]
        exact ⟨hreceived.1, hreceived.2.1⟩
    · exact hw

/-- A slot that a PUBACK frees in a world without an accepted publish. -/
theorem not_acceptedWhenFreed {e : ε} {data : List UInt8}
    (hpacket : P.packet w.client e = some data)
    (harrives : arrives w.answers data = true) (htype : data.getD 1 0 = MQTTSN_MSG_TYPE_PUBACK)
    (i : Fin n) (huse : (P.slots w.client)[i].inUse = true ∧ (P.slots w.client)[i].qos = 1)
    (hfree : (P.slots (P.step w.client e))[i].inUse = false)
    (hnone : ∀ a ∈ w.answers, a.returnCode ≠ MQTTSN_RETURN_ACCEPTED) :
    ¬P.AcceptedWhenFreed w (.client e) := by
  intro h
  have hall : (P.packet w.client e).all (arrives w.answers) = true := by
    rw [hpacket]
    exact harrives
  obtain ⟨-, -, -, a, ha, hcode, -⟩ := h hall data hpacket htype i huse.1 huse.2 hfree
  exact hnone a ha hcode

/-- Two calls with one message id are one call, where the id was used once. -/
theorem eq_of_countP_le {calls : List Call} {mid : UInt16}
    (h : calls.countP (fun call ↦ call.msgId == mid) ≤ 1) {call call' : Call} (hcall : call ∈ calls)
    (hcall' : call' ∈ calls) (hid : call.msgId = mid) (hid' : call'.msgId = mid) :
    call = call' := by
  rw [List.countP_eq_length_filter] at h
  have hmem : call ∈ calls.filter fun call ↦ call.msgId == mid :=
    List.mem_filter.mpr ⟨hcall, beq_iff_eq.mpr hid⟩
  have hmem' : call' ∈ calls.filter fun call ↦ call.msgId == mid :=
    List.mem_filter.mpr ⟨hcall', beq_iff_eq.mpr hid'⟩
  generalize calls.filter (fun call ↦ call.msgId == mid) = once at h hmem hmem'
  match once, h with
  | [], _ => exact absurd hmem List.not_mem_nil
  | [c], _ => exact (List.mem_singleton.mp hmem).trans (List.mem_singleton.mp hmem').symm

/-- **A PUBACK that is no rejection comes from a gateway that has accepted the publish.** -/
theorem Sound.accepted (h : P.Keeps Books s₀) (hw : Sound Books w) {t : Turn ε}
    (ht : P.NotRejected w t) : P.AcceptedWhenFreed w t := by
  cases t with
  | answer a => trivial
  | client e =>
    intro harrives data hdata htype i huse hqos hfreed
    obtain ⟨hid, hne⟩ := h.freed w.client e data hdata htype i huse hfreed
    obtain ⟨hcode, honce⟩ := ht data hdata htype i huse hqos hid
    obtain ⟨call, hcall, hstores⟩ := h.slot hw.books i huse
    -- the PUBACK answers a PUBLISH with the id of the slot
    have harrived : arrives w.answers data = true := by
      rw [Option.mem_def.mp hdata] at harrives
      exact harrives
    obtain ⟨a, ha, hmid, hreturn⟩ := exists_answer harrived htype
    obtain ⟨hair, hpub⟩ := hw.answers a ha
    have hmid' : publishMid a.publish = (P.slots w.client)[i].msgId := hmid.symm.trans hid.symm
    obtain ⟨call', hcall', hsends⟩ := hw.air a.publish hair hpub (hmid' ▸ hne)
    -- which stands for one call only
    have hsame : call' = call := eq_of_countP_le honce hcall' hcall
      ((hsends.mid hpub (hmid' ▸ hne)).symm.trans hmid') hstores.msgId.symm
    exact ⟨call, hcall, hstores, a, ha, hreturn.symm.trans hcode, hsame ▸ hsends⟩

/-- **At least once, for every client that keeps books**: in a run in which no PUBACK that comes for
a slot is a rejection or has an id that was used twice, a PUBACK frees a slot only when the gateway
has accepted the publish. -/
theorem Keeps.accepted (h : P.Keeps Books s₀) {turns : List (Turn ε)}
    (hturns : Trace.Always P.next P.NotRejected (World.boot s₀) turns) :
    Trace.Always P.next P.AcceptedWhenFreed (World.boot s₀) turns :=
  Trace.always_of_invariant (P := Sound Books) (fun _ t hw _ ↦ hw.next h t)
    (fun _ _ hw ht ↦ hw.accepted h ht) (Sound.boot h) hturns

end Publisher

end Emcs.Mqttsn
