import Emcs.Lib.Tenure
import Emcs.Mqttsn.Pending

/-!
# The life of a pending message

What the table of pending messages is for, said of any client that has one. A slot is taken by a
publish. As long as it is held it keeps what was published, it counts what was sent again for it,
and it goes from waiting for a PUBREC to waiting for a PUBCOMP at most once. It is freed by an
acknowledgement with its own message id, or by a check after the last retry.

A client gives its steps, its table and what its events are to the table; `SlotStep` says what one
event may do to one slot. From that the life of a message follows by the rule of tenures.

## The construction

A tenure of a slot begins when a publish takes it and ends when it is free again. Within a tenure
the invariant is `Holds`: the slot has the topic, QoS, id and payload of its call, and its counter
is the number of buffers sent again. `Next` lists what the next event may do to it. Both are stated
for any number of slots and any clock, so each client has only to show that its events are among
those of `SlotStep`.
-/

namespace Emcs.Mqttsn

/-- A call of `mqtt_sn_publish_topic_id_auto`, with the message id that it draws. -/
structure Call where
  topicId : UInt16
  payload : List UInt8
  qos : ℤ
  msgId : UInt16

/-- The PUBLISH of the call. -/
def Call.packet (c : Call) : List UInt8 := publishPacket c.topicId c.payload c.qos c.msgId

/-- What an event is to the table: a publish, a PUBACK or PUBCOMP, a PUBREC, or a check. -/
inductive Kind where
  | publish (call : Call)
  | finish (mid : UInt16)
  | received (mid : UInt16)
  | check
  | other

/-- The message id that an event is about. -/
def Kind.mid : Kind → Option UInt16
  | .publish call => some call.msgId
  | .finish mid => some mid
  | .received mid => some mid
  | .check => none
  | .other => none

/-- The publish that an event is. -/
def Kind.call : Kind → Option Call
  | .publish call => some call
  | _ => none

/-- A packet that is handled, as the table sees it. -/
def Kind.ofPacket (data : List UInt8) : Kind :=
  match finishedId data, receivedId data with
  | some mid, _ => .finish mid
  | none, some mid => .received mid
  | none, none => .other

theorem Kind.ofPacket_ne_check (data : List UInt8) : Kind.ofPacket data ≠ .check := by
  rw [Kind.ofPacket]
  split <;> exact nofun

/-- A client with a table of pending messages: its step function, the buffers it hands to the
network in a step, and those of a check that are for a slot. -/
structure Sender (σ ε τ : Type) (n : ℕ) where
  step : σ → ε → σ
  sent : σ → ε → List (List UInt8)
  slots : σ → Vector (QosMsg τ) n
  kind : σ → ε → Kind
  resent : σ → ε → Fin n → List (List UInt8)
  sent_check : ∀ s e, kind s e = .check → sent s e = (List.finRange n).flatMap (resent s e)

variable {σ ε τ : Type} {n : ℕ}

/-! ## One event and one slot -/

/-- What is sent again for a slot is its PUBLISH, but not for QoS 2 after the PUBREC, or after the
PUBREC its PUBREL. -/
def Resends (m : QosMsg τ) (publish buf : List UInt8) : Prop :=
  buf = publish ∧ (m.qos = 2 → m.step = 0) ∨ buf = pubrelPacket m.msgId ∧ m.step ≠ 0

/-- The PUBLISH that a slot stands for. -/
def QosMsg.packet (m : QosMsg τ) : List UInt8 :=
  publishPacket m.topicId m.payload m.qos.toNat m.msgId

/-- What an event does to a slot, and what it sends again for it. A payload of at most `maxPayload`
bytes is stored and sent whole. -/
inductive SlotStep (maxPayload : ℕ) (kind : Kind) (sent : List (List UInt8)) (m : QosMsg τ) :
    QosMsg τ → List (List UInt8) → Prop
  | kept : SlotStep maxPayload kind sent m m []
  | taken (call : Call) (now : τ) (payload : List UInt8) (hfree : m.inUse = false)
      (hkind : kind = .publish call) (hqos : 0 < call.qos ∧ call.qos ≤ 2)
      (hfits : call.payload.length ≤ maxPayload → payload = call.payload ∧ sent = [call.packet]) :
      SlotStep maxPayload kind sent m
        ⟨call.msgId, UInt8.ofNat call.qos.toNat, 0, now, 0, call.topicId, payload, true⟩ []
  | finished (huse : m.inUse = true) (hkind : kind = .finish m.msgId) :
      SlotStep maxPayload kind sent m { m with inUse := false } []
  | received (now : τ) (huse : m.inUse = true) (hkind : kind = .received m.msgId) :
      SlotStep maxPayload kind sent m { m with step := 1, timestamp := now } []
  | expired (huse : m.inUse = true) (hkind : kind = .check)
      (hcount : QOS_MAX_RETRIES ≤ m.retryCount) :
      SlotStep maxPayload kind sent m { m with inUse := false } []
  | retried (now : τ) (resent : List (List UInt8)) (huse : m.inUse = true) (hkind : kind = .check)
      (hcount : m.retryCount < QOS_MAX_RETRIES)
      (hresent : m.qos = 1 ∨ m.qos = 2 → m.payload.length ≤ maxPayload →
        ∃ buf, resent = [buf] ∧ Resends m m.packet buf) :
      SlotStep maxPayload kind sent m
        { m with retryCount := m.retryCount + 1, timestamp := now } resent

variable {maxPayload : ℕ} {sent : List (List UInt8)}

theorem SlotStep.ofPacket (data : List UInt8) (now : τ) (v : Vector (QosMsg τ) n) (i : Fin n) :
    SlotStep maxPayload (Kind.ofPacket data) sent v[i] (onPacket data now v)[i] [] := by
  rcases get_onPacket data now v i with heq | ⟨huse, hid, heq⟩ | ⟨huse, hnot, hid, heq⟩
  · rw [heq]
    exact .kept
  · rw [heq]
    refine .finished huse ?_
    rw [Kind.ofPacket, hid]
  · rw [heq]
    refine .received now huse ?_
    rw [Kind.ofPacket, hnot, hid]

/-- A check does to a slot what it may, if it sends for it what it may. -/
theorem SlotStep.ofCheck (expired : τ → Bool) (now : τ) (m : QosMsg τ)
    (resend : QosMsg τ → List (List UInt8))
    (hresend : m.qos = 1 ∨ m.qos = 2 → m.payload.length ≤ maxPayload → ∃ buf,
      resend { m with retryCount := m.retryCount + 1, timestamp := now } = [buf] ∧
        Resends m m.packet buf) :
    SlotStep maxPayload .check sent m (m.retry expired now).1
      (if (m.retry expired now).2 then resend (m.retry expired now).1 else []) := by
  rcases m.retry_cases expired now with heq | ⟨huse, hcount, heq⟩ | ⟨huse, hcount, heq⟩
  · rw [heq]
    exact .kept
  · rw [heq]
    exact .expired huse rfl hcount
  · rw [heq]
    exact .retried now _ huse rfl hcount hresend

theorem SlotStep.ofPublish (call : Call) (now : τ) {payload : List UInt8}
    (v : Vector (QosMsg τ) n) (i : Fin n) (hqos : 0 < call.qos ∧ call.qos ≤ 2)
    (hfits : call.payload.length ≤ maxPayload → payload = call.payload ∧ sent = [call.packet]) :
    SlotStep maxPayload (.publish call) sent v[i] (storePending
      ⟨call.msgId, UInt8.ofNat call.qos.toNat, 0, now, 0, call.topicId, payload, true⟩ v)[i]
        [] := by
  rcases get_storePending
      ⟨call.msgId, UInt8.ofNat call.qos.toNat, 0, now, 0, call.topicId, payload, true⟩ v i with
      heq | ⟨hfree, heq⟩
  · rw [heq]
    exact .kept
  · rw [heq]
    exact .taken call now payload hfree rfl hqos hfits

namespace Sender

variable (S : Sender σ ε τ n) (maxPayload : ℕ)

/-- Every event does to every slot what it may. -/
def Lawful : Prop := ∀ s e (i : Fin n),
  SlotStep maxPayload (S.kind s e) (S.sent s e) (S.slots s)[i] (S.slots (S.step s e))[i]
    (S.resent s e i)

/-- A payload that is published has at most `maxPayload` bytes. -/
def Fits (s : σ) (e : ε) : Prop :=
  ∀ call ∈ (S.kind s e).call, call.payload.length ≤ maxPayload

instance (s : σ) (e : ε) : Decidable (S.Fits maxPayload s e) :=
  inferInstanceAs (Decidable (∀ call ∈ (S.kind s e).call, call.payload.length ≤ maxPayload))

/-- The slot is in use. -/
def Busy (i : Fin n) (s : σ) : Prop := (S.slots s)[i].inUse = true

/-! ## The life of a message -/

/-- What was sent again for slot `i` in the events `mid` after `s`. -/
def retransmissions (s : σ) (mid : List ε) (i : Fin n) : List (List UInt8) :=
  Trace.logged S.step (fun s e ↦ S.resent s e i) s mid

/-- A slot that was taken by `call`, for which `resent` has been sent again. -/
structure Holds (call : Call) (resent : List (List UInt8)) (m : QosMsg τ) : Prop where
  msgId : m.msgId = call.msgId
  qos : (m.qos.toNat : ℤ) = call.qos
  topicId : m.topicId = call.topicId
  payload : m.payload = call.payload
  step : m.step = 0 ∨ m.step = 1
  retryCount : m.retryCount.toNat = resent.length
  retries : resent.length ≤ QOS_MAX_RETRIES.toNat

/-- What the next event may do to a slot that was taken by `call` and sent again `count` times. -/
structure Next (call : Call) (count : ℕ) (kind : Kind) (m m' : QosMsg τ)
    (resent : List (List UInt8)) : Prop where
  resends : ∀ buf ∈ resent, Resends m call.packet buf
  step : m.step = 1 → m'.step = 1
  freed : m'.inUse = false →
    kind = .finish m.msgId ∨ kind = .check ∧ count = QOS_MAX_RETRIES.toNat
  others : kind ≠ .check → kind.mid ≠ some m.msgId → m' = m

/-- **The life of a pending message**: a slot in use was taken by a publish, and from then on until
it is freed it is the slot of that publish. -/
def LifeCycle (s₀ : σ) (es : List ε) : Prop := ∀ i : Fin n,
  (S.Busy i (Trace.run S.step s₀ es) →
    ∃ pre e mid, es = pre ++ e :: mid ∧ Trace.Tenure S.step (S.Busy i) s₀ pre e mid) ∧
  ∀ pre e mid, es = pre ++ e :: mid → Trace.Tenure S.step (S.Busy i) s₀ pre e mid →
    ∃ call, S.kind (Trace.run S.step s₀ pre) e = .publish call ∧
      S.sent (Trace.run S.step s₀ pre) e = [call.packet] ∧
      let s := Trace.run S.step s₀ es
      let resent := S.retransmissions (S.step (Trace.run S.step s₀ pre) e) mid i
      Holds call resent (S.slots s)[i] ∧ ∀ e', Next call resent.length (S.kind s e') (S.slots s)[i]
        (S.slots (S.step s e'))[i] (S.resent s e' i)

variable {S maxPayload}

theorem Fits.length_le {s : σ} {e : ε} (h : S.Fits maxPayload s e) {call : Call}
    (hkind : S.kind s e = .publish call) : call.payload.length ≤ maxPayload := by
  refine h call ?_
  rw [hkind, Kind.call]
  exact Option.mem_some_self call

theorem Holds.qos_cases {call : Call} {resent : List (List UInt8)} {m : QosMsg τ}
    (h : Holds call resent m) (hqos : call.qos = 1 ∨ call.qos = 2) : m.qos = 1 ∨ m.qos = 2 := by
  have hone : (1 : UInt8).toNat = 1 := rfl
  have htwo : (2 : UInt8).toNat = 2 := rfl
  have hcast := h.qos
  refine hqos.imp (fun hq ↦ UInt8.toNat_inj.mp ?_) fun hq ↦ UInt8.toNat_inj.mp ?_
  · rw [hq] at hcast
    omega
  · rw [hq] at hcast
    omega

theorem Holds.packet {call : Call} {resent : List (List UInt8)} {m : QosMsg τ}
    (h : Holds call resent m) : m.packet = call.packet := by
  rw [QosMsg.packet, Call.packet, h.msgId, h.qos, h.topicId, h.payload]

/-- A slot is taken by a publish. -/
theorem Lawful.taken (h : S.Lawful maxPayload) {s : σ} {e : ε} {i : Fin n} (hfree : ¬S.Busy i s)
    (hbusy : S.Busy i (S.step s e)) (hfits : S.Fits maxPayload s e) :
    ∃ call, S.kind s e = .publish call ∧ (call.qos = 1 ∨ call.qos = 2) ∧
      S.sent s e = [call.packet] ∧
      Holds call [] (S.slots (S.step s e))[i] := by
  rw [Busy, Bool.not_eq_true] at hfree
  rw [Busy] at hbusy
  have hstep := h s e i
  generalize S.resent s e i = again at hstep
  generalize (S.slots (S.step s e))[i] = m' at hstep hbusy ⊢
  cases hstep with
  | kept => exact absurd (hfree.symm.trans hbusy) Bool.false_ne_true
  | taken call now payload _ hkind hqos hwhole =>
    obtain ⟨rfl, hsent⟩ := hwhole (hfits.length_le hkind)
    have hcases : call.qos = 1 ∨ call.qos = 2 := by omega
    refine ⟨call, hkind, hcases, hsent, rfl, ?_, rfl, rfl, Or.inl rfl, rfl, Nat.zero_le _⟩
    rcases hcases with hone | htwo
    · rw [hone]
      rfl
    · rw [htwo]
      rfl
  | finished huse => exact absurd (hfree.symm.trans huse) Bool.false_ne_true
  | received _ huse => exact absurd (hfree.symm.trans huse) Bool.false_ne_true
  | expired huse => exact absurd (hfree.symm.trans huse) Bool.false_ne_true
  | retried _ _ huse => exact absurd (hfree.symm.trans huse) Bool.false_ne_true

/-- A slot that stays in use keeps its publish and counts. -/
theorem Lawful.holds (h : S.Lawful maxPayload) {call : Call} {resent : List (List UInt8)} {s : σ}
    {e : ε} {i : Fin n} (hcall : (call.qos = 1 ∨ call.qos = 2) ∧ call.payload.length ≤ maxPayload)
    (hheld : Holds call resent (S.slots s)[i]) (hbusy : S.Busy i s)
    (hbusy' : S.Busy i (S.step s e)) :
    Holds call (resent ++ S.resent s e i) (S.slots (S.step s e))[i] := by
  rw [Busy] at hbusy hbusy'
  have hstep := h s e i
  generalize S.resent s e i = again at hstep ⊢
  generalize (S.slots s)[i] = m at hstep hheld hbusy
  generalize (S.slots (S.step s e))[i] = m' at hstep hbusy' ⊢
  cases hstep with
  | kept =>
    rw [List.append_nil]
    exact hheld
  | taken _ _ _ hfree => exact absurd (hfree.symm.trans hbusy) Bool.false_ne_true
  | finished => exact absurd hbusy' Bool.false_ne_true
  | received =>
    rw [List.append_nil]
    exact ⟨hheld.msgId, hheld.qos, hheld.topicId, hheld.payload, Or.inr rfl, hheld.retryCount,
      hheld.retries⟩
  | expired => exact absurd hbusy' Bool.false_ne_true
  | retried now again _ _ hcount hagain =>
    obtain ⟨buf, rfl, -⟩ := hagain (hheld.qos_cases hcall.1) (hheld.payload ▸ hcall.2)
    have hlt : m.retryCount.toNat < QOS_MAX_RETRIES.toNat := UInt8.lt_iff_toNat_lt.mp hcount
    have hmax : QOS_MAX_RETRIES.toNat = 3 := rfl
    have hsucc : (m.retryCount + 1).toNat = m.retryCount.toNat + 1 := by
      rw [UInt8.toNat_add]
      change (m.retryCount.toNat + 1) % 256 = m.retryCount.toNat + 1
      omega
    refine ⟨hheld.msgId, hheld.qos, hheld.topicId, hheld.payload, hheld.step, ?_, ?_⟩
    · rw [List.length_append, ← hheld.retryCount]
      exact hsucc
    · rw [List.length_append, ← hheld.retryCount]
      exact hlt

/-- What an event may do to a slot that is held. -/
theorem Lawful.next (h : S.Lawful maxPayload) {call : Call} {resent : List (List UInt8)} {s : σ}
    {i : Fin n} (hcall : (call.qos = 1 ∨ call.qos = 2) ∧ call.payload.length ≤ maxPayload)
    (hheld : Holds call resent (S.slots s)[i]) (hbusy : S.Busy i s) (e : ε) :
    Next call resent.length (S.kind s e) (S.slots s)[i] (S.slots (S.step s e))[i]
      (S.resent s e i) := by
  rw [Busy] at hbusy
  have hnone : ∀ {P : List UInt8 → Prop}, ∀ buf ∈ ([] : List (List UInt8)), P buf :=
    fun _ hbuf ↦ absurd hbuf List.not_mem_nil
  have hstep := h s e i
  generalize S.resent s e i = again at hstep ⊢
  generalize (S.slots s)[i] = m at hstep hheld hbusy ⊢
  generalize (S.slots (S.step s e))[i] = m' at hstep ⊢
  cases hstep with
  | kept =>
    exact ⟨hnone, id, fun hfree ↦ absurd (hfree.symm.trans hbusy) Bool.false_ne_true,
      fun _ _ ↦ rfl⟩
  | taken _ _ _ hfree => exact absurd (hfree.symm.trans hbusy) Bool.false_ne_true
  | finished _ hkind =>
    refine ⟨hnone, id, fun _ ↦ Or.inl hkind, fun _ hmid ↦ absurd ?_ hmid⟩
    rw [hkind, Kind.mid]
  | received now _ hkind =>
    refine ⟨hnone, fun _ ↦ rfl, fun hfree ↦ absurd (hfree.symm.trans hbusy) Bool.false_ne_true,
      fun _ hmid ↦ absurd ?_ hmid⟩
    rw [hkind, Kind.mid]
  | expired _ hkind hcount =>
    refine ⟨hnone, id, fun _ ↦ Or.inr ⟨hkind, ?_⟩, fun hne ↦ absurd hkind hne⟩
    have hle : QOS_MAX_RETRIES.toNat ≤ resent.length := by
      rw [← hheld.retryCount]
      exact UInt8.le_iff_toNat_le.mp hcount
    exact Nat.le_antisymm hheld.retries hle
  | retried now again _ hkind _ hagain =>
    obtain ⟨buf, rfl, hresends⟩ := hagain (hheld.qos_cases hcall.1) (hheld.payload ▸ hcall.2)
    rw [hheld.packet] at hresends
    refine ⟨fun buf' hbuf ↦ ?_, id, fun hfree ↦ absurd (hfree.symm.trans hbusy) Bool.false_ne_true,
      fun hne ↦ absurd hkind hne⟩
    rw [List.mem_singleton.mp hbuf]
    exact hresends

theorem not_busy_of_free {s : σ} {m : QosMsg τ} (h : S.slots s = Vector.replicate n m)
    (hfree : m.inUse = false) (i : Fin n) : ¬S.Busy i s := by
  rw [Busy, h, Slots.getElem_fin, Vector.getElem_replicate, hfree]
  exact Bool.false_ne_true

/-- **The life of a pending message**, for every client whose events do to a slot what they may. -/
theorem Lawful.lifeCycle (h : S.Lawful maxPayload) {s₀ : σ} (hs₀ : ∀ i, ¬S.Busy i s₀) {es : List ε}
    (hfits : Trace.Always S.step (S.Fits maxPayload) s₀ es) : S.LifeCycle s₀ es := by
  intro i
  refine ⟨Trace.exists_tenure (hs₀ i), ?_⟩
  rintro pre e mid rfl htenure
  have hbusy := htenure.held [] (List.nil_prefix)
  rw [Trace.run_tenure, Trace.run_nil] at hbusy
  obtain ⟨call, hkind, hqos, hsent, hheld⟩ := h.taken htenure.free hbusy hfits.at
  have hcall := And.intro hqos (hfits.at.length_le hkind)
  refine ⟨call, hkind, hsent, ?_⟩
  -- the slot holds the publish as long as the tenure lasts
  have hlasts := htenure.rule
    (P := fun mid' s ↦ s = Trace.run S.step (S.step (Trace.run S.step s₀ pre) e) mid' ∧
      Holds call (S.retransmissions (S.step (Trace.run S.step s₀ pre) e) mid' i) (S.slots s)[i])
    (fun _ _ ↦ ⟨rfl, hheld⟩) fun mid' s' e' hs' hb hb' _ ↦ ?_
  · exact ⟨hlasts.2, fun e' ↦ h.next hcall hlasts.2 (htenure.held mid (List.prefix_refl mid)) e'⟩
  · obtain ⟨rfl, hheld'⟩ := hs'
    refine ⟨(Trace.run_snoc _ mid' e').symm, ?_⟩
    rw [retransmissions, Trace.logged_append]
    have hone : ∀ s : σ, Trace.logged S.step (fun s e ↦ S.resent s e i) s [e'] = S.resent s e' i :=
      fun s ↦ List.append_nil _
    rw [hone]
    exact h.holds hcall hheld' hb hb'

end Sender

end Emcs.Mqttsn
