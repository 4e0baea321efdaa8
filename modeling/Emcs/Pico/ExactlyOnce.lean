import Emcs.Pico.Machine

/-!
# A PUBLISH of QoS 2 after its PUBREC

A PUBREC marks the slot of its message, so that later checks send PUBREL. It finds no slot in two
places of the main loop: after the PUBLISH is transmitted and before its message is stored, and it
comes too late for the snapshot that a check has taken and not yet sent. In a run in which no PUBREC
comes in these places, and no message id is drawn twice, nothing is published again after its
PUBREC.

## The invariant

`Once` says that a message id in use belongs to one slot, or to the message about to be stored, and
that whatever may still be published with QoS 2 (a slot before its PUBREC, an entry of the retry
list, the message about to be stored) has no PUBREC yet. An id that is drawn is new, so a publish
keeps it; a PUBREC that finds its slot keeps it, because the slot then sends PUBREL. The two
conditions on a run are what these two steps need.
-/

namespace Emcs.Pico

open Bytes Mqttsn

/-! ## Publishing again -/

/-- A PUBLISH of QoS 2 with the message id, as the gateway reads it. -/
def isQos2Publish (mid : UInt16) (buf : List UInt8) : Bool :=
  decide (MQTTSN_PUBLISH_HEADER_LEN ≤ buf.length) && buf.getD 1 0 == MQTTSN_MSG_TYPE_PUBLISH &&
    (buf.getD 2 0 >>> MQTTSN_QOS_SHIFT) &&& MQTTSN_FLAG_QOS_MASK == 2 &&
    be16 (buf.getD 5 0) (buf.getD 6 0) == mid

/-- The event transmits no PUBLISH of QoS 2 whose PUBREC has been handled. -/
def NotPublishedAgain (s : State) (e : Event) : Prop :=
  ∀ mid ∈ s.pubrecs, ∀ buf ∈ (s.exec e).2.filterMap Action.out, isQos2Publish mid buf = false

/-- The event draws no id that was drawn before. -/
def NotReissued (s : State) (e : Event) : Prop := ∀ mid ∈ s.draw e, mid ∉ s.drawn

/-- The main loop holds a message of QoS 2 with the id that it has transmitted and not yet stored,
or is going to publish again. -/
def Task.holds (mid : UInt16) : Task → Bool
  | .storing p => p.qos == 2 && p.msgId == mid
  | .retrying rs => rs.any fun r ↦ r.qos == 2 && r.step == 0 && r.msgId == mid
  | _ => false

/-- A PUBREC comes for an id that has been drawn, and not while the main loop holds its message. -/
def PubrecInTime (s : State) (e : Event) : Prop :=
  ∀ mid ∈ s.pubrec e, mid ∈ s.drawn ∧ s.task.holds mid = false

instance (s : State) (e : Event) : Decidable (NotPublishedAgain s e) :=
  List.decidableBAll (fun mid ↦ ∀ buf ∈ (s.exec e).2.filterMap Action.out,
    isQos2Publish mid buf = false) s.pubrecs

instance (s : State) (e : Event) : Decidable (NotReissued s e) :=
  Option.decidableForallMem (p := (· ∉ s.drawn)) (s.draw e)

instance (s : State) (e : Event) : Decidable (PubrecInTime s e) :=
  Option.decidableForallMem (p := fun mid ↦ mid ∈ s.drawn ∧ s.task.holds mid = false) (s.pubrec e)

/-! ## Packets -/

/-- **A PUBLISH of QoS 2 shows its message id.** -/
theorem of_isQos2Publish {mid topicId msgId : UInt16} {payload : List UInt8} {qos : ℤ} {k : ℕ}
    (h : isQos2Publish mid ((publishPacket topicId payload qos msgId).take k) = true) :
    qos = 2 ∧ msgId = mid := by
  rw [isQos2Publish, Bool.and_eq_true, Bool.and_eq_true, Bool.and_eq_true, decide_eq_true_iff,
    beq_iff_eq, beq_iff_eq, beq_iff_eq] at h
  obtain ⟨⟨⟨hlen, -⟩, hqos⟩, hmid⟩ := h
  have hk : 7 ≤ k := Nat.le_trans hlen (List.length_take_le _ _)
  have hbyte := fun (j : ℕ) (hj : j < 7) ↦ getD_of_take
    (l := publishPacket topicId payload qos msgId) rfl (Nat.lt_of_lt_of_le hj hk)
  rw [← hbyte 2 (by decide)] at hqos
  rw [← hbyte 5 (by decide), ← hbyte 6 (by decide)] at hmid
  have htwo : qos = 2 := by
    by_contra hne
    change (getQosFlags qos MQTTSN_FLAG_TOPIC_NORMAL >>> MQTTSN_QOS_SHIFT) &&& MQTTSN_FLAG_QOS_MASK
      = 2 at hqos
    rw [getQosFlags, if_neg hne] at hqos
    split at hqos
    · exact absurd hqos (by decide)
    · exact absurd hqos (by decide)
  subst htwo
  exact ⟨rfl, (be16_hi8_lo8 msgId).symm.trans hmid⟩

/-- What a publish transmits under another id, or of another QoS, is no such PUBLISH. -/
theorem isQos2Publish_transmit {p : Publish} {ok : Bool} {mid : UInt16}
    (h : p.qos = 2 → p.msgId ≠ mid) {buf : List UInt8}
    (hbuf : buf ∈ (p.transmit ok).filterMap Action.out) : isQos2Publish mid buf = false := by
  rw [Publish.transmit] at hbuf
  split at hbuf
  · obtain ⟨rfl, -⟩ := Action.send.inj (List.mem_singleton.mp (mem_out.mp hbuf))
    by_contra hpub
    rw [Bool.not_eq_false] at hpub
    obtain ⟨hqos, hmid⟩ := of_isQos2Publish hpub
    exact h hqos hmid
  · exact absurd hbuf List.not_mem_nil

theorem isQos2Publish_of_sendNoPublish {as : List Action} (h : SendNoPublish as) {mid : UInt16}
    {buf : List UInt8} (hbuf : buf ∈ as.filterMap Action.out) : isQos2Publish mid buf = false := by
  have htype := h _ _ (mem_out.mp hbuf)
  rw [isQos2Publish, beq_false_of_ne htype, Bool.and_false, Bool.false_and, Bool.false_and]

/-- The snapshot sends a PUBLISH of QoS 2 for no entry but one of that QoS in step 0. -/
theorem isQos2Publish_resend {r : RetryEntry} {ok : Bool} {mid : UInt16}
    (h : r.qos = 2 → r.step = 0 → r.msgId ≠ mid) {buf : List UInt8}
    (hbuf : buf ∈ (r.resend ok).filterMap Action.out) : isQos2Publish mid buf = false := by
  rw [RetryEntry.resend] at hbuf
  split at hbuf
  · rename_i hone
    have hne : ((1 : UInt8).toNat : ℤ) ≠ 2 := by decide
    refine isQos2Publish_transmit (fun htwo ↦ ?_) hbuf
    rw [hone] at htwo
    exact absurd htwo hne
  split at hbuf
  · rename_i htwo
    split at hbuf
    · exact isQos2Publish_transmit (fun _ ↦ h htwo ‹_›) hbuf
    · have hne : (pubrelPacket r.msgId).getD 1 0 ≠ MQTTSN_MSG_TYPE_PUBLISH := by
        change MQTTSN_MSG_TYPE_PUBREL ≠ MQTTSN_MSG_TYPE_PUBLISH
        decide
      exact isQos2Publish_of_sendNoPublish (sendNoPublish_singleton hne) hbuf
  · exact absurd hbuf List.not_mem_nil

/-! ## The invariant -/

/-- A message id belongs to at most one slot, and what may still publish of QoS 2 has no PUBREC. -/
structure Once (v : Vector (QosMsg ℕ) MAX_PENDING_QOS_MSGS) (task : Task)
    (drawn pubrecs : List UInt16) : Prop where
  received_drawn : ∀ mid ∈ pubrecs, mid ∈ drawn
  slot_drawn : ∀ i : Fin MAX_PENDING_QOS_MSGS, v[i].inUse = true → v[i].msgId ∈ drawn
  slot_unique : ∀ i j : Fin MAX_PENDING_QOS_MSGS, v[i].inUse = true → v[j].inUse = true →
    v[i].msgId = v[j].msgId → i = j
  slot_received : ∀ i : Fin MAX_PENDING_QOS_MSGS, v[i].inUse = true → v[i].qos = 2 →
    v[i].step = 0 → v[i].msgId ∉ pubrecs
  storing : ∀ p, task = .storing p → p.msgId ∈ drawn ∧
    (∀ i : Fin MAX_PENDING_QOS_MSGS, v[i].inUse = true → v[i].msgId ≠ p.msgId) ∧
    (0 < p.qos ∧ p.qos ≤ 2) ∧ (p.qos = 2 → p.msgId ∉ pubrecs)
  retrying : ∀ rs, task = .retrying rs → ∀ r ∈ rs, r.qos = 2 → r.step = 0 → r.msgId ∉ pubrecs

def State.Once (s : State) : Prop := Pico.Once s.client.pendingMsgs s.task s.drawn s.pubrecs

theorem once_boot : State.boot.Once := by
  have hfree : ∀ i : Fin MAX_PENDING_QOS_MSGS, State.boot.client.pendingMsgs[i].inUse = false := by
    intro i
    simp only [State.boot, Client.boot, Slots.getElem_fin, Vector.getElem_replicate]
  have habsurd : ∀ {i : Fin MAX_PENDING_QOS_MSGS} {p : Prop},
      State.boot.client.pendingMsgs[i].inUse = true → p := by
    intro i p huse
    exact absurd ((hfree i).symm.trans huse) Bool.false_ne_true
  exact ⟨fun _ h ↦ absurd h List.not_mem_nil, fun _ huse ↦ habsurd huse,
    fun _ _ huse ↦ habsurd huse, fun _ huse ↦ habsurd huse, fun _ h ↦ (nomatch h),
    fun _ h ↦ (nomatch h)⟩

variable {v v' : Vector (QosMsg ℕ) MAX_PENDING_QOS_MSGS} {task : Task} {drawn pubrecs : List UInt16}

/-- Slots may be freed and changed as long as they keep what the invariant speaks of. -/
theorem Once.slots (h : Once v task drawn pubrecs)
    (hslot : ∀ i : Fin MAX_PENDING_QOS_MSGS, v'[i].inUse = true →
      v[i].inUse = true ∧ v'[i].msgId = v[i].msgId ∧ v'[i].qos = v[i].qos ∧
        (v'[i].step = 0 → v[i].step = 0)) : Once v' task drawn pubrecs where
  received_drawn := h.received_drawn
  slot_drawn i huse := by
    obtain ⟨hold, hid, -, -⟩ := hslot i huse
    exact hid ▸ h.slot_drawn i hold
  slot_unique i j hi hj heq := by
    obtain ⟨hi', hidi, -, -⟩ := hslot i hi
    obtain ⟨hj', hidj, -, -⟩ := hslot j hj
    exact h.slot_unique i j hi' hj' (hidi.symm.trans (heq.trans hidj))
  slot_received i huse hqos hstep := by
    obtain ⟨hold, hid, hq, hst⟩ := hslot i huse
    exact hid ▸ h.slot_received i hold (hq ▸ hqos) (hst hstep)
  storing p hp := by
    obtain ⟨hdrawn, hfree, hqos, hnot⟩ := h.storing p hp
    refine ⟨hdrawn, fun i huse ↦ ?_, hqos, hnot⟩
    obtain ⟨hold, hid, -, -⟩ := hslot i huse
    exact hid ▸ hfree i hold
  retrying := h.retrying

theorem Once.goto (h : Once v task drawn pubrecs)
    {task' : Task} (hstoring : ∀ p, task' ≠ .storing p)
    (hretrying : ∀ rs, task' = .retrying rs → ∀ r ∈ rs, r.qos = 2 → r.step = 0 →
      r.msgId ∉ pubrecs) : Once v task' drawn pubrecs :=
  ⟨h.received_drawn, h.slot_drawn, h.slot_unique, h.slot_received,
    fun p hp ↦ absurd hp (hstoring p), hretrying⟩

theorem Once.draw (h : Once v task drawn pubrecs) (l : List UInt16) :
    Once v task (drawn ++ l) pubrecs :=
  ⟨fun mid hmid ↦ List.mem_append_left _ (h.received_drawn mid hmid),
    fun i huse ↦ List.mem_append_left _ (h.slot_drawn i huse), h.slot_unique, h.slot_received,
    fun p hp ↦ ⟨List.mem_append_left _ (h.storing p hp).1, (h.storing p hp).2⟩, h.retrying⟩

/-! ## Parts of functions -/

/-- The message that is stored takes a slot under an id that no other slot has. -/
theorem Once.store {p : Publish} (h : Once v (.storing p) drawn pubrecs) (now : ℕ) :
    Once (storePending (p.msg now) v) .idle drawn pubrecs := by
  obtain ⟨hdrawn, hfree, ⟨hpos, hle⟩, hnot⟩ := h.storing p rfl
  have hqos : (p.msg now).qos = 2 → p.qos = 2 := by
    intro htwo
    have hcases : p.qos = 1 ∨ p.qos = 2 := by omega
    rcases hcases with hone | htwo'
    · change UInt8.ofNat p.qos.toNat = 2 at htwo
      rw [hone] at htwo
      exact absurd htwo (by decide)
    · exact htwo'
  -- the message takes a free slot, or is not kept where there is none
  rcases storePending_cases (p.msg now) v with heq | ⟨k, -, heq⟩
  · rw [heq]
    exact h.goto (fun _ ↦ nofun) nofun
  rw [heq]
  have hslot : ∀ i, (i = k ∧ (v.set k (p.msg now) k.isLt)[i] = p.msg now) ∨
      (v.set k (p.msg now) k.isLt)[i] = v[i] := by
    intro i
    by_cases hik : k = i
    · subst hik
      exact Or.inl ⟨rfl, Slots.get_set_self v k _⟩
    · exact Or.inr (Slots.get_set_of_ne v _ hik)
  refine ⟨h.received_drawn, fun i huse ↦ ?_, fun i j hi hj hid ↦ ?_, fun i huse htwo hstep ↦ ?_,
    nofun, nofun⟩
  · rcases hslot i with ⟨-, hi⟩ | hi
    · rw [hi]
      exact hdrawn
    · rw [hi] at huse ⊢
      exact h.slot_drawn i huse
  · rcases hslot i with ⟨rfl, hi'⟩ | hi'
    · rcases hslot j with ⟨rfl, -⟩ | hj'
      · rfl
      · rw [hj'] at hj hid
        rw [hi'] at hid
        exact absurd hid.symm (hfree j hj)
    · rcases hslot j with ⟨rfl, hj'⟩ | hj'
      · rw [hi'] at hi hid
        rw [hj'] at hid
        exact absurd hid (hfree i hi)
      · rw [hi'] at hi hid
        rw [hj'] at hj hid
        exact h.slot_unique i j hi hj hid
  · rcases hslot i with ⟨-, hi⟩ | hi
    · rw [hi] at htwo ⊢
      exact hnot (hqos htwo)
    · rw [hi] at huse htwo hstep ⊢
      exact h.slot_received i huse htwo hstep

/-- A snapshot holds no PUBLISH of QoS 2 whose PUBREC has been handled. -/
theorem Once.snapshot {c : Client} (h : Once c.pendingMsgs task drawn pubrecs) (now : ℕ)
    (stamp : ℕ → ℕ) : Once (Pico.snapshot c now stamp).1.pendingMsgs
      (.retrying (Pico.snapshot c now stamp).2) drawn pubrecs := by
  have hslots : Once (Pico.snapshot c now stamp).1.pendingMsgs task drawn pubrecs := by
    refine h.slots fun i huse ↦ ?_
    rw [get_snapshot] at huse ⊢
    obtain ⟨hold, _, _, heq⟩ := QosMsg.of_inUse_retry huse
    rw [heq]
    exact ⟨hold, rfl, rfl, id⟩
  refine hslots.goto (fun _ ↦ nofun) fun rs hrs r hr htwo hstep ↦ ?_
  obtain rfl := Task.retrying.inj hrs
  obtain ⟨i, huse, rfl⟩ := exists_of_mem_snapshot hr
  exact h.slot_received i huse htwo hstep

/-- **No part of a function of the main loop breaks the invariant**, a publish apart. -/
theorem once_exec {s : Control} {e : Event} (hreceive : ∀ rx, e ≠ .receive rx)
    (hpublish : ∀ topicId payload qos ok, e ≠ .publish topicId payload qos ok)
    (h : Once s.client.pendingMsgs s.task drawn pubrecs) :
    Once (s.exec e).1.client.pendingMsgs (s.exec e).1.task drawn pubrecs := by
  unfold Control.exec
  split
  · exact absurd rfl (hreceive _)
  · exact h
  · rw [mqttSnAddTopicForRegistration]
    split
    · exact h
    · exact (pendingMsgs_addTopic _ _ _).symm ▸ h
  · rw [mqttSnAddTopicForSubscription]
    split
    · exact h
    split
    · exact h
    · exact (pendingMsgs_addTopic _ _ _).symm ▸ h
  · exact h
  · exact absurd rfl (hpublish _ _ _ _)
  · rename_i p now htask
    rw [htask] at h
    exact h.store now
  · exact h.snapshot _ _
  · exact h.goto (fun _ ↦ nofun) nofun
  · rename_i r rs ok htask
    rw [htask] at h
    refine h.goto (fun _ ↦ nofun) fun rs' hrs r' hr' ↦ ?_
    obtain rfl := Task.retrying.inj hrs
    exact h.retrying _ rfl r' (List.mem_cons_of_mem r hr')
  · exact h.goto (fun _ ↦ nofun) nofun
  · exact h.goto (fun _ ↦ nofun) nofun
  · split
    · exact h.goto (fun _ ↦ nofun) nofun
    · exact h.goto (fun _ ↦ nofun) nofun
  · exact h.goto (fun _ ↦ nofun) nofun
  · exact h

theorem Once.publish (h : Once v task drawn pubrecs) {p : Publish} (hfresh : p.msgId ∉ drawn)
    (hqos : 0 < p.qos ∧ p.qos ≤ 2) : Once v (.storing p) (drawn ++ [p.msgId]) pubrecs where
  received_drawn mid hmid := List.mem_append_left _ (h.received_drawn mid hmid)
  slot_drawn i huse := List.mem_append_left _ (h.slot_drawn i huse)
  slot_unique := h.slot_unique
  slot_received := h.slot_received
  storing := by
    rintro p' hp
    obtain rfl := Task.storing.inj hp
    refine ⟨List.mem_append_right _ (List.mem_singleton_self _), fun i huse heq ↦ ?_, hqos,
      fun _ hmid ↦ hfresh (h.received_drawn _ hmid)⟩
    exact hfresh (heq ▸ h.slot_drawn i huse)
  retrying := nofun

/-! ## Packets -/

theorem onPending_of_pubrec {rx : Rx} {dropAcks : Bool} {mid : UInt16}
    (h : rx.pubrec dropAcks = some mid) (v : Vector (QosMsg ℕ) MAX_PENDING_QOS_MSGS) :
    rx.onPending dropAcks v = markReceived mid (rx.clock 0) v := by
  rw [Rx.pubrec] at h
  rw [Rx.onPending]
  split
  · rename_i hdropped
    rw [if_pos hdropped] at h
    contradiction
  · rename_i hhandled
    rw [if_neg hhandled] at h
    have hfinished : finishedId rx.data = none := by
      rw [receivedId] at h
      split at h
      · rename_i htype
        rw [finishedId, htype]
        rfl
      · contradiction
    rw [onPacket, hfinished, h]

/-- **A PUBREC in time marks the slot of its message.** -/
theorem Once.receive (h : Once v task drawn pubrecs) (rx : Rx) (dropAcks : Bool)
    (htime : ∀ mid ∈ rx.pubrec dropAcks, mid ∈ drawn ∧ task.holds mid = false) :
    Once (rx.onPending dropAcks v) task drawn (pubrecs ++ (rx.pubrec dropAcks).toList) := by
  have hmarked : (1 : UInt8) ≠ 0 := by decide
  have hslots : Once (rx.onPending dropAcks v) task drawn pubrecs := by
    rw [Rx.onPending]
    split
    · exact h
    refine h.slots fun i huse ↦ ?_
    rcases get_onPacket rx.data (rx.clock 0) v i with heq | ⟨-, -, heq⟩ | ⟨hold, -, -, heq⟩
    · rw [heq] at huse ⊢
      exact ⟨huse, rfl, rfl, id⟩
    · rw [heq] at huse
      exact absurd huse Bool.false_ne_true
    · rw [heq]
      exact ⟨hold, rfl, rfl, fun hstep ↦ absurd hstep hmarked⟩
  cases hpubrec : rx.pubrec dropAcks with
  | none =>
    rw [Option.toList_none, List.append_nil]
    exact hslots
  | some mid =>
    obtain ⟨hdrawn, hholds⟩ := htime mid hpubrec
    rw [Option.toList_some]
    have hnot : ∀ {m : UInt16}, m ∉ pubrecs → m ≠ mid → m ∉ pubrecs ++ [mid] := by
      intro m hm hne hmem
      rcases List.mem_append.mp hmem with hmem | hmem
      · exact hm hmem
      · exact hne (List.mem_singleton.mp hmem)
    refine ⟨fun m hm ↦ ?_, hslots.slot_drawn, hslots.slot_unique, fun i huse htwo hstep ↦ ?_,
      fun p hp ↦ ?_, fun rs hrs r hr htwo hstep ↦ ?_⟩
    · rcases List.mem_append.mp hm with hm | hm
      · exact h.received_drawn m hm
      · exact List.mem_singleton.mp hm ▸ hdrawn
    · refine hnot (hslots.slot_received i huse htwo hstep) fun hid ↦ ?_
      -- the slot of this id is the only one, and it has been marked
      rw [onPending_of_pubrec hpubrec] at huse hstep hid
      rcases get_markReceived mid (rx.clock 0) v i with heq | ⟨-, -, heq⟩
      · rw [heq] at huse hid
        have hunique : ∀ j : Fin MAX_PENDING_QOS_MSGS, v[j].inUse = true → v[j].msgId = mid →
            j = i := fun j hj hjd ↦ h.slot_unique j i hj huse (hjd.trans hid.symm)
        rw [get_markReceived_of_unique (rx.clock 0) huse hid hunique] at hstep
        exact hmarked hstep
      · rw [heq] at hstep
        exact hmarked hstep
    · obtain ⟨hp₁, hp₂, hp₃, hp₄⟩ := hslots.storing p hp
      refine ⟨hp₁, hp₂, hp₃, fun htwo ↦ hnot (hp₄ htwo) fun hid ↦ ?_⟩
      rw [hp, Task.holds, htwo, hid, beq_self_eq_true, beq_self_eq_true] at hholds
      exact absurd hholds.symm Bool.false_ne_true
    · refine hnot (hslots.retrying rs hrs r hr htwo hstep) fun hid ↦ ?_
      rw [hrs, Task.holds, List.any_eq_false] at hholds
      refine hholds r hr ?_
      rw [htwo, hstep, hid, beq_self_eq_true, beq_self_eq_true, beq_self_eq_true]
      rfl

/-! ## Runs -/

theorem exec_publish (s : Control) (topicId : UInt16) (payload : List UInt8) (qos : ℤ) (ok : Bool) :
    s.exec (.publish topicId payload qos ok) = (s, []) ∨ s.task = .idle ∧
      let p : Publish := ⟨topicId, payload, qos, (publishId s.client qos).1⟩
      s.exec (.publish topicId payload qos ok)
        = (⟨{ s.client with nextMsgId := (publishId s.client qos).2 },
            if p.tracked false ok then .storing p else .idle⟩, p.transmit ok) := by
  cases htask : s.task with
  | idle => exact Or.inr ⟨rfl, by simp only [Control.exec, htask]⟩
  | _ => exact Or.inl (by simp only [Control.exec, htask])

theorem draw_publish {s : State} (hidle : s.task = .idle) (topicId : UInt16) (payload : List UInt8)
    {qos : ℤ} (hqos : qos > 0) (ok : Bool) :
    s.draw (.publish topicId payload qos ok) = some (publishId s.client qos).1 := by
  have hid : publishId s.client qos = getNextMsgId s.client.nextMsgId := if_pos hqos
  have hnext : (s.exec (.publish topicId payload qos ok)).1.client.nextMsgId
      = (getNextMsgId s.client.nextMsgId).2 := by
    simp only [Control.exec, hidle, hid]
  rw [State.draw, hnext, if_neg (getNextMsgId_moves _), hid]

/-- **The step rule**. -/
theorem State.Once.step {s : State} (h : s.Once) {e : Event} (hfresh : NotReissued s e)
    (htime : PubrecInTime s e) : (s.step e).Once := by
  by_cases hreceive : ∃ rx, e = .receive rx
  · obtain ⟨rx, rfl⟩ := hreceive
    have hrx := (Pico.Once.receive h rx s.client.dropAcks htime).draw (s.draw (.receive rx)).toList
    rw [← pendingMsgs_udpRecv] at hrx
    exact hrx
  have hpubrec : s.pubrec e = none := by
    cases e with
    | receive rx => exact absurd ⟨rx, rfl⟩ hreceive
    | _ => rfl
  have hstep : (s.step e).Once ↔ Pico.Once (s.exec e).1.client.pendingMsgs (s.exec e).1.task
      (s.drawn ++ (s.draw e).toList) s.pubrecs := by
    rw [State.Once, State.step, hpubrec, Option.toList_none, List.append_nil]
  rw [hstep]
  by_cases hpublish : ∃ topicId payload qos ok, e = .publish topicId payload qos ok
  · obtain ⟨topicId, payload, qos, ok, rfl⟩ := hpublish
    rcases exec_publish s.toControl topicId payload qos ok with heq | ⟨hidle, heq⟩
    · rw [heq]
      exact Pico.Once.draw h _
    rw [heq]
    dsimp only
    split
    · rename_i htracked
      have hqos := qos_of_tracked htracked
      have hdraw := draw_publish hidle topicId payload hqos.1 ok
      rw [hdraw]
      exact Pico.Once.publish h (hfresh _ hdraw) hqos
    · have hidle : Pico.Once s.client.pendingMsgs .idle s.drawn s.pubrecs :=
        Pico.Once.goto h (fun _ ↦ nofun) nofun
      exact hidle.draw _
  · refine (once_exec (fun rx hrx ↦ hreceive ⟨rx, hrx⟩)
      (fun topicId payload qos ok hpub ↦ hpublish ⟨topicId, payload, qos, ok, hpub⟩) h).draw _

/-- **Nothing that the invariant allows is published again.** -/
theorem State.Once.notPublishedAgain {s : State} (h : s.Once)
    {e : Event} (hfresh : NotReissued s e) :
    NotPublishedAgain s e := by
  intro mid hmid buf hbuf
  by_cases hpublish : ∃ topicId payload qos ok, e = .publish topicId payload qos ok
  · obtain ⟨topicId, payload, qos, ok, rfl⟩ := hpublish
    rcases exec_publish s.toControl topicId payload qos ok with heq | ⟨hidle, heq⟩
    · rw [heq] at hbuf
      exact absurd hbuf List.not_mem_nil
    rw [heq] at hbuf
    refine isQos2Publish_transmit (fun htwo hid ↦ ?_) hbuf
    have hpos : qos > 0 := by
      change qos = 2 at htwo
      omega
    have hnew := hfresh _ (draw_publish hidle topicId payload hpos ok)
    change (publishId s.client qos).1 = mid at hid
    exact hnew (hid ▸ h.received_drawn mid hmid)
  unfold Control.exec at hbuf
  split at hbuf
  · exact isQos2Publish_of_sendNoPublish (sendNoPublish_udpRecv _ _) hbuf
  · exact absurd hbuf List.not_mem_nil
  · exact absurd hbuf List.not_mem_nil
  · exact absurd hbuf List.not_mem_nil
  · exact absurd hbuf List.not_mem_nil
  · exact absurd ⟨_, _, _, _, rfl⟩ hpublish
  · exact absurd hbuf List.not_mem_nil
  · exact absurd hbuf List.not_mem_nil
  · exact absurd hbuf List.not_mem_nil
  · rename_i r rs ok htask
    refine isQos2Publish_resend (fun htwo hstep hid ↦ ?_) hbuf
    exact h.retrying _ htask r (List.mem_cons_self ..) htwo hstep (hid ▸ hmid)
  · exact absurd hbuf List.not_mem_nil
  · exact absurd hbuf List.not_mem_nil
  · split at hbuf
    · exact absurd hbuf List.not_mem_nil
    · exact absurd hbuf List.not_mem_nil
  · exact isQos2Publish_of_sendNoPublish (sendNoPublish_requestTopic _ _ _ _) hbuf
  · exact absurd hbuf List.not_mem_nil

/-- **From a state with the invariant** nothing is published again, as long as no id is drawn twice
and every PUBREC comes in time. -/
theorem State.Once.always {s : State} (hs : s.Once) {es : List Event}
    (hfresh : Trace.Always State.step NotReissued s es)
    (htime : Trace.Always State.step PubrecInTime s es) :
    Trace.Always State.step NotPublishedAgain s es :=
  Trace.always_of_invariant (P := State.Once) (C := fun s e ↦ NotReissued s e ∧ PubrecInTime s e)
    (fun _ _ hs h ↦ hs.step h.1 h.2) (fun _ _ hs h ↦ hs.notPublishedAgain h.1) hs
    (hfresh.and htime)

/-- **Exactly once**: in a run in which no id is drawn twice and every PUBREC comes in time, no
PUBLISH of QoS 2 is transmitted again after its PUBREC. -/
theorem not_published_again {es : List Event}
    (hfresh : Trace.Always State.step NotReissued State.boot es)
    (htime : Trace.Always State.step PubrecInTime State.boot es) :
    Trace.Always State.step NotPublishedAgain State.boot es :=
  once_boot.always hfresh htime

/-! ## A PUBREC before its message is stored -/

/-- The PUBREC of the message. -/
def pubrecOf (mid : UInt16) : Rx where
  data := pubrecPacket mid
  len := 5
  clock := fun _ ↦ 1000
  ok := true

/-- A message is published and checked three seconds later. -/
def publishAndCheck (between stored : List Event) : List Event :=
  .publish 1 (cstr "on") 2 true :: between ++ .store 2000 :: stored ++
    [.checkTimeouts 3000000 fun _ ↦ 3000000]

/-- **The PUBREC comes before the message is stored**, and the message is published again. -/
theorem early_pubrec_publishes_again :
    Trace.Always State.step NotReissued State.boot
        (publishAndCheck [.receive (pubrecOf 1)] [] ++ [.resend true]) ∧
      ¬Trace.Always State.step NotPublishedAgain State.boot
        (publishAndCheck [.receive (pubrecOf 1)] [] ++ [.resend true]) := by
  decide +kernel

/-- So it is when the PUBREC comes between the snapshot and the transmission. -/
example : ¬Trace.Always State.step NotPublishedAgain State.boot
    (publishAndCheck [] [] ++ [.receive (pubrecOf 1), .resend true]) := by
  decide +kernel

/-- The PUBREC comes after the message is stored, and the check sends a PUBREL. -/
theorem not_published_again_stored :
    Trace.Always State.step NotPublishedAgain State.boot
      (publishAndCheck [] [.receive (pubrecOf 1)] ++ [.resend true]) :=
  not_published_again (by decide +kernel) (by decide +kernel)

end Emcs.Pico
