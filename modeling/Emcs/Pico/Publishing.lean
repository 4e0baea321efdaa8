import Emcs.Mqttsn.AtLeastOnce
import Emcs.Pico.ExactlyOnce

/-!
# The publishes of the Pico

A publish of QoS 1 or 2 is known from its beginning on. The message on its way to a slot, the slot,
the entry of `retry_list`, and what is sent for each of them stand for that call, with packets
handled between any two parts of the main loop.

## The books

`Books` has a clause for each place in which a message can be: the slots, the message on its way to
a slot, and the entries of `retry_list` that are still to be sent. What goes out is covered because
it is built from one of these. So the client keeps books in the sense of `Mqttsn.AtLeastOnce`, and
the rule there applies.
-/

namespace Emcs.Pico

open Mqttsn

/-- The publish of QoS 1 or 2 that begins in an event. -/
def Control.call (s : Control) : Event → Option Call
  | .publish topicId payload qos _ =>
    match s.task with
    | .idle => if 0 < qos then some ⟨topicId, payload, qos, (publishId s.client qos).1⟩ else none
    | _ => none
  | _ => none

/-- The packet that the callback dispatches; it has a header, and the `drop_acks` hook lets it
through. -/
def Control.handled (s : Control) : Event → Option (List UInt8)
  | .receive rx =>
    if rx.len < MQTTSN_HEADER_SIZE then none
    else if s.client.dropAcks && isQosAck (rx.data.getD 1 0) then none
    else some rx.data
  | _ => none

/-- The main loop and the background as a client that publishes. -/
def publisher : Publisher Control Event ℕ MAX_PENDING_QOS_MSGS where
  step s e := (s.exec e).1
  sent s e := (s.exec e).2.filterMap Action.out
  slots s := s.client.pendingMsgs
  call s e := s.call e
  packet s e := s.handled e

def Publish.call (p : Publish) : Call := ⟨p.topicId, p.payload, p.qos, p.msgId⟩

/-- What is held, is about to be stored or is about to be sent again stands for a call. -/
structure Books (calls : List Call) (s : Control) : Prop where
  slots : Known calls s.client.pendingMsgs
  storing : ∀ p, s.task = .storing p → p.call ∈ calls ∧ 0 < p.qos ∧ p.qos ≤ 2
  retrying : ∀ rs, s.task = .retrying rs → ∀ r ∈ rs, ∃ m : QosMsg ℕ, r = RetryEntry.copy m ∧
    ∃ call ∈ calls, call.Stores m

/-- Every PUBLISH with a message id that goes out stands for a call. -/
def SendsKnown (calls : List Call) (as : List Action) : Prop :=
  ∀ buf ∈ as.filterMap Action.out, Covered calls buf

variable {calls : List Call} {s : Control}

/-! ## What goes out -/

theorem sendsKnown_nil : SendsKnown calls [] := fun _ h ↦ absurd h List.not_mem_nil

theorem sendsKnown_of_sendNoPublish {as : List Action} (h : SendNoPublish as) :
    SendsKnown calls as := by
  intro buf hbuf
  exact covered_of_type calls (h _ _ (mem_out.mp hbuf))

/-- What is transmitted is the PUBLISH of the call, as far as it is known. -/
theorem sendsKnown_transmit {p : Publish} {ok : Bool} (h : ∀ k,
    Covered calls ((publishPacket p.topicId p.payload p.qos p.msgId).take k)) :
    SendsKnown calls (p.transmit ok) := by
  rw [Publish.transmit]
  split
  · intro buf hbuf
    obtain ⟨rfl, -⟩ := Action.send.inj (List.mem_singleton.mp (mem_out.mp hbuf))
    exact h p.packetLen
  · exact sendsKnown_nil

theorem sendsKnown_resend {m : QosMsg ℕ} {call : Call} (hcall : call ∈ calls)
    (hstores : call.Stores m) (ok : Bool) :
    SendsKnown calls ((RetryEntry.copy m).resend ok) := by
  have hpublish : SendsKnown calls
      ((⟨m.topicId, m.payload, m.qos.toNat, m.msgId⟩ : Publish).transmit ok) := by
    refine sendsKnown_transmit fun k ↦ ?_
    dsimp only
    rw [hstores.topicId, hstores.qos, hstores.msgId]
    exact Call.Sends.covered ⟨m.payload, k, hstores.payload, rfl⟩ hcall
  rw [RetryEntry.resend]
  split
  · exact hpublish
  split
  · split
    · exact hpublish
    · refine sendsKnown_of_sendNoPublish (sendNoPublish_singleton ?_)
      change MQTTSN_MSG_TYPE_PUBREL ≠ MQTTSN_MSG_TYPE_PUBLISH
      decide
  · exact sendsKnown_nil

/-! ## Parts of functions -/

theorem Books.append (h : Books calls s) (calls' : List Call) : Books (calls ++ calls') s where
  slots := h.slots.append calls'
  storing p hp := ⟨List.mem_append_left _ (h.storing p hp).1, (h.storing p hp).2⟩
  retrying rs hrs r hr := by
    obtain ⟨m, hm, call, hcall, hstores⟩ := h.retrying rs hrs r hr
    exact ⟨m, hm, call, List.mem_append_left _ hcall, hstores⟩

/-- Nothing is about to be stored or sent again. -/
def Task.Clear (task : Task) : Prop := (∀ p, task ≠ .storing p) ∧ ∀ rs, task ≠ .retrying rs

theorem Task.clear_idle : Task.idle.Clear := ⟨nofun, nofun⟩

theorem Task.clear_registering (now : ℕ) (is : List (Fin MAX_CUSTOM_TOPICS)) :
    (Task.registering now is).Clear := ⟨nofun, nofun⟩

theorem Task.clear_requesting (now : ℕ) (i : Fin MAX_CUSTOM_TOPICS) (mid : UInt16)
    (is : List (Fin MAX_CUSTOM_TOPICS)) : (Task.requesting now i mid is).Clear := ⟨nofun, nofun⟩

theorem Books.goto {c : Client} {task : Task} (hslots : Known calls c.pendingMsgs)
    (hclear : task.Clear) : Books calls ⟨c, task⟩ :=
  ⟨hslots, fun p hp ↦ absurd hp (hclear.1 p), fun rs hrs ↦ absurd hrs (hclear.2 rs)⟩

theorem Books.receive (h : Books calls s) (rx : Rx) :
    Books calls ⟨(udpRecvCallback s.client rx).1, s.task⟩ := by
  refine ⟨?_, h.storing, h.retrying⟩
  change Known calls (udpRecvCallback s.client rx).1.pendingMsgs
  rw [pendingMsgs_udpRecv, Rx.onPending]
  split
  · exact h.slots
  · exact h.slots.onPacket rx.data (rx.clock 0)

theorem Books.snapshot (h : Books calls s) (now : ℕ) (stamp : ℕ → ℕ) :
    Books calls ⟨(snapshot s.client now stamp).1, .retrying (snapshot s.client now stamp).2⟩ where
  slots := h.slots.retry (qosExpired now) (fun i ↦ stamp i) (get_snapshot s.client now stamp)
  storing _ hp := nomatch hp
  retrying rs hrs r hr := by
    obtain rfl := Task.retrying.inj hrs
    obtain ⟨i, huse, rfl⟩ := exists_of_mem_snapshot hr
    exact ⟨_, rfl, h.slots i huse⟩

/-- **No part of a function of the main loop breaks the books**, a publish apart. -/
theorem books_exec {e : Event}
    (hpublish : ∀ topicId payload qos ok, e ≠ .publish topicId payload qos ok)
    (h : Books calls s) : Books calls (s.exec e).1 ∧ SendsKnown calls (s.exec e).2 := by
  unfold Control.exec
  split
  · rename_i rx
    exact ⟨h.receive rx, sendsKnown_of_sendNoPublish (sendNoPublish_udpRecv s.client rx)⟩
  · exact ⟨⟨h.slots, h.storing, h.retrying⟩, sendsKnown_nil⟩
  · rename_i topicName htask
    refine ⟨⟨?_, h.storing, h.retrying⟩, sendsKnown_nil⟩
    change Known calls (mqttSnAddTopicForRegistration s.client topicName).1.pendingMsgs
    rw [mqttSnAddTopicForRegistration]
    split
    · exact h.slots
    · exact (pendingMsgs_addTopic _ _ _).symm ▸ h.slots
  · rename_i topicName qos htask
    refine ⟨⟨?_, h.storing, h.retrying⟩, sendsKnown_nil⟩
    change Known calls (mqttSnAddTopicForSubscription s.client topicName qos).1.pendingMsgs
    rw [mqttSnAddTopicForSubscription]
    split
    · exact h.slots
    split
    · exact h.slots
    · exact (pendingMsgs_addTopic _ _ _).symm ▸ h.slots
  · exact ⟨⟨h.slots, h.storing, h.retrying⟩, sendsKnown_nil⟩
  · exact absurd rfl (hpublish _ _ _ _)
  · rename_i p now htask
    obtain ⟨hcall, hqos⟩ := h.storing p htask
    exact ⟨.goto (h.slots.store hcall hqos now QOS_PAYLOAD_SIZE) Task.clear_idle, sendsKnown_nil⟩
  · exact ⟨h.snapshot _ _, sendsKnown_nil⟩
  · exact ⟨.goto h.slots Task.clear_idle, sendsKnown_nil⟩
  · rename_i r rs ok htask
    obtain ⟨m, rfl, call, hcall, hstores⟩ := h.retrying _ htask r List.mem_cons_self
    refine ⟨⟨h.slots, (by rintro _ ⟨⟩), fun rs' hrs r' hr' ↦ ?_⟩,
      sendsKnown_resend hcall hstores ok⟩
    obtain rfl := Task.retrying.inj hrs
    exact h.retrying _ htask r' (List.mem_cons_of_mem _ hr')
  · exact ⟨.goto h.slots (Task.clear_registering _ _), sendsKnown_nil⟩
  · exact ⟨.goto h.slots Task.clear_idle, sendsKnown_nil⟩
  · split
    · exact ⟨.goto h.slots (Task.clear_requesting _ _ _ _), sendsKnown_nil⟩
    · exact ⟨.goto h.slots (Task.clear_registering _ _), sendsKnown_nil⟩
  · exact ⟨.goto h.slots (Task.clear_registering _ _),
      sendsKnown_of_sendNoPublish (sendNoPublish_requestTopic _ _ _ _)⟩
  · exact ⟨h, sendsKnown_nil⟩

/-- **Every event keeps the books.** -/
theorem Books.exec (h : Books calls s) (e : Event) :
    Books (calls ++ (s.call e).toList) (s.exec e).1 ∧
      SendsKnown (calls ++ (s.call e).toList) (s.exec e).2 := by
  by_cases hpublish : ∃ topicId payload qos ok, e = .publish topicId payload qos ok
  · obtain ⟨topicId, payload, qos, ok, rfl⟩ := hpublish
    rcases exec_publish s topicId payload qos ok with heq | ⟨hidle, heq⟩
    · rw [heq]
      exact ⟨h.append _, sendsKnown_nil⟩
    have hcall : 0 < qos → (⟨topicId, payload, qos, (publishId s.client qos).1⟩ : Call)
        ∈ calls ++ (s.call (.publish topicId payload qos ok)).toList := by
      intro hpos
      simp only [Control.call, hidle, if_pos hpos]
      exact List.mem_append_right _ (List.mem_singleton_self _)
    have hslots := h.slots.append (s.call (.publish topicId payload qos ok)).toList
    rw [heq]
    generalize calls ++ (s.call (.publish topicId payload qos ok)).toList = calls' at hcall hslots ⊢
    constructor
    · dsimp only
      split
      · rename_i htracked
        have hqos := qos_of_tracked htracked
        refine ⟨hslots, fun p hp ↦ ?_, nofun⟩
        obtain rfl := Task.storing.inj hp
        exact ⟨hcall hqos.1, hqos⟩
      · exact .goto hslots Task.clear_idle
    · by_cases hpos : 0 < qos
      · exact sendsKnown_transmit fun k ↦
          Call.Sends.covered ⟨payload, k, List.prefix_refl _, rfl⟩ (hcall hpos)
      by_cases hzero : qos = 0
      · subst hzero
        exact sendsKnown_transmit fun k ↦ covered_of_qos0 calls' topicId payload _ k
      · -- a negative QoS is refused
        have hneg : ¬0 ≤ qos := by omega
        dsimp only
        rw [Publish.transmit, Publish.accepted, decide_eq_false hneg,
          Bool.false_and, Bool.false_and,
          if_neg Bool.false_ne_true]
        exact sendsKnown_nil
  · obtain ⟨hbooks, hsends⟩ := books_exec (e := e)
      (fun topicId payload qos ok heq ↦ hpublish ⟨topicId, payload, qos, ok, heq⟩)
      (h.append (s.call e).toList)
    exact ⟨hbooks, hsends⟩

/-- **The Pico keeps books of its publishes.** -/
theorem keeps_publisher : publisher.Keeps Books ⟨Client.boot, .idle⟩ where
  init := .goto (known_of_free [] rfl) Task.clear_idle
  step e h := (h.exec e).1
  sent e h := (h.exec e).2
  slot h := h.slots
  freed s e data hdata htype i huse hfree := by
    cases e with
    | receive rx =>
      have hsome : rx.data = data := by
        change (if _ then _ else if _ then _ else some rx.data) = some data at hdata
        simp only [Option.ite_none_left_eq_some] at hdata
        exact Option.some.inj hdata.2.2
      subst hsome
      change (udpRecvCallback s.client rx).1.pendingMsgs[i].inUse = false at hfree
      rw [pendingMsgs_udpRecv, Rx.onPending] at hfree
      split at hfree
      · exact absurd (hfree.symm.trans huse) Bool.false_ne_true
      · exact of_freed_onPacket htype huse hfree
    | _ => cases hdata

end Emcs.Pico
