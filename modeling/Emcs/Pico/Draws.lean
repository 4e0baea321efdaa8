import Emcs.Mqttsn.MessageIds
import Emcs.Pico.ExactlyOnce

/-!
# The ids drawn in a run

Neither a packet nor a function moves `s_next_msg_id` but by drawing an id. So the ids of a run are
the first ones of the cycle, one after the other (`drawn_run`), and a run that draws at most 65534
of them draws none twice.

## What it is for

`NotReissued` is one of the two conditions under which no PUBLISH of QoS 2 is transmitted again
after its PUBREC, and the one that no single event shows. Here it is replaced by a bound on the
number of ids of the whole run (`not_published_again_of_few`).

## The invariant

`State.Counted` is kept by every event: the log is the beginning of the cycle, and the counter gives
the id that follows it.
-/

namespace Emcs.Pico

open Mqttsn

/-! ## A step -/

theorem nextMsgId_addTopic (c : Client) (topicName : List UInt8) (fill : TopicEntry → TopicEntry) :
    (addTopic c topicName fill).1.nextMsgId = c.nextMsgId := by
  rw [addTopic]
  split
  · rfl
  · split
    · rfl
    · rfl

/-- **The counter moves by drawing.** -/
theorem nextMsgId_exec (s : Control) (e : Event) :
    (s.exec e).1.client.nextMsgId = s.client.nextMsgId ∨
      (s.exec e).1.client.nextMsgId = (getNextMsgId s.client.nextMsgId).2 := by
  unfold Control.exec
  split
  · exact Or.inl (nextMsgId_udpRecv _ _)
  · exact Or.inl rfl
  · rw [mqttSnAddTopicForRegistration]
    split
    · exact Or.inl rfl
    · exact Or.inl (nextMsgId_addTopic _ _ _)
  · rw [mqttSnAddTopicForSubscription]
    split
    · exact Or.inl rfl
    split
    · exact Or.inl rfl
    · exact Or.inl (nextMsgId_addTopic _ _ _)
  · exact Or.inl rfl
  · dsimp only
    rw [publishId]
    split
    · exact Or.inr rfl
    · exact Or.inl rfl
  · exact Or.inl rfl
  · exact Or.inl rfl
  · exact Or.inl rfl
  · exact Or.inl rfl
  · exact Or.inl rfl
  · exact Or.inl rfl
  · split
    · exact Or.inr rfl
    · exact Or.inl rfl
  · exact Or.inl rfl
  · exact Or.inl rfl

/-- A step leaves the counter and the log, or draws the id that the counter gives. -/
theorem step_draws (s : State) (e : Event) :
    ((s.step e).client.nextMsgId = s.client.nextMsgId ∧ s.draw e = none) ∨
      ((s.step e).client.nextMsgId = (getNextMsgId s.client.nextMsgId).2 ∧
        s.draw e = some (getNextMsgId s.client.nextMsgId).1) := by
  rcases nextMsgId_exec s.toControl e with hsame | hdrawn
  · exact Or.inl ⟨hsame, if_pos hsame⟩
  · refine Or.inr ⟨hdrawn, if_neg ?_⟩
    rw [hdrawn]
    exact getNextMsgId_moves _

/-! ## Runs -/

/-- The ids drawn are the first ones of the cycle, and the counter gives the next one. -/
structure State.Counted (s : State) : Prop where
  drawn : s.drawn = (List.range' 0 s.drawn.length).map idAt
  next : getNextMsgId s.client.nextMsgId = (idAt s.drawn.length, idAt s.drawn.length + 1)

theorem counted_boot : State.boot.Counted := ⟨rfl, rfl⟩

theorem State.Counted.step {s : State} (h : s.Counted) (e : Event) : (s.step e).Counted := by
  have hlog : (s.step e).drawn = s.drawn ++ (s.draw e).toList := rfl
  rcases step_draws s e with ⟨hnext, hdraw⟩ | ⟨hnext, hdraw⟩
  · rw [hdraw, Option.toList_none, List.append_nil] at hlog
    exact ⟨hlog ▸ h.drawn, by rw [hnext, hlog, h.next]⟩
  · rw [hdraw, h.next, Option.toList_some] at hlog
    rw [h.next] at hnext
    have hlength : (s.step e).drawn.length = s.drawn.length + 1 := by
      rw [hlog, List.length_append, List.length_singleton]
    refine ⟨?_, ?_⟩
    · rw [hlength, List.range'_1_concat, List.map_append, ← h.drawn, hlog, Nat.zero_add]
      rfl
    · rw [hnext, hlength, getNextMsgId_idAt]

theorem counted_run (es : List Event) : (Trace.run State.step State.boot es).Counted :=
  Trace.run_invariant' (fun _ e h ↦ h.step e) es counted_boot

/-- **The ids of a run** are what as many calls of `get_next_msg_id` give after the boot. -/
theorem drawn_run (es : List Event) :
    (Trace.run State.step State.boot es).drawn
      = drawIds (Trace.run State.step State.boot es).drawn.length 1 := by
  rw [drawIds_eq (n := 0) rfl]
  exact (counted_run es).drawn

/-! ## Few draws -/

theorem State.Counted.notReissued {s : State} (h : s.Counted) {e : Event}
    (hfew : (s.step e).drawn.length ≤ 65534) : NotReissued s e := by
  intro mid hmid
  have hlog : (s.step e).drawn = s.drawn ++ [mid] := by
    rw [State.step, Option.mem_def.mp hmid, Option.toList_some]
  have hnodup : (s.step e).drawn.Nodup := by
    rw [(h.step e).drawn]
    exact nodup_map_idAt hfew
  rw [hlog, List.nodup_append] at hnodup
  exact fun hold ↦ hnodup.2.2 mid hold mid (List.mem_singleton_self mid) rfl

/-- **A run that draws at most 65534 ids draws none twice.** -/
theorem not_reissued {es : List Event}
    (hfew : (Trace.run State.step State.boot es).drawn.length ≤ 65534) :
    Trace.Always State.step NotReissued State.boot es := by
  induction es using List.reverseRecOn with
  | nil => trivial
  | append_singleton es e ih =>
    rw [Trace.run_append, Trace.run_cons, Trace.run_nil] at hfew
    have hfewer : (Trace.run State.step State.boot es).drawn.length ≤ 65534 := by
      refine le_trans ?_ hfew
      rw [State.step, List.length_append]
      exact Nat.le_add_right _ _
    exact Trace.always_append.mpr ⟨ih hfewer, (counted_run es).notReissued hfew, trivial⟩

/-- So a PUBLISH of QoS 2 is not transmitted again after its PUBREC where these come in time. -/
theorem not_published_again_of_few {es : List Event}
    (hfew : (Trace.run State.step State.boot es).drawn.length ≤ 65534)
    (htime : Trace.Always State.step PubrecInTime State.boot es) :
    Trace.Always State.step NotPublishedAgain State.boot es :=
  once_boot.always (not_reissued hfew) htime

end Emcs.Pico
