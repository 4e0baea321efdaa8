import Emcs.Dashboard.Server
import Emcs.Lib.Trace
import Mathlib.Algebra.BigOperators.Group.Finset.Basic
import Mathlib.Data.List.AList

/-!
# What a run has received

The requests alone say when a run is active, and so which messages it has received since its start:
that is a `Watch`. The backend follows it (`follows_run`): the statistics of a run are those that
its message handler reaches on the messages of the watch, whatever else has happened.

What is left is a fold over a list of messages. For one key of `seqTrack` it is a fold over the
sequence numbers of that key (`lookup_received`), with the step `arrive`.

## The invariant

`Follows` compares the backend with two watches, one for each mode: a run is active where its watch
runs, and its statistics are what the handler makes of the messages of the watch, from a fresh run
on. At most one watch runs, because a start stops the other. No property of the statistics is needed
to show it, so every property of them can be shown by induction on the messages alone.
-/

namespace Emcs.Dashboard

/-! ## Runs from outside -/

/-- Whether a run is active, and the messages it has received since its start. -/
structure Watch where
  running : Bool
  log : List Message

def Watch.idle : Watch := ⟨false, []⟩

def Watch.step (mode : Mode) (w : Watch) : Event → Watch
  | .message msg => if w.running && !msg.isCmd then { w with log := w.log ++ [msg] } else w
  | .runStart mode' _ _ => if mode' = mode then ⟨true, []⟩ else { w with running := false }
  | .runStop _ => { w with running := false }
  | .runStopMode mode' _ => if mode' = mode then { w with running := false } else w
  | .reset _ => Watch.idle
  | .setMode _ | .runStats | .exportStats | .cmd => w

def watch (mode : Mode) (es : List Event) : Watch := Trace.run (Watch.step mode) Watch.idle es

/-- The statistics that the message handler reaches on the messages of `log`. -/
def received (mode : Mode) (log : List Message) : Run :=
  log.foldl (Run.receive mode) (freshRun mode)

theorem received_concat (mode : Mode) (log : List Message) (msg : Message) :
    received mode (log ++ [msg]) = (received mode log).receive mode msg := by
  rw [received, received, List.foldl_append, List.foldl_cons, List.foldl_nil]

/-! ## One number -/

/-- `seq` is not larger than the last number of its key. -/
def isDupe (t : Option Track) (seq : ℤ) : Bool := t.any fun t ↦ seq ≤ t.last

/-- The numbers left out before `seq`. -/
def gapTo (t : Option Track) (seq : ℤ) : ℤ :=
  if isDupe t seq then 0 else t.elim 0 fun t ↦ seq - t.last - 1

/-- The entry of a key after `seq` has arrived. -/
def arrive (t : Option Track) (seq : ℤ) : Track where
  last := t.elim seq fun t ↦ max t.last seq
  gaps := t.elim 0 Track.gaps + (gapTo t seq).toNat
  dupes := t.elim 0 Track.dupes + if isDupe t seq then 1 else 0

/-- **What `trackSeq` does** with a number. -/
theorem trackSeq_some (r : Run) (topic node : Text) (seq : ℤ) :
    let key := trackKey topic node
    let t := r.seqTrack.lookup key
    trackSeq r topic node (some seq) =
      ({ r with seqTrack := r.seqTrack.insert key (arrive t seq),
                dupes := r.dupes + if isDupe t seq then 1 else 0,
                gaps := r.gaps + (gapTo t seq).toNat }, ⟨isDupe t seq, gapTo t seq⟩) := by
  intro key t
  rw [trackSeq]
  cases ht : r.seqTrack.lookup key with
  | none => simp [key, t, ht, arrive, isDupe, gapTo]
  | some e =>
    by_cases hle : seq ≤ e.last
    · simp [key, t, ht, arrive, isDupe, gapTo, hle]
    · have hmax : max e.last seq = seq := max_eq_right (not_le.mp hle).le
      have hmissed : (if seq - e.last - 1 > 0 then (seq - e.last - 1).toNat else 0)
          = (seq - e.last - 1).toNat := by
        split <;> omega
      dsimp only
      rw [if_neg hle, hmissed]
      simp [key, t, ht, arrive, isDupe, gapTo, hle, hmax]

theorem trackSeq_none (r : Run) (topic node : Text) :
    trackSeq r topic node none = (r, ⟨false, 0⟩) := rfl

/-! ## One message -/

/-- The key of a message in `seqTrack`. -/
def Message.key (msg : Message) : Text := trackKey msg.topic msg.node

/-- The element of `events` that a message leads to. -/
def Run.event (mode : Mode) (r : Run) (msg : Message) : RunEvent :=
  runEvent mode msg (trackSeq r msg.topic msg.node msg.seq).2

section Receive

variable (mode : Mode) (r : Run) (msg : Message)

@[simp] theorem receive_pkts : (r.receive mode msg).pkts = r.pkts + 1 := by
  cases hseq : msg.seq with
  | none => simp only [Run.receive, hseq, trackSeq_none]
  | some seq => simp only [Run.receive, hseq, trackSeq_some]

@[simp] theorem receive_perNode :
    (r.receive mode msg).perNode = r.perNode.count (bucket msg.node) := by
  cases hseq : msg.seq with
  | none => simp only [Run.receive, hseq, trackSeq_none]
  | some seq => simp only [Run.receive, hseq, trackSeq_some]

theorem receive_events : (r.receive mode msg).events = pushEvent r.events (r.event mode msg) := by
  cases hseq : msg.seq with
  | none => simp only [Run.receive, Run.event, hseq, trackSeq_none]
  | some seq => simp only [Run.receive, Run.event, hseq, trackSeq_some]

variable {msg}

theorem receive_of_none (h : msg.seq = none) : (r.receive mode msg).seqTrack = r.seqTrack ∧
    (r.receive mode msg).dupes = r.dupes ∧ (r.receive mode msg).gaps = r.gaps := by
  simp only [Run.receive, h, trackSeq_none, and_self]

theorem receive_of_some {seq : ℤ} (h : msg.seq = some seq) :
    let t := r.seqTrack.lookup msg.key
    (r.receive mode msg).seqTrack = r.seqTrack.insert msg.key (arrive t seq) ∧
    (r.receive mode msg).dupes = r.dupes + (if isDupe t seq then 1 else 0) ∧
    (r.receive mode msg).gaps = r.gaps + (gapTo t seq).toNat := by
  simp only [Run.receive, h, trackSeq_some]
  exact ⟨rfl, rfl, rfl⟩

theorem event_isDupe {seq : ℤ} (h : msg.seq = some seq) :
    (r.event mode msg).isDupe = isDupe (r.seqTrack.lookup msg.key) seq := by
  simp only [Run.event, runEvent, h, trackSeq_some, Message.key]

end Receive

/-! ## The backend follows the watches -/

/-- A run without its times and its flag, which are not the message handler's. -/
def Run.statistics (r : Run) : Run := { r with active := false, startTime := none, endTime := none }

theorem statistics_receive (mode : Mode) (r : Run) (msg : Message) :
    (r.receive mode msg).statistics = r.statistics.receive mode msg := by
  cases hseq : msg.seq with
  | none => simp only [Run.receive, hseq, trackSeq_none, Run.statistics]
  | some seq => simp only [Run.receive, hseq, trackSeq_some, Run.statistics]

/-- The handler of messages changes neither the times nor the flag of a run. -/
theorem receive_frame (mode : Mode) (r : Run) (msg : Message) :
    (r.receive mode msg).active = r.active ∧ (r.receive mode msg).startTime = r.startTime ∧
      (r.receive mode msg).endTime = r.endTime := by
  cases hseq : msg.seq with
  | none => simp only [Run.receive, hseq, trackSeq_none, and_self]
  | some seq => simp only [Run.receive, hseq, trackSeq_some, and_self]

/-- What the watches `w` say of the state. -/
structure Follows (s : Server) (w : Mode → Watch) : Prop where
  activeRun : ∀ m, s.activeRun = some m ↔ (w m).running = true
  active : ∀ m, (s.runs m).active = (w m).running
  statistics : ∀ m, (s.runs m).statistics = received m (w m).log

theorem follows_boot : Follows Server.boot fun _ ↦ Watch.idle where
  activeRun m := iff_of_false (Option.some_ne_none m).symm Bool.false_ne_true
  active _ := rfl
  statistics _ := rfl

/-- A watch that is stopped. -/
def Watch.stop (w : Watch) : Watch := { w with running := false }

@[simp] theorem Watch.stop_running (w : Watch) : w.stop.running = false := rfl

@[simp] theorem Watch.stop_log (w : Watch) : w.stop.log = w.log := rfl

theorem Watch.stop_of_not_running {w : Watch} (h : ¬w.running = true) : w.stop = w := by
  rw [Watch.stop, ← Bool.eq_false_iff.mpr h]

theorem Follows.stopRun {s : Server} {w : Mode → Watch} (h : Follows s w) (mode : Mode) (now : ℕ) :
    Follows (stopRun s mode now) fun m ↦ if mode = m then (w m).stop else w m := by
  refine ⟨fun m ↦ ?_, fun m ↦ ?_, fun m ↦ ?_⟩
  · rw [stopRun_activeRun]
    by_cases hm : mode = m
    · subst hm
      rw [if_pos rfl, Watch.stop_running]
      refine iff_of_false ?_ Bool.false_ne_true
      split
      · exact (Option.some_ne_none mode).symm
      · assumption
    · rw [if_neg hm, ← h.activeRun]
      split
      · next hs =>
        rw [hs, Option.some_inj]
        exact iff_of_false (Option.some_ne_none m).symm hm
      · exact Iff.rfl
  · rw [stopRun_runs]
    by_cases hm : mode = m
    · subst hm
      rw [Function.update_self, if_pos rfl, Watch.stop_running]
    · rw [Function.update_of_ne (Ne.symm hm), if_neg hm, h.active]
  · rw [stopRun_runs]
    by_cases hm : mode = m
    · subst hm
      rw [Function.update_self, if_pos rfl, Watch.stop_log, ← h.statistics]
      rfl
    · rw [Function.update_of_ne (Ne.symm hm), if_neg hm, h.statistics]

theorem Follows.running_unique {s : Server} {w : Mode → Watch} (h : Follows s w) {m m' : Mode}
    (hm : (w m).running = true) (hm' : (w m').running = true) : m = m' := by
  rw [← h.activeRun] at hm hm'
  rw [hm] at hm'
  exact Option.some_inj.mp hm'

theorem Follows.stopActive {s : Server} {w : Mode → Watch} (h : Follows s w) (now : ℕ) :
    Follows (stopActive s now) fun m ↦ (w m).stop := by
  cases hs : s.activeRun with
  | none =>
    have hstop : (fun m ↦ (w m).stop) = w := by
      funext m
      apply Watch.stop_of_not_running
      rw [← h.activeRun, hs]
      exact (Option.some_ne_none m).symm
    rw [Dashboard.stopActive, hs, hstop]
    exact h
  | some mode =>
    have hstop : (fun m ↦ (w m).stop) = fun m ↦ if mode = m then (w m).stop else w m := by
      funext m
      by_cases hm : mode = m
      · rw [if_pos hm]
      · rw [if_neg hm]
        apply Watch.stop_of_not_running
        rw [← h.activeRun, hs, Option.some_inj]
        exact hm
    rw [Dashboard.stopActive, hs, hstop]
    exact h.stopRun mode now

theorem Follows.startRun {s : Server} {w : Mode → Watch} (h : Follows s w) (mode : Mode)
    (stopNow now : ℕ) :
    Follows (startRun s mode stopNow now) fun m ↦ if mode = m then ⟨true, []⟩ else (w m).stop := by
  have hstop := h.stopActive stopNow
  simp only [Dashboard.startRun]
  refine ⟨fun m ↦ ?_, fun m ↦ ?_, fun m ↦ ?_⟩
  · by_cases hm : mode = m
    · rw [if_pos hm, Option.some_inj]
      exact iff_of_true hm rfl
    · rw [if_neg hm, Option.some_inj]
      exact iff_of_false hm Bool.false_ne_true
  · by_cases hm : mode = m
    · subst hm
      simp only [Function.update_self, if_pos]
    · simp only [Function.update_of_ne (Ne.symm hm), if_neg hm]
      exact hstop.active m
  · by_cases hm : mode = m
    · subst hm
      simp only [Function.update_self, if_pos]
      rfl
    · simp only [Function.update_of_ne (Ne.symm hm), if_neg hm]
      exact hstop.statistics m

theorem Watch.step_message_of_not_running {w : Watch} (h : ¬w.running = true) (mode : Mode)
    (msg : Message) : w.step mode (.message msg) = w := by
  simp [Watch.step, h]

theorem Follows.onMessage {s : Server} {w : Mode → Watch} (h : Follows s w) (msg : Message) :
    Follows (onMessage s msg) fun m ↦ (w m).step m (.message msg) := by
  by_cases hcmd : msg.isCmd = true
  · have hstep : (fun m ↦ (w m).step m (.message msg)) = w := by
      funext m
      simp [Watch.step, hcmd]
    rw [Dashboard.onMessage, if_pos hcmd, hstep]
    exact h
  -- a message is for the active run, if there is one
  cases hs : s.activeRun with
  | none =>
    have hstep : (fun m ↦ (w m).step m (.message msg)) = w := by
      funext m
      apply Watch.step_message_of_not_running
      rw [← h.activeRun, hs]
      exact (Option.some_ne_none m).symm
    rw [hstep]
    constructor
    · rw [onMessage_activeRun]
      exact h.activeRun
    · rw [onMessage_runs_of_none hs]
      exact h.active
    · rw [onMessage_runs_of_none hs]
      exact h.statistics
  | some mode =>
    have hmode : (w mode).running = true := (h.activeRun mode).mp hs
    have hlog : (w mode).step mode (.message msg) = ⟨true, (w mode).log ++ [msg]⟩ := by
      simp [Watch.step, hmode, hcmd]
    -- no other watch is running
    have hother : ∀ m, mode ≠ m → (w m).step m (.message msg) = w m := by
      intro m hm
      apply Watch.step_message_of_not_running
      exact fun hrun ↦ hm (h.running_unique hmode hrun)
    constructor
    · intro m
      rw [onMessage_activeRun, h.activeRun]
      by_cases hm : mode = m
      · subst hm
        rw [hlog, hmode]
      · rw [hother m hm]
    · intro m
      rw [onMessage_runs_of_some hs hcmd]
      by_cases hm : mode = m
      · subst hm
        rw [Function.update_self, hlog, (receive_frame mode _ msg).1, h.active, hmode]
      · rw [Function.update_of_ne (Ne.symm hm), hother m hm, h.active]
    · intro m
      rw [onMessage_runs_of_some hs hcmd]
      by_cases hm : mode = m
      · subst hm
        rw [Function.update_self, hlog, statistics_receive, h.statistics, received_concat]
      · rw [Function.update_of_ne (Ne.symm hm), hother m hm, h.statistics]

theorem follows_reset (s : Server) (now : ℕ) : Follows (reset s now) fun _ ↦ Watch.idle := by
  have hnone : (stopActive s now).activeRun = none := by
    rw [Dashboard.stopActive]
    cases hs : s.activeRun with
    | none => exact hs
    | some mode => rw [stopRun_activeRun, if_pos hs]
  refine ⟨fun m ↦ ?_, fun m ↦ rfl, fun m ↦ rfl⟩
  simp only [reset, hnone]
  exact iff_of_false (Option.some_ne_none m).symm Bool.false_ne_true

/-- **One event** moves the backend as it moves the watches. -/
theorem Follows.step {s : Server} {w : Mode → Watch} (h : Follows s w) (e : Event) :
    Follows (step s e) fun m ↦ (w m).step m e := by
  cases e with
  | message msg => exact h.onMessage msg
  | setMode mode => exact ⟨h.activeRun, h.active, h.statistics⟩
  | runStart mode stopNow now => exact h.startRun mode stopNow now
  | runStop now => exact h.stopActive now
  | runStopMode mode now => exact h.stopRun mode now
  | runStats => exact h
  | exportStats => exact h
  | cmd => exact h
  | reset now => exact follows_reset s now

/-- **The backend follows the watches** in every run. -/
theorem follows_run (es : List Event) :
    Follows (Trace.run step Server.boot es) fun m ↦ watch m es := by
  induction es using List.reverseRecOn with
  | nil => exact follows_boot
  | append_singleton es e ih =>
    have hwatch : ∀ m, watch m (es ++ [e]) = (watch m es).step m e := fun m ↦
      Trace.run_append _ _ _ _
    rw [Trace.run_append]
    simp only [hwatch]
    exact ih.step e

end Emcs.Dashboard
