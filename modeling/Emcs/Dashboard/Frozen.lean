import Emcs.Dashboard.Server
import Emcs.Lib.Trace

/-!
# A finished run

A run that has been stopped receives nothing, so that only a request that stops it once more can
change it: `/run/stop/:mode` does not ask whether the run is active. `step_runs` says what one event
does to a run that is not the active one.

## The proof

After the stop the run is not the active one, and stays so as long as it is not started. Then a
message is counted elsewhere, and of the requests only `/run/stop/:mode` touches it, which sets its
end and nothing else (`step_runs`). A summary shows the end and the duration, so it stays what it
was exactly if the end does.
-/

namespace Emcs.Dashboard

/-- The time at which an event stops the run, if it does. -/
def stopTime (s : Server) (mode : Mode) : Event → Option ℕ
  | .runStart mode' stopNow _ =>
      if s.activeRun = some mode ∧ mode' ≠ mode then some stopNow else none
  | .runStop now => if s.activeRun = some mode then some now else none
  | .runStopMode mode' now => if mode' = mode then some now else none
  | _ => none

/-- The event starts the run afresh, or clears it. -/
def Event.clears (mode : Mode) : Event → Bool
  | .runStart mode' _ _ => mode' = mode
  | .reset _ => true
  | _ => false

/-- A run with its end. -/
def Run.stopped (r : Run) (now : ℕ) : Run := { r with active := false, endTime := some now }

theorem stopRun_self (s : Server) (mode : Mode) (now : ℕ) :
    (stopRun s mode now).runs mode = (s.runs mode).stopped now := by
  rw [stopRun_runs, Function.update_self]
  rfl

theorem stopRun_of_ne (s : Server) {mode mode' : Mode} (h : mode ≠ mode') (now : ℕ) :
    (stopRun s mode' now).runs mode = s.runs mode := by
  rw [stopRun_runs, Function.update_of_ne h]

theorem stopRun_activeRun_ne {s : Server} {mode : Mode} (mode' : Mode) (now : ℕ)
    (h : mode' = mode ∨ s.activeRun ≠ some mode) : (stopRun s mode' now).activeRun ≠ some mode := by
  rw [stopRun_activeRun]
  split
  · exact (Option.some_ne_none mode).symm
  · next hs =>
    rcases h with rfl | h
    · exact hs
    · exact h

/-- **The state right after a stop.** -/
theorem step_of_stopTime {s : Server} {mode : Mode} {e : Event} {t : ℕ}
    (h : stopTime s mode e = some t) :
    (step s e).activeRun ≠ some mode ∧ (step s e).runs mode = (s.runs mode).stopped t := by
  cases e with
  | runStart mode' stopNow now =>
    obtain ⟨⟨hactive, hne⟩, ⟨⟩⟩ := Option.ite_none_right_eq_some.mp h
    simp only [step, startRun, stopActive, hactive]
    rw [Function.update_of_ne (Ne.symm hne), stopRun_self]
    exact ⟨fun heq ↦ hne (Option.some_inj.mp heq), rfl⟩
  | runStop now =>
    obtain ⟨hactive, ⟨⟩⟩ := Option.ite_none_right_eq_some.mp h
    simp only [step, stopActive, hactive]
    exact ⟨stopRun_activeRun_ne _ _ (Or.inl rfl), stopRun_self s mode t⟩
  | runStopMode mode' now =>
    obtain ⟨rfl, ⟨⟩⟩ := Option.ite_none_right_eq_some.mp h
    exact ⟨stopRun_activeRun_ne _ _ (Or.inl rfl), stopRun_self s _ t⟩
  | message | setMode | runStats | exportStats | cmd | reset =>
    exact absurd h (Option.some_ne_none t).symm

theorem onMessage_of_ne {s : Server} {mode : Mode} (hs : s.activeRun ≠ some mode) (msg : Message) :
    (onMessage s msg).runs mode = s.runs mode := by
  by_cases hcmd : msg.isCmd = true
  · rw [onMessage, if_pos hcmd]
  cases hmode' : s.activeRun with
  | none => rw [onMessage_runs_of_none hmode']
  | some mode' =>
    have hne : mode ≠ mode' := fun heq ↦ hs (heq ▸ hmode')
    rw [onMessage_runs_of_some hmode' hcmd, Function.update_of_ne hne]

/-- Only the active run is stopped by `/run/stop` and by the start of a run. -/
theorem stopActive_of_ne {s : Server} {mode : Mode} (hs : s.activeRun ≠ some mode) (now : ℕ) :
    (stopActive s now).activeRun ≠ some mode ∧ (stopActive s now).runs mode = s.runs mode := by
  rw [stopActive]
  split
  · exact ⟨hs, rfl⟩
  · next mode' hmode' =>
    have hne : mode ≠ mode' := fun heq ↦ hs (heq ▸ hmode')
    exact ⟨stopRun_activeRun_ne _ _ (Or.inr hs), stopRun_of_ne s hne now⟩

/-- **What one event does to a run that is not active**, unless it clears it: nothing, or it stops
the run once more. -/
theorem step_runs {s : Server} {mode : Mode} (hs : s.activeRun ≠ some mode) {e : Event}
    (he : e.clears mode = false) : (step s e).activeRun ≠ some mode ∧
      (step s e).runs mode = (stopTime s mode e).elim (s.runs mode) (s.runs mode).stopped := by
  cases e with
  | message msg =>
    constructor
    · rw [step, onMessage_activeRun]
      exact hs
    · exact onMessage_of_ne hs msg
  | runStart mode' stopNow now =>
    have hne : mode' ≠ mode := of_decide_eq_false he
    rw [stopTime, if_neg fun h ↦ hs h.1]
    constructor
    · exact fun heq ↦ hne (Option.some_inj.mp heq)
    · simp only [step, startRun]
      rw [Function.update_of_ne (Ne.symm hne)]
      exact (stopActive_of_ne hs stopNow).2
  | runStop now =>
    rw [stopTime, if_neg hs]
    exact stopActive_of_ne hs now
  | runStopMode mode' now =>
    constructor
    · exact stopRun_activeRun_ne _ _ (Or.inr hs)
    · by_cases hm : mode' = mode
      · subst hm
        rw [stopTime, if_pos rfl]
        exact stopRun_self s _ now
      · rw [stopTime, if_neg hm]
        exact stopRun_of_ne s (Ne.symm hm) now
  | reset => exact absurd he Bool.false_ne_true.symm
  | setMode | runStats | exportStats | cmd => exact ⟨hs, rfl⟩

/-- The run stays as it is while every stop comes at the time `t` of its end. -/
theorem run_frozen {s : Server} {mode : Mode} {r : Run} {t : ℕ} (hs : s.activeRun ≠ some mode)
    (hr : s.runs mode = r.stopped t) {later : List Event}
    (hlater : ∀ e ∈ later, e.clears mode = false)
    (ht : ∀ t', .runStopMode mode t' ∈ later → t' = t) :
    (Trace.run step s later).runs mode = r.stopped t := by
  induction later generalizing s with
  | nil => exact hr
  | cons e later ih =>
    obtain ⟨hactive, hruns⟩ := step_runs hs (hlater e List.mem_cons_self)
    have hr' : (step s e).runs mode = r.stopped t := by
      rw [hruns]
      cases hstop : stopTime s mode e with
      | none => exact hr
      | some t' =>
        -- only `/run/stop/:mode` stops a run that is not active
        have htime : t' = t := by
          cases e with
          | runStart => exact absurd (Option.ite_none_right_eq_some.mp hstop).1.1 hs
          | runStop => exact absurd (Option.ite_none_right_eq_some.mp hstop).1 hs
          | runStopMode mode' now =>
            obtain ⟨rfl, ⟨⟩⟩ := Option.ite_none_right_eq_some.mp hstop
            exact ht t' List.mem_cons_self
          | message | setMode | runStats | exportStats | cmd | reset =>
            exact absurd hstop (Option.some_ne_none t').symm
        rw [htime, hr]
        rfl
    exact ih hactive hr' (fun e' he' ↦ hlater e' (List.mem_cons_of_mem _ he'))
      fun t' ht' ↦ ht t' (List.mem_cons_of_mem _ ht')

theorem duration_eq_iff (startTime : Option ℕ) (t : ℕ) :
    (∀ now now', duration startTime (some t) now = duration startTime (some t) now') ↔
      (t = 0 → truthy startTime = none) := by
  cases hstart : truthy startTime with
  | none => simp [duration, hstart]
  | some start =>
    by_cases hzero : t = 0
    · subst hzero
      refine iff_of_false (fun h ↦ ?_) fun h ↦ Option.some_ne_none start (h rfl)
      have hsame := h 0 1
      simp only [duration, hstart, truthy_zero, Option.getD_none] at hsame
      omega
    · simp [duration, hstart, truthy_of_ne hzero, hzero]

theorem buildSummary_congr {s s' : Server} {mode : Mode} {now now' : ℕ}
    (hruns : s.runs mode = s'.runs mode)
    (hduration : duration (s'.runs mode).startTime (s'.runs mode).endTime now
      = duration (s'.runs mode).startTime (s'.runs mode).endTime now') :
    buildSummary s mode now = buildSummary s' mode now' := by
  simp only [buildSummary, hruns, hduration]

/-- **A stopped run is frozen exactly if it is stopped at no other time.** After the event `e` has
stopped the run at the time `t`, and as long as the run is neither started nor cleared, its summary
stays what it was right after the stop if and only if every `/run/stop/:mode` for it comes at the
time `t` again (and a run that has been started is not stopped at the time 0, which counts as no
end). -/
theorem frozen_iff (es : List Event) (mode : Mode) {e : Event} {t : ℕ}
    (he : stopTime (Trace.run step Server.boot es) mode e = some t) {later : List Event}
    (hlater : ∀ e ∈ later, e.clears mode = false) :
    (∀ p, p <+: later → ∀ now now',
      buildSummary (Trace.run step Server.boot (es ++ e :: p)) mode now
        = buildSummary (Trace.run step Server.boot (es ++ [e])) mode now') ↔
    (∀ t', .runStopMode mode t' ∈ later → t' = t) ∧
      (t = 0 → truthy ((Trace.run step Server.boot es).runs mode).startTime = none) := by
  obtain ⟨hactive, hruns⟩ := step_of_stopTime he
  have hrun : ∀ p, Trace.run step Server.boot (es ++ e :: p)
      = Trace.run step (step (Trace.run step Server.boot es) e) p := fun p ↦ by
    rw [Trace.run_append, Trace.run_cons]
  simp only [hrun, Trace.run_nil]
  generalize step (Trace.run step Server.boot es) e = s at hactive hruns ⊢
  generalize (Trace.run step Server.boot es).runs mode = r at hruns ⊢
  constructor
  · intro h
    constructor
    · intro t' ht'
      -- look at the summary right after the stop in question
      obtain ⟨p, q, rfl⟩ := List.append_of_mem ht'
      have hend : (Trace.run step s (p ++ [.runStopMode mode t'])).runs mode
          = ((Trace.run step s p).runs mode).stopped t' := by
        rw [Trace.run_append]
        exact stopRun_self _ mode t'
      have hsame := congrArg Summary.endTime
        (h (p ++ [.runStopMode mode t']) ⟨q, List.append_cons p _ q ▸ rfl⟩ 0 0)
      simp only [buildSummary, hend, hruns, Run.stopped] at hsame
      exact Option.some_inj.mp hsame
    -- right after the first stop only the clock can make a difference
    · rw [← duration_eq_iff]
      intro now now'
      have hsame := congrArg Summary.duration (h [] List.nil_prefix now now')
      simp only [buildSummary, Trace.run_nil, hruns] at hsame
      exact hsame
  · rintro ⟨htimes, hclock⟩ p hp now now'
    have hmem : ∀ e' ∈ p, e' ∈ later := fun e' he' ↦ hp.subset he'
    have hsame := run_frozen hactive hruns (fun e' he' ↦ hlater e' (hmem e' he'))
      fun t' ht' ↦ htimes t' (hmem _ ht')
    refine buildSummary_congr (hsame.trans hruns.symm) ?_
    rw [hruns]
    exact (duration_eq_iff _ _).mpr hclock now now'

/-- A reading of arduino-02. -/
def reading (seq : String) : Event :=
  .message ⟨"sensors/data".toList, "arduino-02 ".toList ++ seq.toList, [], 2000⟩

/-- The routing run receives two readings, with one missing between them. It is stopped, and a third
reading comes too late. -/
theorem frozen_iff_routing :
    let es := [Event.runStart .routing 0 1000, reading "1", reading "3"]
    let later := [reading "4", .setMode .flooding, .runStopMode .flooding 8000, .runStats]
    (Trace.run step Server.boot es).activeRun = some .routing ∧
      (buildSummary (Trace.run step Server.boot (es ++ [.runStop 5000])) .routing 5000).pkts = 2 ∧
      ∀ p, p <+: later → ∀ now now',
        buildSummary (Trace.run step Server.boot (es ++ .runStop 5000 :: p)) .routing now
          = buildSummary (Trace.run step Server.boot (es ++ [.runStop 5000])) .routing now' := by
  intro es later
  have hactive : (Trace.run step Server.boot es).activeRun = some .routing := by decide +kernel
  have hstop : stopTime (Trace.run step Server.boot es) .routing (.runStop 5000) = some 5000 := by
    rw [stopTime, if_pos hactive]
  have hlater : ∀ e ∈ later, e.clears .routing = false := by decide
  refine ⟨hactive, by decide +kernel, (frozen_iff es .routing hstop hlater).mpr ⟨?_, ?_⟩⟩
  · intro t' ht'
    simp [later, reading] at ht'
  · intro hzero
    exact absurd hzero (by decide)

/-- Stopped at 5 s and once more at 9 s: the run that took 4 s is said to have taken 8 s. -/
theorem second_stop_moves_end :
    let es := [Event.runStart .flooding 0 1000, .runStop 5000]
    let first := buildSummary (Trace.run step Server.boot es) .flooding 5000
    let again := buildSummary (Trace.run step Server.boot (es ++ [.runStopMode .flooding 9000]))
      .flooding 9000
    first.endTime = some 5000 ∧ first.duration = 4000 ∧
    again.endTime = some 9000 ∧ again.duration = 8000 ∧ again ≠ first := by
  refine ⟨rfl, rfl, rfl, rfl, fun h ↦ ?_⟩
  exact absurd (congrArg Summary.duration h) (by decide)

end Emcs.Dashboard
