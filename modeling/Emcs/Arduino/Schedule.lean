import Emcs.Arduino.Ready
import Emcs.Lib.Clock
import Emcs.Lib.Tenure

/-!
# The publish schedule

In `STATE_READY` the sketch publishes three times with QoS 0 and once with QoS 1, and starts over. A
phase says which publish is next; two times and two counters go with it, and deferred
acknowledgements put one of the times off. The schedule is about these five variables only: `Timers`
is what they are, `Timers.Step` what a call of `loop` can do to them, and every call in
`STATE_READY` does one of these five things.

Each publish waits for a time that was set when the last one was made, or later. The clock wraps,
and a difference of its readings never shows more than has passed, so the waits are never too short.

## The invariant

`OnSchedule` says of the publishes made so far that they are spaced and in turn, that the counters
count them, and, by the phase, how long ago the last one was at least. The step lemma is about
`Timers.Step` alone. What remains for the sketch is to show that a call of `loop` in `STATE_READY`
is such a step, and that other calls leave the five variables alone or, on entering the state, set
them.
-/

namespace Emcs.Arduino

open Mqttsn Clock Trace

/-! ## The schedule -/

/-- The variables that the schedule is made of. -/
structure Timers where
  lastPubQos0 : UInt32
  seqPhase : UInt8
  seqPhaseMs : UInt32
  pubCountQos0 : UInt16
  pubCountQos1 : UInt16

namespace Timers

/-- What a call in `STATE_READY` at the clock reading `now` does, with the QoS of the publish it
makes. -/
inductive Step (now : UInt32) : Timers → Option ℤ → Timers → Prop where
  | idle (T : Timers) : Step now T none T
  | defer (T : Timers) : Step now T none { T with lastPubQos0 := now }
  | qos0 (T : Timers) (hphase : T.seqPhase < 3) (hwait : now - T.lastPubQos0 ≥ PUB_QOS0_MS) :
    Step now T (some 0) { T with
      lastPubQos0 := now, pubCountQos0 := T.pubCountQos0 + 1, seqPhase := T.seqPhase + 1,
      seqPhaseMs := if T.seqPhase + 1 = 3 then now else T.seqPhaseMs }
  | qos1 (T : Timers) (hphase : T.seqPhase = 3) (hwait : now - T.seqPhaseMs ≥ PUB_QOS1_MS) :
    Step now T (some 1) { T with
      pubCountQos1 := T.pubCountQos1 + 1, seqPhase := 4, seqPhaseMs := now }
  | restart (T : Timers) (hphase : T.seqPhase = 4) (hwait : now - T.seqPhaseMs ≥ PUB_QOS1_MS) :
    Step now T none { T with seqPhase := 0, lastPubQos0 := now }

/-- The QoS of the publishes, in their order. -/
def slotQos (k : ℕ) : ℤ := if k % 4 = 3 then 1 else 0

/-- The reading `r` was taken after the publishes `log`, if there are any, and not after `t`. -/
def Since (r : UInt32) (log : List (ℕ × ℤ)) (t : ℕ) : Prop :=
  log = [] ∨ ∃ τ ≤ t, r = clock τ ∧ ∀ p ∈ log, p.1 ≤ τ

theorem Since.mono {r : UInt32} {log : List (ℕ × ℤ)} {t t' : ℕ} (h : Since r log t) (ht : t ≤ t') :
    Since r log t' := by
  rcases h with hnil | ⟨τ, hτ, hr, hlog⟩
  · exact Or.inl hnil
  · exact Or.inr ⟨τ, hτ.trans ht, hr, hlog⟩

theorem since_clock {log : List (ℕ × ℤ)} {t : ℕ} (h : ∀ p ∈ log, p.1 ≤ t) :
    Since (clock t) log t := Or.inr ⟨t, le_rfl, rfl, h⟩

/-- Who waits for the time since such a reading waits for the time since the publishes. -/
theorem Since.wait {r : UInt32} {log : List (ℕ × ℤ)} {t t' : ℕ} {d : UInt32} (h : Since r log t)
    (ht : t ≤ t') (hwait : clock t' - r ≥ d) : ∀ p ∈ log, p.1 + d.toNat ≤ t' := by
  intro p hp
  rcases h with rfl | ⟨τ, hτ, rfl, hlog⟩
  · contradiction
  · have hpassed := toNat_le_of_le_clock_sub (hτ.trans ht) hwait
    have hle := hlog p hp
    omega

/-- The phase belongs to the number of publishes made, and its timer was set after the last one. -/
def PhaseOk (T : Timers) (log : List (ℕ × ℤ)) (t : ℕ) : Prop :=
  (T.seqPhase < 3 ∧ log.length % 4 = T.seqPhase.toNat ∧ Since T.lastPubQos0 log t) ∨
  (T.seqPhase = 3 ∧ log.length % 4 = 3 ∧ Since T.seqPhaseMs log t) ∨
  (T.seqPhase = 4 ∧ log.length % 4 = 0 ∧ Since T.seqPhaseMs log t)

/-- **The schedule is kept**, up to the time `t` and with the publishes `log`: their times and
QoS. -/
structure OnSchedule (T : Timers) (log : List (ℕ × ℤ)) (t : ℕ) : Prop where
  past : ∀ p ∈ log, p.1 ≤ t
  spaced : log.Pairwise fun p p' ↦ p.1 + 10000 ≤ p'.1
  cycle : log.map Prod.snd = (List.range log.length).map slotQos
  countQos0 : T.pubCountQos0 = UInt16.ofNat ((log.map Prod.snd).count 0)
  countQos1 : T.pubCountQos1 = UInt16.ofNat ((log.map Prod.snd).count 1)
  phase : PhaseOk T log t

variable {T T' : Timers} {log : List (ℕ × ℤ)} {t t' : ℕ}

theorem PhaseOk.mono (h : PhaseOk T log t) (ht : t ≤ t') : PhaseOk T log t' := by
  rcases h with ⟨hphase, hlen, hsince⟩ | ⟨hphase, hlen, hsince⟩ | ⟨hphase, hlen, hsince⟩
  · exact Or.inl ⟨hphase, hlen, hsince.mono ht⟩
  · exact Or.inr (Or.inl ⟨hphase, hlen, hsince.mono ht⟩)
  · exact Or.inr (Or.inr ⟨hphase, hlen, hsince.mono ht⟩)

theorem PhaseOk.of_lt (h : PhaseOk T log t) (hphase : T.seqPhase < 3) :
    log.length % 4 = T.seqPhase.toNat ∧ Since T.lastPubQos0 log t := by
  rcases h with ⟨-, hok⟩ | ⟨heq, -⟩ | ⟨heq, -⟩
  · exact hok
  · rw [heq] at hphase
    exact absurd hphase (by decide)
  · rw [heq] at hphase
    exact absurd hphase (by decide)

theorem PhaseOk.of_eq_three (h : PhaseOk T log t) (hphase : T.seqPhase = 3) :
    log.length % 4 = 3 ∧ Since T.seqPhaseMs log t := by
  rcases h with ⟨hlt, -⟩ | ⟨-, hok⟩ | ⟨heq, -⟩
  · rw [hphase] at hlt
    exact absurd hlt (by decide)
  · exact hok
  · exact absurd (hphase.symm.trans heq) (by decide)

theorem PhaseOk.of_eq_four (h : PhaseOk T log t) (hphase : T.seqPhase = 4) :
    log.length % 4 = 0 ∧ Since T.seqPhaseMs log t := by
  rcases h with ⟨hlt, -⟩ | ⟨heq, -⟩ | ⟨-, hok⟩
  · rw [hphase] at hlt
    exact absurd hlt (by decide)
  · exact absurd (hphase.symm.trans heq) (by decide)
  · exact hok

theorem OnSchedule.mono (h : OnSchedule T log t) (ht : t ≤ t') : OnSchedule T log t' :=
  ⟨fun p hp ↦ (h.past p hp).trans ht, h.spaced, h.cycle, h.countQos0, h.countQos1, h.phase.mono ht⟩

theorem spaced_snoc {q : ℤ} (hspaced : log.Pairwise fun p p' ↦ p.1 + 10000 ≤ p'.1)
    (hwait : ∀ p ∈ log, p.1 + 10000 ≤ t') :
    (log ++ [(t', q)]).Pairwise fun p p' ↦ p.1 + 10000 ≤ p'.1 := by
  refine List.pairwise_append.mpr ⟨hspaced, List.pairwise_singleton _ _, ?_⟩
  intro p hp p' hp'
  rw [List.mem_singleton.mp hp']
  exact hwait p hp

theorem cycle_snoc {q : ℤ} (hcycle : log.map Prod.snd = (List.range log.length).map slotQos)
    (hq : slotQos log.length = q) :
    (log ++ [(t', q)]).map Prod.snd = (List.range (log ++ [(t', q)]).length).map slotQos := by
  rw [List.map_append, hcycle, List.length_append, List.length_singleton, List.range_succ,
    List.map_append, ← hq]
  rfl

theorem past_snoc {q : ℤ} (hpast : ∀ p ∈ log, p.1 ≤ t) (ht : t ≤ t') :
    ∀ p ∈ log ++ [(t', q)], p.1 ≤ t' := by
  intro p hp
  rcases List.mem_append.mp hp with hp | hp
  · exact (hpast p hp).trans ht
  · rw [List.mem_singleton.mp hp]

theorem ofNat_count_snoc (q q' : ℤ) : UInt16.ofNat (((log ++ [(t', q)]).map Prod.snd).count q') =
    UInt16.ofNat ((log.map Prod.snd).count q') + if q = q' then 1 else 0 := by
  rw [List.map_append, List.count_append, UInt16.ofNat_add]
  by_cases h : q = q'
  · subst h
    rw [if_pos rfl]
    simp
  · rw [if_neg h]
    simp [h]

/-- **A step keeps the schedule.** -/
theorem OnSchedule.step {q : Option ℤ} (h : OnSchedule T log t) (ht : t ≤ t')
    (hstep : Step (clock t') T q T') : OnSchedule T' (log ++ (q.map (t', ·)).toList) t' := by
  have h' := h.mono ht
  cases hstep with
  | idle =>
    rw [Option.map_none, Option.toList_none, List.append_nil]
    exact h'
  | defer =>
    rw [Option.map_none, Option.toList_none, List.append_nil]
    refine ⟨h'.past, h'.spaced, h'.cycle, h'.countQos0, h'.countQos1, ?_⟩
    rcases h'.phase with ⟨hphase, hlen, -⟩ | hphase
    -- an acknowledgement puts off the next publish in the first phases only
    · exact Or.inl ⟨hphase, hlen, since_clock h'.past⟩
    · exact Or.inr hphase
  | qos0 hphase hwait =>
    obtain ⟨hlen, hsince⟩ := h.phase.of_lt hphase
    have hlt : T.seqPhase.toNat < 3 := UInt8.lt_iff_toNat_lt.mp hphase
    have hnext : (T.seqPhase + 1).toNat = T.seqPhase.toNat + 1 := by
      rw [UInt8.toNat_add]
      exact Nat.mod_eq_of_lt (by change _ + 1 < 256; omega)
    have hpast := past_snoc (q := 0) h.past ht
    have hlength : (log ++ [(t', (0 : ℤ))]).length = log.length + 1 := List.length_append
    refine ⟨hpast, spaced_snoc h.spaced (hsince.wait ht hwait), cycle_snoc h.cycle ?_, ?_, ?_, ?_⟩
    · exact if_neg (by omega)
    · rw [Option.map_some, Option.toList_some, ofNat_count_snoc, ← h.countQos0, if_pos rfl]
    · rw [Option.map_some, Option.toList_some, ofNat_count_snoc, ← h.countQos1,
        if_neg (show ¬(0 : ℤ) = 1 by decide), UInt16.add_zero]
    -- the third publish with QoS 0 is followed by the one with QoS 1
    · by_cases hthree : T.seqPhase + 1 = 3
      · refine Or.inr (Or.inl ⟨hthree, ?_, ?_⟩)
        · have hval : T.seqPhase.toNat + 1 = 3 := by rw [← hnext, hthree]; rfl
          change (log ++ [(t', (0 : ℤ))]).length % 4 = 3
          omega
        · change Since (if _ then _ else _) _ _
          rw [if_pos hthree]
          exact since_clock hpast
      · have hval : T.seqPhase.toNat + 1 ≠ 3 := fun heq ↦
          hthree (UInt8.toNat_inj.mp (hnext.trans heq))
        refine Or.inl ⟨UInt8.lt_iff_toNat_lt.mpr ?_, ?_, since_clock hpast⟩
        · change (T.seqPhase + 1).toNat < 3
          omega
        · change (log ++ [(t', (0 : ℤ))]).length % 4 = (T.seqPhase + 1).toNat
          omega
  | qos1 hphase hwait =>
    obtain ⟨hlen, hsince⟩ := h.phase.of_eq_three hphase
    have hpast := past_snoc (q := 1) h.past ht
    have hlength : (log ++ [(t', (1 : ℤ))]).length = log.length + 1 := List.length_append
    refine ⟨hpast, spaced_snoc h.spaced (hsince.wait ht hwait),
      cycle_snoc h.cycle (if_pos hlen), ?_,
      ?_, Or.inr (Or.inr ⟨rfl, ?_, since_clock hpast⟩)⟩
    · rw [Option.map_some, Option.toList_some, ofNat_count_snoc, ← h.countQos0,
        if_neg (show ¬(1 : ℤ) = 0 by decide), UInt16.add_zero]
    · rw [Option.map_some, Option.toList_some, ofNat_count_snoc, ← h.countQos1, if_pos rfl]
    · change (log ++ [(t', (1 : ℤ))]).length % 4 = 0
      omega
  | restart hphase hwait =>
    rw [Option.map_none, Option.toList_none, List.append_nil]
    refine ⟨h'.past, h'.spaced, h'.cycle, h'.countQos0, h'.countQos1, ?_⟩
    exact Or.inl ⟨by change (0 : UInt8) < 3; decide, (h.phase.of_eq_four hphase).1,
      since_clock h'.past⟩

end Timers

/-! ## The sketch -/

/-- A call of `mqtt_sn_publish_topic_id_auto` by the sketch. -/
structure AppPublish where
  topicId : UInt16
  payload : List UInt8
  qos : ℤ
  deriving DecidableEq

section Sketch

variable (clientId : List UInt8)

/-- A call of `loop` whose clock reads what a time shows. -/
def Inputs.at (x : Inputs) (t : ℕ) : Inputs := { x with now := clock t }

/-- What the schedule sees of a publish. -/
def slot (p : ℕ × AppPublish) : ℕ × ℤ := (p.1, p.2.qos)

end Sketch

end Emcs.Arduino
