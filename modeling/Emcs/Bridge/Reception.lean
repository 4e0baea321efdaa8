import Emcs.Bridge.Interrupts
import Mathlib.Data.List.Nodup
import Mathlib.Data.List.Range

/-!
# The frames that the bridge receives

A good frame that the radio signals leads to one call of `on_rx_done`, as long as
`downstream_thread` keeps its hands off: while `lora_send` waits for its own interrupt, it clears
those of the frames with it, and the flag that `main` polls.

Every step does one of four things to the frame that waits. From there the log of the calls follows
by induction on the run, and the number of steps that `main` is away from the call by induction on
what comes after the signal.

## The invariant

`Consistent` holds in every run: the lock is kept, what the threads have read is right, only frames
that were signalled have been handled, and a frame that waits is the last one and not among them.
Under it a step keeps `Delivered` if and only if it is undisturbed (`delivered_step`).

## Progress

A frame on its way is at most nine steps of `main` from its call of `on_rx_done` (`distance`). Each
step of `main` that is not blocked brings it nearer, and no other step takes it further away. So the
frame is handled after as many turns of `main`, whatever happens between them.
-/

namespace Emcs.Bridge.Radio

variable {s : Radio}

/-! ## What a step does to a frame -/

/-- A good frame was signalled and is not handled yet. -/
def waiting (s : Radio) : Bool := s.main.regs.good || s.status.good

theorem waiting_of_onItsWay (h : s.onItsWay = true) : s.waiting = true := by
  rw [onItsWay, Bool.or_eq_true, Bool.and_eq_true] at h
  rw [waiting, Bool.or_eq_true]
  exact h.imp_right And.left

/-- What a step does to the good frame that waits: nothing, or it comes, or `on_rx_done` is called
for it, or it is lost to `main`. -/
inductive Effect (s s' : Radio) (undisturbed : Prop) : Prop where
  | skip (hundisturbed : undisturbed) (hraised : s'.raised = s.raised)
      (hhandled : s'.handled = s.handled) (hwaiting : s'.waiting = s.waiting)
      (hway : s.onItsWay = true → s'.onItsWay = true)
  | post (hundisturbed : undisturbed) (hraised : s'.raised = s.raised + 1)
      (hhandled : s'.handled = s.handled) (hwaiting : s.waiting = false)
      (hway : s'.onItsWay = true)
  | take (hundisturbed : undisturbed) (hraised : s'.raised = s.raised)
      (hhandled : s'.handled = s.handled ++ [s.raised - 1]) (hway : s.onItsWay = true)
      (hwaiting : s'.waiting = false)
  | disturb (hundisturbed : ¬undisturbed) (hraised : s'.raised = s.raised)
      (hhandled : s'.handled = s.handled) (hwaiting : s.waiting = true)
      (hway : s'.onItsWay = false)

theorem Effect.of_same {s' : Radio} {undisturbed : Prop} (hundisturbed : undisturbed)
    (hraised : s'.raised = s.raised) (hhandled : s'.handled = s.handled)
    (hstatus : s'.status = s.status) (hregs : s'.main.regs = s.main.regs)
    (hflag : s.irqFlag = true ∨ s.main.committed = true →
      s'.irqFlag = true ∨ s'.main.committed = true) : Effect s s' undisturbed := by
  refine .skip hundisturbed hraised hhandled ?_ fun hway ↦ ?_
  · rw [waiting, waiting, hstatus, hregs]
  · rw [onItsWay, Bool.or_eq_true, Bool.and_eq_true, Bool.or_eq_true] at hway ⊢
    rw [hstatus, hregs]
    exact hway.imp_right fun h ↦ ⟨h.1, hflag h.2⟩

theorem effect_raise (hread : s.Readings) (irq : Irq) :
    Effect s (s.raise irq) (s.Undisturbed (.raise irq)) := by
  rw [raise]
  split
  · exact .of_same trivial rfl rfl rfl rfl id
  rename_i hfree
  cases hirq : irq.status.rxDone with
  | false =>
    obtain ⟨hrx, hcrc⟩ := s.status.or_of_not_rxDone hirq
    have hgood : (s.status.or irq.status).good = s.status.good := by
      rw [IrqStatus.good, hrx, hcrc]
      rfl
    have hnone : irq.status.good = false := by
      rw [IrqStatus.good, hirq, Bool.false_and]
    refine .skip trivial ?_ rfl ?_ fun hway ↦ ?_
    · dsimp only
      rw [hnone, if_neg Bool.false_ne_true]
    · rw [waiting, waiting, hgood]
    · rw [onItsWay, Bool.or_eq_true, Bool.and_eq_true] at hway ⊢
      rw [hgood]
      exact hway.imp_right fun h ↦ ⟨h.1, rfl⟩
  | true =>
    rw [hirq, Bool.true_and, rxPending, Bool.not_eq_true, Bool.or_eq_false_iff] at hfree
    obtain ⟨hstatus, hregs⟩ := hfree
    have hcrc : s.status.crcError = false := by
      rw [← Bool.not_eq_true]
      intro h
      exact absurd (hstatus.symm.trans (hread.crc h)) Bool.false_ne_true
    have hregs' : s.main.regs.good = false := by
      rw [IrqStatus.good, hregs, Bool.false_and]
    have hstatus' : s.status.good = false := by
      rw [IrqStatus.good, hstatus, Bool.false_and]
    have hgood : (s.status.or irq.status).good = irq.status.good := by
      rw [IrqStatus.good, IrqStatus.good, IrqStatus.or, hstatus, hcrc, Bool.false_or, Bool.false_or]
    have hwaiting : s.waiting = false := by
      rw [waiting, hregs', hstatus']
      rfl
    cases hirqgood : irq.status.good with
    | true =>
      refine .post trivial ?_ rfl hwaiting ?_
      · dsimp only
        rw [if_pos rfl]
      · rw [onItsWay, hgood, hirqgood]
        exact Bool.or_true _
    | false =>
      refine .skip trivial ?_ rfl ?_ fun hway ↦ ?_
      · dsimp only
        rw [if_neg Bool.false_ne_true]
      · rw [hwaiting, waiting, hgood, hirqgood, hregs']
        rfl
      · exact absurd (hwaiting.symm.trans (waiting_of_onItsWay hway)) Bool.false_ne_true

theorem effect_mainStep (hread : s.Readings) : Effect s s.mainStep (s.Undisturbed .main) := by
  rw [mainStep]
  cases hmain : s.main with
  | poll =>
    dsimp only
    split
    · exact .of_same trivial rfl rfl rfl (by rw [hmain]; rfl) fun _ ↦ Or.inr rfl
    · exact .of_same trivial rfl rfl rfl rfl id
  | lock =>
    dsimp only
    split
    · exact .of_same trivial rfl rfl rfl (by rw [hmain]; rfl) fun _ ↦ Or.inr rfl
    · exact .of_same trivial rfl rfl rfl rfl id
  | clearFlag => exact .of_same trivial rfl rfl rfl (by rw [hmain]; rfl) fun _ ↦ Or.inr rfl
  | unlock =>
    refine .of_same trivial rfl rfl rfl (by rw [hmain]; rfl) fun h ↦ h.imp_right fun hcommitted ↦ ?_
    rw [hmain] at hcommitted
    exact absurd hcommitted Bool.false_ne_true
  | getStatus =>
    have hregs : s.main.regs.good = false := by
      rw [hmain]
      rfl
    -- what is read is still in the status, so the frame waits as before
    refine .skip trivial rfl rfl ?_ fun hway ↦ ?_
    · rw [waiting, waiting, hregs]
      exact Bool.or_self _
    · rw [onItsWay, hregs, Bool.false_or, Bool.and_eq_true] at hway
      rw [onItsWay, Bool.or_eq_true]
      exact Or.inl hway.1
  | clearStatus irqRegs =>
    have hreads := hread.main irqRegs hmain
    have hregs : s.main.regs = irqRegs := by
      rw [hmain]
      rfl
    have hcommitted : s.main.committed = false := by
      rw [hmain]
      rfl
    -- the frame leaves the status, and is in the copy that `main` has read
    refine .skip trivial rfl rfl ?_ fun hway ↦ ?_
    · rw [waiting, waiting, hregs, hreads.good_clear]
      change (irqRegs.good || _) = _
      cases irqRegs.good with
      | true => rfl
      | false => exact congrArg _ (Bool.and_true _)
    · rw [onItsWay, hregs, hcommitted] at hway
      rw [onItsWay, hreads.good_clear]
      change (irqRegs.good || _ && (s.irqFlag || false)) = true
      cases hgood : irqRegs.good with
      | true => rfl
      | false =>
        rw [hgood] at hway
        rw [Bool.not_false, Bool.and_true]
        exact hway
  | dispatch irqRegs =>
    have hregs : s.main.regs = irqRegs := by
      rw [hmain]
      rfl
    cases hgood : irqRegs.good with
    | true =>
      -- `on_rx_done` is called, for the frame that came last
      have hrx : irqRegs.rxDone = true := (Bool.and_eq_true_iff.mp hgood).1
      have hstatus : s.status.good = false := by
        rw [IrqStatus.good, hread.dispatch irqRegs hmain hrx, Bool.false_and]
      refine .take trivial rfl ?_ ?_ ?_
      · dsimp only
        rw [hgood, if_pos rfl]
      · rw [onItsWay, hregs, hgood, Bool.true_or]
      · rw [waiting, hstatus]
        rfl
    | false =>
      have hcommitted : s.main.committed = false := by
        rw [hmain]
        rfl
      refine .skip trivial rfl ?_ ?_ fun hway ↦ ?_
      · dsimp only
        rw [hgood, if_neg Bool.false_ne_true]
      · rw [waiting, waiting, hregs, hgood]
        rfl
      · rw [onItsWay, hregs, hgood, hcommitted] at hway
        exact hway

/-- `downstream_thread` clears the flag: `main` must have seen it if a good frame is in the
status. -/
theorem effect_clearFlag {s' : Radio} {undisturbed : Prop}
    (hu : undisturbed ↔ (s.status.good = true → s.main.committed = true))
    (hregs : s.main.regs.good = false) (hraised : s'.raised = s.raised)
    (hhandled : s'.handled = s.handled) (hstatus : s'.status = s.status) (hmain : s'.main = s.main)
    (hflag : s'.irqFlag = false) : Effect s s' undisturbed := by
  have hway' : s'.onItsWay = (s.status.good && s.main.committed) := by
    rw [onItsWay, hmain, hstatus, hregs, hflag, Bool.false_or, Bool.false_or]
  by_cases hcommitted : s.status.good = true → s.main.committed = true
  · refine .skip (hu.mpr hcommitted) hraised hhandled ?_ fun hway ↦ ?_
    · rw [waiting, waiting, hmain, hstatus]
    · rw [onItsWay, hregs, Bool.false_or, Bool.and_eq_true] at hway
      rw [hway', hway.1, hcommitted hway.1]
      rfl
  · obtain ⟨hgood, hnot⟩ := Classical.not_imp.mp hcommitted
    refine .disturb (mt hu.mp hcommitted) hraised hhandled ?_ ?_
    · rw [waiting, hgood, Bool.or_true]
    · rw [hway', Bool.eq_false_iff.mpr hnot, Bool.and_false]

theorem effect_downstreamStep (hlock : s.Locked) (hread : s.Readings) (go : Bool) :
    Effect s (s.downstreamStep go) (s.Undisturbed (.downstream go)) := by
  -- while the thread has the lock, `main` has no frame in its copy of the status
  have hregs : s.downstream.critical = true → s.main.regs.good = false := by
    intro hcritical
    have hmain := hlock.not_main hcritical
    cases h : s.main with
    | poll => rfl
    | lock => rfl
    | _ => rw [h] at hmain; cases hmain
  rw [downstreamStep, Undisturbed]
  cases hdown : s.downstream with
  | collect =>
    dsimp only
    split
    · exact .of_same trivial rfl rfl rfl rfl id
    · exact .of_same trivial rfl rfl rfl rfl id
  | lock =>
    dsimp only
    split
    · exact .of_same trivial rfl rfl rfl rfl id
    · exact .of_same trivial rfl rfl rfl rfl id
  | wait =>
    dsimp only
    split
    · exact .of_same trivial rfl rfl rfl rfl id
    · exact .of_same trivial rfl rfl rfl rfl id
  | send => exact .of_same trivial rfl rfl rfl rfl id
  | getStatus => exact .of_same trivial rfl rfl rfl rfl id
  | unlock => exact .of_same trivial rfl rfl rfl rfl id
  | clearFlag => exact effect_clearFlag Iff.rfl (hregs (by rw [hdown]; rfl)) rfl rfl rfl rfl rfl
  | clearFlagSent => exact effect_clearFlag Iff.rfl (hregs (by rw [hdown]; rfl)) rfl rfl rfl rfl rfl
  | clearFlagAfter =>
      exact effect_clearFlag Iff.rfl (hregs (by rw [hdown]; rfl)) rfl rfl rfl rfl rfl
  | clearStatus irqRegs =>
    have hreads := hread.downstream irqRegs hdown
    have hregs := hregs (by rw [hdown]; rfl)
    dsimp only
    cases hgood : irqRegs.good with
    | true =>
      -- the frame that was read is cleared, and nobody has it any more
      refine .disturb (fun h ↦ Bool.false_ne_true h.symm) rfl rfl ?_ ?_
      · rw [waiting, hreads.good hgood, Bool.or_true]
      · rw [onItsWay, hreads.good_clear, hgood, hregs, Bool.not_true, Bool.and_false]
        rfl
    | false =>
      have hstatus : (s.status.clear irqRegs).good = s.status.good := by
        rw [hreads.good_clear, hgood, Bool.not_false, Bool.and_true]
      refine .skip rfl rfl rfl ?_ fun hway ↦ ?_
      · rw [waiting, waiting, hstatus]
      · rw [onItsWay] at hway ⊢
        rw [hstatus]
        exact hway

/-! ## Every frame is handled once -/

/-- The invariant of every run: a frame that waits is the one that came last, and is not handled. -/
structure Consistent (s : Radio) : Prop where
  locked : s.Locked
  readings : s.Readings
  handled_lt : ∀ n ∈ s.handled, n < s.raised
  last : s.waiting = true → 0 < s.raised ∧ s.raised - 1 ∉ s.handled

theorem consistent_boot : Radio.boot.Consistent where
  locked := ⟨nofun, nofun⟩
  readings := ⟨nofun, nofun, nofun, nofun⟩
  handled_lt _ h := absurd h List.not_mem_nil
  last h := nomatch h

theorem effect_step (h : s.Consistent) (e : Event) : Effect s (s.step e) (s.Undisturbed e) := by
  rcases e with irq | _ | go
  · exact effect_raise h.readings irq
  · exact effect_mainStep h.readings
  · exact effect_downstreamStep h.locked h.readings go

theorem consistent_step (h : s.Consistent) (e : Event) : (s.step e).Consistent := by
  have hread : (s.step e).Readings := by
    rcases e with irq | _ | go
    · exact readings_raise h.readings irq
    · exact readings_mainStep h.locked h.readings
    · exact readings_downstreamStep h.locked h.readings go
  refine ⟨locked_step h.locked e, hread, ?_, ?_⟩
  · intro n hn
    rcases effect_step h e with ⟨-, hraised, hhandled, -, -⟩ | ⟨-, hraised, hhandled, -, -⟩ |
      ⟨-, hraised, hhandled, hway, -⟩ | ⟨-, hraised, hhandled, -, -⟩
    · rw [hraised]
      exact h.handled_lt n (hhandled ▸ hn)
    · rw [hraised]
      exact Nat.lt_succ_of_lt (h.handled_lt n (hhandled ▸ hn))
    · rw [hraised]
      rw [hhandled] at hn
      rcases List.mem_append.mp hn with hn | hn
      · exact h.handled_lt n hn
      · rw [List.mem_singleton.mp hn]
        exact Nat.sub_lt (h.last (waiting_of_onItsWay hway)).1 Nat.one_pos
    · rw [hraised]
      exact h.handled_lt n (hhandled ▸ hn)
  · intro hwaiting'
    rcases effect_step h e with ⟨-, hraised, hhandled, hwaiting, -⟩ | ⟨-, hraised, hhandled, -, -⟩ |
      ⟨-, -, -, -, hwaiting⟩ | ⟨-, hraised, hhandled, hwaiting, -⟩
    · rw [hraised, hhandled]
      exact h.last (hwaiting ▸ hwaiting')
    · rw [hraised, hhandled]
      exact ⟨Nat.succ_pos _, fun hn ↦ absurd (h.handled_lt _ hn) (Nat.lt_irrefl _)⟩
    · exact absurd (hwaiting.symm.trans hwaiting') Bool.false_ne_true
    · rw [hraised, hhandled]
      exact h.last hwaiting

theorem delivered_boot : Radio.boot.Delivered := rfl

/-- A frame that waits is on its way, where every frame was handled or is. -/
theorem Consistent.onItsWay (h : s.Consistent) (hd : s.Delivered) (hwaiting : s.waiting = true) :
    s.onItsWay = true := by
  by_contra hway
  rw [Delivered, if_neg hway, List.append_nil] at hd
  obtain ⟨hpos, hnot⟩ := h.last hwaiting
  rw [hd, List.mem_range] at hnot
  exact hnot (Nat.sub_lt hpos Nat.one_pos)

theorem handled_of_not_onItsWay (h : s.onItsWay = false) :
    s.Delivered ↔ s.handled = List.range s.raised := by
  rw [Delivered, h, if_neg Bool.false_ne_true, List.append_nil]

/-- **A step keeps every frame in sight where it is undisturbed, and nowhere else.** -/
theorem delivered_step (h : s.Consistent) (hd : s.Delivered) (e : Event) :
    (s.step e).Delivered ↔ s.Undisturbed e := by
  rcases effect_step h e with ⟨hu, hraised, hhandled, hwaiting, hway⟩ |
    ⟨hu, hraised, hhandled, hwaiting, hway⟩ | ⟨hu, hraised, hhandled, hway, hwaiting⟩ |
    ⟨hu, hraised, hhandled, hwaiting, hway⟩
  · refine iff_of_true ?_ hu
    have hsame : (s.step e).onItsWay = s.onItsWay := by
      cases hbefore : s.onItsWay with
      | true => exact hway hbefore
      | false =>
        rw [← Bool.not_eq_true]
        intro hafter
        have hback := h.onItsWay hd (hwaiting ▸ waiting_of_onItsWay hafter)
        exact absurd (hbefore.symm.trans hback) Bool.false_ne_true
    rw [Delivered, hraised, hhandled, hsame]
    exact hd
  · refine iff_of_true ?_ hu
    have hbefore : s.onItsWay = false := by
      rw [← Bool.not_eq_true]
      intro hafter
      exact absurd (hwaiting.symm.trans (waiting_of_onItsWay hafter)) Bool.false_ne_true
    rw [handled_of_not_onItsWay hbefore] at hd
    rw [Delivered, hway, if_pos rfl, hraised, hhandled, hd, Nat.add_sub_cancel, List.range_succ]
  · refine iff_of_true ?_ hu
    have hafter : (s.step e).onItsWay = false := by
      rw [← Bool.not_eq_true]
      intro hafter
      exact absurd (hwaiting.symm.trans (waiting_of_onItsWay hafter)) Bool.false_ne_true
    rw [Delivered, hway, if_pos rfl] at hd
    rw [handled_of_not_onItsWay hafter, hraised, hhandled, hd]
  · refine iff_of_false ?_ hu
    rw [handled_of_not_onItsWay hway, hraised, hhandled]
    intro hall
    obtain ⟨hpos, hnot⟩ := h.last hwaiting
    rw [hall, List.mem_range] at hnot
    exact hnot (Nat.sub_lt hpos Nat.one_pos)

/-! ## A frame on its way is handled -/

/-- `main` waits for `radio_lock`. -/
def blocked (s : Radio) : Bool := s.main == .lock && s.radioLock.isSome

/-- How often `main` takes a step in which it does not wait for the lock. -/
def turns : Radio → List Event → ℕ
  | _, [] => 0
  | s, .main :: es => (if s.blocked then 0 else 1) + turns (s.step .main) es
  | s, e :: es => turns (s.step e) es

/-- How many steps of `main` a frame is away from `on_rx_done`. -/
def distance (s : Radio) : ℕ := s.main.distance

theorem distance_pos_le (s : Radio) : 0 < s.distance ∧ s.distance ≤ 9 := by
  rw [distance]
  cases s.main with
  | clearStatus irqRegs =>
    change 0 < (if irqRegs.good = true then 2 else 9) ∧ (if irqRegs.good = true then 2 else 9) ≤ 9
    split <;> decide
  | dispatch irqRegs =>
    change 0 < (if irqRegs.good = true then 1 else 8) ∧ (if irqRegs.good = true then 1 else 8) ≤ 9
    split <;> decide
  | _ => decide

/-- **A step of `main` brings the frame nearer**, or handles it. -/
theorem distance_mainStep (hway : s.onItsWay = true) (hfree : s.blocked = false) :
    s.mainStep.distance + 1 = s.distance ∨
      s.distance = 1 ∧ s.mainStep.handled = s.handled ++ [s.raised - 1] := by
  rw [mainStep, distance, distance]
  rw [onItsWay] at hway
  cases hmain : s.main with
  | poll =>
    rw [hmain] at hway
    -- a frame on its way without the flag set is one that `main` has read
    have hflag : s.irqFlag = true := by
      rw [Bool.or_eq_true, Bool.and_eq_true, Bool.or_eq_true] at hway
      rcases hway with hregs | ⟨-, hflag | hcommitted⟩
      · exact absurd hregs Bool.false_ne_true
      · exact hflag
      · exact absurd hcommitted Bool.false_ne_true
    dsimp only
    rw [if_pos hflag]
    exact Or.inl rfl
  | lock =>
    -- `main` waits for the lock only while it is blocked
    have hlock : s.radioLock = none := by
      rw [blocked, hmain] at hfree
      exact Option.isSome_eq_false_iff.mp hfree |> Option.isNone_iff_eq_none.mp
    dsimp only
    rw [if_pos hlock]
    exact Or.inl rfl
  | clearFlag => exact Or.inl rfl
  | getStatus =>
    rw [hmain] at hway
    have hgood : s.status.good = true := by
      rw [Bool.or_eq_true, Bool.and_eq_true] at hway
      rcases hway with hregs | ⟨hgood, -⟩
      · exact absurd hregs Bool.false_ne_true
      · exact hgood
    refine Or.inl ?_
    change (if s.status.good = true then 2 else 9) + 1 = 3
    rw [if_pos hgood]
  | clearStatus irqRegs =>
    refine Or.inl ?_
    change (if irqRegs.good = true then 1 else 8) + 1 = if irqRegs.good = true then 2 else 9
    split <;> rfl
  | dispatch irqRegs =>
    change 7 + 1 = (if irqRegs.good = true then 1 else 8) ∨
      (if irqRegs.good = true then 1 else 8) = 1 ∧
        (if irqRegs.good = true then s.handled ++ [s.raised - 1] else s.handled) = _
    split
    · exact Or.inr ⟨rfl, rfl⟩
    · exact Or.inl rfl
  | unlock => exact Or.inl rfl

theorem main_raise (s : Radio) (irq : Irq) : (s.raise irq).main = s.main := by
  rw [raise]
  split
  · rfl
  · rfl

theorem main_downstreamStep (s : Radio) (go : Bool) : (s.downstreamStep go).main = s.main := by
  rw [downstreamStep]
  split
  · split <;> rfl
  · split <;> rfl
  · rfl
  · rfl
  · split <;> rfl
  all_goals rfl

theorem mainStep_of_blocked (h : s.blocked = true) : s.mainStep = s := by
  rw [blocked, Bool.and_eq_true, beq_iff_eq, Option.isSome_iff_ne_none] at h
  rw [mainStep, h.1]
  exact if_neg h.2

theorem mono_step (h : s.Consistent) (e : Event) :
    (∀ n ∈ s.handled, n ∈ (s.step e).handled) ∧ s.raised ≤ (s.step e).raised := by
  rcases effect_step h e with ⟨-, hraised, hhandled, -, -⟩ | ⟨-, hraised, hhandled, -, -⟩ |
    ⟨-, hraised, hhandled, -, -⟩ | ⟨-, hraised, hhandled, -, -⟩
  · exact ⟨fun n hn ↦ hhandled ▸ hn, hraised.ge⟩
  · exact ⟨fun n hn ↦ hhandled ▸ hn, hraised ▸ Nat.le_succ _⟩
  · exact ⟨fun n hn ↦ hhandled ▸ List.mem_append_left _ hn, hraised.ge⟩
  · exact ⟨fun n hn ↦ hhandled ▸ hn, hraised.ge⟩

theorem mem_handled_or (hd : s.Delivered) {n : ℕ} (hn : n < s.raised) :
    n ∈ s.handled ∨ s.onItsWay = true ∧ n = s.raised - 1 := by
  have hmem : n ∈ List.range s.raised := List.mem_range.mpr hn
  rw [← show _ = List.range s.raised from hd, List.mem_append] at hmem
  rcases hmem with hmem | hmem
  · exact Or.inl hmem
  · by_cases hway : s.onItsWay = true
    · rw [if_pos hway] at hmem
      exact Or.inr ⟨hway, List.mem_singleton.mp hmem⟩
    · rw [if_neg hway] at hmem
      exact absurd hmem List.not_mem_nil

/-- **A frame that was signalled is handled** once `main` has taken as many steps as it is away. -/
theorem mem_handled_of_turns {es : List Event} (h : s.Consistent) (hd : s.Delivered)
    (hes : Trace.Always step Undisturbed s es) {n : ℕ} (hn : n < s.raised)
    (hturns : n ∉ s.handled → s.distance ≤ turns s es) : n ∈ (Trace.run step s es).handled := by
  induction es generalizing s with
  | nil =>
    by_contra hnot
    exact absurd (hturns hnot) (Nat.not_le.mpr (distance_pos_le s).1)
  | cons e es ih =>
    have hd' := (delivered_step h hd e).mpr hes.1
    obtain ⟨hmono, hle⟩ := mono_step h e
    refine ih (consistent_step h e) hd' hes.2 (hn.trans_le hle) fun hnot ↦ ?_
    have hturns := hturns fun hmem ↦ hnot (hmono n hmem)
    have hsame : (s.step e).main = s.main → (s.step e).distance = s.distance := by
      intro hmain
      rw [distance, distance, hmain]
    -- only a step of `main` that is not blocked is a turn
    rcases e with irq | _ | go
    · rw [hsame (main_raise s irq)]
      exact hturns
    · rw [turns] at hturns
      cases hblocked : s.blocked with
      | true =>
        rw [hblocked, if_pos rfl, Nat.zero_add] at hturns
        rw [hsame (congrArg Radio.main (mainStep_of_blocked hblocked))]
        exact hturns
      | false =>
        rw [hblocked, if_neg Bool.false_ne_true] at hturns
        rcases mem_handled_or hd hn with hmem | ⟨hway, hlast⟩
        · exact absurd (hmono n hmem) hnot
        · rcases distance_mainStep hway hblocked with hnear | ⟨-, hhandled⟩
          · change s.mainStep.distance ≤ _
            omega
          · refine absurd ?_ hnot
            change n ∈ s.mainStep.handled
            rw [hhandled, hlast]
            exact List.mem_append_right _ (List.mem_singleton_self _)
    · rw [hsame (main_downstreamStep s go)]
      exact hturns

/-- Every good frame that was signalled has led to one call of `on_rx_done` when `main` has taken
nine more steps. -/
def HandledOnce (es : List Event) : Prop :=
  ∀ pre post, es = pre ++ post → 9 ≤ turns (Trace.run step .boot pre) post →
    ∀ n < (Trace.run step .boot pre).raised, (Trace.run step .boot es).handled.count n = 1

/-- **No received frame is lost between radio and bridge** in exactly those runs in which
`downstream_thread` disturbs none, and in these every frame is handled once. -/
theorem delivered_iff (es : List Event) :
    (Trace.Always step (fun s e ↦ (s.step e).Delivered) .boot es ↔
      Trace.Always step Undisturbed .boot es) ∧
    (Trace.Always step Undisturbed .boot es → HandledOnce es) := by
  constructor
  · exact Trace.always_iff_always (P := fun s ↦ s.Consistent ∧ s.Delivered)
      (fun s e hs ↦ delivered_step hs.1 hs.2 e)
      (fun s e hs he ↦ ⟨consistent_step hs.1 e, (delivered_step hs.1 hs.2 e).mpr he⟩)
      ⟨consistent_boot, delivered_boot⟩
  · rintro hes pre post rfl hturns n hn
    have hreach : ∀ {es : List Event}, Trace.Always step Undisturbed .boot es →
        (Trace.run step .boot es).Consistent ∧ (Trace.run step .boot es).Delivered := fun h ↦
      Trace.run_invariant (P := fun s ↦ s.Consistent ∧ s.Delivered)
        (fun s e hs he ↦ ⟨consistent_step hs.1 e, (delivered_step hs.1 hs.2 e).mpr he⟩)
        ⟨consistent_boot, delivered_boot⟩ h
    obtain ⟨hpre, hpost⟩ := Trace.always_append.mp hes
    obtain ⟨hc, hd⟩ := hreach hpre
    have hmem := mem_handled_of_turns hc hd hpost hn
      fun _ ↦ (distance_pos_le _).2.trans hturns
    rw [← Trace.run_append] at hmem
    refine List.nodup_iff_count_eq_one.mp ?_ n hmem
    -- the log is a part of the numbers in their order
    have hrange : List.Nodup (List.range (Trace.run step .boot (pre ++ post)).raised) :=
      List.nodup_range
    rw [← show _ = List.range _ from (hreach hes).2] at hrange
    exact hrange.of_append_left

/-- `downstream_thread` sends a datagram from the beginning to the end. -/
def transmission : List Event :=
  List.replicate 4 (.downstream true) ++ .raise .txDone :: List.replicate 6 (.downstream true)

/-- A datagram is sent, and then a frame comes. -/
def frameAfterSend : List Event := transmission ++ [.raise (.rxDone false)]

/-- `main` handles the frame, and another datagram is sent. -/
def handledThenSend : List Event := List.replicate 9 .main ++ transmission

theorem delivered_iff_betweenSends :
    (Trace.run step .boot (frameAfterSend ++ handledThenSend)).handled.count 0 = 1 := by
  obtain ⟨hiff, honce⟩ := delivered_iff (frameAfterSend ++ handledThenSend)
  have hdelivered : Trace.Always step (fun s e ↦ (s.step e).Delivered) .boot
      (frameAfterSend ++ handledThenSend) := by decide
  exact honce (hiff.mp hdelivered) frameAfterSend _ rfl (by decide) 0 (by decide)

/-- A frame comes after `downstream_thread` has taken the lock, and `lora_send` runs. -/
def frameInSend : List Event :=
  List.replicate 2 (.downstream true) ++ [.raise (.rxDone false)]
    ++ List.replicate 2 (.downstream true) ++ [.raise .txDone]
      ++ List.replicate 6 (.downstream true)

/-- **A frame is lost**: `lora_send` clears its interrupt, and nobody has anything left to do. -/
theorem frame_lost_in_send :
    ¬Trace.Always step (fun s e ↦ (s.step e).Delivered) .boot frameInSend ∧
      Trace.run step .boot frameInSend = { Radio.boot with raised := 1 } := by
  refine ⟨?_, by decide⟩
  decide

end Emcs.Bridge.Radio
