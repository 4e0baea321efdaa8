import Emcs.Lib.Trace
import Mathlib.Data.Nat.Notation

/-!
# The interrupts of the radio

Two threads of the bridge share the radio. `main` polls `irq_flag` and runs `irq_process`;
`downstream_thread` runs `lora_send`, which waits for the same flag to see the end of the
transmission. Both clear the flag, and both read and clear the interrupt status, under `radio_lock`.
The interrupt handler only sets the flag, at any moment.

The machine takes one access to the shared variables per step. The frames received without a CRC
error are numbered, so that the log of the calls of `on_rx_done` says which frame each was for.

## The invariants

A thread is in its critical section only while it holds `radio_lock` (`Locked`), so at most one of
them is between reading the interrupt status and clearing it. What it has read is then still what
the status shows, but for frames that came since (`Reads`).

`Delivered` says that the frames handed over, followed by the one on its way if there is one, are
all the frames that were signalled, each once and in order. It is not an invariant: whether it
survives a step depends on what `downstream_thread` does to the flag and the status, and
`Undisturbed` says when.
-/

namespace Emcs.Bridge

/-! ## The interrupt status -/

/-- The bits of `IRQ_MASK` in the status register of the radio. -/
structure IrqStatus where
  txDone : Bool
  rxDone : Bool
  timeout : Bool
  crcError : Bool
  headerError : Bool
  deriving DecidableEq

namespace IrqStatus

def zero : IrqStatus := ⟨false, false, false, false, false⟩

/-- `status | irqs`. -/
def or (status irqs : IrqStatus) : IrqStatus where
  txDone := status.txDone || irqs.txDone
  rxDone := status.rxDone || irqs.rxDone
  timeout := status.timeout || irqs.timeout
  crcError := status.crcError || irqs.crcError
  headerError := status.headerError || irqs.headerError

/-- `lr11xx_system_clear_irq_status`. -/
def clear (status irqs : IrqStatus) : IrqStatus where
  txDone := status.txDone && !irqs.txDone
  rxDone := status.rxDone && !irqs.rxDone
  timeout := status.timeout && !irqs.timeout
  crcError := status.crcError && !irqs.crcError
  headerError := status.headerError && !irqs.headerError

/-- `irq_process` calls `on_rx_done` for this status. -/
def good (status : IrqStatus) : Bool := status.rxDone && !status.crcError

end IrqStatus

/-- What the radio signals. A CRC error comes with its frame. -/
inductive Irq where
  | rxDone (crcError : Bool)
  | txDone
  | timeout
  | headerError

def Irq.status : Irq → IrqStatus
  | .rxDone crcError => { IrqStatus.zero with rxDone := true, crcError := crcError }
  | .txDone => { IrqStatus.zero with txDone := true }
  | .timeout => { IrqStatus.zero with timeout := true }
  | .headerError => { IrqStatus.zero with headerError := true }

/-! ## The threads -/

/-- Where `main` is: at the test of `irq_flag`, before `radio_lock`, or in `irq_process`. -/
inductive MainAt where
  | poll
  | lock
  | clearFlag
  | getStatus
  | clearStatus (irqRegs : IrqStatus)
  | dispatch (irqRegs : IrqStatus)
  | unlock
  deriving DecidableEq

/-- Where `downstream_thread` is: collecting datagrams, before `radio_lock`, or around and in
`lora_send`. -/
inductive DownstreamAt where
  | collect
  | lock
  | clearFlag
  | send
  | wait
  | getStatus
  | clearStatus (irqRegs : IrqStatus)
  | clearFlagSent
  | clearFlagAfter
  | unlock
  deriving DecidableEq

inductive Thread where
  | main
  | downstream
  deriving DecidableEq

/-- The radio and the two threads. The good frames are numbered in the order in which they come. -/
structure Radio where
  status : IrqStatus
  irqFlag : Bool
  radioLock : Option Thread
  main : MainAt
  downstream : DownstreamAt
  /-- How many good frames were signalled. -/
  raised : ℕ
  /-- The frames for which `on_rx_done` was called. -/
  handled : List ℕ
  deriving DecidableEq

/-- `main` starts to poll, and the status has been cleared. -/
def Radio.boot : Radio := ⟨.zero, false, none, .poll, .collect, 0, []⟩

/-- The status that `main` has read and not yet dispatched. -/
def MainAt.regs : MainAt → IrqStatus
  | .clearStatus irqRegs | .dispatch irqRegs => irqRegs
  | _ => .zero

/-- `main` has seen the flag and has not yet read the status. -/
def MainAt.committed : MainAt → Bool
  | .lock | .clearFlag | .getStatus => true
  | _ => false

/-- The steps of `main` up to `on_rx_done`, for a frame that it has read or will read next. -/
def MainAt.distance : MainAt → ℕ
  | .clearStatus irqRegs => if irqRegs.good then 2 else 9
  | .dispatch irqRegs => if irqRegs.good then 1 else 8
  | .unlock => 7
  | .poll => 6
  | .lock => 5
  | .clearFlag => 4
  | .getStatus => 3

namespace Radio

/-- A frame was signalled and is not handled yet. -/
def rxPending (s : Radio) : Bool := s.status.rxDone || s.main.regs.rxDone

/-- The radio signals; the next frame only after the previous one. -/
def raise (s : Radio) (irq : Irq) : Radio :=
  if irq.status.rxDone && s.rxPending then s
  else { s with
    status := s.status.or irq.status
    irqFlag := true
    raised := if irq.status.good then s.raised + 1 else s.raised }

/-- A step of `main`. `on_rx_done` reads the frame that came last. -/
def mainStep (s : Radio) : Radio :=
  match s.main with
  | .poll => if s.irqFlag then { s with main := .lock } else s
  | .lock =>
      if s.radioLock = none then { s with radioLock := some .main, main := .clearFlag } else s
  | .clearFlag => { s with irqFlag := false, main := .getStatus }
  | .getStatus => { s with main := .clearStatus s.status }
  | .clearStatus irqRegs => { s with status := s.status.clear irqRegs, main := .dispatch irqRegs }
  | .dispatch irqRegs =>
    { s with
      main := .unlock
      handled := if irqRegs.good then s.handled ++ [s.raised - 1] else s.handled }
  | .unlock => { s with radioLock := none, main := .poll }

/-- A step of `downstream_thread`. What the shared variables do not decide is `go`: whether a
datagram is staged, whether `lora_send` gets as far as the radio, and whether its wait times out. -/
def downstreamStep (s : Radio) (go : Bool) : Radio :=
  match s.downstream with
  | .collect => if go then { s with downstream := .lock } else s
  | .lock =>
    if s.radioLock = none then { s with radioLock := some .downstream, downstream := .clearFlag }
    else s
  | .clearFlag => { s with irqFlag := false, downstream := .send }
  | .send => { s with downstream := if go then .wait else .clearFlagAfter }
  | .wait => if s.irqFlag || go then { s with downstream := .getStatus } else s
  | .getStatus => { s with downstream := .clearStatus s.status }
  | .clearStatus irqRegs =>
    { s with status := s.status.clear irqRegs, downstream := .clearFlagSent }
  | .clearFlagSent => { s with irqFlag := false, downstream := .clearFlagAfter }
  | .clearFlagAfter => { s with irqFlag := false, downstream := .unlock }
  | .unlock => { s with radioLock := none, downstream := .collect }

inductive Event where
  | raise (irq : Irq)
  | main
  | downstream (go : Bool)

def step (s : Radio) : Event → Radio
  | .raise irq => s.raise irq
  | .main => s.mainStep
  | .downstream go => s.downstreamStep go

/-! ## Every frame once -/

/-- The frame that came last is in the hands of `main`: read, or in the status with the flag set or
seen. -/
def onItsWay (s : Radio) : Bool :=
  s.main.regs.good || s.status.good && (s.irqFlag || s.main.committed)

/-- **Every good frame was handled once**, the last one possibly not yet. -/
def Delivered (s : Radio) : Prop :=
  s.handled ++ (if s.onItsWay then [s.raised - 1] else []) = List.range s.raised

instance (s : Radio) : Decidable s.Delivered :=
  inferInstanceAs (Decidable (_ = List.range s.raised))

/-- The step of `downstream_thread` takes no good frame out of the status, and clears no flag that
`main` still has to see for one. -/
def Undisturbed (s : Radio) : Event → Prop
  | .downstream _ =>
    match s.downstream with
    | .clearStatus irqRegs => irqRegs.good = false
    | .clearFlag | .clearFlagSent | .clearFlagAfter =>
      s.status.good = true → s.main.committed = true
    | _ => True
  | _ => True

/-! ## What the lock protects -/

end Radio

/-- `main` holds `radio_lock`. -/
def MainAt.critical : MainAt → Bool
  | .poll | .lock => false
  | _ => true

/-- `downstream_thread` holds `radio_lock`. -/
def DownstreamAt.critical : DownstreamAt → Bool
  | .collect | .lock => false
  | _ => true

namespace Radio

variable {s : Radio}

structure Locked (s : Radio) : Prop where
  main : s.main.critical = true → s.radioLock = some .main
  downstream : s.downstream.critical = true → s.radioLock = some .downstream

theorem Locked.not_downstream (h : s.Locked) (hmain : s.main.critical = true) :
    s.downstream.critical = false := by
  rw [← Bool.not_eq_true]
  intro hdown
  exact nomatch (h.main hmain).symm.trans (h.downstream hdown)

theorem Locked.not_main (h : s.Locked) (hdown : s.downstream.critical = true) :
    s.main.critical = false := by
  rw [← Bool.not_eq_true]
  intro hmain
  exact nomatch (h.main hmain).symm.trans (h.downstream hdown)

/-- A thread without the lock has a part of the program counter values only. -/
theorem Locked.free (h : s.Locked) (hfree : s.radioLock = none) :
    s.main.critical = false ∧ s.downstream.critical = false := by
  refine ⟨?_, ?_⟩
  · rw [← Bool.not_eq_true]
    intro hmain
    exact nomatch hfree.symm.trans (h.main hmain)
  · rw [← Bool.not_eq_true]
    intro hdown
    exact nomatch hfree.symm.trans (h.downstream hdown)

theorem locked_mainStep (h : s.Locked) : s.mainStep.Locked := by
  have hpast : s.main.critical = true → ∀ t : Radio, t.radioLock = s.radioLock →
      t.downstream = s.downstream → t.Locked := by
    intro hcritical t hlock hdown
    refine ⟨fun _ ↦ hlock.trans (h.main hcritical), fun hcritical' ↦ ?_⟩
    rw [hdown, h.not_downstream hcritical] at hcritical'
    exact absurd hcritical' Bool.false_ne_true
  rw [mainStep]
  cases hmain : s.main with
  | poll =>
    dsimp only
    split
    · exact ⟨fun h' ↦ absurd h' Bool.false_ne_true, h.downstream⟩
    · exact h
  | lock =>
    dsimp only
    split
    · rename_i hfree
      refine ⟨fun _ ↦ rfl, fun hcritical ↦ ?_⟩
      exact absurd ((h.free hfree).2.symm.trans hcritical) Bool.false_ne_true
    · exact h
  | unlock =>
    refine ⟨fun h' ↦ absurd h' Bool.false_ne_true, fun hcritical ↦ ?_⟩
    have hnot := h.not_downstream (by rw [hmain]; rfl)
    exact absurd (hnot.symm.trans hcritical) Bool.false_ne_true
  | clearFlag => exact hpast (by rw [hmain]; rfl) _ rfl rfl
  | getStatus => exact hpast (by rw [hmain]; rfl) _ rfl rfl
  | clearStatus irqRegs => exact hpast (by rw [hmain]; rfl) _ rfl rfl
  | dispatch irqRegs => exact hpast (by rw [hmain]; rfl) _ rfl rfl

theorem locked_downstreamStep (h : s.Locked) (go : Bool) : (s.downstreamStep go).Locked := by
  have hpast : s.downstream.critical = true → ∀ t : Radio, t.radioLock = s.radioLock →
      t.main = s.main → t.Locked := by
    intro hcritical t hlock hmain
    refine ⟨fun hcritical' ↦ ?_, fun _ ↦ hlock.trans (h.downstream hcritical)⟩
    rw [hmain, h.not_main hcritical] at hcritical'
    exact absurd hcritical' Bool.false_ne_true
  rw [downstreamStep]
  cases hdown : s.downstream with
  | collect =>
    dsimp only
    split
    · exact ⟨h.main, fun h' ↦ absurd h' Bool.false_ne_true⟩
    · exact h
  | lock =>
    dsimp only
    split
    · rename_i hfree
      refine ⟨fun hcritical ↦ ?_, fun _ ↦ rfl⟩
      exact absurd ((h.free hfree).1.symm.trans hcritical) Bool.false_ne_true
    · exact h
  | unlock =>
    refine ⟨fun hcritical ↦ ?_, fun h' ↦ absurd h' Bool.false_ne_true⟩
    have hnot := h.not_main (by rw [hdown]; rfl)
    exact absurd (hnot.symm.trans hcritical) Bool.false_ne_true
  | wait =>
    dsimp only
    split
    · exact hpast (by rw [hdown]; rfl) _ rfl rfl
    · exact h
  | clearFlag => exact hpast (by rw [hdown]; rfl) _ rfl rfl
  | send => exact hpast (by rw [hdown]; rfl) _ rfl rfl
  | getStatus => exact hpast (by rw [hdown]; rfl) _ rfl rfl
  | clearStatus irqRegs => exact hpast (by rw [hdown]; rfl) _ rfl rfl
  | clearFlagSent => exact hpast (by rw [hdown]; rfl) _ rfl rfl
  | clearFlagAfter => exact hpast (by rw [hdown]; rfl) _ rfl rfl

theorem locked_step (h : s.Locked) (e : Event) : (s.step e).Locked := by
  rcases e with irq | _ | go
  · rw [step, raise]
    split
    · exact h
    · exact ⟨h.main, h.downstream⟩
  · exact locked_mainStep h
  · exact locked_downstreamStep h go

end Radio

/-! ## What a thread has read -/

namespace IrqStatus

variable {status irqRegs : IrqStatus}

/-- The status was read and has not been cleared since. -/
structure Reads (irqRegs status : IrqStatus) : Prop where
  crc : irqRegs.crcError = true → irqRegs.rxDone = true
  rx : irqRegs.rxDone = true → status.rxDone = true ∧ status.crcError = irqRegs.crcError

theorem Reads.crc_clear (h : irqRegs.Reads status)
    (hcrc : status.crcError = true → status.rxDone = true) :
    (status.clear irqRegs).crcError = true → (status.clear irqRegs).rxDone = true := by
  intro hclear
  rw [clear, Bool.and_eq_true, Bool.not_eq_true'] at hclear ⊢
  refine ⟨hcrc hclear.1, ?_⟩
  rw [← Bool.not_eq_true]
  intro hrx
  exact absurd (((h.rx hrx).2.symm.trans hclear.1).symm.trans hclear.2) Bool.false_ne_true.symm

theorem rxDone_clear (hrx : irqRegs.rxDone = true) : (status.clear irqRegs).rxDone = false := by
  rw [clear, hrx, Bool.not_true, Bool.and_false]

/-- A good frame stays in the status unless it was read. -/
theorem Reads.good_clear (h : irqRegs.Reads status) :
    (status.clear irqRegs).good = (status.good && !irqRegs.good) := by
  rw [good, good, good, clear]
  cases hrx : irqRegs.rxDone with
  | true =>
    obtain ⟨-, hcrc⟩ := h.rx hrx
    rw [hcrc]
    cases status.rxDone <;> cases irqRegs.crcError <;> rfl
  | false =>
    have hcrc : irqRegs.crcError = false := by
      rw [← Bool.not_eq_true]
      intro hcrc
      exact absurd (hrx.symm.trans (h.crc hcrc)) Bool.false_ne_true
    rw [hcrc]
    cases status.rxDone <;> cases status.crcError <;> rfl

theorem Reads.good (h : irqRegs.Reads status) (hgood : irqRegs.good = true) :
    status.good = true := by
  rw [IrqStatus.good, Bool.and_eq_true] at hgood ⊢
  obtain ⟨hrx, hcrc⟩ := h.rx hgood.1
  exact ⟨hrx, by rw [hcrc]; exact hgood.2⟩

theorem reads_self (hcrc : status.crcError = true → status.rxDone = true) : status.Reads status :=
  ⟨hcrc, fun h ↦ ⟨h, rfl⟩⟩

theorem or_of_not_rxDone (status : IrqStatus) {irq : Irq} (h : irq.status.rxDone = false) :
    (status.or irq.status).rxDone = status.rxDone ∧
      (status.or irq.status).crcError = status.crcError := by
  rcases irq with crcError | _ | _ | _
  · exact nomatch h
  · exact ⟨Bool.or_false _, Bool.or_false _⟩
  · exact ⟨Bool.or_false _, Bool.or_false _⟩
  · exact ⟨Bool.or_false _, Bool.or_false _⟩

theorem Reads.or_of_not_rxDone (h : irqRegs.Reads status) {irq : Irq}
    (hirq : irq.status.rxDone = false) : irqRegs.Reads (status.or irq.status) := by
  obtain ⟨hrx, hcrc⟩ := IrqStatus.or_of_not_rxDone status hirq
  exact ⟨h.crc, fun hregs ↦ by rw [hrx, hcrc]; exact h.rx hregs⟩

end IrqStatus

namespace Radio

variable {s : Radio}

structure Readings (s : Radio) : Prop where
  crc : s.status.crcError = true → s.status.rxDone = true
  main : ∀ irqRegs, s.main = .clearStatus irqRegs → irqRegs.Reads s.status
  dispatch : ∀ irqRegs, s.main = .dispatch irqRegs → irqRegs.rxDone = true → s.status.rxDone = false
  downstream : ∀ irqRegs, s.downstream = .clearStatus irqRegs → irqRegs.Reads s.status

theorem readings_raise (h : s.Readings) (irq : Irq) : (s.raise irq).Readings := by
  rw [raise]
  split
  · exact h
  rename_i hfree
  cases hirq : irq.status.rxDone with
  | false =>
    obtain ⟨hrx, hcrc⟩ := s.status.or_of_not_rxDone hirq
    refine ⟨?_, fun irqRegs hmain ↦ (h.main irqRegs hmain).or_of_not_rxDone hirq,
      fun irqRegs hmain hregs ↦ hrx.trans (h.dispatch irqRegs hmain hregs),
      fun irqRegs hdown ↦ (h.downstream irqRegs hdown).or_of_not_rxDone hirq⟩
    dsimp only
    rw [hrx, hcrc]
    exact h.crc
  | true =>
    -- no frame is pending, so no register holds one
    rw [hirq, Bool.true_and, rxPending, Bool.not_eq_true, Bool.or_eq_false_iff] at hfree
    obtain ⟨hstatus, hregs⟩ := hfree
    have hnone : ∀ irqRegs : IrqStatus, irqRegs.Reads s.status → irqRegs.rxDone = false →
        irqRegs.Reads (s.status.or irq.status) := fun irqRegs hreads hrx ↦
      ⟨hreads.crc, fun h ↦ absurd (hrx.symm.trans h) Bool.false_ne_true⟩
    refine ⟨fun _ ↦ ?_, fun irqRegs hmain ↦ ?_, fun irqRegs hmain hrx ↦ ?_, fun irqRegs hdown ↦ ?_⟩
    · rw [IrqStatus.or, hirq, Bool.or_true]
    · rw [hmain] at hregs
      exact hnone irqRegs (h.main irqRegs hmain) hregs
    · rw [hmain] at hregs
      exact absurd (hregs.symm.trans hrx) Bool.false_ne_true
    · refine hnone irqRegs (h.downstream irqRegs hdown) ?_
      rw [← Bool.not_eq_true]
      intro hrx
      exact absurd (hstatus.symm.trans ((h.downstream irqRegs hdown).rx hrx).1) Bool.false_ne_true

theorem readings_mainStep (hlock : s.Locked) (h : s.Readings) : s.mainStep.Readings := by
  -- away from the reads and clears of the status only the place of `main` changes
  have hmove : ∀ t : Radio, t.status = s.status → t.downstream = s.downstream →
      (∀ irqRegs, t.main ≠ .clearStatus irqRegs) → (∀ irqRegs, t.main ≠ .dispatch irqRegs) →
      t.Readings := by
    intro t hstatus hdown hclear hdispatch
    exact ⟨hstatus ▸ h.crc, fun r hr ↦ absurd hr (hclear r), fun r hr ↦ absurd hr (hdispatch r),
      hstatus ▸ hdown ▸ h.downstream⟩
  rw [mainStep]
  cases hmain : s.main with
  | poll =>
    dsimp only
    split
    · exact hmove _ rfl rfl nofun nofun
    · exact h
  | lock =>
    dsimp only
    split
    · exact hmove _ rfl rfl nofun nofun
    · exact h
  | clearFlag => exact hmove _ rfl rfl nofun nofun
  | unlock => exact hmove _ rfl rfl nofun nofun
  | dispatch irqRegs => exact hmove _ rfl rfl nofun nofun
  | getStatus =>
    refine ⟨h.crc, fun r hr ↦ ?_, nofun, h.downstream⟩
    obtain rfl := MainAt.clearStatus.inj hr
    exact IrqStatus.reads_self h.crc
  | clearStatus irqRegs =>
    have hreads := h.main irqRegs hmain
    refine ⟨hreads.crc_clear h.crc, nofun, fun r hr hrx ↦ ?_, fun r hr ↦ ?_⟩
    · obtain rfl := MainAt.dispatch.inj hr
      exact IrqStatus.rxDone_clear hrx
    · have hnot := hlock.not_downstream (by rw [hmain]; rfl)
      rw [hr] at hnot
      exact nomatch hnot

theorem readings_downstreamStep (hlock : s.Locked) (h : s.Readings) (go : Bool) :
    (s.downstreamStep go).Readings := by
  have hmove : ∀ t : Radio, t.status = s.status → t.main = s.main →
      (∀ irqRegs, t.downstream ≠ .clearStatus irqRegs) → t.Readings := by
    intro t hstatus hmain hclear
    exact ⟨hstatus ▸ h.crc, hstatus ▸ hmain ▸ h.main, hstatus ▸ hmain ▸ h.dispatch,
      fun r hr ↦ absurd hr (hclear r)⟩
  rw [downstreamStep]
  cases hdown : s.downstream with
  | collect =>
    dsimp only
    split
    · exact hmove _ rfl rfl nofun
    · exact h
  | lock =>
    dsimp only
    split
    · exact hmove _ rfl rfl nofun
    · exact h
  | wait =>
    dsimp only
    split
    · exact hmove _ rfl rfl nofun
    · exact h
  | clearFlag => exact hmove _ rfl rfl nofun
  | send =>
    refine hmove _ rfl rfl fun r hr ↦ ?_
    cases go <;> exact nomatch hr
  | clearFlagSent => exact hmove _ rfl rfl nofun
  | clearFlagAfter => exact hmove _ rfl rfl nofun
  | unlock => exact hmove _ rfl rfl nofun
  | getStatus =>
    refine ⟨h.crc, h.main, h.dispatch, fun r hr ↦ ?_⟩
    obtain rfl := DownstreamAt.clearStatus.inj hr
    exact IrqStatus.reads_self h.crc
  | clearStatus irqRegs =>
    have hcritical : s.main.critical = false := hlock.not_main (by rw [hdown]; rfl)
    refine ⟨(h.downstream irqRegs hdown).crc_clear h.crc, fun r hr ↦ ?_, fun r hr _ ↦ ?_, nofun⟩
    · rw [show s.main = _ from hr] at hcritical
      exact nomatch hcritical
    · rw [show s.main = _ from hr] at hcritical
      exact nomatch hcritical

end Radio

end Emcs.Bridge
