import Emcs.Lib.Clock
import Emcs.Mesh.Node

/-!
# The wait of `mqttsn_transport_recv`

A call with a timeout tests the clock after every turn and compares it with a deadline computed at
the start. Every other timeout of the firmware subtracts two readings; this one compares two, and
what holds of it is what `Clock.honoured_iff` says of such a loop. The readings are those of a time
that the counter shows modulo `2 ^ 32`.
-/

namespace Emcs.Mesh

open Clock

/-- The turn when the clock that the loop reads shows the time `t`. -/
def Poll.onClock (p : Poll) (t : ℕ) : Poll := { p with now := clock t }

/-- The turns of a call, each with the time at which the loop then reads the clock. -/
def timed (ps : List (Poll × ℕ)) : List Poll := ps.map fun q ↦ q.1.onClock q.2

/-! ## The turns of a call that waits -/

section Turns

variable {cfg : NodeConfig} {t : Transport} {buf : List UInt8} {deadline : UInt32}

theorem turn_deliverFrame (t : Transport) (buf : List UInt8) (src ttl seq : UInt8)
    (payload : List UInt8) : (deliverFrame t buf src ttl seq payload).turn = .next ∨
      ∃ n, n ≠ 0 ∧ (deliverFrame t buf src ttl seq payload).turn = .ret n := by
  rw [deliverFrame]
  split
  · exact Or.inl rfl
  · dsimp only
    split
    · exact Or.inl rfl
    · rename_i hlen
      exact Or.inr ⟨_, hlen, rfl⟩

theorem turn_forwardFrame (cfg : NodeConfig) (t : Transport) (buf : List UInt8)
    (src dst ttl seq : UInt8) (payload : List UInt8) (fwdOk : Bool) :
    (forwardFrame cfg t buf src dst ttl seq payload fwdOk).turn = .next := by
  rw [forwardFrame]
  split
  · rfl
  · split
    · rfl
    · rfl

/-- A turn of a call that waits goes on to the test, or returns a frame. -/
theorem turn_receiveTurn (cfg : NodeConfig) (t : Transport) (buf : List UInt8) (p : Poll) :
    (receiveTurn cfg t buf false p).turn = .next ∨
      ∃ n, n ≠ 0 ∧ (receiveTurn cfg t buf false p).turn = .ret n := by
  rw [receiveTurn]
  split
  · exact Or.inl rfl
  split
  · exact Or.inl rfl
  · rw [receiveFrame.eq_def]
    split
    · dsimp only
      split
      · exact Or.inl rfl
      split
      · exact turn_deliverFrame _ buf _ _ _ _
      · exact Or.inl (turn_forwardFrame cfg _ buf _ _ _ _ _ _)
    · exact Or.inl rfl

/-- A call that has returned is not changed by later turns. -/
theorem ret_receiveLoop_append {nonBlocking : Bool} {ps ps' : List Poll} {n : ℕ}
    (h : (receiveLoop cfg nonBlocking deadline t buf ps).ret = some n) :
    (receiveLoop cfg nonBlocking deadline t buf (ps ++ ps')).ret = some n := by
  induction ps generalizing t buf with
  | nil => contradiction
  | cons p ps ih =>
    rw [List.cons_append]
    rw [receiveLoop] at h ⊢
    dsimp only at h ⊢
    split at h
    · exact h
    · exact h
    split at h
    · rename_i hgo
      rw [if_pos hgo]
      exact ih h
    · rename_i hstop
      rw [if_neg hstop]
      exact h

/-- A call that returns no frame runs on as long as the clock is below the deadline. -/
theorem ret_receiveLoop_eq_none_iff {ps : List Poll}
    (hnone : ∀ n, (receiveLoop cfg false deadline t buf ps).ret = some n → n = 0) :
    (receiveLoop cfg false deadline t buf ps).ret = none ↔ ∀ p ∈ ps, p.now < deadline := by
  induction ps generalizing t buf with
  | nil => exact iff_of_true rfl fun _ hmem ↦ absurd hmem List.not_mem_nil
  | cons p ps ih =>
    rw [receiveLoop] at hnone ⊢
    dsimp only at hnone ⊢
    rcases turn_receiveTurn cfg t buf p with hnext | ⟨n, hn, hret⟩
    · rw [hnext] at hnone ⊢
      dsimp only at hnone ⊢
      rw [List.forall_mem_cons]
      by_cases hnow : p.now < deadline
      · have hgo : (!false && decide (p.now < deadline)) = true := decide_eq_true hnow
        rw [if_pos hgo] at hnone ⊢
        rw [and_iff_right hnow]
        exact ih hnone
      · have hstop : ¬(!false && decide (p.now < deadline)) = true := by
          simpa using hnow
        rw [if_neg hstop]
        exact iff_of_false (Option.some_ne_none 0) fun h ↦ hnow h.1
    · rw [hret] at hnone
      exact absurd (hnone n rfl) hn

end Turns

/-! ## The wait -/

/-- The call ends at the first test at which the time passed is at least the timeout, and at no
earlier one: after any of its first tests it is still running as long as all of them came before. -/
def WaitsOut (cfg : NodeConfig) (t : Transport) (buf : List UInt8) (timeoutMs : UInt32) (start : ℕ)
    (polls : List (Poll × ℕ)) : Prop :=
  ∀ qs, qs <+: polls →
    ((mqttsnTransportRecv cfg t buf timeoutMs (clock start) (timed qs)).ret = none ↔
      ∀ q ∈ qs, q.2 - start < timeoutMs.toNat)

/-- **When the wait honours its timeout.** -/
theorem waitsOut_iff {cfg : NodeConfig} {t : Transport} {buf : List UInt8} {timeoutMs : UInt32}
    {start : ℕ} {polls : List (Poll × ℕ)} (hpos : timeoutMs ≠ 0)
    (hclock : List.IsChain Follows (start :: polls.map Prod.snd))
    (hnoframe : ∀ n, (mqttsnTransportRecv cfg t buf timeoutMs (clock start) (timed polls)).ret
      = some n → n = 0) :
    WaitsOut cfg t buf timeoutMs start polls ↔
      SameLap (start + timeoutMs.toNat) (polls.map Prod.snd) := by
  have hnonBlocking : decide (timeoutMs = 0) = false := decide_eq_false hpos
  have htimeout : 0 < timeoutMs.toNat := Nat.pos_of_ne_zero fun h ↦ hpos (UInt32.toNat_inj.mp h)
  have hlap := timeoutMs.toNat_lt
  -- a call that returns no frame is a loop that tests its readings
  have hloop : ∀ qs, qs <+: polls →
      ((mqttsnTransportRecv cfg t buf timeoutMs (clock start) (timed qs)).ret = none ↔
        ∀ τ ∈ qs.map Prod.snd, clock τ < clock (start + timeoutMs.toNat)) := by
    rintro qs ⟨rest, rfl⟩
    rw [mqttsnTransportRecv, hnonBlocking, clock_add] at hnoframe ⊢
    rw [ret_receiveLoop_eq_none_iff, timed, List.forall_mem_map, List.forall_mem_map]
    · rfl
    · intro n hn
      refine hnoframe n ?_
      rw [timed, List.map_append]
      exact ret_receiveLoop_append hn
  have htime : ∀ qs, qs <+: polls → ((∀ q ∈ qs, q.2 - start < timeoutMs.toNat) ↔
      ∀ τ ∈ qs.map Prod.snd, τ < start + timeoutMs.toNat) := by
    intro qs hqs
    rw [List.forall_mem_map]
    refine forall₂_congr fun q hq ↦ ?_
    have hle : start ≤ q.2 := le_of_isChain hclock (List.mem_map_of_mem (hqs.subset hq))
    omega
  rw [← honoured_iff hclock (by omega) (by omega)]
  constructor
  · rintro h us ⟨vs, hvs⟩
    obtain ⟨qs, rs, rfl, rfl, -⟩ := List.map_eq_append_iff.mp hvs.symm
    have hqs : qs <+: qs ++ rs := List.prefix_append qs rs
    rw [← hloop qs hqs, ← htime qs hqs]
    exact h qs hqs
  · intro h qs hqs
    rw [hloop qs hqs, htime qs hqs]
    exact h _ (hqs.map _)

/-- A turn in which the driver has nothing. -/
def Poll.quiet : Poll := ⟨false, none, 0, true, 0⟩

theorem waitsOut_of_boot :
    WaitsOut arduino02 Transport.boot [] 1000 0 [(Poll.quiet, 10), (Poll.quiet, 1010)] := by
  have hret : (mqttsnTransportRecv arduino02 Transport.boot [] 1000 (clock 0)
      (timed [(Poll.quiet, 10), (Poll.quiet, 1010)])).ret = some 0 := by decide +kernel
  refine (waitsOut_iff (by decide) (by simp [Follows]) fun n hn ↦ ?_).mpr fun pre t post h _ ↦ ?_
  · exact (Option.some_inj.mp (hret.symm.trans hn)).symm
  · have hmem : t ∈ [10, 1010] := by
      change t ∈ List.map Prod.snd [(Poll.quiet, 10), (Poll.quiet, 1010)]
      rw [h]
      exact List.mem_append_right _ List.mem_cons_self
    have hle : t ≤ 1010 := by
      simp only [List.mem_cons, List.not_mem_nil, or_false] at hmem
      omega
    change t / 2 ^ 32 = 1000 / 2 ^ 32
    omega

/-- A hundred milliseconds before the counter wraps, a wait of 200 ms ends at its first test. -/
theorem not_waitsOut : ¬WaitsOut arduino02 Transport.boot [] 200 (2 ^ 32 - 100)
    [(Poll.quiet, 2 ^ 32 - 90)] := by
  intro h
  have hrun := (h _ (List.prefix_refl _)).mpr (by decide)
  exact absurd hrun (by decide +kernel)

end Emcs.Mesh
