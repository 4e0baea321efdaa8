import Mathlib.Algebra.GroupWithZero.Nat
import Mathlib.Data.List.Basic
import Mathlib.Data.List.Induction

/-!
# A millisecond counter that wraps

A clock of 32 bits shows the time modulo `2 ^ 32`. A program that measures a duration subtracts two
readings: the difference is the time that passed, modulo the same number, so it never shows more
than has passed, whenever the readings were taken. A program that computes a deadline and compares
readings with it is right only as long as readings and deadline lie in the same lap of the clock;
`honoured_iff` is that statement about a loop that tests the clock again and again.
-/

/-- What the counter shows at the time `t`. -/
def clock (t : ℕ) : UInt32 := UInt32.ofNat t

namespace Clock

theorem toNat_clock (t : ℕ) : (clock t).toNat = t % 2 ^ 32 := UInt32.toNat_ofNat'

theorem clock_add (t : ℕ) (d : UInt32) : clock t + d = clock (t + d.toNat) := by
  apply UInt32.toNat_inj.mp
  rw [UInt32.toNat_add, toNat_clock, toNat_clock, Nat.mod_add_mod]

/-! ## Differences -/

theorem toNat_clock_sub {s t : ℕ} (h : s ≤ t) : (clock t - clock s).toNat = (t - s) % 2 ^ 32 := by
  rw [UInt32.toNat_sub, toNat_clock, toNat_clock]
  omega

/-- **A difference never shows more than has passed.** -/
theorem toNat_le_of_le_clock_sub {s t : ℕ} {d : UInt32} (h : s ≤ t) (hd : d ≤ clock t - clock s) :
    s + d.toNat ≤ t := by
  rw [UInt32.le_iff_toNat_le, toNat_clock_sub h] at hd
  omega

/-! ## Deadlines -/

/-- A test against a deadline is right exactly for readings from the lap of the deadline. -/
theorem clock_lt_clock_iff {s d t : ℕ} (hs : s ≤ t) (hd : d < s + 2 ^ 32) (ht : t < d + 2 ^ 32) :
    (clock t < clock d ↔ t < d) ↔ t / 2 ^ 32 = d / 2 ^ 32 := by
  rw [UInt32.lt_iff_toNat_lt, toNat_clock, toNat_clock]
  omega

/-- One reading follows another: not earlier, and by less than half a lap. -/
def Follows (s t : ℕ) : Prop := s ≤ t ∧ t < s + 2 ^ 31

theorem le_of_isChain {s t : ℕ} {ts : List ℕ} (h : List.IsChain Follows (s :: ts)) (ht : t ∈ ts) :
    s ≤ t := by
  induction ts generalizing s with
  | nil => contradiction
  | cons u ts ih =>
    rw [List.isChain_cons_cons] at h
    rcases List.mem_cons.mp ht with rfl | hmem
    · exact h.1.1
    · exact Nat.le_trans h.1.1 (ih h.2 hmem)

/-- The reading after readings before `d` is at most half a lap after `d`. -/
theorem lt_of_isChain {s d t : ℕ} {pre post : List ℕ}
    (h : List.IsChain Follows (s :: (pre ++ t :: post))) (hs : s < d) (hpre : ∀ u ∈ pre, u < d) :
    t < d + 2 ^ 31 := by
  induction pre generalizing s with
  | nil =>
    rw [List.nil_append, List.isChain_cons_cons] at h
    have hstep := h.1.2
    omega
  | cons u pre ih =>
    rw [List.cons_append, List.isChain_cons_cons] at h
    exact ih h.2 (hpre u List.mem_cons_self) fun v hv ↦ hpre v (List.mem_cons_of_mem _ hv)

/-- A loop that runs on while its readings are below the deadline runs on as long as the time is. -/
def Honoured (d : ℕ) (ts : List ℕ) : Prop :=
  ∀ qs, qs <+: ts → ((∀ t ∈ qs, clock t < clock d) ↔ ∀ t ∈ qs, t < d)

/-- The readings up to the first one at or after `d` lie in the lap of `d`. -/
def SameLap (d : ℕ) (ts : List ℕ) : Prop :=
  ∀ pre t post, ts = pre ++ t :: post → (∀ u ∈ pre, u < d) → t / 2 ^ 32 = d / 2 ^ 32

/-- **When a deadline is honoured.** -/
theorem honoured_iff {s d : ℕ} {ts : List ℕ} (h : List.IsChain Follows (s :: ts)) (hs : s < d)
    (hd : d < s + 2 ^ 32) : Honoured d ts ↔ SameLap d ts := by
  have hexact : ∀ pre t post, ts = pre ++ t :: post → (∀ u ∈ pre, u < d) →
      ((clock t < clock d ↔ t < d) ↔ t / 2 ^ 32 = d / 2 ^ 32) := by
    rintro pre t post rfl hpre
    have hlate := lt_of_isChain h hs hpre
    exact clock_lt_clock_iff (le_of_isChain h (List.mem_append_right _ List.mem_cons_self)) hd
      (by omega)
  constructor
  · intro hon pre t post hts hpre
    refine (hexact pre t post hts hpre).mp ?_
    -- the loop gets to this test, so the two agree on it
    have hrun := (hon pre ⟨t :: post, hts.symm⟩).mpr hpre
    have hnext := hon (pre ++ [t]) ⟨post, by rw [hts, List.append_assoc, List.singleton_append]⟩
    constructor
    · intro hlt
      refine hnext.mp (fun u hu ↦ ?_) t (List.mem_append_right _ (List.mem_singleton_self t))
      rcases List.mem_append.mp hu with hu | hu
      · exact hrun u hu
      · rwa [List.mem_singleton.mp hu]
    · intro hlt
      refine hnext.mpr (fun u hu ↦ ?_) t (List.mem_append_right _ (List.mem_singleton_self t))
      rcases List.mem_append.mp hu with hu | hu
      · exact hpre u hu
      · rwa [List.mem_singleton.mp hu]
  · intro hlap qs
    induction qs using List.reverseRecOn with
    | nil => exact fun _ ↦ ⟨fun _ _ hmem ↦ absurd hmem List.not_mem_nil,
        fun _ _ hmem ↦ absurd hmem List.not_mem_nil⟩
    | append_singleton qs t ih =>
      rintro ⟨post, hpost⟩
      have hts : ts = qs ++ t :: post := by
        rw [← hpost, List.append_assoc, List.singleton_append]
      have hbefore := ih ⟨t :: post, hts.symm⟩
      rw [List.forall_mem_append, List.forall_mem_append, hbefore]
      refine and_congr_right fun hpre ↦ ?_
      simp only [List.mem_singleton, forall_eq]
      exact (hexact qs t post hts hpre).mpr (hlap qs t post hts hpre)

end Clock
