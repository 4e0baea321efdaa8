import Emcs.Performance.Report

/-!
# The loss formula

The scripts compute a loss from nothing but the sorted sequence numbers. The gaps are the numbers
between the smallest and the largest one that were not received (`analysisGaps_eq`), so the delivery
ratio is the share of those that were (`pdr_eq`), however often and in whatever order.

## The proof

The sorted list is walked once: the distance of two neighbours, less one, counts the numbers missing
between them, and equal neighbours count nothing. The sum is the number of those missing between the
ends. Everything else is arithmetic on three cardinalities, the expected, the received and the lost,
of which the first is the sum of the others.
-/

namespace Emcs.Performance

open Arrivals Dashboard

variable {seqs : List ℤ}

/-! ## The numbers expected -/

theorem expected_eq {lo hi : ℤ} (hlo : IsLeast {x | x ∈ seqs} lo)
    (hhi : IsGreatest {x | x ∈ seqs} hi) : expected seqs = hi - lo + 1 := by
  have hne : seqs ≠ [] := List.ne_nil_of_mem hlo.1
  rw [expected, (isGreatest_getLastD_insertionSort hne 0).unique hhi,
    (isLeast_headD_insertionSort hne 0).unique hlo]

theorem analysisGaps_add_card (h : seqs ≠ []) :
    analysisGaps seqs + seqs.toFinset.card = expected seqs := by
  have hleast := isLeast_headD_insertionSort h 0
  have hgreatest := isGreatest_getLastD_insertionSort h 0
  rw [analysisGaps_eq, expected_eq hleast hgreatest]
  exact ncard_lost_add_card hleast hgreatest

theorem card_toFinset_pos (h : seqs ≠ []) : 0 < seqs.toFinset.card :=
  Finset.card_pos.mpr (List.toFinset_nonempty_iff seqs |>.mpr h)

theorem analysisGaps_nonneg (seqs : List ℤ) : 0 ≤ analysisGaps seqs := by
  rw [analysisGaps_eq]
  exact Int.natCast_nonneg _

theorem expected_pos (h : seqs ≠ []) : 0 < expected seqs := by
  have hsum := analysisGaps_add_card h
  have hcard := card_toFinset_pos h
  have hgaps := analysisGaps_nonneg seqs
  omega

/-! ## The rates -/

theorem expected_nil : expected [] = 1 := rfl

theorem gapRate_nonneg (seqs : List ℤ) : 0 ≤ gapRate seqs := by
  have hgaps : (0 : ℚ) ≤ analysisGaps seqs := Int.cast_nonneg (analysisGaps_nonneg seqs)
  by_cases h : seqs = []
  · rw [gapRate, h, expected_nil, Int.cast_one, div_one, ← h]
    exact hgaps
  · exact div_nonneg hgaps (Int.cast_nonneg (expected_pos h).le)

/-- The maximum with zero that the LoRa scripts take changes nothing. -/
theorem clippedRate_eq (seqs : List ℤ) : clippedRate seqs = gapRate seqs :=
  max_eq_right (gapRate_nonneg seqs)

/-- **There is a loss exactly if a number is lost.** -/
theorem gapRate_ne_zero_iff (seqs : List ℤ) : gapRate seqs ≠ 0 ↔ (lost seqs).Nonempty := by
  by_cases h : seqs = []
  · have hzero : gapRate [] = 0 := by decide +kernel
    rw [h, lost_nil]
    exact iff_of_false (not_not.mpr hzero) Set.not_nonempty_empty
  · have hpos : (expected seqs : ℚ) ≠ 0 := Int.cast_ne_zero.mpr (expected_pos h).ne'
    rw [gapRate, div_ne_zero_iff, and_iff_left hpos, Int.cast_ne_zero, analysisGaps_eq,
      Nat.cast_ne_zero, ncard_lost_ne_zero_iff]

end Emcs.Performance
