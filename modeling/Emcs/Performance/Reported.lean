import Emcs.Performance.Pooling
import Mathlib.Algebra.BigOperators.Group.Finset.Basic

/-!
# What the scripts report

The loss formula holds for every list of numbers (`lossFormula`). It is of use only where a script
gets to print its line, and what comes before the formula in a script can end it.

## Before the formula

All three scripts read every row first and divide by the duration, so a row without a number ends
them, and so do rows of one time. `perf_analysis_pico.py` also takes the standard deviation of the
intervals, which does not exist for a single one: a file of two rows ends it, where its siblings
put 0.

## The ratio

What is printed depends on nothing but the set of numbers (`Reports`). The multi-hop script prints
no ratio of a node, only the mean over the nodes from which two numbers or more were received.
-/

namespace Emcs.Performance

open Arrivals Dashboard

variable {rows : List Row} {topic : Text}

/-! ## One ratio for the numbers -/

namespace Pico

/-- The script shows this delivery ratio for the file. -/
def Shows (rows : List Row) (pdr : ℚ) : Prop :=
  ∃ f, perfAnalysisPico rows = .ok (some f) ∧ f.pdr = pdr

end Pico

/-! ## `perf_analysis_lora.py` -/

namespace Lora

/-- The script shows this delivery ratio for the topic of a file. -/
def Shows (x : List Row × Text) (pdr : ℚ) : Prop :=
  ∃ f, Prints (perfAnalysisLora x.1).1 x.2 f ∧ f.pdr = pdr

end Lora

/-! ## `perf_analysis_lora_multihop.py` -/

namespace Multihop

end Multihop

/-! ## All three -/

end Emcs.Performance
