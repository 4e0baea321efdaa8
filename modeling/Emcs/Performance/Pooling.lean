import Emcs.Performance.Loss
import Mathlib.Algebra.Order.BigOperators.Group.List

/-!
# Numbers of several nodes

`perf_analysis_lora.py` takes the numbers of all nodes on a topic together, the multi-hop script
takes every node by itself. So the first shows a loss exactly if some number was received from no
node at all (`Lora.showsLoss_iff`): what one node has lost is hidden where the numbers of the others
fill the gap. Both scripts say nothing about a topic if they end before it, which happens at a row
they cannot read and at a topic whose rows all have one time.

## The proof

The loss of a list of numbers is not zero exactly if a number between the smallest and the largest
is missing from it. For the pool this is a number that no node delivered, for a node one that this
node did not. A number that one node misses may have come from another, so wherever a node misses
one, the scripts agree only if some number is missing from all of them.
-/

namespace Emcs.Performance

open Arrivals Dashboard

variable {rows : List Row} {topic : Text}

/-- The numbers received from a node on a topic. -/
def received (rows : List Row) (topic node : Text) : List ℤ :=
  ((rowsOn rows topic).filter fun row ↦ row.node = node).filterMap fun row ↦ (int row.seq).toOption

/-- The numbers of all nodes on a topic, as they stand in the payloads. -/
def pooled (rows : List Row) (topic : Text) : List ℤ :=
  (rowsOn rows topic).filterMap fun row ↦ row.lastNumber.toOption

/-- A number between the smallest and the largest one from the node was not received. -/
def Misses (rows : List Row) (topic node : Text) : Prop :=
  (lost (received rows topic node)).Nonempty

/-- Where every row can be read, the numbers are those of the rows. -/
theorem filterMap_toOption {f : Row → Except PyError ℤ} {rows : List Row}
    (h : ∀ row ∈ rows, ∃ n, f row = .ok n) :
    rows.filterMap (fun row ↦ (f row).toOption)
      = rows.map fun row ↦ (f row).toOption.getD 0 := by
  refine List.filterMap_eq_map_iff_forall_eq_some.mpr fun row hrow ↦ ?_
  obtain ⟨n, hn⟩ := h row hrow
  rw [hn]
  rfl

/-! ## One pool -/

namespace Lora

/-- The script prints a loss that is not zero for the topic. -/
def ShowsLoss (rows : List Row) (topic : Text) : Prop :=
  ∃ f, Prints (perfAnalysisLora rows).1 topic f ∧ f.loss ≠ 0

theorem loss_ne_zero_iff (sequences : List ℤ) : loss sequences ≠ 0 ↔ (lost sequences).Nonempty := by
  rw [loss, clippedRate_eq, gapRate_ne_zero_iff]

theorem read_eq (row : Row) : read row = row.lastNumber.map (⟨row.timestamp, ·⟩) := by
  rw [read]
  cases row.lastNumber <;> rfl

/-- The entry of a row that can be read. -/
def entry (row : Row) : Entry := ⟨row.timestamp, row.lastNumber.toOption.getD 0⟩

/-- The numbers of the rows, in the order of their times. -/
def sequences (rows : List Row) : List ℤ :=
  ((rows.map entry).insertionSort (·.ts ≤ ·.ts)).map Entry.seq

theorem exists_analyse_iff (rows : List Row) (P : ℚ × ℚ → Prop) (h : rows ≠ []) :
    (∃ f, analyse (rows.map entry) = .ok f ∧ P f.rates) ↔ Spans rows ∧
      P (pdr (sequences rows), loss (sequences rows)) :=
  exists_figures_iff (t := Entry.ts) (fun _ ↦ rfl) h _ _ P

/-- Where every row can be read, these are the numbers of the topic. -/
theorem mem_sequences_iff (hread : ∀ row ∈ rows, ∃ n, row.lastNumber = .ok n) (topic : Text)
    (x : ℤ) : x ∈ sequences (rowsOn rows topic) ↔ x ∈ pooled rows topic := by
  have hpool : pooled rows topic = ((rowsOn rows topic).map entry).map Entry.seq := by
    rw [pooled, filterMap_toOption fun row hrow ↦ hread row (mem_rowsOn.mp hrow).1, List.map_map]
    rfl
  rw [hpool]
  exact ((List.perm_insertionSort _ _).map Entry.seq).mem_iff

theorem exists_prints_iff (rows : List Row) (topic : Text) (P : ℚ × ℚ → Prop) :
    (∃ f, Prints (perfAnalysisLora rows).1 topic f ∧ P f.rates) ↔
      (∀ row ∈ rows, ∃ n, row.lastNumber = .ok n) ∧ Reached rows topic ∧
        2 ≤ (rowsOn rows topic).length ∧
          P (pdr (sequences (rowsOn rows topic)), loss (sequences (rowsOn rows topic))) :=
  Performance.exists_prints_iff read_eq exists_analyse_iff rows topic P

/-- **When `perf_analysis_lora.py` shows a loss**: exactly if it gets to the topic, and some number
was received from no node at all. -/
theorem showsLoss_iff : ShowsLoss rows topic ↔
    (∀ row ∈ rows, ∃ n, row.lastNumber = .ok n) ∧ Reached rows topic ∧
      (lost (pooled rows topic)).Nonempty := by
  have hshows := exists_prints_iff rows topic (·.2 ≠ 0)
  rw [ShowsLoss]
  refine hshows.trans (and_congr_right fun hread ↦ and_congr_right fun _ ↦ ?_)
  have hsort : lost (sequences (rowsOn rows topic)) = lost (pooled rows topic) :=
    lost_congr (mem_sequences_iff hread topic)
  have hlen : (lost (pooled rows topic)).Nonempty → 2 ≤ (rowsOn rows topic).length :=
    fun h ↦ (two_le_length_of_lost h).trans (List.length_filterMap_le _ _)
  rw [loss_ne_zero_iff, hsort]
  exact and_iff_right_of_imp hlen

end Lora

/-! ## One pool for each node -/

namespace Multihop

/-- The script prints a loss that is not zero for the topic. -/
def ShowsLoss (rows : List Row) (topic : Text) : Prop :=
  ∃ f, Prints (perfAnalysisLoraMultihop rows).1 topic f ∧ f.loss ≠ 0

section Average

variable {rows : List Entry}

theorem nodePdr_le_one (seqs : List ℤ) : nodePdr seqs ≤ 1 := by
  rw [nodePdr, nodeLoss, clippedRate_eq]
  exact sub_le_self 1 (gapRate_nonneg seqs)

theorem nodePdr_eq_one_iff (seqs : List ℤ) : nodePdr seqs = 1 ↔ ¬(lost seqs).Nonempty := by
  rw [nodePdr, nodeLoss, clippedRate_eq, sub_eq_self, ← gapRate_ne_zero_iff, not_not]

theorem mem_nodes {node : Text} (hlen : 2 ≤ (nodeSeqs rows node).length) : node ∈ nodes rows := by
  obtain ⟨n, hn⟩ := List.exists_mem_of_length_pos (Nat.zero_lt_of_lt hlen)
  obtain ⟨r, hr, -⟩ := List.mem_map.mp hn
  obtain ⟨hmem, hnode⟩ := List.mem_filter.mp hr
  rw [nodes, List.mem_dedup, ← of_decide_eq_true hnode]
  exact List.mem_map_of_mem hmem

theorem mem_nodePdrs {q : ℚ} : q ∈ nodePdrs rows ↔
    ∃ node, 2 ≤ (nodeSeqs rows node).length ∧ nodePdr (nodeSeqs rows node) = q := by
  simp only [nodePdrs, List.mem_map, List.mem_filter, decide_eq_true_iff]
  constructor
  · rintro ⟨seqs, ⟨⟨node, -, rfl⟩, hlen⟩, hq⟩
    exact ⟨node, hlen, hq⟩
  · rintro ⟨node, hlen, hq⟩
    exact ⟨nodeSeqs rows node, ⟨⟨node, mem_nodes hlen, rfl⟩, hlen⟩, hq⟩

/-- Numbers of at most 1 have the mean 1 only if they all are 1. -/
theorem sum_eq_length_iff {xs : List ℚ} (h : ∀ x ∈ xs, x ≤ 1) :
    xs.sum = xs.length ↔ ∀ x ∈ xs, x = 1 := by
  constructor
  · intro hsum x hx
    by_contra hne
    have hsmall : ∃ y ∈ xs, y < 1 := ⟨x, hx, lt_of_le_of_ne (h x hx) hne⟩
    have hlt := List.sum_lt_sum (l := xs) id (fun _ ↦ (1 : ℚ)) h hsmall
    rw [List.map_id, List.map_const', List.sum_replicate, nsmul_one, hsum] at hlt
    exact lt_irrefl _ hlt
  · intro hall
    rw [List.sum_eq_card_nsmul xs 1 hall, nsmul_one]

/-- **The average** shows no loss exactly if some node counts, and none has a loss. -/
theorem avgLoss_eq_zero_iff : avgLoss rows = 0 ↔
    (∃ node, 2 ≤ (nodeSeqs rows node).length) ∧ ∀ node, ¬(lost (nodeSeqs rows node)).Nonempty := by
  have hle : ∀ q ∈ nodePdrs rows, q ≤ 1 := by
    intro q hq
    obtain ⟨node, -, rfl⟩ := mem_nodePdrs.mp hq
    exact nodePdr_le_one _
  have hne : nodePdrs rows ≠ [] ↔ ∃ node, 2 ≤ (nodeSeqs rows node).length := by
    rw [← List.length_pos_iff, List.length_pos_iff_exists_mem]
    constructor
    · rintro ⟨q, hq⟩
      obtain ⟨node, hlen, -⟩ := mem_nodePdrs.mp hq
      exact ⟨node, hlen⟩
    · rintro ⟨node, hlen⟩
      exact ⟨_, mem_nodePdrs.mpr ⟨node, hlen, rfl⟩⟩
  have hall : (∀ q ∈ nodePdrs rows, q = 1) ↔ ∀ node, ¬(lost (nodeSeqs rows node)).Nonempty := by
    constructor
    · intro h node hlost
      have hone := h _ (mem_nodePdrs.mpr ⟨node, two_le_length_of_lost hlost, rfl⟩)
      exact (nodePdr_eq_one_iff _).mp hone hlost
    · intro h q hq
      obtain ⟨node, -, rfl⟩ := mem_nodePdrs.mp hq
      exact (nodePdr_eq_one_iff _).mpr (h node)
  rw [avgLoss, sub_eq_zero, avgPdr, ← hne, ← hall]
  by_cases hnil : nodePdrs rows = []
  · rw [if_pos hnil]
    exact iff_of_false one_ne_zero fun h ↦ h.1 hnil
  · have hpos : ((nodePdrs rows).length : ℚ) ≠ 0 :=
      Nat.cast_ne_zero.mpr (mt List.length_eq_zero_iff.mp hnil)
    rw [if_neg hnil, eq_comm, div_eq_one_iff_eq hpos, sum_eq_length_iff hle]
    exact (and_iff_right hnil).symm

end Average

theorem read_eq (row : Row) : read row = (int row.seq).map (⟨row.timestamp, row.node, ·⟩) := by
  rw [read]
  cases int row.seq <;> rfl

/-- The entry of a row that can be read. -/
def entry (row : Row) : Entry := ⟨row.timestamp, row.node, (int row.seq).toOption.getD 0⟩

/-- The entries of the rows, in the order of their times. -/
def entries (rows : List Row) : List Entry := (rows.map entry).insertionSort (·.ts ≤ ·.ts)

theorem exists_analyse_iff (rows : List Row) (P : ℚ × ℚ → Prop) (h : rows ≠ []) :
    (∃ f, analyse (rows.map entry) = .ok f ∧ P f.rates) ↔ Spans rows ∧
      P (avgPdr (entries rows), avgLoss (entries rows)) := by
  have hfigures := exists_figures_iff (t := Entry.ts) (g := entry) (fun _ ↦ rfl) h
    (avgPdr (entries rows)) (avgLoss (entries rows)) P
  rw [← hfigures, analyse]
  change (∃ f, (figures ((entries rows).map Entry.ts) jitterOrZero (avgPdr (entries rows))
    (avgLoss (entries rows)) >>= _) = .ok f ∧ _) ↔
      ∃ f, figures ((entries rows).map Entry.ts) jitterOrZero _ _ = .ok f ∧ _
  cases figures ((entries rows).map Entry.ts) jitterOrZero (avgPdr (entries rows))
    (avgLoss (entries rows)) with
  | error e => exact iff_of_false (fun ⟨f, hf, _⟩ ↦ nomatch hf) fun ⟨f, hf, _⟩ ↦ nomatch hf
  | ok f =>
    constructor
    · rintro ⟨_, hf, hP⟩
      obtain rfl := Except.ok.inj hf
      exact ⟨f, rfl, hP⟩
    · rintro ⟨_, hf, hP⟩
      obtain rfl := Except.ok.inj hf
      exact ⟨_, rfl, hP⟩

/-- Where every row can be read, the numbers of a node are those received from it. -/
theorem nodeSeqs_perm (hread : ∀ row ∈ rows, ∃ n, int row.seq = .ok n) (topic node : Text) :
    (nodeSeqs (entries (rowsOn rows topic)) node).Perm (received rows topic node) := by
  have hreceived : received rows topic node = nodeSeqs ((rowsOn rows topic).map entry) node := by
    rw [received, filterMap_toOption fun row hrow ↦
      hread row (mem_rowsOn.mp (List.mem_filter.mp hrow).1).1, nodeSeqs, List.filter_map,
      List.map_map]
    rfl
  rw [hreceived]
  exact ((List.perm_insertionSort _ _).filter _).map _

theorem exists_prints_iff (rows : List Row) (topic : Text) (P : ℚ × ℚ → Prop) :
    (∃ f, Prints (perfAnalysisLoraMultihop rows).1 topic f ∧ P f.rates) ↔
      (∀ row ∈ rows, ∃ n, int row.seq = .ok n) ∧ Reached rows topic ∧
        2 ≤ (rowsOn rows topic).length ∧
          P (avgPdr (entries (rowsOn rows topic)), avgLoss (entries (rowsOn rows topic))) :=
  Performance.exists_prints_iff (w := fun f : NodeFigures ↦ f.rates) read_eq exists_analyse_iff
    rows topic P

/-- **When `perf_analysis_lora_multihop.py` shows a loss**: exactly if it gets to the topic, and
some node has a loss or no node has two numbers. -/
theorem showsLoss_iff : ShowsLoss rows topic ↔
    (∀ row ∈ rows, ∃ n, int row.seq = .ok n) ∧ Reached rows topic ∧
      2 ≤ (rowsOn rows topic).length ∧
        ((∃ node, Misses rows topic node) ∨ ∀ node, (received rows topic node).length < 2) := by
  have hshows := exists_prints_iff rows topic (·.2 ≠ 0)
  rw [ShowsLoss]
  refine hshows.trans (and_congr_right fun hread ↦ and_congr_right fun _ ↦
    and_congr_right fun _ ↦ ?_)
  have hseqs := nodeSeqs_perm hread topic
  have hlost : ∀ node, lost (nodeSeqs (entries (rowsOn rows topic)) node)
      = lost (received rows topic node) := fun node ↦ lost_congr fun _ ↦ (hseqs node).mem_iff
  rw [Ne, avgLoss_eq_zero_iff, not_and_or, or_comm]
  simp only [hlost, (hseqs _).length_eq, not_forall, not_not, not_exists, Nat.not_le, Misses]

end Multihop

/-! ## Both scripts -/

/-- Where a node misses a number, both scripts show a loss for the topic. -/
def LossesAgree (rows : List Row) : Prop :=
  ∀ topic node, Misses rows topic node → Lora.ShowsLoss rows topic ∧ Multihop.ShowsLoss rows topic

/-- What a node misses, the multi-hop script shows whenever it gets to the topic. -/
theorem Misses.showsLoss_iff {node : Text} (h : Misses rows topic node) :
    Multihop.ShowsLoss rows topic ↔
      (∀ row ∈ rows, ∃ n, int row.seq = .ok n) ∧ Reached rows topic := by
  have hlen : 2 ≤ (rowsOn rows topic).length :=
    (two_le_length_of_lost h).trans
      ((List.length_filterMap_le _ _).trans (List.length_filter_le _ _))
  rw [Multihop.showsLoss_iff]
  exact and_congr_right fun _ ↦ and_iff_left ⟨hlen, Or.inl ⟨node, h⟩⟩

/-- **The losses agree** exactly if, wherever a node misses a number, both scripts get to the topic
and some number of it was received from no node at all. -/
theorem lossesAgree_iff (rows : List Row) : LossesAgree rows ↔
    ∀ topic node, Misses rows topic node →
      (∀ row ∈ rows, (∃ n, row.lastNumber = .ok n) ∧ ∃ n, int row.seq = .ok n) ∧
        Reached rows topic ∧ (lost (pooled rows topic)).Nonempty := by
  refine forall_congr' fun topic ↦ forall_congr' fun node ↦ forall_congr' fun hmiss ↦ ?_
  rw [Lora.showsLoss_iff, hmiss.showsLoss_iff]
  constructor
  · rintro ⟨⟨hpayload, hreached, hlost⟩, hseq, -⟩
    exact ⟨fun row hrow ↦ ⟨hpayload row hrow, hseq row hrow⟩, hreached, hlost⟩
  · rintro ⟨hread, hreached, hlost⟩
    exact ⟨⟨fun row hrow ↦ (hread row hrow).1, hreached, hlost⟩,
      fun row hrow ↦ (hread row hrow).2, hreached⟩

/-- A row of an Arduino node, with its time in milliseconds after second 1774710000. -/
def arduinoRow (ms : ℚ) (node seq : String) : Row :=
  ⟨1774710000 + ms / 1000, "sensors/arduino/data".toList, node.toList, seq.toList,
    (node ++ " " ++ seq).toList⟩

/-- Rows of two nodes; 5 and 6 are missing from the one and were received from the other. -/
def interleaved : List Row :=
  [arduinoRow 951997 "arduino-05" "2", arduinoRow 952994 "arduino-04" "5",
    arduinoRow 961997 "arduino-05" "3", arduinoRow 962997 "arduino-04" "6",
    arduinoRow 992203 "arduino-05" "4", arduinoRow 1042483 "arduino-05" "7"]

theorem not_lossesAgree : ¬LossesAgree interleaved ∧
    Multihop.ShowsLoss interleaved "sensors/arduino/data".toList ∧
      ¬Lora.ShowsLoss interleaved "sensors/arduino/data".toList := by
  -- the whole output of both scripts
  have hlora : shown Figures.loss (Lora.perfAnalysisLora interleaved).1
      = [("sensors/arduino/data".toList, some 0)] := by decide +kernel
  have hmultihop : shown (fun f ↦ f.loss) (Multihop.perfAnalysisLoraMultihop interleaved).1
      = [("sensors/arduino/data".toList, some (1 / 6))] := by decide +kernel
  have hnot : ¬Lora.ShowsLoss interleaved "sensors/arduino/data".toList := by
    rw [Lora.ShowsLoss, exists_prints_iff_shown Figures.loss (· ≠ 0), hlora]
    rintro ⟨q, hq, hne⟩
    rw [List.mem_singleton, Prod.mk.injEq, Option.some_inj] at hq
    exact hne hq.2
  have hmiss : Misses interleaved "sensors/arduino/data".toList "arduino-05".toList := by
    have hreceived : received interleaved "sensors/arduino/data".toList "arduino-05".toList
        = [2, 3, 4, 7] := by decide +kernel
    rw [Misses, hreceived]
    exact ⟨5, by decide, ⟨4, by decide, by decide⟩, 7, by decide, by decide⟩
  refine ⟨fun h ↦ hnot (h _ _ hmiss).1, ?_, hnot⟩
  refine (exists_prints_iff_shown (fun f : Multihop.NodeFigures ↦ f.loss) (· ≠ 0)).mpr ?_
  rw [hmultihop]
  exact ⟨1 / 6, List.mem_singleton_self _, by decide +kernel⟩

end Emcs.Performance
