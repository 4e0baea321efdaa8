import Emcs.Dashboard.Loss
import Mathlib.Data.Char
import Mathlib.Data.List.Lex

/-!
# The analysis scripts

`perf_analysis_pico.py`, `perf_analysis_lora.py` and `perf_analysis_lora_multihop.py` of
`performance`, which read the CSV files of the collectors one by one and print figures for each: the
first one line for a file, the others one for each topic. The model is about one file, given by its
rows. Numbers are exact (the scripts compute with floats and round for display), and the jitter,
which is a standard deviation, is kept as its square.

The LoRa scripts are one loop over the topics, `report`, with their own way to read a row and to
analyse the rows of a topic. An exception ends a script, but not what it has printed before.

## What is exact

The numbers and the gaps are integers in the scripts, too. A loss is a quotient of integers, and the
model keeps the quotient where the script keeps the double next to it; a mean over nodes is a mean
of such quotients. Timestamps are rationals, because a double is one, and their differences are
exact in the model and rounded in the script.
-/

namespace Emcs.Performance

open Dashboard (Text analysisGaps)

/-! ## Strings -/

/-- The exceptions that end the scripts. -/
inductive PyError
  | valueError | indexError | zeroDivisionError | statisticsError
  deriving DecidableEq

/-- The white space of `strip` and `split`. -/
def isSpace (c : Char) : Bool :=
  let n := c.toNat
  (9 ≤ n && n ≤ 13) || (0x1c ≤ n && n ≤ 0x20) || n == 0x85 || n == 0xa0 || n == 0x1680 ||
    (0x2000 ≤ n && n ≤ 0x200a) || n == 0x2028 || n == 0x2029 || n == 0x202f || n == 0x205f ||
    n == 0x3000

def strip (s : Text) : Text := ((s.dropWhile isSpace).reverse.dropWhile isSpace).reverse

def split (s : Text) : List Text := (s.splitOnP isSpace).filter (· ≠ [])

/-- A decimal numeral; single underscores may stand between its digits. Two things are left out:
the digits of other scripts, which Python takes as well, and its limit of 4300 digits. -/
def numeral (s : Text) : Option ℕ :=
  let groups := s.splitOn '_'
  if groups.all fun group ↦ group ≠ [] && group.all Char.isDigit then
    some (groups.flatten.foldl (fun n c ↦ 10 * n + (c.toNat - 48)) 0)
  else none

/-- `int` of a string. -/
def int (s : Text) : Except PyError ℤ :=
  let value := match strip s with
    | '-' :: s => (numeral s).map fun n ↦ -(n : ℤ)
    | '+' :: s => (numeral s).map Nat.cast
    | s => (numeral s).map Nat.cast
  match value with
  | none => .error .valueError
  | some n => .ok n

/-! ## Rows -/

/-- A row of a CSV file. The timestamp is `float(row["timestamp"])`, a finite number. -/
structure Row where
  timestamp : ℚ
  topic : Text
  node : Text
  seq : Text
  payload : Text

/-- `int(row["payload"].strip().split()[-1])`. -/
def Row.lastNumber (row : Row) : Except PyError ℤ :=
  match (split (strip row.payload)).getLast? with
  | none => .error .indexError
  | some word => int word

/-! ## Times -/

/-- `[timestamps[i] - timestamps[i-1] for i in range(1, len(timestamps))]`. -/
def intervals (timestamps : List ℚ) : List ℚ :=
  List.zipWith (fun b a ↦ b - a) timestamps.tail timestamps

/-- The square of `statistics.stdev`. -/
def stdevSq (xs : List ℚ) : Except PyError ℚ :=
  if xs.length < 2 then .error .statisticsError
  else
    let mean := xs.sum / xs.length
    .ok ((xs.map fun x ↦ (x - mean) ^ 2).sum / (xs.length - 1))

/-- What a line shows of a topic. -/
structure Figures where
  messages : ℕ
  duration : ℚ
  throughput : ℚ
  avgInterval : ℚ
  jitterSq : ℚ
  pdr : ℚ
  loss : ℚ
  deriving DecidableEq

/-- The figures, in the order in which the scripts compute them. The lists are not empty here. -/
def figures (timestamps : List ℚ) (jitterSq : List ℚ → Except PyError ℚ) (pdr loss : ℚ) :
    Except PyError Figures := do
  let duration := timestamps.getLastD 0 - timestamps.headD 0
  let throughput ← if duration = 0 then .error .zeroDivisionError
    else .ok (timestamps.length / duration)
  let xs := intervals timestamps
  let jitterSq ← jitterSq xs
  return ⟨timestamps.length, duration, throughput, xs.sum / xs.length, jitterSq, pdr, loss⟩

/-! ## Loss -/

/-- `sequences[-1] - sequences[0] + 1`, of the sorted list. -/
def expected (sequences : List ℤ) : ℤ :=
  let sequences := sequences.insertionSort (· ≤ ·)
  sequences.getLastD 0 - sequences.headD 0 + 1

/-- `gaps / expected`, before the scripts round it to a float. -/
def gapRate (sequences : List ℤ) : ℚ := analysisGaps sequences / expected sequences

/-! ## `perf_analysis_pico.py` -/

namespace Pico

def loss (sequences : List ℤ) : ℚ := gapRate sequences

def pdr (sequences : List ℤ) : ℚ := 1 - loss sequences

/-- The figures of a file, or `none` for `Not enough data`. -/
def perfAnalysisPico (rows : List Row) : Except PyError (Option Figures) := do
  let sequences ← rows.mapM Row.lastNumber
  let timestamps := rows.map Row.timestamp
  if timestamps.length < 2 then return none
  let line ← figures timestamps stdevSq (pdr sequences) (loss sequences)
  return some line

end Pico

/-! ## The loop over the topics -/

/-- `TOPIC_QOS.get(topic, "unknown")`. -/
def qosLabel (topic : Text) : Text :=
  if topic = "sensors/arduino/data".toList then "QoS0".toList
  else if topic = "sensors/data".toList then "QoS1".toList
  else "unknown".toList

/-- A line of the output; without figures it says `not enough data`. -/
structure Line (φ : Type) where
  qos : Text
  topic : Text
  figures : Option φ
  deriving DecidableEq

section Report

variable {ρ φ : Type}

/-- `data[topic]`: the entries of the topic, in the order of the file. -/
def entriesOf (entries : List (Text × ρ)) (topic : Text) : List ρ :=
  (entries.filter fun e ↦ e.1 = topic).map Prod.snd

/-- The topics in the order of `sorted(data.items())`. -/
def topicsOf (entries : List (Text × ρ)) : List Text :=
  (entries.map Prod.fst).dedup.insertionSort (· ≤ ·)

/-- The loop over the topics: what it prints, and the exception that ends it. -/
def lines (analyse : List ρ → Except PyError φ) (data : Text → List ρ) :
    List Text → List (Line φ) × Option PyError
  | [] => ([], none)
  | topic :: topics =>
    if (data topic).length < 2 then
      let r := lines analyse data topics
      (⟨qosLabel topic, topic, none⟩ :: r.1, r.2)
    else match analyse (data topic) with
      | .error e => ([], some e)
      | .ok f =>
        let r := lines analyse data topics
        (⟨qosLabel topic, topic, some f⟩ :: r.1, r.2)

/-- What a LoRa script prints for a file, and the exception that ends it. -/
def report (read : Row → Except PyError ρ) (analyse : List ρ → Except PyError φ)
    (rows : List Row) : List (Line φ) × Option PyError :=
  match rows.mapM fun row ↦ (read row).map (row.topic, ·) with
  | .error e => ([], some e)
  | .ok entries => lines analyse (entriesOf entries) (topicsOf entries)

end Report

/-- The square of `statistics.stdev(intervals) if len(intervals) > 1 else 0`. -/
def jitterOrZero (xs : List ℚ) : Except PyError ℚ := if xs.length > 1 then stdevSq xs else .ok 0

/-- `max(0, gaps / expected)`. -/
def clippedRate (sequences : List ℤ) : ℚ := max 0 (gapRate sequences)

/-! ## `perf_analysis_lora.py` -/

namespace Lora

def loss (sequences : List ℤ) : ℚ := clippedRate sequences

def pdr (sequences : List ℤ) : ℚ := 1 - loss sequences

structure Entry where
  ts : ℚ
  seq : ℤ

def read (row : Row) : Except PyError Entry := do
  let seq ← row.lastNumber
  return ⟨row.timestamp, seq⟩

def analyse (rows : List Entry) : Except PyError Figures :=
  let rows := rows.insertionSort (·.ts ≤ ·.ts)
  let sequences := rows.map Entry.seq
  figures (rows.map Entry.ts) jitterOrZero (pdr sequences) (loss sequences)

def perfAnalysisLora (rows : List Row) : List (Line Figures) × Option PyError :=
  report read analyse rows

end Lora

/-! ## `perf_analysis_lora_multihop.py` -/

namespace Multihop

def nodeLoss (nodeSeqs : List ℤ) : ℚ := clippedRate nodeSeqs

def nodePdr (nodeSeqs : List ℤ) : ℚ := 1 - nodeLoss nodeSeqs

structure Entry where
  ts : ℚ
  node : Text
  seq : ℤ

def read (row : Row) : Except PyError Entry := do
  let seq ← int row.seq
  return ⟨row.timestamp, row.node, seq⟩

/-- The line shows the number of nodes, too. -/
structure NodeFigures extends Figures where
  nodes : ℕ
  deriving DecidableEq

/-- The sequence numbers of a node. -/
def nodeSeqs (rows : List Entry) (node : Text) : List ℤ :=
  (rows.filter fun r ↦ r.node = node).map Entry.seq

/-- `set(r[1] for r in rows)`, in some order. -/
def nodes (rows : List Entry) : List Text := (rows.map Entry.node).dedup

/-- `node_pdrs`: nodes with fewer than two numbers are skipped. -/
def nodePdrs (rows : List Entry) : List ℚ :=
  (((nodes rows).map (nodeSeqs rows)).filter fun seqs ↦ 2 ≤ seqs.length).map nodePdr

def avgPdr (rows : List Entry) : ℚ :=
  if nodePdrs rows = [] then 0 else (nodePdrs rows).sum / (nodePdrs rows).length

def avgLoss (rows : List Entry) : ℚ := 1 - avgPdr rows

def analyse (rows : List Entry) : Except PyError NodeFigures := do
  let rows := rows.insertionSort (·.ts ≤ ·.ts)
  let f ← figures (rows.map Entry.ts) jitterOrZero (avgPdr rows) (avgLoss rows)
  return { f with nodes := (nodes rows).length }

def perfAnalysisLoraMultihop (rows : List Row) : List (Line NodeFigures) × Option PyError :=
  report read analyse rows

end Multihop

end Emcs.Performance
