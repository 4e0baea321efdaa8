import Mathlib.Algebra.Ring.Int.Defs
import Mathlib.Data.List.AList
import Mathlib.Data.Rat.Defs
import Mathlib.Logic.Function.Basic

/-!
# The dashboard backend

`dashboard/backend/server.js`: messages from the broker are counted towards the active run, and the
REST requests start, stop and clear runs. A string is the list of its characters, a number that the
source computes with is an integer, and quotients are exact (the source rounds them for display).
The clock enters as data, once for every `Date.now()` whose value is kept.

## Numbers

JavaScript computes with doubles. A sequence number, a distance of two of them and a counter are
exact below 2^53, and there the integers of the model are what the source computes. From 2^53 on the
source rounds: the results that compare figures ask for smaller numbers, and the others say nothing
about the values. Quotients stand for the exact rational that the source rounds and then shows with
one decimal.
-/

namespace Emcs.Dashboard

/-- A string. -/
abbrev Text := List Char

/-! ## Payloads -/

/-- The white space of `trim` and of `\s`. -/
def isSpace (c : Char) : Bool :=
  let n := c.toNat
  (9 ≤ n && n ≤ 13) || n == 0x20 || n == 0xa0 || n == 0x1680 || (0x2000 ≤ n && n ≤ 0x200a) ||
    n == 0x2028 || n == 0x2029 || n == 0x202f || n == 0x205f || n == 0x3000 || n == 0xfeff

def trim (s : Text) : Text :=
  ((s.dropWhile isSpace).reverse.dropWhile isSpace).reverse

/-- `parseInt(s, 10)`, with `none` for `NaN`. The source gets a double, which is this integer as
long as it stays below 2 ^ 53 in magnitude, and is rounded beyond. -/
def parseInt (s : Text) : Option ℤ :=
  let digits (s : Text) : Option ℤ :=
    let ds := s.takeWhile Char.isDigit
    if ds = [] then none else some (ds.foldl (fun n c ↦ 10 * n + (c.toNat - 48)) 0)
  match s with
  | '-' :: s => (digits s).map (- ·)
  | '+' :: s => digits s
  | s => digits s

structure Payload where
  node : Text
  seq : Option ℤ

/-- `parsePayload`: the first word, and the number that the second one starts with. -/
def parsePayload (raw : Text) : Payload :=
  let s := trim raw
  let rest := s.dropWhile fun c ↦ !isSpace c
  { node := s.takeWhile fun c ↦ !isSpace c
    -- `s` does not end in a space, so there is a second word if anything is left
    seq := if rest = [] then none
      else parseInt ((rest.dropWhile isSpace).takeWhile fun c ↦ !isSpace c) }

/-- The keys of `perNode`. -/
inductive Bucket
  | a02 | a03 | a04 | a05 | pico
  deriving DecidableEq

def bucket (node : Text) : Option Bucket :=
  if node = "arduino-03".toList then some .a03
  else if node = "arduino-02".toList then some .a02
  else if node = "arduino-04".toList then some .a04
  else if node = "arduino-05".toList then some .a05
  else if "pico".toList.isPrefixOf node then some .pico
  else none

/-- `perNode`. -/
structure PerNode where
  a02 : ℕ
  a03 : ℕ
  a04 : ℕ
  a05 : ℕ
  pico : ℕ
  deriving DecidableEq

def PerNode.zero : PerNode := ⟨0, 0, 0, 0, 0⟩

/-- `if (bkt) perNode[bkt]++`. -/
def PerNode.count (p : PerNode) : Option Bucket → PerNode
  | none => p
  | some .a02 => { p with a02 := p.a02 + 1 }
  | some .a03 => { p with a03 := p.a03 + 1 }
  | some .a04 => { p with a04 := p.a04 + 1 }
  | some .a05 => { p with a05 := p.a05 + 1 }
  | some .pico => { p with pico := p.pico + 1 }

/-! ## Runs -/

inductive Mode
  | flooding | routing
  deriving DecidableEq

/-- A value of `seqTrack`. -/
structure Track where
  last : ℤ
  gaps : ℕ
  dupes : ℕ
  deriving DecidableEq

/-- An element of `events`. -/
structure RunEvent where
  time : Text
  node : Text
  topic : Text
  seq : Option ℤ
  isDupe : Bool
  gap : ℤ
  mode : Mode
  deriving DecidableEq

structure Run where
  mode : Mode
  active : Bool
  startTime : Option ℕ
  endTime : Option ℕ
  pkts : ℕ
  seqTrack : AList fun _ : Text ↦ Track
  dupes : ℕ
  gaps : ℕ
  perNode : PerNode
  timestamps : List ℕ
  events : List RunEvent

def freshRun (mode : Mode) : Run where
  mode := mode
  active := false
  startTime := none
  endTime := none
  pkts := 0
  seqTrack := ∅
  dupes := 0
  gaps := 0
  perNode := PerNode.zero
  timestamps := []
  events := []

/-! ## Sequence gaps and duplicates -/

/-- What `trackSeq` returns. -/
structure TrackResult where
  isDupe : Bool
  gap : ℤ

def trackKey (topic node : Text) : Text :=
  topic ++ "::".toList ++ if node = [] then "unknown".toList else node

def trackSeq (run : Run) (topic node : Text) (seq : Option ℤ) : Run × TrackResult :=
  match seq with
  | none => (run, ⟨false, 0⟩)
  | some seq =>
    let key := trackKey topic node
    match run.seqTrack.lookup key with
    | none => ({ run with seqTrack := run.seqTrack.insert key ⟨seq, 0, 0⟩ }, ⟨false, 0⟩)
    | some t =>
      if seq ≤ t.last then
        ({ run with seqTrack := run.seqTrack.insert key { t with dupes := t.dupes + 1 },
                    dupes := run.dupes + 1 }, ⟨true, 0⟩)
      else
        let gap := seq - t.last - 1
        let missed := if gap > 0 then gap.toNat else 0
        ({ run with seqTrack := run.seqTrack.insert key ⟨seq, t.gaps + missed, t.dupes⟩,
                    gaps := run.gaps + missed }, ⟨false, gap⟩)

/-! ## Messages -/

/-- A message from the broker, with the time of its arrival, for display and in milliseconds. -/
structure Message where
  topic : Text
  payload : Text
  time : Text
  now : ℕ

def Message.parsed (msg : Message) : Payload := parsePayload (trim msg.payload)

def Message.node (msg : Message) : Text := msg.parsed.node

def Message.seq (msg : Message) : Option ℤ := msg.parsed.seq

/-- `topic.includes("cmd")`. -/
def Message.isCmd (msg : Message) : Bool := msg.topic.tails.any fun s ↦ "cmd".toList.isPrefixOf s

def MAX_EVENTS : ℕ := 200

/-- The element is pushed, and the first one shifted out of a list that is too long. -/
def pushEvent (events : List RunEvent) (e : RunEvent) : List RunEvent :=
  let events := events ++ [e]
  if events.length > MAX_EVENTS then events.tail else events

/-- The element of `events` for a message, from the result of `trackSeq`. -/
def runEvent (mode : Mode) (msg : Message) (result : TrackResult) : RunEvent where
  time := msg.time
  node := msg.node
  topic := msg.topic
  seq := msg.seq
  isDupe := result.isDupe
  gap := result.gap
  mode := mode

/-- What the message handler does with the active run. -/
def Run.receive (mode : Mode) (r : Run) (msg : Message) : Run :=
  let r := { r with pkts := r.pkts + 1, timestamps := r.timestamps ++ [msg.now],
                    perNode := r.perNode.count (bucket msg.node) }
  let (r, result) := trackSeq r msg.topic msg.node msg.seq
  { r with events := pushEvent r.events (runEvent mode msg result) }

/-- The variables of the backend. -/
structure Server where
  currentMode : Mode
  activeRun : Option Mode
  runs : Mode → Run
  total : ℕ
  perNode : PerNode

def Server.boot : Server where
  currentMode := .flooding
  activeRun := none
  runs := freshRun
  total := 0
  perNode := PerNode.zero

def onMessage (s : Server) (msg : Message) : Server :=
  if msg.isCmd then s
  else
    let s := { s with total := s.total + 1, perNode := s.perNode.count (bucket msg.node) }
    match s.activeRun with
    | none => s
    | some mode => { s with runs := Function.update s.runs mode ((s.runs mode).receive mode msg) }

theorem onMessage_activeRun (s : Server) (msg : Message) :
    (onMessage s msg).activeRun = s.activeRun := by
  simp only [onMessage]
  split
  · rfl
  · split <;> rfl

theorem onMessage_runs_of_none {s : Server} (h : s.activeRun = none) (msg : Message) :
    (onMessage s msg).runs = s.runs := by
  simp only [onMessage, h]
  split <;> rfl

theorem onMessage_runs_of_some {s : Server} {mode : Mode} (h : s.activeRun = some mode)
    {msg : Message} (hcmd : ¬msg.isCmd = true) : (onMessage s msg).runs
      = Function.update s.runs mode ((s.runs mode).receive mode msg) := by
  simp only [onMessage, h, if_neg hcmd]

/-! ## Requests -/

/-- `_stopRun`. -/
def stopRun (s : Server) (mode : Mode) (now : ℕ) : Server :=
  let r := { s.runs mode with active := false, endTime := some now }
  let s := { s with runs := Function.update s.runs mode r }
  if s.activeRun = some mode then { s with activeRun := none } else s

theorem stopRun_runs (s : Server) (mode : Mode) (now : ℕ) :
    (stopRun s mode now).runs = Function.update s.runs mode
      { s.runs mode with active := false, endTime := some now } := by
  simp only [stopRun]
  split <;> rfl

theorem stopRun_activeRun (s : Server) (mode : Mode) (now : ℕ) :
    (stopRun s mode now).activeRun = if s.activeRun = some mode then none else s.activeRun := by
  simp only [stopRun]
  split <;> rfl

def stopActive (s : Server) (now : ℕ) : Server :=
  match s.activeRun with
  | none => s
  | some mode => stopRun s mode now

/-- `/run/start/:mode`: the clock is read when the active run is stopped and for the new run. -/
def startRun (s : Server) (mode : Mode) (stopNow now : ℕ) : Server :=
  let s := stopActive s stopNow
  let r := { freshRun mode with active := true, startTime := some now }
  { s with runs := Function.update s.runs mode r, activeRun := some mode, currentMode := mode }

def reset (s : Server) (now : ℕ) : Server :=
  let s := stopActive s now
  { s with runs := freshRun, total := 0, perNode := PerNode.zero }

/-- What the backend handles. Requests for any other mode are refused, and like the requests that
only report or publish they change nothing. -/
inductive Event
  | message (msg : Message)
  | setMode (mode : Mode)
  | runStart (mode : Mode) (stopNow now : ℕ)
  | runStop (now : ℕ)
  | runStopMode (mode : Mode) (now : ℕ)
  | runStats
  | exportStats
  | cmd
  | reset (now : ℕ)

def step (s : Server) : Event → Server
  | .message msg => onMessage s msg
  | .setMode mode => { s with currentMode := mode }
  | .runStart mode stopNow now => startRun s mode stopNow now
  | .runStop now => stopActive s now
  | .runStopMode mode now => stopRun s mode now
  | .runStats => s
  | .exportStats => s
  | .cmd => s
  | .reset now => reset s now

/-! ## Summaries -/

/-- A time that is neither `null` nor 0. -/
def truthy (t : Option ℕ) : Option ℕ := t.filter (· ≠ 0)

@[simp] theorem truthy_zero : truthy (some 0) = none := rfl

theorem truthy_of_ne {t : ℕ} (h : t ≠ 0) : truthy (some t) = some t := by simp [truthy, h]

/-- `deliveryPct` before rounding, none without any packet. -/
def deliveryPct (pkts gaps : ℕ) : Option ℚ :=
  let expected := pkts + gaps
  if expected > 0 then some (pkts / expected * 100) else none

/-- `avgInterval` before rounding: the mean step of the time stamps, in seconds. -/
def avgInterval (timestamps : List ℕ) : Option ℚ :=
  if timestamps.length > 1 then
    let sum := (List.zipWith (fun t' t : ℕ ↦ (t' : ℤ) - t) timestamps.tail timestamps).sum
    some (sum / (timestamps.length - 1) / 1000)
  else none

/-- `duration` at the time `now`: up to now while the run has no end. -/
def duration (startTime endTime : Option ℕ) (now : ℕ) : ℤ :=
  match truthy startTime with
  | none => 0
  | some start => ((truthy endTime).getD now : ℤ) - start

structure Summary where
  mode : Mode
  active : Bool
  pkts : ℕ
  dupes : ℕ
  gaps : ℕ
  deliveryPct : Option ℚ
  avgInterval : Option ℚ
  inferredHops : ℕ
  perNode : PerNode
  duration : ℤ
  startTime : Option ℕ
  endTime : Option ℕ
  events : List RunEvent

/-- `buildSummary` at the time `now`. -/
def buildSummary (s : Server) (mode : Mode) (now : ℕ) : Summary :=
  let r := s.runs mode
  { mode := mode
    active := r.active
    pkts := r.pkts
    dupes := r.dupes
    gaps := r.gaps
    deliveryPct := deliveryPct r.pkts r.gaps
    avgInterval := avgInterval r.timestamps
    inferredHops := match mode with
      | .flooding => 2
      | .routing => 1
    perNode := r.perNode
    duration := duration r.startTime r.endTime now
    startTime := r.startTime
    endTime := r.endTime
    events := r.events.drop (r.events.length - 60) }

end Emcs.Dashboard
