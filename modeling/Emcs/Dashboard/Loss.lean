import Emcs.Dashboard.Conservation
import Emcs.Lib.Arrivals
import Mathlib.Algebra.Order.Field.Rat
import Mathlib.Tactic.FieldSimp
import Mathlib.Tactic.Linarith

/-!
# Loss, live and offline

The backend knows the last number of a key only, the analysis of `performance` sorts all of them.
What the backend counts is what the last number tells: a duplicate is an arrival that is not larger
than all before (`track_dupes`). That is a repeated number exactly if new numbers arrive in order,
and then the gaps are the lost numbers (`track_gaps`).

The delivery rate of a summary has every packet in its numerator, duplicates included.

## Numbers below 2^53

`Safe` asks that the numbers of a key and their distances are below 2^53, and `SafeRun` that the
counters of the run are, too. Then nothing that the backend computes on the way to a rate is
rounded, and the comparison with the offline figures is one of integers. The bound is part of the
results, because with larger numbers a number that is new can look repeated.
-/

namespace Emcs.Dashboard

open Arrivals

/-! ## The offline figures -/

/-- The gaps of one node in `perf_analysis_lora_multihop.py`; the script skips nodes with fewer than
two numbers, for which the sum is empty. -/
def analysisGaps (seqs : List ℤ) : ℤ :=
  let nodeSeqs := seqs.insertionSort (· ≤ ·)
  (List.zipWith (fun b a : ℤ ↦ max 0 (b - a - 1)) nodeSeqs.tail nodeSeqs).sum

/-- The variables of the loop of `print_summary` in `perf_collector_lora.py`. -/
structure Collected where
  gaps : ℤ
  dupes : ℕ
  seen : List ℤ
  last : Option ℤ

def Collected.empty : Collected := ⟨0, 0, [], none⟩

/-- The body of the loop. -/
def Collected.next (c : Collected) (s : ℤ) : Collected :=
  if s ∈ c.seen then { c with dupes := c.dupes + 1 }
  else
    let gaps := match c.last with
      | some last => if s > last + 1 then c.gaps + (s - last - 1) else c.gaps
      | none => c.gaps
    let last := match c.last with
      | some last => if s > last then s else last
      | none => s
    { c with seen := s :: c.seen, gaps := gaps, last := some last }

def printSummary (seqs : List ℤ) : Collected := seqs.foldl Collected.next Collected.empty

theorem zipWith_sum_eq_gapSum (xs : List ℤ) :
    (List.zipWith (fun b a : ℤ ↦ max 0 (b - a - 1)) xs.tail xs).sum = (gapSum xs : ℤ) := by
  induction xs with
  | nil => rfl
  | cons a xs ih =>
    cases xs with
    | nil => rfl
    | cons b xs =>
      have hstep : max 0 (b - a - 1) = ((b - a - 1).toNat : ℤ) := by
        rw [Int.toNat_eq_max, max_comm]
      rw [List.tail_cons] at ih ⊢
      rw [List.zipWith_cons_cons, List.sum_cons, ih, hstep, gapSum, Nat.cast_add]

/-- **The analysis counts the lost numbers**: those between the smallest and the largest received
that never arrived. -/
theorem analysisGaps_eq (seqs : List ℤ) : analysisGaps seqs = (lost seqs).ncard := by
  rw [analysisGaps, zipWith_sum_eq_gapSum, gapSum_insertionSort]

/-! ## What the last number tells -/

theorem track_last {xs : List ℤ} {t : Track} (ht : track xs = some t) :
    IsGreatest {x | x ∈ xs} t.last := by
  induction xs using List.reverseRecOn generalizing t with
  | nil => exact absurd ht (Option.some_ne_none t).symm
  | append_singleton xs seq ih =>
    rw [track_concat, Option.some_inj] at ht
    subst ht
    cases htrack : track xs with
    | none =>
      rw [(track_eq_none_iff xs).mp htrack]
      simp [arrive, isGreatest_singleton]
    | some t =>
      obtain ⟨hmem, hle⟩ := ih htrack
      simp only [arrive, Option.elim_some]
      constructor
      · rcases max_choice t.last seq with h | h
        · rw [h]
          exact List.mem_append_left _ hmem
        · rw [h]
          exact List.mem_append_right _ (List.mem_singleton.mpr rfl)
      · intro x hx
        rcases List.mem_append.mp hx with hx | hx
        · exact le_max_of_le_left (hle hx)
        · rw [List.mem_singleton.mp hx]
          exact le_max_right _ _

/-- The gaps of an entry lie between the first number of its key and the largest. -/
theorem track_gaps_le {xs : List ℤ} {f : ℤ} {t : Track} (hf : xs.head? = some f)
    (ht : track xs = some t) : t.gaps ≤ t.last - f := by
  induction xs using List.reverseRecOn generalizing t with
  | nil => exact absurd ht (Option.some_ne_none t).symm
  | append_singleton xs seq ih =>
    rw [track_concat, Option.some_inj] at ht
    subst ht
    cases htrack : track xs with
    | none =>
      rw [(track_eq_none_iff xs).mp htrack] at hf
      obtain rfl : seq = f := Option.some_inj.mp hf
      simp [arrive, gapTo, isDupe]
    | some t =>
      have hne : xs ≠ [] := fun hnil ↦ by simp [hnil, track] at htrack
      have hgaps := ih (by rwa [List.head?_append_of_ne_nil _ hne] at hf) htrack
      by_cases hle : seq ≤ t.last
      · simpa [arrive, gapTo, isDupe, hle] using hgaps
      · have hmax : max t.last seq = seq := max_eq_right (not_le.mp hle).le
        simp [arrive, gapTo, isDupe, hle, hmax]
        omega

theorem isDupe_track (xs : List ℤ) (seq : ℤ) :
    isDupe (track xs) seq = true ↔ ∃ y ∈ xs, seq ≤ y := by
  cases htrack : track xs with
  | none =>
    rw [(track_eq_none_iff xs).mp htrack]
    simp [isDupe]
  | some t =>
    obtain ⟨hmem, hle⟩ := track_last htrack
    rw [isDupe, Option.any_some, decide_eq_true_iff]
    constructor
    · intro h
      exact ⟨t.last, hmem, h⟩
    · rintro ⟨y, hy, hseq⟩
      exact hseq.trans (hle hy)

/-- **The duplicates of an entry** are the arrivals not larger than all before. -/
theorem track_dupes (xs : List ℤ) : (track xs).elim 0 Track.dupes = stale xs := by
  induction xs using List.reverseRecOn with
  | nil => rfl
  | append_singleton xs seq ih =>
    rw [track_concat, stale_concat, ← ih]
    simp only [arrive, Option.elim_some, isDupe_track]

/-- **The gaps of an entry** are the lost numbers, if new numbers arrive in order. -/
theorem track_gaps {xs : List ℤ} (h : NewInOrder xs) :
    (track xs).elim 0 Track.gaps = (lost xs).ncard := by
  cases xs with
  | nil => simp [track]
  | cons f xs =>
    obtain ⟨t, ht⟩ : ∃ t, track (f :: xs) = some t := by
      rw [← Option.ne_none_iff_exists', Ne, track_eq_none_iff]
      exact List.cons_ne_nil f xs
    have hleast : IsLeast {x | x ∈ f :: xs} f := ⟨List.mem_cons_self, fun _ hy ↦ h.head_le hy⟩
    have hlost := ncard_lost_add_card hleast (track_last ht)
    have hlaw := track_law List.head?_cons ht
    have hdupes : t.dupes = repeats (f :: xs) := by
      rw [← (stale_eq_repeats_iff _).mpr h, ← track_dupes, ht, Option.elim_some]
    have hcard := repeats_add_card (f :: xs)
    rw [ht, Option.elim_some]
    omega

/-- The collector counts the repeated numbers. -/
theorem dupes_printSummary (xs : List ℤ) : (printSummary xs).dupes = repeats xs := by
  have h : (printSummary xs).dupes = repeats xs ∧ ∀ x, x ∈ (printSummary xs).seen ↔ x ∈ xs := by
    induction xs using List.reverseRecOn with
    | nil => exact ⟨rfl, fun x ↦ Iff.rfl⟩
    | append_singleton xs s ih =>
      obtain ⟨hdupes, hseen⟩ := ih
      rw [printSummary, List.foldl_append, ← printSummary, List.foldl_cons, List.foldl_nil,
        Collected.next, repeats_concat]
      by_cases hs : s ∈ xs
      · rw [if_pos ((hseen s).mpr hs), if_pos hs, hdupes]
        refine ⟨rfl, fun x ↦ ?_⟩
        rw [hseen, List.mem_append, List.mem_singleton]
        constructor
        · exact Or.inl
        · rintro (hx | rfl)
          · exact hx
          · exact hs
      · rw [if_neg fun h ↦ hs ((hseen s).mp h), if_neg hs, hdupes]
        refine ⟨rfl, fun x ↦ ?_⟩
        rw [List.mem_cons, hseen, List.mem_append, List.mem_singleton, or_comm]
  exact h.1

/-! ## Numbers that doubles hold -/

/-- The numbers of a key and their distances are exact as doubles, which the backend computes
with. -/
def Safe (xs : List ℤ) : Prop := ∀ x ∈ xs, |x| < 2 ^ 53 ∧ ∀ y ∈ xs, x - y < 2 ^ 53

/-- An entry is exact as doubles. -/
def Track.Safe (t : Track) : Prop := |t.last| < 2 ^ 53 ∧ t.gaps < 2 ^ 53

/-- **No sum of `trackSeq` is rounded** where the numbers of the key and their distances are not. -/
theorem Safe.track {xs : List ℤ} (h : Safe xs) {t : Track} (ht : track xs = some t) : t.Safe := by
  cases xs with
  | nil => exact absurd ht (Option.some_ne_none t).symm
  | cons f xs =>
    have hlast := (track_last ht).1
    have hgaps := track_gaps_le List.head?_cons ht
    have hspan := (h t.last hlast).2 f List.mem_cons_self
    refine ⟨(h t.last hlast).1, ?_⟩
    omega

/-- **Live and offline figures of a key agree exactly if new numbers arrive in order**: every number
that arrives not larger than an earlier one has arrived before. -/
theorem live_eq_offline_iff (es : List Event) (mode : Mode) (key : Text)
    (hsafe : Safe (seqsOf key (watch mode es).log)) :
    let xs := seqsOf key (watch mode es).log
    let t := ((Trace.run step Server.boot es).runs mode).seqTrack.lookup key
    (∀ e ∈ t, e.Safe) ∧
      (((t.elim 0 Track.gaps : ℕ) = analysisGaps xs ∧ t.elim 0 Track.dupes = repeats xs) ↔
        NewInOrder xs) := by
  intro xs t
  have hstat := (follows_run es).statistics mode
  have ht : t = track xs := by
    rw [← lookup_received mode, ← hstat]
    rfl
  rw [ht, track_dupes, analysisGaps_eq, Nat.cast_inj, stale_eq_repeats_iff]
  exact ⟨fun e he ↦ hsafe.track he, and_iff_right_of_imp track_gaps⟩

/-- A message on `sensors/data`. -/
def dataMessage (text : String) : Message := ⟨"sensors/data".toList, text.toList, [], 0⟩

/-- Numbers 1, 3 and 3 again: one number is lost, and one is repeated. -/
theorem live_eq_offline_iff_flooding :
    let es := [.runStart .flooding 0 0, .message (dataMessage "arduino-02 1"),
      .message (dataMessage "arduino-02 3"), .message (dataMessage "arduino-02 3")]
    let key := "sensors/data::arduino-02".toList
    let xs := seqsOf key (watch .flooding es).log
    let t := ((Trace.run step Server.boot es).runs .flooding).seqTrack.lookup key
    xs = [1, 3, 3] ∧ t = some ⟨3, 1, 1⟩ ∧ NewInOrder xs := by
  intro es key xs t
  have hxs : xs = [1, 3, 3] := by decide +kernel
  have hsafe : Safe xs := by
    rw [hxs]
    unfold Safe
    decide
  have hagree : (t.elim 0 Track.gaps : ℕ) = analysisGaps xs ∧
      t.elim 0 Track.dupes = repeats xs := by
    decide +kernel
  exact ⟨hxs, by decide +kernel, (live_eq_offline_iff es .flooding key hsafe).2.mp hagree⟩

/-- Numbers 1, 3, 2: the late packet is counted as lost, and as a duplicate when it arrives. -/
theorem late_packet_differs :
    let es := [.runStart .flooding 0 0, .message (dataMessage "arduino-02 1"),
      .message (dataMessage "arduino-02 3"), .message (dataMessage "arduino-02 2")]
    let key := "sensors/data::arduino-02".toList
    let xs := seqsOf key (watch .flooding es).log
    let t := ((Trace.run step Server.boot es).runs .flooding).seqTrack.lookup key
    xs = [1, 3, 2] ∧ t = some ⟨3, 1, 1⟩ ∧ analysisGaps xs = 0 ∧ repeats xs = 0 ∧
    ¬((t.elim 0 Track.gaps : ℕ) = analysisGaps xs ∧ t.elim 0 Track.dupes = repeats xs) := by
  decide +kernel

/-! ## The delivery rate -/

/-- More packets at the same gaps: the rate stays exactly if there are no gaps. -/
theorem deliveryPct_add_iff {n : ℕ} (hn : 0 < n) (d g : ℕ) :
    deliveryPct (n + d) g = deliveryPct n g ↔ d = 0 ∨ g = 0 := by
  have hpos : (0 : ℚ) < n := Nat.cast_pos.mpr hn
  have hd : (0 : ℚ) ≤ d := Nat.cast_nonneg d
  have hg : (0 : ℚ) ≤ g := Nat.cast_nonneg g
  simp only [deliveryPct]
  rw [if_pos (by omega), if_pos (by omega), Option.some_inj]
  push_cast
  rw [mul_left_inj' (by norm_num), div_eq_div_iff (by positivity) (by positivity)]
  constructor
  · intro h
    have hzero : (d : ℚ) * g = 0 := by linarith
    rcases mul_eq_zero.mp hzero with h | h
    · exact Or.inl (Nat.cast_eq_zero.mp h)
    · exact Or.inr (Nat.cast_eq_zero.mp h)
  · rintro (rfl | rfl)
    · simp
    · simp [mul_comm]

/-- The packets received, each once: the different numbers of every key, and the messages without
a number. -/
def distinct (log : List Message) : ℕ :=
  ∑ key ∈ keySet log, (seqsOf key log).toFinset.card + unnumbered log

/-- The repeated packets. -/
def repeated (log : List Message) : ℕ := ∑ key ∈ keySet log, repeats (seqsOf key log)

/-- The packets lost. -/
noncomputable def lostPackets (log : List Message) : ℕ :=
  ∑ key ∈ keySet log, (lost (seqsOf key log)).ncard

theorem distinct_add_repeated (log : List Message) : distinct log + repeated log = log.length := by
  rw [distinct, repeated, Nat.add_right_comm, ← Finset.sum_add_distrib, ← sum_length_seqsOf log]
  simp only [Nat.add_comm, repeats_add_card]

theorem distinct_pos {log : List Message} (h : log ≠ []) : 0 < distinct log := by
  by_contra hzero
  obtain ⟨hsum, hunnumbered⟩ : ∑ key ∈ keySet log, (seqsOf key log).toFinset.card = 0 ∧
      unnumbered log = 0 := by
    rw [distinct] at hzero
    omega
  have hnil : ∀ key ∈ keySet log, (seqsOf key log).length = 0 := by
    intro key hkey
    rw [List.length_eq_zero_iff, ← List.toFinset_eq_empty_iff, ← Finset.card_eq_zero]
    exact Finset.sum_eq_zero_iff.mp hsum key hkey
  have hlen := sum_length_seqsOf log
  rw [Finset.sum_eq_zero hnil, hunnumbered] at hlen
  exact h (List.length_eq_zero_iff.mp hlen.symm)

theorem gaps_received (mode : Mode) {log : List Message}
    (h : ∀ key, NewInOrder (seqsOf key log)) : (received mode log).gaps = lostPackets log := by
  rw [(counters_received mode log).1, total_received]
  exact Finset.sum_congr rfl fun key _ ↦ track_gaps (h key)

/-- A run in which nothing is rounded but the rate itself: the numbers of its keys are exact as
doubles, and so are the sums of its counters. -/
structure SafeRun (mode : Mode) (log : List Message) : Prop where
  keys : ∀ key, Safe (seqsOf key log)
  counters : (received mode log).pkts + (received mode log).gaps < 2 ^ 53

/-- **When duplicates leave the delivery rate alone.** One more message that `trackSeq` takes for a
duplicate leaves the rate of the run unchanged exactly if the run has counted no gaps; and if new
numbers have arrived in order, the rate is that of the distinct packets exactly if no packet was
repeated or none was lost. -/
theorem deliveryPct_duplicate_iff (es : List Event) (mode : Mode) (now : ℕ)
    (hsafe : SafeRun mode (watch mode es).log) :
    let s := Trace.run step Server.boot es
    let log := (watch mode es).log
    (∀ key, ∀ e ∈ (s.runs mode).seqTrack.lookup key, e.Safe) ∧
    (∀ msg, s.activeRun = some mode → ¬msg.isCmd = true →
      (trackSeq (s.runs mode) msg.topic msg.node msg.seq).2.isDupe = true →
      (buildSummary (step s (.message msg)) mode now).pkts
        + (buildSummary (step s (.message msg)) mode now).gaps ≤ 2 ^ 53 ∧
      ((buildSummary (step s (.message msg)) mode now).deliveryPct
        = (buildSummary s mode now).deliveryPct ↔ (s.runs mode).gaps = 0)) ∧
    ((∀ key, NewInOrder (seqsOf key log)) →
      ((buildSummary s mode now).deliveryPct = deliveryPct (distinct log) (lostPackets log) ↔
        repeated log = 0 ∨ lostPackets log = 0)) := by
  intro s log
  have hstat : (s.runs mode).statistics = received mode log := (follows_run es).statistics mode
  obtain ⟨hpkts, htrack, hgaps⟩ : (s.runs mode).pkts = (received mode log).pkts ∧
      (s.runs mode).seqTrack = (received mode log).seqTrack ∧
      (s.runs mode).gaps = (received mode log).gaps := by
    rw [← hstat]
    exact ⟨rfl, rfl, rfl⟩
  have hcounters := hsafe.counters
  rw [← hpkts, ← hgaps] at hcounters
  rw [pkts_received] at hpkts
  refine ⟨fun key e he ↦ ?_, ?_, ?_⟩
  · rw [htrack, lookup_received] at he
    exact (hsafe.keys key).track he
  · intro msg hactive hcmd hdup
    cases hseq : msg.seq with
    | none =>
      rw [hseq, trackSeq_none] at hdup
      exact absurd hdup Bool.false_ne_true
    | some seq =>
      rw [hseq, trackSeq_some] at hdup
      have hruns := onMessage_runs_of_some hactive hcmd
      obtain ⟨-, -, hgaps'⟩ := receive_of_some mode (s.runs mode) hseq
      have hgap : gapTo ((s.runs mode).seqTrack.lookup msg.key) seq = 0 := if_pos hdup
      -- a duplicate has an earlier message of its key
      have hpos : 0 < (s.runs mode).pkts := by
        rw [hpkts, List.length_pos_iff]
        intro hnil
        rw [htrack, lookup_received, hnil] at hdup
        exact absurd hdup Bool.false_ne_true
      have hstep := deliveryPct_add_iff hpos 1 (s.runs mode).gaps
      simp only [buildSummary, step, hruns, Function.update_self, receive_pkts, hgaps', hgap,
        Int.toNat_zero, Nat.add_zero]
      exact ⟨by omega, by simpa using hstep⟩
  · intro horder
    have hpct : (buildSummary s mode now).deliveryPct
        = deliveryPct (distinct log + repeated log) (lostPackets log) := by
      rw [distinct_add_repeated, ← gaps_received mode horder, ← hgaps, ← hpkts]
      rfl
    rw [hpct]
    by_cases hlog : log = []
    · have hrepeated : repeated log = 0 := by rw [hlog]; rfl
      rw [hrepeated, Nat.add_zero]
      exact iff_of_true rfl (Or.inl rfl)
    · exact deliveryPct_add_iff (distinct_pos hlog) _ _

/-- Numbers 1 and 3 of a node, and 3 once more. -/
theorem deliveryPct_duplicate_iff_flooding :
    let es := [.runStart .flooding 0 0, .message (dataMessage "arduino-02 1"),
      .message (dataMessage "arduino-02 3")]
    let s := Trace.run step Server.boot es
    (buildSummary (step s (.message (dataMessage "arduino-02 3"))) .flooding 0).deliveryPct
      = (buildSummary s .flooding 0).deliveryPct ↔ (s.runs .flooding).gaps = 0 := by
  intro es s
  have hlog : (watch .flooding es).log
      = [dataMessage "arduino-02 1", dataMessage "arduino-02 3"] := rfl
  have hsafe : SafeRun .flooding (watch .flooding es).log := by
    refine ⟨fun key ↦ ?_, by decide +kernel⟩
    rw [hlog]
    by_cases hkey : key = "sensors/data::arduino-02".toList
    · subst hkey
      unfold Safe
      decide +kernel
    · have hnil : seqsOf key [dataMessage "arduino-02 1", dataMessage "arduino-02 3"] = [] := by
        refine List.filterMap_eq_nil_iff.mpr fun msg hmsg ↦ if_neg fun heq ↦ hkey ?_
        rw [← heq]
        simp only [List.mem_cons, List.not_mem_nil, or_false] at hmsg
        rcases hmsg with rfl | rfl
        · decide +kernel
        · decide +kernel
      rw [hnil]
      exact fun x hx ↦ absurd hx List.not_mem_nil
  exact ((deliveryPct_duplicate_iff es .flooding 0 hsafe).2.1 (dataMessage "arduino-02 3")
    (by decide +kernel) (by decide +kernel) (by decide +kernel)).2

/-- The same run: one packet of three is lost, and the duplicate takes the rate from two thirds to
three quarters. -/
theorem duplicate_raises_rate :
    let es := [.runStart .flooding 0 0, .message (dataMessage "arduino-02 1"),
      .message (dataMessage "arduino-02 3")]
    let s := Trace.run step Server.boot es
    let s' := step s (.message (dataMessage "arduino-02 3"))
    (s'.runs .flooding).dupes = 1 ∧ (s'.runs .flooding).gaps = 1 ∧
    (buildSummary s .flooding 0).deliveryPct = some (200 / 3) ∧
    (buildSummary s' .flooding 0).deliveryPct = some 75 ∧
    (buildSummary s' .flooding 0).deliveryPct ≠ (buildSummary s .flooding 0).deliveryPct := by
  decide +kernel

end Emcs.Dashboard
