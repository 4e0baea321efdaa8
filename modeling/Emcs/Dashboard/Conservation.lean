import Emcs.Dashboard.Runs
import Mathlib.Algebra.BigOperators.Group.Finset.Basic
import Mathlib.Algebra.GroupWithZero.Nat

/-!
# The statistics of a run are conserved

Five counters and three collections are updated by different statements of the message handler. On
the messages that a run has received they agree with one another: each of them is a count of the
messages, or of the messages of one key, and the sequence numbers between the first and the last of
a key are either received or counted as gaps (`track_law`).

## The law of a key

For one key the handler keeps the last number, the gaps and the duplicates. While new numbers
arrive, the numbers from the first to the last are as many as those counted as received and those
counted as gaps; a number that is not larger than the last one is a duplicate and moves nothing
(`track_law`). The counters of a run are sums over its keys, since every message with a number is
counted under one of them.
-/

namespace Emcs.Dashboard

/-! ## Sums over the entries -/

/-- The sum over the entries of `seqTrack`. -/
def total (f : Track → ℕ) (t : AList fun _ : Text ↦ Track) : ℕ :=
  (t.entries.map fun e ↦ f e.2).sum

/-- An entry takes the place of the one of its key. -/
theorem total_insert (f : Track → ℕ) (t : AList fun _ : Text ↦ Track) (key : Text) (e : Track) :
    total f (t.insert key e) + (t.lookup key).elim 0 f = f e + total f t := by
  by_cases hkey : key ∈ t
  · obtain ⟨b, l₁, l₂, -, hentries, herase⟩ := List.exists_of_kerase (AList.mem_keys.mp hkey)
    have hinsert : (t.insert key e).entries = ⟨key, e⟩ :: (l₁ ++ l₂) := by
      rw [← herase]
      rfl
    have hlookup : t.lookup key = some b := by
      rw [← Option.mem_def, AList.mem_lookup_iff, hentries]
      simp
    rw [total, total, hinsert, hentries, hlookup]
    simp only [List.map_cons, List.map_append, List.sum_cons, List.sum_append, Option.elim_some]
    omega
  · rw [total, total, AList.entries_insert_of_notMem hkey, AList.lookup_eq_none.mpr hkey,
      List.map_cons, List.sum_cons]
    rfl

/-! ## One key -/

/-- The sequence numbers received under a key. -/
def seqsOf (key : Text) (log : List Message) : List ℤ :=
  log.filterMap fun msg ↦ if msg.key = key then msg.seq else none

/-- The entry of a key that has received `xs`. -/
def track (xs : List ℤ) : Option Track := xs.foldl (fun t seq ↦ some (arrive t seq)) none

theorem seqsOf_concat (key : Text) (log : List Message) (msg : Message) :
    seqsOf key (log ++ [msg])
      = seqsOf key log ++ (if msg.key = key then msg.seq else none).toList := by
  rw [seqsOf, List.filterMap_append]
  rfl

theorem track_concat (xs : List ℤ) (seq : ℤ) :
    track (xs ++ [seq]) = some (arrive (track xs) seq) := by
  rw [track, List.foldl_append]
  rfl

theorem track_eq_none_iff (xs : List ℤ) : track xs = none ↔ xs = [] := by
  induction xs using List.reverseRecOn with
  | nil => exact iff_of_true rfl rfl
  | append_singleton xs seq _ =>
    rw [track_concat]
    exact iff_of_false (Option.some_ne_none _) (by simp)

/-- **An entry of `seqTrack`** is what the numbers of its key lead to. -/
theorem lookup_received (mode : Mode) (log : List Message) (key : Text) :
    (received mode log).seqTrack.lookup key = track (seqsOf key log) := by
  induction log using List.reverseRecOn with
  | nil => rfl
  | append_singleton log msg ih =>
    rw [received_concat, seqsOf_concat]
    cases hseq : msg.seq with
    | none =>
      rw [(receive_of_none _ _ hseq).1, ih, ite_self, Option.toList_none, List.append_nil]
    | some seq =>
      rw [(receive_of_some _ _ hseq).1]
      by_cases hkey : msg.key = key
      · subst hkey
        rw [if_pos rfl, Option.toList_some, AList.lookup_insert, track_concat, ih]
      · rw [if_neg hkey, Option.toList_none, List.append_nil,
          AList.lookup_insert_ne (Ne.symm hkey), ih]

/-- **The law of an entry**: from the first number of the key to its last, every number is received
or a gap. -/
theorem track_law {xs : List ℤ} {f : ℤ} {t : Track} (hf : xs.head? = some f)
    (ht : track xs = some t) :
    t.last - f + 1 + t.dupes = xs.length + t.gaps := by
  induction xs using List.reverseRecOn generalizing t with
  | nil => simp at hf
  | append_singleton xs seq ih =>
    rw [track_concat, Option.some_inj] at ht
    subst ht
    rw [List.length_append, List.length_singleton]
    cases htrack : track xs with
    | none =>
      rw [track_eq_none_iff] at htrack
      subst htrack
      obtain rfl : seq = f := Option.some_inj.mp hf
      simp [arrive, isDupe, gapTo]
    | some t =>
      have hne : xs ≠ [] := fun hnil ↦ by simp [hnil, track] at htrack
      have hlaw := ih (by rwa [List.head?_append_of_ne_nil _ hne] at hf) htrack
      by_cases hle : seq ≤ t.last
      · simp [arrive, isDupe, gapTo, hle]
        omega
      · have hmax : max t.last seq = seq := max_eq_right (not_le.mp hle).le
        simp [arrive, isDupe, gapTo, hle, hmax]
        omega

/-! ## The events of a run -/

/-- The elements pushed for the messages of a log, with none shifted out. -/
def historyAfter (mode : Mode) : Run → List Message → List RunEvent
  | _, [] => []
  | r, msg :: log => r.event mode msg :: historyAfter mode (r.receive mode msg) log

def history (mode : Mode) (log : List Message) : List RunEvent :=
  historyAfter mode (freshRun mode) log

theorem history_concat (mode : Mode) (log : List Message) (msg : Message) :
    history mode (log ++ [msg]) = history mode log ++ [(received mode log).event mode msg] := by
  rw [history, history, received]
  generalize freshRun mode = r
  induction log generalizing r with
  | nil => rfl
  | cons msg' log ih =>
    rw [List.cons_append, historyAfter, ih, historyAfter, List.foldl_cons, List.cons_append]

@[simp] theorem length_history (mode : Mode) (log : List Message) :
    (history mode log).length = log.length := by
  induction log using List.reverseRecOn with
  | nil => rfl
  | append_singleton log msg ih => simp [history_concat, ih]

/-- What an element of `events` says of its message. -/
def RunEvent.shown (e : RunEvent) : Text × Text × Text × Option ℤ :=
  (e.time, e.node, e.topic, e.seq)

def Message.shown (msg : Message) : Text × Text × Text × Option ℤ :=
  (msg.time, msg.node, msg.topic, msg.seq)

theorem map_shown_history (mode : Mode) (log : List Message) :
    (history mode log).map RunEvent.shown = log.map Message.shown := by
  induction log using List.reverseRecOn with
  | nil => rfl
  | append_singleton log msg ih =>
    rw [history_concat, List.map_append, List.map_append, ih]
    rfl

theorem pushEvent_drop (l : List RunEvent) (e : RunEvent) :
    pushEvent (l.drop (l.length - MAX_EVENTS)) e
      = (l ++ [e]).drop ((l ++ [e]).length - MAX_EVENTS) := by
  simp only [pushEvent]
  generalize MAX_EVENTS = n
  rw [List.length_append, List.length_append, List.length_drop, List.length_singleton]
  by_cases hfull : n ≤ l.length
  · rw [if_pos (by omega), ← List.drop_append_of_le_length (Nat.sub_le _ _), List.tail_drop]
    congr 1
    omega
  · have hzero : l.length - n = 0 := by omega
    have hzero' : l.length + 1 - n = 0 := by omega
    rw [if_neg (by omega), hzero, hzero', List.drop_zero, List.drop_zero]

/-- **The events of a run** are the last ones of its history. -/
theorem events_received (mode : Mode) (log : List Message) :
    (received mode log).events
      = (history mode log).drop ((history mode log).length - MAX_EVENTS) := by
  induction log using List.reverseRecOn with
  | nil => exact List.drop_nil.symm
  | append_singleton log msg ih =>
    rw [received_concat, receive_events, ih, pushEvent_drop, history_concat]

/-! ## Counters -/

theorem pkts_received (mode : Mode) (log : List Message) :
    (received mode log).pkts = log.length := by
  induction log using List.reverseRecOn with
  | nil => rfl
  | append_singleton log msg ih => rw [received_concat, receive_pkts, ih, List.length_append]; rfl

/-- The run's own counters are the sums over its entries. -/
theorem counters_received (mode : Mode) (log : List Message) :
    (received mode log).gaps = total Track.gaps (received mode log).seqTrack ∧
    (received mode log).dupes = total Track.dupes (received mode log).seqTrack := by
  induction log using List.reverseRecOn with
  | nil => exact ⟨rfl, rfl⟩
  | append_singleton log msg ih =>
    obtain ⟨hgaps, hdupes⟩ := ih
    rw [received_concat]
    cases hseq : msg.seq with
    | none =>
      obtain ⟨htrack, hdupes', hgaps'⟩ := receive_of_none mode (received mode log) hseq
      rw [htrack, hdupes', hgaps']
      exact ⟨hgaps, hdupes⟩
    | some seq =>
      obtain ⟨htrack, hdupes', hgaps'⟩ := receive_of_some mode (received mode log) hseq
      rw [htrack, hdupes', hgaps']
      have hsumGaps := total_insert Track.gaps (received mode log).seqTrack msg.key
        (arrive ((received mode log).seqTrack.lookup msg.key) seq)
      have hsumDupes := total_insert Track.dupes (received mode log).seqTrack msg.key
        (arrive ((received mode log).seqTrack.lookup msg.key) seq)
      simp only [arrive] at hsumGaps hsumDupes ⊢
      constructor <;> omega

/-- The sum of the five counts. -/
def PerNode.sum (p : PerNode) : ℕ := p.a02 + p.a03 + p.a04 + p.a05 + p.pico

theorem sum_count (p : PerNode) (b : Option Bucket) :
    (p.count b).sum = p.sum + if b.isSome then 1 else 0 := by
  rcases b with _ | b
  · rfl
  · cases b <;> simp only [PerNode.count, PerNode.sum, Option.isSome_some, if_true] <;> omega

theorem sum_perNode_received (mode : Mode) (log : List Message) :
    (received mode log).perNode.sum = log.countP fun msg ↦ (bucket msg.node).isSome := by
  induction log using List.reverseRecOn with
  | nil => rfl
  | append_singleton log msg ih =>
    rw [received_concat, receive_perNode, sum_count, ih, List.countP_append, List.countP_singleton]

/-- The messages of a key that `trackSeq` has not taken for duplicates. -/
def nonDupes (key : Text) (events : List RunEvent) : ℕ :=
  events.countP fun e ↦ trackKey e.topic e.node == key && e.seq.isSome && !e.isDupe

/-- The messages of a key are duplicates or not. -/
theorem nonDupes_add_dupes (mode : Mode) (log : List Message) (key : Text) :
    nonDupes key (history mode log) + (track (seqsOf key log)).elim 0 Track.dupes
      = (seqsOf key log).length := by
  induction log using List.reverseRecOn with
  | nil => rfl
  | append_singleton log msg ih =>
    rw [history_concat, seqsOf_concat, nonDupes, List.countP_append, List.countP_singleton,
      ← nonDupes]
    have hkey : trackKey ((received mode log).event mode msg).topic
        ((received mode log).event mode msg).node = msg.key := rfl
    have hsome : ((received mode log).event mode msg).seq = msg.seq := rfl
    rw [hkey, hsome]
    by_cases hm : msg.key = key
    · subst hm
      rw [if_pos rfl]
      cases hseq : msg.seq with
      | none => simpa using ih
      | some seq =>
        rw [event_isDupe _ _ hseq, lookup_received, Option.toList_some, track_concat,
          List.length_append,
          List.length_singleton, ← ih]
        simp only [arrive, Option.elim_some]
        cases isDupe (track (seqsOf msg.key log)) seq <;> simp <;> omega
    · rw [if_neg hm, Option.toList_none, List.append_nil]
      simpa [hm] using ih

/-- The messages without a sequence number. -/
def unnumbered (log : List Message) : ℕ := log.countP fun msg ↦ msg.seq.isNone

/-- The keys of the numbered messages. -/
def keysOf (log : List Message) : List Text :=
  log.filterMap fun msg ↦ msg.seq.map fun _ ↦ msg.key

theorem keysOf_concat (log : List Message) (msg : Message) :
    keysOf (log ++ [msg]) = keysOf log ++ (msg.seq.map fun _ ↦ msg.key).toList := by
  rw [keysOf, List.filterMap_append]
  rfl

theorem length_keysOf (log : List Message) : (keysOf log).length + unnumbered log = log.length := by
  induction log using List.reverseRecOn with
  | nil => rfl
  | append_singleton log msg ih =>
    rw [keysOf_concat, unnumbered, List.countP_append, List.countP_singleton, ← unnumbered,
      List.length_append, List.length_append, ← ih]
    cases msg.seq <;> simp <;> omega

theorem length_seqsOf (key : Text) (log : List Message) :
    (seqsOf key log).length = (keysOf log).count key := by
  induction log using List.reverseRecOn with
  | nil => rfl
  | append_singleton log msg ih =>
    rw [seqsOf_concat, keysOf_concat, List.length_append, List.count_append, ih]
    by_cases hkey : msg.key = key
    · cases msg.seq <;> simp [hkey]
    · cases msg.seq <;> simp [hkey]

/-- The keys of the numbered messages, each once. -/
def keySet (log : List Message) : Finset Text := (keysOf log).toFinset

theorem sum_length_seqsOf (log : List Message) :
    ∑ key ∈ keySet log, (seqsOf key log).length + unnumbered log = log.length := by
  have hmem : ∀ key ∈ (↑(keysOf log) : Multiset Text), key ∈ keySet log :=
    fun key hkey ↦ List.mem_toFinset.mpr (Multiset.mem_coe.mp hkey)
  have hcard := Multiset.sum_count_eq_card hmem
  simp only [Multiset.coe_count, Multiset.coe_card] at hcard
  rw [← length_keysOf, Nat.add_right_cancel_iff]
  simp only [length_seqsOf]
  convert hcard

theorem toFinset_keys_received (mode : Mode) (log : List Message) :
    (received mode log).seqTrack.keys.toFinset = keySet log := by
  ext key
  rw [keySet, List.mem_toFinset, List.mem_toFinset, ← not_iff_not, AList.mem_keys.symm.not,
    ← AList.lookup_eq_none, lookup_received, track_eq_none_iff, ← List.length_eq_zero_iff,
    length_seqsOf, List.count_eq_zero]

theorem sum_entries_received (mode : Mode) (log : List Message) (f : Text → Track → ℕ) :
    ((received mode log).seqTrack.entries.map fun e ↦ f e.1 e.2).sum
      = ∑ key ∈ keySet log, (track (seqsOf key log)).elim 0 (f key) := by
  have hentry : ∀ e ∈ (received mode log).seqTrack.entries,
      f e.1 e.2 = (track (seqsOf e.1 log)).elim 0 (f e.1) := by
    intro e he
    rw [← lookup_received mode, AList.mem_lookup_iff.mpr he]
    rfl
  rw [← toFinset_keys_received mode, List.sum_toFinset _ (AList.keys_nodup _), AList.keys,
    List.keys,
    List.map_map]
  exact congrArg List.sum (List.map_congr_left hentry)

theorem total_received (mode : Mode) (log : List Message) (f : Track → ℕ) :
    total f (received mode log).seqTrack = ∑ key ∈ keySet log, (track (seqsOf key log)).elim 0 f :=
  sum_entries_received mode log fun _ ↦ f

/-- Every packet is a duplicate or not, or has no number. -/
theorem sum_nonDupes_add_dupes (mode : Mode) (log : List Message) :
    ((received mode log).seqTrack.entries.map fun e ↦
      nonDupes e.1 (history mode log) + e.2.dupes).sum + unnumbered log = log.length := by
  rw [sum_entries_received mode log fun key t ↦ nonDupes key (history mode log) + t.dupes,
    ← sum_length_seqsOf log, Nat.add_right_cancel_iff]
  refine Finset.sum_congr rfl fun key hkey ↦ ?_
  have hcount := nonDupes_add_dupes mode log key
  cases htrack : track (seqsOf key log) with
  | none =>
    rw [track_eq_none_iff] at htrack
    rw [htrack]
    rfl
  | some t =>
    rw [htrack] at hcount
    exact hcount

/-- **The statistics of a run are conserved**, in every sequence of messages and requests: the run
is active exactly if it is the active one, and since its start every counter is a count of the
messages received and every collection holds what it should. -/
theorem run_conserved (es : List Event) (mode : Mode) :
    let s := Trace.run step Server.boot es
    let r := s.runs mode
    let log := (watch mode es).log
    let past := history mode log
    (s.activeRun = some mode ↔ r.active = true) ∧
    (r.active = true ↔ (watch mode es).running = true) ∧
    r.pkts = log.length ∧
    r.gaps = total Track.gaps r.seqTrack ∧
    r.dupes = total Track.dupes r.seqTrack ∧
    (∀ key t, r.seqTrack.lookup key = some t → ∃ f, (seqsOf key log).head? = some f ∧
      t.last - f + 1 = nonDupes key past + t.gaps) ∧
    r.pkts = (r.seqTrack.entries.map fun e ↦ nonDupes e.1 past + e.2.dupes).sum + unnumbered log ∧
    r.perNode.sum = (log.countP fun msg ↦ (bucket msg.node).isSome) ∧
    r.events = past.drop (r.pkts - min MAX_EVENTS r.pkts) ∧
    past.map RunEvent.shown = log.map Message.shown := by
  intro s r log past
  have hfollows := follows_run es
  have hstat : r.statistics = received mode log := hfollows.statistics mode
  obtain ⟨hpkts, htrack, hgaps, hdupes, hperNode, hevents⟩ :
      r.pkts = (received mode log).pkts ∧ r.seqTrack = (received mode log).seqTrack ∧
      r.gaps = (received mode log).gaps ∧ r.dupes = (received mode log).dupes ∧
      r.perNode = (received mode log).perNode ∧ r.events = (received mode log).events := by
    rw [← hstat]
    exact ⟨rfl, rfl, rfl, rfl, rfl, rfl⟩
  rw [hpkts, htrack, hgaps, hdupes, hperNode, hevents, pkts_received]
  obtain ⟨hsumGaps, hsumDupes⟩ := counters_received mode log
  refine ⟨?_, ?_, rfl, hsumGaps, hsumDupes,
    fun key t ht ↦ ?_, ?_, sum_perNode_received mode log, ?_,
    map_shown_history mode log⟩
  · rw [hfollows.activeRun, hfollows.active]
  · rw [hfollows.active]
  · rw [lookup_received] at ht
    have hcount : nonDupes key past + (track (seqsOf key log)).elim 0 Track.dupes
        = (seqsOf key log).length := nonDupes_add_dupes mode log key
    -- there is a first number, because the key has an entry
    obtain ⟨f, hf⟩ : ∃ f, (seqsOf key log).head? = some f := by
      rw [← Option.isSome_iff_exists, List.isSome_head?, Ne, ← track_eq_none_iff, ht]
      exact Option.some_ne_none t
    have hlaw := track_law hf ht
    rw [ht, Option.elim_some] at hcount
    exact ⟨f, hf, by omega⟩
  · exact (sum_nonDupes_add_dupes mode log).symm
  · rw [events_received, length_history]
    generalize MAX_EVENTS = n
    congr 1
    omega

end Emcs.Dashboard
