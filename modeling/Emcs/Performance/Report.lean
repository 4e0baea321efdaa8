import Emcs.Performance.Analysis

/-!
# What a LoRa script prints

A script reads every row before it prints anything. Its loop over the topics then prints the figures
of a topic exactly if the topic has two rows, its analysis succeeds and no earlier topic ended the
loop (`prints_report_iff`). What ends an analysis is a duration of zero or a jitter that fails
(`exists_figures_eq_ok_iff`), and the jitter of the LoRa scripts never does.

## The use

A theorem about what a script shows says when it gets to a topic, and what it shows there. The first
is the same for both LoRa scripts and is settled here; the second is a value computed from the rows
of the topic, and is all that the later modules have to look at. In between stands the reading: a
script shows nothing if a single row of the file has no number.
-/

namespace Emcs.Performance

open Arrivals Dashboard

/-! ## Reading -/

section Read

variable {ε α β : Type} {f : α → Except ε β}

theorem mapM_eq_ok {g : α → β} {xs : List α} (h : ∀ x ∈ xs, f x = .ok (g x)) :
    xs.mapM f = .ok (xs.map g) := by
  induction xs with
  | nil => rfl
  | cons x xs ih =>
    rw [List.mapM_cons, h x List.mem_cons_self, ih fun y hy ↦ h y (List.mem_cons_of_mem x hy)]
    rfl

theorem exists_mapM_eq_error {xs : List α} {x : α} (hx : x ∈ xs) (h : ∀ b, f x ≠ .ok b) :
    ∃ e, xs.mapM f = .error e := by
  induction xs with
  | nil => contradiction
  | cons y xs ih =>
    rw [List.mapM_cons]
    cases hy : f y with
    | error e => exact ⟨e, rfl⟩
    | ok b =>
      have hne : x ≠ y := by
        rintro rfl
        exact h b hy
      obtain ⟨e, he⟩ := ih ((List.mem_cons.mp hx).resolve_left hne)
      rw [he]
      exact ⟨e, rfl⟩

end Read

/-! ## The loop -/

section Loop

variable {ρ φ : Type} {analyse : List ρ → Except PyError φ} {data : Text → List ρ}

/-- The output has a line with these figures for the topic. -/
def Prints (out : List (Line φ)) (topic : Text) (f : φ) : Prop :=
  ∃ line ∈ out, line.topic = topic ∧ line.figures = some f

theorem not_prints_nil {topic : Text} {f : φ} : ¬Prints [] topic f := by
  rintro ⟨line, hline, -⟩
  contradiction

theorem prints_cons_iff {line : Line φ} {out : List (Line φ)} {topic : Text} {f : φ} :
    Prints (line :: out) topic f ↔
      (line.topic = topic ∧ line.figures = some f) ∨ Prints out topic f :=
  List.exists_mem_cons_iff _ _ _

/-- What the lines show, of their figures only one value. -/
def shown (w : φ → ℚ) (out : List (Line φ)) : List (Text × Option ℚ) :=
  out.map fun line ↦ (line.topic, line.figures.map w)

theorem exists_prints_iff_shown (w : φ → ℚ) (P : ℚ → Prop) {out : List (Line φ)} {topic : Text} :
    (∃ f, Prints out topic f ∧ P (w f)) ↔ ∃ q, (topic, some q) ∈ shown w out ∧ P q := by
  simp only [shown, List.mem_map, Prod.mk.injEq, Option.map_eq_some_iff]
  constructor
  · rintro ⟨f, ⟨line, hline, htopic, hf⟩, hP⟩
    exact ⟨w f, ⟨line, hline, htopic, f, hf, rfl⟩, hP⟩
  · rintro ⟨_, ⟨line, hline, htopic, f, hf, rfl⟩, hP⟩
    exact ⟨f, ⟨line, hline, htopic, hf⟩, hP⟩

/-- The topic does not end the loop. -/
def Passes (analyse : List ρ → Except PyError φ) (data : Text → List ρ) (topic : Text) : Prop :=
  (data topic).length < 2 ∨ ∃ f, analyse (data topic) = .ok f

/-- **The loop** prints the figures of a topic if all earlier topics pass. -/
theorem prints_lines_iff {topics : List Text} (hsort : topics.Pairwise (· < ·)) {topic : Text}
    {f : φ} : Prints (lines analyse data topics).1 topic f ↔
      topic ∈ topics ∧ (∀ t ∈ topics, t < topic → Passes analyse data t) ∧
        2 ≤ (data topic).length ∧ analyse (data topic) = .ok f := by
  induction topics with
  | nil => exact iff_of_false not_prints_nil fun h ↦ List.not_mem_nil h.1
  | cons t topics ih =>
    obtain ⟨hlt, hsort⟩ := List.pairwise_cons.mp hsort
    -- a topic after `t` is a topic of the rest, and asks `t` to pass
    have hrest (hpass : Passes analyse data t) :
        Prints (lines analyse data topics).1 topic f ↔ topic ∈ topics ∧
          (∀ t' ∈ t :: topics, t' < topic → Passes analyse data t') ∧
            2 ≤ (data topic).length ∧ analyse (data topic) = .ok f := by
      rw [ih hsort, List.forall_mem_cons, and_iff_right fun _ ↦ hpass]
    rw [lines]
    by_cases hshort : (data t).length < 2
    · rw [if_pos hshort, prints_cons_iff, hrest (Or.inl hshort)]
      constructor
      · rintro (⟨-, hnone⟩ | ⟨hmem, h⟩)
        · exact absurd hnone (Option.some_ne_none f).symm
        · exact ⟨List.mem_cons_of_mem t hmem, h⟩
      · rintro ⟨hmem, h⟩
        rcases List.mem_cons.mp hmem with rfl | hmem
        · exact absurd hshort (Nat.not_lt.mpr h.2.1)
        · exact Or.inr ⟨hmem, h⟩
    rw [if_neg hshort]
    cases hanalyse : analyse (data t) with
    | error e =>
      refine iff_of_false not_prints_nil ?_
      rintro ⟨hmem, hpass, -, hf⟩
      rcases List.mem_cons.mp hmem with rfl | hmem
      · rw [hanalyse] at hf
        contradiction
      · rcases hpass t List.mem_cons_self (hlt topic hmem) with h | ⟨f', hf'⟩
        · exact hshort h
        · rw [hanalyse] at hf'
          contradiction
    | ok f' =>
      rw [prints_cons_iff, hrest (Or.inr ⟨f', hanalyse⟩)]
      constructor
      · rintro (⟨rfl, hf⟩ | ⟨hmem, h⟩)
        · rw [← Option.some_inj.mp hf]
          refine ⟨List.mem_cons_self, fun t' ht' hlt' ↦ ?_, Nat.not_lt.mp hshort, hanalyse⟩
          rcases List.mem_cons.mp ht' with rfl | ht'
          · exact absurd hlt' (lt_irrefl _)
          · exact absurd hlt' (hlt t' ht').not_gt
        · exact ⟨List.mem_cons_of_mem t hmem, h⟩
      · rintro ⟨hmem, h⟩
        rcases List.mem_cons.mp hmem with rfl | hmem
        · refine Or.inl ⟨rfl, ?_⟩
          rw [Option.some_inj, ← Except.ok.injEq (ε := PyError), ← hanalyse]
          exact h.2.2
        · exact Or.inr ⟨hmem, h⟩

end Loop

/-! ## The rows of a topic -/

/-- The rows of the topic. -/
def rowsOn (rows : List Row) (topic : Text) : List Row := rows.filter fun row ↦ row.topic = topic

theorem mem_rowsOn {rows : List Row} {topic : Text} {row : Row} :
    row ∈ rowsOn rows topic ↔ row ∈ rows ∧ row.topic = topic := by
  rw [rowsOn, List.mem_filter, decide_eq_true_iff]

/-- There are rows of different times. -/
def Spans (rows : List Row) : Prop :=
  ∃ row ∈ rows, ∃ row' ∈ rows, row.timestamp ≠ row'.timestamp

/-- Neither the topic nor an earlier one has two rows or more that are all of one time. -/
def Reached (rows : List Row) (topic : Text) : Prop :=
  ∀ t ≤ topic, (rowsOn rows t).length < 2 ∨ Spans (rowsOn rows t)

theorem reached_iff {rows : List Row} {topic : Text} (hlen : 2 ≤ (rowsOn rows topic).length) :
    Reached rows topic ↔ (∀ t < topic, (rowsOn rows t).length < 2 ∨ Spans (rowsOn rows t)) ∧
      Spans (rowsOn rows topic) := by
  constructor
  · intro h
    exact ⟨fun t ht ↦ h t ht.le, (h topic le_rfl).resolve_left (Nat.not_lt.mpr hlen)⟩
  · rintro ⟨hbefore, htopic⟩ t ht
    rcases ht.eq_or_lt with rfl | hlt
    · exact Or.inr htopic
    · exact hbefore t hlt

theorem pairwise_topicsOf {ρ : Type} (entries : List (Text × ρ)) :
    (topicsOf entries).Pairwise (· < ·) := by
  have hperm := List.perm_insertionSort (· ≤ ·) (entries.map Prod.fst).dedup
  have hsort := List.pairwise_insertionSort (· ≤ ·) (entries.map Prod.fst).dedup
  have hnodup := hperm.nodup_iff.mpr (List.nodup_dedup (entries.map Prod.fst))
  exact (hsort.and hnodup).imp fun h ↦ lt_of_le_of_ne h.1 h.2

theorem mem_topicsOf {ρ : Type} {entries : List (Text × ρ)} {topic : Text} :
    topic ∈ topicsOf entries ↔ topic ∈ entries.map Prod.fst := by
  rw [topicsOf, List.mem_insertionSort, List.mem_dedup]

/-! ## The report -/

section Rows

variable {ρ φ : Type} {read : Row → Except PyError ρ} {g : Row → ρ}
  {analyse : List ρ → Except PyError φ} {rows : List Row}

theorem entriesOf_map (rows : List Row) (g : Row → ρ) (topic : Text) :
    entriesOf (rows.map fun row ↦ (row.topic, g row)) topic = (rowsOn rows topic).map g := by
  rw [entriesOf, List.filter_map, List.map_map, rowsOn]
  rfl

/-- A row that cannot be read ends the script before the first line. -/
theorem report_of_error {row : Row} (hrow : row ∈ rows) (h : ∀ e, read row ≠ .ok e) :
    (report read analyse rows).1 = [] := by
  have hread : ∀ b, (read row).map (row.topic, ·) ≠ .ok b := by
    intro b
    cases hr : read row with
    | error e => exact fun h ↦ nomatch h
    | ok e => exact absurd hr (h e)
  have hmap := exists_mapM_eq_error (f := fun row ↦ (read row).map (row.topic, ·)) hrow hread
  obtain ⟨e, he⟩ := hmap
  rw [report, he]

/-- The figures of a topic are printed if no earlier topic ends the loop. -/
theorem prints_report_iff (hread : ∀ row ∈ rows, read row = .ok (g row))
    (hanalyse : ∀ rows : List Row, rows ≠ [] →
      ((∃ f, analyse (rows.map g) = .ok f) ↔ Spans rows)) {topic : Text} {f : φ} :
    Prints (report read analyse rows).1 topic f ↔
      (∀ t < topic, (rowsOn rows t).length < 2 ∨ Spans (rowsOn rows t)) ∧
        2 ≤ (rowsOn rows topic).length ∧ analyse ((rowsOn rows topic).map g) = .ok f := by
  have hentries : (rows.mapM fun row ↦ (read row).map (row.topic, ·))
      = .ok (rows.map fun row ↦ (row.topic, g row)) :=
    mapM_eq_ok fun row hrow ↦ by rw [hread row hrow, Except.map]
  have hdata : entriesOf (rows.map fun row ↦ (row.topic, g row))
      = fun t ↦ (rowsOn rows t).map g := funext (entriesOf_map rows g)
  have hpasses : ∀ t, Passes analyse (fun t ↦ (rowsOn rows t).map g) t ↔
      (rowsOn rows t).length < 2 ∨ Spans (rowsOn rows t) := by
    intro t
    rw [Passes, List.length_map]
    by_cases hnil : rowsOn rows t = []
    · rw [hnil]
      exact iff_of_true (Or.inl Nat.zero_lt_two) (Or.inl Nat.zero_lt_two)
    · rw [hanalyse _ hnil]
  have htopics : ∀ t, t ∈ topicsOf (rows.map fun row ↦ (row.topic, g row)) ↔
      rowsOn rows t ≠ [] := by
    intro t
    rw [mem_topicsOf, List.map_map, List.mem_map, ← List.length_pos_iff,
      List.length_pos_iff_exists_mem]
    exact exists_congr fun row ↦ mem_rowsOn.symm
  rw [report, hentries]
  dsimp only
  rw [prints_lines_iff (pairwise_topicsOf _), hdata]
  simp only [hpasses, htopics, List.length_map]
  constructor
  · rintro ⟨-, hbefore, h⟩
    refine ⟨fun t ht ↦ ?_, h⟩
    by_cases hnil : rowsOn rows t = []
    · rw [hnil]
      exact Or.inl Nat.zero_lt_two
    · exact hbefore t hnil ht
  · rintro ⟨hbefore, hlen, hf⟩
    exact ⟨List.ne_nil_of_length_pos (Nat.zero_lt_of_lt hlen), fun t _ ↦ hbefore t, hlen, hf⟩

/-- **What a script shows of a topic**: if it can read the rows and reaches the topic, and there are
two rows or more, a value that the analysis gives for these. -/
theorem exists_prints_iff {α : Type} {num : Row → Except PyError ℤ} {mk : Row → ℤ → ρ} {w : φ → α}
    {v : List Row → α} (hread : ∀ row, read row = (num row).map (mk row))
    (hanalyse : ∀ (rows : List Row) (P : α → Prop), rows ≠ [] →
      ((∃ f, analyse (rows.map fun row ↦ mk row ((num row).toOption.getD 0)) = .ok f ∧ P (w f)) ↔
        Spans rows ∧ P (v rows)))
    (rows : List Row) (topic : Text) (P : α → Prop) :
    (∃ f, Prints (report read analyse rows).1 topic f ∧ P (w f)) ↔
      (∀ row ∈ rows, ∃ n, num row = .ok n) ∧ Reached rows topic ∧
        2 ≤ (rowsOn rows topic).length ∧ P (v (rowsOn rows topic)) := by
  by_cases hnum : ∀ row ∈ rows, ∃ n, num row = .ok n
  · rw [and_iff_right hnum]
    have hok : ∀ row ∈ rows, read row = .ok (mk row ((num row).toOption.getD 0)) := by
      intro row hrow
      obtain ⟨n, hn⟩ := hnum row hrow
      rw [hread, hn]
      rfl
    have hsucceeds : ∀ rows : List Row, rows ≠ [] →
        ((∃ f, analyse (rows.map fun row ↦ mk row ((num row).toOption.getD 0)) = .ok f) ↔
          Spans rows) := by
      intro rows hne
      simpa using hanalyse rows (fun _ ↦ True) hne
    simp only [prints_report_iff hok hsucceeds]
    constructor
    · rintro ⟨f, ⟨hbefore, hlen, hf⟩, hP⟩
      have hne := List.ne_nil_of_length_pos (Nat.zero_lt_of_lt hlen)
      obtain ⟨hspans, hv⟩ := (hanalyse _ P hne).mp ⟨f, hf, hP⟩
      exact ⟨(reached_iff hlen).mpr ⟨hbefore, hspans⟩, hlen, hv⟩
    · rintro ⟨hreached, hlen, hv⟩
      have hne := List.ne_nil_of_length_pos (Nat.zero_lt_of_lt hlen)
      obtain ⟨hbefore, hspans⟩ := (reached_iff hlen).mp hreached
      obtain ⟨f, hf, hP⟩ := (hanalyse _ P hne).mpr ⟨hspans, hv⟩
      exact ⟨f, ⟨hbefore, hlen, hf⟩, hP⟩
  · refine iff_of_false ?_ fun h ↦ hnum h.1
    push Not at hnum
    obtain ⟨row, hrow, hbad⟩ := hnum
    have herror : ∀ e, read row ≠ .ok e := by
      intro e
      rw [hread]
      cases hn : num row with
      | error e => exact fun h ↦ nomatch h
      | ok n => exact absurd hn (hbad n)
    rintro ⟨f, hprints, -⟩
    rw [report_of_error hrow herror] at hprints
    exact not_prints_nil hprints

end Rows

/-! ## Figures -/

theorem jitterOrZero_eq_ok (xs : List ℚ) : ∃ q, jitterOrZero xs = .ok q := by
  rw [jitterOrZero]
  split
  · rename_i h
    rw [stdevSq, if_neg (Nat.not_lt.mpr h)]
    exact ⟨_, rfl⟩
  · exact ⟨0, rfl⟩

/-- The delivery ratio and the loss. -/
def Figures.rates (f : Figures) : ℚ × ℚ := (f.pdr, f.loss)

/-- **The figures** are there unless the duration is zero or the jitter fails. -/
theorem exists_figures_eq_ok_iff (timestamps : List ℚ) (jitterSq : List ℚ → Except PyError ℚ)
    (pdr loss : ℚ) (P : ℚ × ℚ → Prop) :
    (∃ f, figures timestamps jitterSq pdr loss = .ok f ∧ P f.rates) ↔
      timestamps.getLastD 0 ≠ timestamps.headD 0 ∧
        (∃ q, jitterSq (intervals timestamps) = .ok q) ∧ P (pdr, loss) := by
  simp only [figures]
  by_cases h : timestamps.getLastD 0 = timestamps.headD 0
  · rw [if_pos (sub_eq_zero.mpr h)]
    exact iff_of_false (fun ⟨f, hf, _⟩ ↦ nomatch hf) fun hboth ↦ hboth.1 h
  · rw [if_neg (sub_ne_zero.mpr h), and_iff_right h]
    cases jitterSq (intervals timestamps) with
    | error e => exact iff_of_false (fun ⟨f, hf, _⟩ ↦ nomatch hf) fun ⟨⟨q, hq⟩, _⟩ ↦ nomatch hq
    | ok q =>
      constructor
      · rintro ⟨f, hf, hP⟩
        obtain rfl := Except.ok.inj hf
        exact ⟨⟨q, rfl⟩, hP⟩
      · exact fun hP ↦ ⟨_, rfl, hP.2⟩

/-- On the sorted entries of rows, the figures are there if not all times are the same. -/
theorem exists_figures_iff {ρ : Type} {t : ρ → ℚ} {g : Row → ρ}
    (ht : ∀ row, t (g row) = row.timestamp) {rows : List Row} (h : rows ≠ []) (pdr loss : ℚ)
    (P : ℚ × ℚ → Prop) :
    (∃ f, figures (((rows.map g).insertionSort (t · ≤ t ·)).map t) jitterOrZero pdr loss = .ok f ∧
      P f.rates) ↔ Spans rows ∧ P (pdr, loss) := by
  have hsort : ((rows.map g).insertionSort (t · ≤ t ·)).map t
      = (rows.map Row.timestamp).insertionSort (· ≤ ·) := by
    have hmap : (rows.map g).map t = rows.map Row.timestamp := by
      rw [List.map_map]
      exact List.map_congr_left fun row _ ↦ ht row
    rw [← hmap]
    exact List.map_insertionSort _ _ _ _ fun _ _ _ _ ↦ Iff.rfl
  have hne : rows.map Row.timestamp ≠ [] := mt List.map_eq_nil_iff.mp h
  have hends := getLastD_eq_headD_iff hne 0
  simp only [List.forall_mem_map] at hends
  have hdiffer : Spans rows ↔ ((rows.map Row.timestamp).insertionSort (· ≤ ·)).getLastD 0
      ≠ ((rows.map Row.timestamp).insertionSort (· ≤ ·)).headD 0 := by
    rw [Ne, hends]
    push Not
    exact Iff.rfl
  rw [hsort, exists_figures_eq_ok_iff, hdiffer, and_iff_right (jitterOrZero_eq_ok _)]

end Emcs.Performance
