import Mathlib.Data.List.Count

/-!
# Runs of a machine

A machine is a total step function `σ → ε → σ`; what an event does in a state where it makes no
sense is up to the machine. A run is a list of events, and the state it reaches is a left fold.

Safety is stated with `Always C`, which says that `C` holds of every state of the run together with
the event taken there. The rules are the usual ones: an invariant that every step meeting `C`
preserves holds at the end of a run that always meets `C`, and what the invariant gives in one step
holds always. The last section is about logs: a step appends to a log, and an entry that the log
holds twice was appended in two different places of the run.
-/

namespace Trace

variable {σ ε : Type*} (step : σ → ε → σ)

/-- The state reached from `s` by the events `es`. -/
def run (s : σ) (es : List ε) : σ := es.foldl step s

@[simp] theorem run_nil (s : σ) : run step s [] = s := rfl

@[simp] theorem run_cons (s : σ) (e : ε) (es : List ε) :
    run step s (e :: es) = run step (step s e) es := rfl

theorem run_append (s : σ) (es es' : List ε) :
    run step s (es ++ es') = run step (run step s es) es' :=
  List.foldl_append

/-- `C` holds of every state of the run together with the event taken in it. -/
def Always (C : σ → ε → Prop) : σ → List ε → Prop
  | _, [] => True
  | s, e :: es => C s e ∧ Always C (step s e) es

instance (C : σ → ε → Prop) [∀ s e, Decidable (C s e)] : ∀ s es, Decidable (Always step C s es)
  | _, [] => .isTrue trivial
  | s, e :: es =>
    have : Decidable (Always step C (step s e) es) := instDecidableAlways C (step s e) es
    inferInstanceAs (Decidable (C s e ∧ Always step C (step s e) es))

variable {step}

theorem always_append {C : σ → ε → Prop} {s : σ} {es es' : List ε} :
    Always step C s (es ++ es') ↔ Always step C s es ∧ Always step C (run step s es) es' := by
  induction es generalizing s with
  | nil => exact (true_and _).to_iff.symm
  | cons e es ih =>
    rw [List.cons_append, Always, Always, ih, and_assoc, run_cons]

theorem Always.at {C : σ → ε → Prop} {s : σ} {pre post : List ε} {e : ε}
    (h : Always step C s (pre ++ e :: post)) : C (run step s pre) e :=
  (always_append.mp h).2.1

theorem Always.mono {C D : σ → ε → Prop} {s : σ} {es : List ε} (h : Always step C s es)
    (hCD : ∀ s e, C s e → D s e) : Always step D s es := by
  induction es generalizing s with
  | nil => trivial
  | cons e es ih => exact ⟨hCD s e h.1, ih h.2⟩

theorem Always.and {C D : σ → ε → Prop} {s : σ} {es : List ε} (hC : Always step C s es)
    (hD : Always step D s es) : Always step (fun s e ↦ C s e ∧ D s e) s es := by
  induction es generalizing s with
  | nil => trivial
  | cons e es ih => exact ⟨⟨hC.1, hD.1⟩, ih hC.2 hD.2⟩

/-- **The invariant rule.** -/
theorem run_invariant {P : σ → Prop} {C : σ → ε → Prop}
    (hstep : ∀ s e, P s → C s e → P (step s e)) {s : σ} {es : List ε} (hs : P s)
    (h : Always step C s es) : P (run step s es) := by
  induction es generalizing s with
  | nil => exact hs
  | cons e es ih => exact ih (hstep s e hs h.1) h.2

theorem run_invariant' {P : σ → Prop} (hstep : ∀ s e, P s → P (step s e)) {s : σ}
    (es : List ε) (hs : P s) : P (run step s es) := by
  induction es generalizing s with
  | nil => exact hs
  | cons e es ih => exact ih (hstep s e hs)

/-- **The safety rule**: what the invariant gives in one step holds always. -/
theorem always_of_invariant {P : σ → Prop} {C D : σ → ε → Prop}
    (hstep : ∀ s e, P s → C s e → P (step s e)) (hD : ∀ s e, P s → C s e → D s e) {s : σ}
    {es : List ε} (hs : P s) (h : Always step C s es) : Always step D s es := by
  induction es generalizing s with
  | nil => trivial
  | cons e es ih => exact ⟨hD s e hs h.1, ih (hstep s e hs h.1) h.2⟩

/-- **Two conditions that a step cannot tell apart** hold of the same runs: where the invariant
holds they are equivalent, and a step that meets one of them keeps the invariant. -/
theorem always_iff_always {P : σ → Prop} {C D : σ → ε → Prop}
    (hiff : ∀ s e, P s → (C s e ↔ D s e)) (hstep : ∀ s e, P s → D s e → P (step s e)) {s : σ}
    {es : List ε} (hs : P s) : Always step C s es ↔ Always step D s es := by
  induction es generalizing s with
  | nil => exact Iff.rfl
  | cons e es ih =>
    rw [Always, Always, hiff s e hs]
    exact and_congr_right fun hD ↦ ih (hstep s e hs hD)

/-! ## Logs -/

section Logs

variable {α : Type*} [DecidableEq α] {log : σ → List α} {out : σ → ε → Option α}

theorem exists_append_of_count_lt (hlog : ∀ s e, log (step s e) = log s ++ (out s e).toList) {s : σ}
    {es : List ε} {a : α} (h : (log s).count a < (log (run step s es)).count a) :
    ∃ pre e post, es = pre ++ e :: post ∧ out (run step s pre) e = some a := by
  induction es generalizing s with
  | nil => exact absurd h (Nat.lt_irrefl _)
  | cons e es ih =>
    by_cases ha : out s e = some a
    · exact ⟨[], e, es, rfl, ha⟩
    · have hsame : (log (step s e)).count a = (log s).count a := by
        rw [hlog, List.count_append,
          List.count_eq_zero.mpr (fun hmem ↦ ha (Option.mem_toList.mp hmem)),
          Nat.add_zero]
      obtain ⟨pre, e', post, heq, hout⟩ := ih (by rw [hsame]; exact h)
      exact ⟨e :: pre, e', post, congrArg (e :: ·) heq, hout⟩

/-- **An entry that the log gained twice was appended in two places of the run.** -/
theorem exists_two_of_count (hlog : ∀ s e, log (step s e) = log s ++ (out s e).toList) {s : σ}
    {es : List ε} {a : α} (h : (log s).count a + 1 < (log (run step s es)).count a) :
    ∃ pre e mid e' post, es = pre ++ e :: (mid ++ e' :: post) ∧
      out (run step s pre) e = some a ∧ out (run step s (pre ++ e :: mid)) e' = some a := by
  induction es generalizing s with
  | nil => exact absurd h (Nat.not_lt.mpr (Nat.le_succ _))
  | cons e es ih =>
    have hcount : (log (step s e)).count a = (log s).count a + (out s e).toList.count a := by
      rw [hlog, List.count_append]
    by_cases ha : out s e = some a
    · rw [ha, Option.toList_some, List.count_singleton_self] at hcount
      rw [← hcount, run_cons] at h
      obtain ⟨mid, e', post, heq, hout⟩ := exists_append_of_count_lt hlog h
      exact ⟨[], e, mid, e', post, congrArg (e :: ·) heq, ha, hout⟩
    · rw [List.count_eq_zero.mpr (fun hmem ↦ ha (Option.mem_toList.mp hmem)),
        Nat.add_zero] at hcount
      obtain ⟨pre, e₁, mid, e₂, post, heq, h₁, h₂⟩ := ih (by rw [hcount]; exact h)
      exact ⟨e :: pre, e₁, mid, e₂, post, congrArg (e :: ·) heq, h₁, h₂⟩

end Logs

/-! ## Counting -/

section Changes

variable {β : Type*} [DecidableEq β] (step) (f : σ → β)

/-- How often `f` changes in a run. -/
def changes : σ → List ε → ℕ
  | _, [] => 0
  | s, e :: es => (if f (step s e) = f s then 0 else 1) + changes (step s e) es

theorem changes_append (s : σ) (es es' : List ε) :
    changes step f s (es ++ es') = changes step f s es + changes step f (run step s es) es' := by
  induction es generalizing s with
  | nil => exact (Nat.zero_add _).symm
  | cons e es ih => rw [List.cons_append, changes, changes, ih, Nat.add_assoc, run_cons]

end Changes

end Trace
