import Emcs.Lib.Trace
import Mathlib.Data.List.Induction

/-!
# Tenures

A resource of a machine is busy in some of its states. A tenure is a stretch of a run in which it is
taken by an event and stays busy. The rule of tenures is an induction over the stretch: what holds
when the resource is taken, and is kept by every step that leaves it busy, holds as long as the
tenure lasts. It speaks of the events since the taking, so it can count what happened in them.
-/

namespace Trace

variable {σ ε α : Type*} (step : σ → ε → σ)

/-- What the steps of a run put out, one after the other. -/
def logged (out : σ → ε → List α) : σ → List ε → List α
  | _, [] => []
  | s, e :: es => out s e ++ logged out (step s e) es

theorem logged_append (out : σ → ε → List α) (s : σ) (es es' : List ε) :
    logged step out s (es ++ es')
      = logged step out s es ++ logged step out (run step s es) es' := by
  induction es generalizing s with
  | nil => rfl
  | cons e es ih => rw [List.cons_append, logged, logged, ih, List.append_assoc, run_cons]

/-- The resource is free before `e`, and busy from then on through `mid`. -/
structure Tenure (busy : σ → Prop) (s : σ) (pre : List ε) (e : ε) (mid : List ε) : Prop where
  free : ¬busy (run step s pre)
  held : ∀ mid', mid' <+: mid → busy (run step s (pre ++ e :: mid'))

variable {step} {busy : σ → Prop} {s : σ} {pre mid : List ε} {e : ε}

theorem run_snoc (s : σ) (es : List ε) (e : ε) :
    run step s (es ++ [e]) = step (run step s es) e :=
  run_append step s es [e]

theorem run_tenure (s : σ) (pre : List ε) (e : ε) (mid : List ε) :
    run step s (pre ++ e :: mid) = run step (step (run step s pre) e) mid :=
  run_append step s pre (e :: mid)

/-- **The rule of tenures.** -/
theorem Tenure.rule {P : List ε → σ → Prop} (h : Tenure step busy s pre e mid)
    (htake : ¬busy (run step s pre) → busy (step (run step s pre) e) →
      P [] (step (run step s pre) e))
    (hkeep : ∀ mid' s' e', P mid' s' → busy s' → busy (step s' e') → e' ∈ mid →
      P (mid' ++ [e']) (step s' e')) :
    P mid (run step s (pre ++ e :: mid)) := by
  induction mid using List.reverseRecOn with
  | nil =>
    have hbusy := h.held [] (List.prefix_refl [])
    rw [run_tenure, run_nil] at hbusy ⊢
    exact htake h.free hbusy
  | append_singleton mid e' ih =>
    -- the tenure has lasted up to the last event, and the step keeps it
    have hpre : mid <+: mid ++ [e'] := List.prefix_append mid [e']
    have hshort : Tenure step busy s pre e mid :=
      ⟨h.free, fun mid' hmid' ↦ h.held mid' (hmid'.trans hpre)⟩
    have hP := ih hshort fun mid' s' x hs' hb hb' hx ↦
      hkeep mid' s' x hs' hb hb' (List.mem_append_left _ hx)
    have hbusy := h.held mid hpre
    have hbusy' := h.held (mid ++ [e']) (List.prefix_refl _)
    have hlast :
        run step s (pre ++ e :: (mid ++ [e'])) = step (run step s (pre ++ e :: mid)) e' := by
      rw [← List.cons_append, ← List.append_assoc, run_snoc]
    rw [hlast] at hbusy' ⊢
    exact hkeep mid _ e' hP hbusy hbusy' (List.mem_append_right _ (List.mem_singleton_self e'))

/-- **A resource that is busy is held in a tenure.** -/
theorem exists_tenure {es : List ε} (hs : ¬busy s) (h : busy (run step s es)) :
    ∃ pre e mid, es = pre ++ e :: mid ∧ Tenure step busy s pre e mid := by
  induction es using List.reverseRecOn with
  | nil => exact absurd h hs
  | append_singleton es e ih =>
    by_cases hbefore : busy (run step s es)
    · obtain ⟨pre, e₀, mid, rfl, htenure⟩ := ih hbefore
      refine ⟨pre, e₀, mid ++ [e], by rw [List.append_assoc, List.cons_append], htenure.free, ?_⟩
      intro mid' hmid'
      rcases List.prefix_concat_iff.mp hmid' with heq | hshort
      · rw [heq, ← List.cons_append, ← List.append_assoc]
        exact h
      · exact htenure.held mid' hshort
    · refine ⟨es, e, [], rfl, hbefore, fun mid' hmid' ↦ ?_⟩
      rw [List.prefix_nil.mp hmid']
      exact h

end Trace
