import Emcs.Lib.Tenure

/-!
# A machine seen as another one

One machine has details that another leaves out. `abs` forgets them in a state, and a step of the
first machine is seen as a step of the second, or not at all. If every step of a run does to the
state what is seen of it, then the run is seen as a run: the states at the ends agree, and a value
of the state changes as often in the one as in the other.
-/

namespace Trace

variable {σ ε τ η : Type*} (step : σ → ε → σ) (step' : τ → η → τ) (abs : σ → τ)
  (seen : σ → ε → Option η)

/-- What is seen of the step is what it does. -/
def Agrees (s : σ) (e : ε) : Prop := abs (step s e) = run step' (abs s) (seen s e).toList

/-- What is seen of a run. -/
def view (s : σ) (es : List ε) : List η := logged step (fun s e ↦ (seen s e).toList) s es

variable {step step' abs seen} {s : σ} {es : List ε}

/-- **A run is seen as a run.** -/
theorem abs_run (h : Always step (Agrees step step' abs seen) s es) :
    abs (run step s es) = run step' (abs s) (view step seen s es) := by
  induction es generalizing s with
  | nil => rfl
  | cons e es ih =>
    rw [run_cons, ih h.2, show abs (step s e) = _ from h.1, ← run_append]
    rfl

theorem forall_view {P : η → Prop} (h : Always step (fun s e ↦ ∀ x ∈ seen s e, P x) s es) :
    ∀ x ∈ view step seen s es, P x := by
  induction es generalizing s with
  | nil => exact fun _ hx ↦ absurd hx List.not_mem_nil
  | cons e es ih =>
    intro x hx
    rcases List.mem_append.mp hx with hx | hx
    · exact h.1 x (Option.mem_toList.mp hx)
    · exact ih h.2 x hx

theorem changes_le_length {β : Type*} [DecidableEq β] (f : σ → β) (s : σ) (es : List ε) :
    changes step f s es ≤ es.length := by
  induction es generalizing s with
  | nil => exact Nat.le_refl _
  | cons e es ih =>
    have hrest := ih (step s e)
    rw [changes, List.length_cons]
    split
    · omega
    · omega

/-- **Changes are seen as changes.** -/
theorem changes_view {β : Type*} [DecidableEq β] {g : τ → β}
    (h : Always step (Agrees step step' abs seen) s es) :
    changes step' g (abs s) (view step seen s es) = changes step (fun s ↦ g (abs s)) s es := by
  induction es generalizing s with
  | nil => rfl
  | cons e es ih =>
    have hstep : abs (step s e) = run step' (abs s) (seen s e).toList := h.1
    have hfirst : changes step' g (abs s) (seen s e).toList
        = if g (abs (step s e)) = g (abs s) then 0 else 1 := by
      cases hseen : seen s e with
      | none =>
        rw [hseen, Option.toList_none] at hstep
        rw [hstep, Option.toList_none, changes, run_nil, if_pos rfl]
      | some x =>
        rw [hseen, Option.toList_some] at hstep
        rw [hstep, Option.toList_some, changes, changes, run_cons, run_nil, Nat.add_zero]
    have hview : view step seen s (e :: es)
        = (seen s e).toList ++ view step seen (step s e) es := rfl
    rw [hview, changes_append, hfirst, changes, ← hstep, ih h.2]

end Trace
