import Emcs.Lib.Trace

/-!
# Scripts with a background

A program runs a script of events, and events of a background come between any two of them. What a
run is made of is then known except for the background: without it, the run is the script.

The rules are those of assertions that the background does not break. `Triple P script Q` says that
every run of the script from a state with `P` ends in a state with `Q`; a triple for a script is put
together from its events, each of which takes one stable assertion to the next.
-/

namespace Trace

variable {σ ε : Type*} {step : σ → ε → σ} {fore : ε → Bool}

variable (step fore) in
/-- No event of the background breaks the assertion. -/
def Stable (P : σ → Prop) : Prop := ∀ s e, fore e = false → P s → P (step s e)

variable (step fore) in
/-- Every run of the script takes `P` to `Q`. -/
def Triple (P : σ → Prop) (script : List ε) (Q : σ → Prop) : Prop :=
  ∀ s es, es.filter fore = script → P s → Q (run step s es)

theorem Stable.run {P : σ → Prop} (h : Stable step fore P) {s : σ} {es : List ε}
    (hes : ∀ e ∈ es, fore e = false) (hs : P s) : P (run step s es) := by
  induction es generalizing s with
  | nil => exact hs
  | cons e es ih =>
    obtain ⟨he, hes⟩ := List.forall_mem_cons.mp hes
    exact ih hes (h s e he hs)

/-- **The rule of the empty script**: there is only the background. -/
theorem Triple.nil {P : σ → Prop} (h : Stable step fore P) : Triple step fore P [] P := by
  intro s es hes hs
  refine h.run (fun e he ↦ ?_) hs
  exact Bool.not_eq_true _ ▸ List.filter_eq_nil_iff.mp hes e he

/-- **The rule of an event.** -/
theorem Triple.cons {P Q R : σ → Prop} {e : ε} {script : List ε} (hP : Stable step fore P)
    (he : ∀ s, P s → Q (step s e)) (h : Triple step fore Q script R) :
    Triple step fore P (e :: script) R := by
  intro s es hes hs
  obtain ⟨back, rest, rfl, hback, -, hrest⟩ := List.filter_eq_cons_iff.mp hes
  rw [run_append, run_cons]
  exact h _ rest hrest (he _ (hP.run (fun e he ↦ Bool.not_eq_true _ ▸ hback e he) hs))

/-- **The rule of two scripts**, one after the other. -/
theorem Triple.append {P Q R : σ → Prop} {script script' : List ε}
    (h : Triple step fore P script Q) (h' : Triple step fore Q script' R) :
    Triple step fore P (script ++ script') R := by
  intro s es hes hs
  obtain ⟨es₁, es₂, rfl, h₁, h₂⟩ := List.filter_eq_append_iff.mp hes
  rw [run_append]
  exact h' _ es₂ h₂ (h s es₁ h₁ hs)

/-- An event of the script happens in the run, after a run of what is before it. -/
theorem exists_of_filter_eq {es script script' : List ε} {e : ε}
    (h : es.filter fore = script ++ e :: script') : ∃ es₁ es₂, es = es₁ ++ e :: es₂ ∧
      es₁.filter fore = script ∧ es₂.filter fore = script' ∧ fore e = true := by
  obtain ⟨es₁, rest, rfl, h₁, hrest⟩ := List.filter_eq_append_iff.mp h
  obtain ⟨back, es₂, rfl, hback, he, h₂⟩ := List.filter_eq_cons_iff.mp hrest
  refine ⟨es₁ ++ back, es₂, (List.append_assoc ..).symm, ?_, h₂, he⟩
  rw [List.filter_append, h₁, List.filter_eq_nil_iff.mpr hback, List.append_nil]

theorem mem_dropWhile {α : Type*} {p : α → Bool} {l l' : List α} {a b : α} (ha : p a = false)
    (hb : b ∈ a :: l') : b ∈ (l ++ a :: l').dropWhile p := by
  induction l with
  | nil =>
    rw [List.nil_append, List.dropWhile_cons_of_neg (Bool.not_eq_true _ ▸ ha)]
    exact hb
  | cons c l ih =>
    rw [List.cons_append, List.dropWhile_cons]
    split
    · exact ih
    · exact List.mem_cons_of_mem c (List.mem_append_right l hb)

end Trace
