import Emcs.Lib.RingCache
import Emcs.Lib.Tenure

/-!
# Windows of a duplicate filter

A machine that keeps the keys it accepted in a ring, and accepts a key only when the ring does not
hold it. A key that was just accepted stands in the youngest slot, and every further acceptance
moves it one slot back. So between two acceptances of one key lie as many acceptances of other keys
as the ring has slots.

The law is about one key at a time. A machine may treat other keys differently, say accept them
without looking or invalidate them early, and the law still holds of the keys it does not.
-/

namespace Trace

variable {σ ε α : Type*} {n : ℕ}

/-- What a machine does with the ring as far as the key `k` is concerned. -/
structure Filters (step : σ → ε → σ) (ring : σ → RingCache α n) (adds : σ → ε → Option α) (k : α) :
    Prop where
  fresh : ∀ s e, adds s e = some k → k ∉ ring s
  young : ∀ s e, adds s e = some k → (ring (step s e)).Within k 1
  shift : ∀ s e k' j, adds s e = some k' → j < n → (ring s).Within k j →
    (ring (step s e)).Within k (j + 1)
  still : ∀ s e j, adds s e = none → (ring s).Within k j → (ring (step s e)).Within k j

variable {step : σ → ε → σ} {ring : σ → RingCache α n} {adds : σ → ε → Option α} [DecidableEq α]
  {k : α}

/-- How many keys other than `k` a stretch of a run adds. -/
def others (step : σ → ε → σ) (adds : σ → ε → Option α) (k : α) (s : σ) (es : List ε) : ℕ :=
  (logged step (fun s e ↦ (adds s e).toList) s es).countP fun k' ↦ k' ≠ k

theorem others_cons (s : σ) (e : ε) (es : List ε) : others step adds k s (e :: es) =
    (adds s e).toList.countP (fun k' ↦ k' ≠ k) + others step adds k (step s e) es :=
  List.countP_append

/-- A key in the ring stands as many slots further back as other keys were added. -/
theorem Filters.within_run (h : Filters step ring adds k) {s : σ} {es : List ε} {j : ℕ}
    (hs : (ring s).Within k j) (hj : j + others step adds k s es ≤ n) :
    (ring (run step s es)).Within k (j + others step adds k s es) := by
  induction es generalizing s j with
  | nil => exact hs
  | cons e es ih =>
    rw [others_cons] at hj ⊢
    cases hadd : adds s e with
    | none =>
      rw [hadd, Option.toList_none, List.countP_nil, Nat.zero_add] at hj
      rw [Option.toList_none, List.countP_nil, Nat.zero_add]
      exact ih (h.still s e j hadd hs) hj
    | some k' =>
      -- the key itself is in the ring, so it is not the one that is added
      have hne : k' ≠ k := by
        rintro rfl
        exact h.fresh s e hadd hs.mem
      have hone : (some k').toList.countP (fun k' ↦ k' ≠ k) = 1 := by
        rw [Option.toList_some, List.countP_singleton, if_pos (decide_eq_true hne)]
      rw [hadd, hone] at hj
      rw [hone, ← Nat.add_assoc]
      exact ih (h.shift s e k' j hadd (by omega) hs) (by omega)

/-- **The window law**: between two additions of one key the ring takes in at least as many other
keys as it has slots. -/
theorem Filters.le_others (h : Filters step ring adds k) {s : σ} {pre mid : List ε} {e e' : ε}
    (he : adds (run step s pre) e = some k)
    (he' : adds (run step s (pre ++ e :: mid)) e' = some k) :
    n ≤ others step adds k (run step s (pre ++ [e])) mid := by
  rw [run_tenure] at he'
  rw [run_snoc]
  by_contra hlt
  have hle : 1 + others step adds k (step (run step s pre) e) mid ≤ n := by omega
  have hwithin := h.within_run (h.young _ e he) hle
  exact h.fresh _ e' he' hwithin.mem

end Trace
