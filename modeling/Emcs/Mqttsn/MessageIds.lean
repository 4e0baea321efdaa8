import Emcs.Mqttsn.Wire
import Mathlib.Algebra.GroupWithZero.Nat
import Mathlib.Data.List.Nodup
import Mathlib.Data.List.Range
import Mathlib.Data.Nat.ModEq

/-!
# The message ids drawn

Both clients draw the ids of their publishes, REGISTERs and SUBSCRIBEs from one counter of 16 bits,
which starts over at 1 instead of taking the value 0 or 0xFFFF. So the ids run through the 65534
others, again and again: `idAt n` is the id at the place `n` of that sequence, and calls draw the
ids at consecutive places, whatever the counter was before them (`exists_drawIds_eq`).

## The cycle

`idAt` is defined by its place and not by iteration, so that two places can be compared by
arithmetic: `idAt m = idAt n` if and only if `m` and `n` are equal modulo 65534. The counter of the
source may start anywhere, also at a value it never returns to; after one call it is at a place of
the cycle.
-/

namespace Emcs.Mqttsn

/-- The results of `k` calls of `get_next_msg_id`, one after the other. -/
def drawIds : ℕ → UInt16 → List UInt16
  | 0, _ => []
  | k + 1, next => (getNextMsgId next).1 :: drawIds k (getNextMsgId next).2

/-! ## The cycle of the ids -/

/-- The id at the place `n` of the cycle. -/
def idAt (n : ℕ) : UInt16 := UInt16.ofNat (n % 65534 + 1)

theorem toNat_idAt (n : ℕ) : (idAt n).toNat = n % 65534 + 1 := by
  have hlt : n % 65534 < 65534 := Nat.mod_lt n (by decide)
  exact UInt16.toNat_ofNat_of_lt' (by change _ < 65536; omega)

theorem idAt_eq_idAt_iff {m n : ℕ} : idAt m = idAt n ↔ m ≡ n [MOD 65534] := by
  rw [← UInt16.toNat_inj, toNat_idAt, toNat_idAt, Nat.add_right_cancel_iff]
  rfl

theorem idAt_ne_zero (n : ℕ) : idAt n ≠ 0 := by
  rw [← UInt16.toNat_inj.ne, toNat_idAt]
  exact Nat.succ_ne_zero _

theorem idAt_ne_max (n : ℕ) : idAt n ≠ 0xFFFF := by
  have hlt : n % 65534 < 65534 := Nat.mod_lt n (by decide)
  rw [← UInt16.toNat_inj.ne, toNat_idAt]
  change _ ≠ 65535
  omega

/-! ## The calls -/

/-- A call after one that gave the id at the place `n` gives the id at the next place. -/
theorem getNextMsgId_idAt (n : ℕ) :
    getNextMsgId (idAt n + 1) = (idAt (n + 1), idAt (n + 1) + 1) := by
  have hlt : n % 65534 < 65534 := Nat.mod_lt n (by decide)
  have hsucc : (idAt n + 1).toNat = n % 65534 + 2 := by
    rw [UInt16.toNat_add, toNat_idAt]
    change (n % 65534 + 1 + 1) % 65536 = _
    omega
  by_cases hend : n % 65534 = 65533
  · have hmax : idAt n + 1 = 0xFFFF := by
      rw [← UInt16.toNat_inj, hsucc, hend]
      rfl
    have hone : idAt (n + 1) = 1 := by
      rw [← UInt16.toNat_inj, toNat_idAt]
      change (n + 1) % 65534 + 1 = 1
      omega
    rw [hmax, hone]
    rfl
  · have hnext : idAt n + 1 = idAt (n + 1) := by
      rw [← UInt16.toNat_inj, hsucc, toNat_idAt]
      omega
    rw [hnext]
    exact getNextMsgId_of_lt (idAt_ne_zero _) (idAt_ne_max _)

theorem exists_getNextMsgId (next : UInt16) :
    ∃ n, getNextMsgId next = (idAt n, idAt n + 1) := by
  rw [getNextMsgId]
  split
  · exact ⟨0, rfl⟩
  · rename_i h
    have hpos : next.toNat ≠ 0 := fun hzero ↦ h (Or.inl (UInt16.toNat_inj.mp hzero))
    have hlt : next.toNat ≠ 65535 := fun hmax ↦ h (Or.inr (UInt16.toNat_inj.mp hmax))
    have hbound := next.toNat_lt
    have hid : idAt (next.toNat - 1) = next := by
      rw [← UInt16.toNat_inj, toNat_idAt]
      omega
    exact ⟨next.toNat - 1, by rw [hid]⟩

/-- **Calls draw the ids at consecutive places.** -/
theorem drawIds_eq {next : UInt16} {n : ℕ} (h : getNextMsgId next = (idAt n, idAt n + 1)) (k : ℕ) :
    drawIds k next = (List.range' n k).map idAt := by
  induction k generalizing next n with
  | zero => rfl
  | succ k ih =>
    rw [drawIds, h, ih (getNextMsgId_idAt n), List.range'_succ, List.map_cons]

theorem exists_drawIds_eq (next : UInt16) :
    ∃ n, ∀ k, drawIds k next = (List.range' n k).map idAt := by
  obtain ⟨n, hn⟩ := exists_getNextMsgId next
  exact ⟨n, drawIds_eq hn⟩

/-- Two places of the cycle have the same id exactly at a distance of whole rounds. -/
theorem idAt_add_eq_iff {n i j : ℕ} (hij : i ≤ j) :
    idAt (n + i) = idAt (n + j) ↔ 65534 ∣ j - i := by
  rw [idAt_eq_idAt_iff, Nat.modEq_iff_dvd' (Nat.add_le_add_left hij n), Nat.add_sub_add_left]

theorem nodup_map_idAt {n k : ℕ} (h : k ≤ 65534) : ((List.range' n k).map idAt).Nodup := by
  have hdistinct : ∀ i j, i ≤ j → j < k → idAt (n + i) = idAt (n + j) → i = j := by
    intro i j hij hj heq
    have hzero := Nat.eq_zero_of_dvd_of_lt ((idAt_add_eq_iff hij).mp heq) (by omega)
    omega
  refine List.Nodup.map_on (fun a ha b hb hab ↦ ?_) List.nodup_range'
  obtain ⟨i, hi, rfl⟩ := List.mem_range'.mp ha
  obtain ⟨j, hj, rfl⟩ := List.mem_range'.mp hb
  rw [Nat.one_mul, Nat.one_mul] at hab ⊢
  rcases Nat.le_total i j with hle | hle
  · rw [hdistinct i j hle hj hab]
  · rw [hdistinct j i hle hi hab.symm]

theorem eq_range'_of_infix {l : List ℕ} {n k : ℕ} (h : l <:+: List.range' n k) :
    ∃ m, l = List.range' m l.length := by
  obtain ⟨pre, post, heq⟩ := h
  obtain ⟨i, -, hpre, -⟩ := List.range'_eq_append_iff.mp heq.symm
  obtain ⟨j, -, -, hl⟩ := List.range'_eq_append_iff.mp hpre.symm
  exact ⟨n + j * 1, by rw [hl, List.length_range']⟩

/-- **The message ids.** Whatever the counter holds, and however many calls: no call gives 0 or
0xFFFF, any 65534 consecutive results are different, and an id comes back exactly at the multiples
of 65534 calls. -/
theorem drawIds_distinct (next : UInt16) (k : ℕ) :
    (∀ id ∈ drawIds k next, id ≠ 0 ∧ id ≠ 0xFFFF) ∧
      (∀ ids, ids <:+: drawIds k next → ids.length ≤ 65534 → ids.Nodup) ∧
      ∀ i j, i < j → j < k → ((drawIds k next)[i]? = (drawIds k next)[j]? ↔ 65534 ∣ j - i) := by
  obtain ⟨n, hn⟩ := exists_drawIds_eq next
  rw [hn]
  refine ⟨fun id hid ↦ ?_, fun ids hids hlen ↦ ?_, fun i j hij hj ↦ ?_⟩
  · obtain ⟨m, -, rfl⟩ := List.mem_map.mp hid
    exact ⟨idAt_ne_zero m, idAt_ne_max m⟩
  · obtain ⟨l, hl, rfl⟩ := List.infix_map_iff.mp hids
    obtain ⟨m, hm⟩ := eq_range'_of_infix hl
    rw [List.length_map] at hlen
    rw [hm]
    exact nodup_map_idAt hlen
  · rw [List.getElem?_map, List.getElem?_map, List.getElem?_range' (hij.trans hj),
      List.getElem?_range' hj, Option.map_some, Option.map_some, Option.some_inj, Nat.one_mul,
      Nat.one_mul]
    exact idAt_add_eq_iff hij.le

end Emcs.Mqttsn
