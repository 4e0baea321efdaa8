import Mathlib.Data.List.GetD
import Mathlib.Data.Nat.ModEq
import Mathlib.Logic.Function.Basic

/-!
# Block modes and padding

A function on `n`-cell blocks is lifted to strings by applying it to consecutive blocks, each on
its own (electronic codebook). The number of blocks is an argument, so the recursion is structural
and cells past the last block are left alone; that is what an in-place loop over a longer buffer
does.

The second half is the padding of the cryptographic message syntax: a string is completed to whole
blocks with `p` copies of the byte `p`, where `1 ≤ p ≤ n`, so that the last byte always tells how
much to take off.
-/

namespace BlockMode

variable {α : Type*} {n : ℕ}

/-! ## Blocks and lists -/

section Blocks

variable [Inhabited α]

/-- The first `n` cells of a list as a block. -/
def blockOf (n : ℕ) (l : List α) : Vector α n := Vector.ofFn fun i ↦ l.getD i default

theorem toList_blockOf {l : List α} (h : l.length = n) : (blockOf n l).toList = l := by
  apply List.ext_getElem
  · simp [h]
  · intro i h₁ h₂
    simp [blockOf, h₂]

@[simp] theorem blockOf_toList (v : Vector α n) : blockOf n v.toList = v := by
  ext i hi
  simp [blockOf]

/-! ## The codebook mode -/

/-- Apply `f` to the first `k` blocks of a list, each on its own. -/
def ecb (f : Vector α n → Vector α n) : ℕ → List α → List α
  | 0, l => l
  | k + 1, l => (f (blockOf n (l.take n))).toList ++ ecb f k (l.drop n)

@[simp] theorem ecb_zero (f : Vector α n → Vector α n) (l : List α) : ecb f 0 l = l := rfl

theorem ecb_succ (f : Vector α n → Vector α n) (k : ℕ) (l : List α) :
    ecb f (k + 1) l = (f (blockOf n (l.take n))).toList ++ ecb f k (l.drop n) := rfl

theorem length_ecb (f : Vector α n → Vector α n) {k : ℕ} {l : List α} (h : n * k ≤ l.length) :
    (ecb f k l).length = l.length := by
  induction k generalizing l with
  | zero => rfl
  | succ k ih =>
    rw [Nat.mul_succ] at h
    rw [ecb_succ, List.length_append, ih (by rw [List.length_drop]; omega), List.length_drop,
      Vector.length_toList]
    omega

theorem ecb_leftInverse {f g : Vector α n → Vector α n} (hfg : Function.LeftInverse g f) {k : ℕ}
    {l : List α} (h : n * k ≤ l.length) : ecb g k (ecb f k l) = l := by
  induction k generalizing l with
  | zero => rfl
  | succ k ih =>
    rw [Nat.mul_succ] at h
    have hlen : (f (blockOf n (l.take n))).toList.length = n := Vector.length_toList
    rw [ecb_succ, ecb_succ, List.take_left' hlen, List.drop_left' hlen, blockOf_toList, hfg,
      toList_blockOf (by rw [List.length_take]; omega), ih (by rw [List.length_drop]; omega),
      List.take_append_drop]

end Blocks

/-! ## Padding -/

/-- The number of padding bytes for a string of length `len`. -/
def padLen (n len : ℕ) : ℕ := n - len % n

theorem padLen_pos (hn : 0 < n) (len : ℕ) : 0 < padLen n len :=
  Nat.sub_pos_of_lt (Nat.mod_lt _ hn)

theorem padLen_le (n len : ℕ) : padLen n len ≤ n := Nat.sub_le _ _

theorem add_padLen (hn : 0 < n) (len : ℕ) : len + padLen n len = n * (len / n + 1) := by
  have hdiv := Nat.div_add_mod len n
  have hlt := Nat.mod_lt len hn
  rw [padLen, Nat.mul_add, Nat.mul_one]
  omega

/-- Complete a string to whole blocks. -/
def pad (n : ℕ) (m : List UInt8) : List UInt8 :=
  m ++ List.replicate (padLen n m.length) (UInt8.ofNat (padLen n m.length))

theorem length_pad (hn : 0 < n) (m : List UInt8) :
    (pad n m).length = n * (m.length / n + 1) := by
  rw [pad, List.length_append, List.length_replicate, add_padLen hn]

theorem getLastD_pad (hn : 0 < n) (m : List UInt8) :
    (pad n m).getLastD 0 = UInt8.ofNat (padLen n m.length) := by
  obtain ⟨p, hp⟩ : ∃ p, padLen n m.length = p + 1 :=
    ⟨padLen n m.length - 1, by have := padLen_pos hn m.length; omega⟩
  rw [pad, hp, List.replicate_succ', ← List.append_assoc, List.getLastD_concat]

/-- Take the padding off, nothing being left where the last byte is no padding byte. -/
def unpad (n : ℕ) (l : List UInt8) : List UInt8 :=
  let p := (l.getLastD 0).toNat
  if p = 0 ∨ p > n then [] else l.take (l.length - p)

theorem unpad_pad (hn : 0 < n) (hn' : n < 256) (m : List UInt8) : unpad n (pad n m) = m := by
  have hpos := padLen_pos hn m.length
  have hle := padLen_le n m.length
  have hbyte : ((pad n m).getLastD 0).toNat = padLen n m.length := by
    rw [getLastD_pad hn]
    exact UInt8.toNat_ofNat_of_lt (Nat.lt_of_le_of_lt hle hn')
  have hlen : (pad n m).length - padLen n m.length = m.length := by
    rw [length_pad hn, ← add_padLen hn, Nat.add_sub_cancel]
  simp only [unpad, hbyte]
  rw [if_neg (by omega), hlen, pad, List.take_left]

/-- A string is refused for its last byte, or because the padding is all there is. -/
theorem unpad_eq_nil_iff {l : List UInt8} : unpad n l = [] ↔
    ¬(1 ≤ (l.getLastD 0).toNat ∧ (l.getLastD 0).toNat ≤ n) ∨ l.length ≤ (l.getLastD 0).toNat := by
  simp only [unpad]
  split
  · next h => exact iff_of_true rfl (Or.inl (by omega))
  · next h =>
    rw [List.take_eq_nil_iff, ← List.length_eq_zero_iff]
    constructor
    · intro hnil
      right
      omega
    · rintro (hnot | hle)
      · omega
      · left
        omega

end BlockMode
