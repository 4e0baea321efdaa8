import Emcs.Aes.Cipher
import Emcs.Aes.Fips197
import Mathlib.Tactic.FinCases

/-!
# The hand-written cipher is AES-128

The block functions of the Arduino transport are the cipher and the inverse cipher of the standard,
for every key and block, and so inverse to each other.

Bytes are enumerated, 256 cases at a time, for the tables and for the doubling; the product of two
bytes follows the loop of `gmul`. The rest is a correspondence of layouts: `ofBlock` reads the flat
state of the source as the matrix of the standard, every step of a round commutes with it, and the
rounds follow by induction on the round number.
-/

namespace Emcs.Aes

/-! ## Bytes -/

/-- The entries of both tables, up to the affine map, are inverse to their indices. -/
private theorem table_products :
    (∀ p ∈ (List.range 256).zip sbox.toList, p.1 ≠ 0 →
      Fips197.mul (UInt8.ofNat p.1) (Fips197.invAffine p.2) = 1) ∧
    ∀ p ∈ (List.range 256).zip rsbox.toList, p.1 ≠ 0x63 →
      Fips197.mul (Fips197.invAffine (UInt8.ofNat p.1)) p.2 = 1 := by
  decide +kernel

private theorem mem_zip_range (t : Vector UInt8 256) (x : UInt8) :
    (x.toNat, t[x.toFin]) ∈ (List.range 256).zip t.toList := by
  refine List.mem_iff_getElem?.mpr ⟨x.toNat, ?_⟩
  rw [List.getElem?_zip_eq_some, List.getElem?_range x.toNat_lt, Vector.getElem?_toList,
    Vector.getElem?_eq_getElem x.toNat_lt]
  exact ⟨rfl, rfl⟩

theorem SB_eq_sBox (x : UInt8) : SB x = Fips197.sBox x := by
  by_cases hx : x = 0
  · subst hx
    rw [Fips197.sBox, Fips197.inv_zero]
    rfl
  · have hmul := table_products.1 _ (mem_zip_range sbox x) fun h ↦ hx (UInt8.toNat_inj.mp h)
    rw [UInt8.ofNat_toNat] at hmul
    rw [Fips197.sBox, ← Fips197.eq_inv_of_mul hmul, Fips197.affine_invAffine]
    rfl

theorem RSB_eq_invSBox (x : UInt8) : RSB x = Fips197.invSBox x := by
  by_cases hx : x = 0x63
  · subst hx
    exact Fips197.inv_zero.symm
  · have hmul := table_products.2 _ (mem_zip_range rsbox x) fun h ↦ hx (UInt8.toNat_inj.mp h)
    rw [UInt8.ofNat_toNat] at hmul
    exact Fips197.eq_inv_of_mul hmul

/-- The doubling of a byte, and a byte as its lowest bit and the double of the rest. -/
private theorem doubling : (∀ x : UInt8, xtime x = Fips197.mul 2 x) ∧
    ∀ b : UInt8, (if b &&& 1 ≠ 0 then 1 else 0 : UInt8) ^^^ Fips197.mul 2 (b >>> 1) = b := by
  decide +kernel

theorem xtime_eq (x : UInt8) : xtime x = Fips197.mul 2 x := doubling.1 x

theorem mul_three_eq (x : UInt8) : Fips197.mul 3 x = xtime x ^^^ x := by
  rw [xtime_eq, show (3 : UInt8) = 2 ^^^ 1 by decide, Fips197.xor_mul, Fips197.one_mul]

/-- Each turn of the loop moves the lowest term of `b` times `a` into `p`. -/
theorem gmulLoop_eq (i : ℕ) (a b p : UInt8) (hb : b.toNat < 2 ^ i) :
    gmulLoop i a b p = p ^^^ Fips197.mul a b := by
  induction i generalizing a b p with
  | zero =>
    have hzero : b = 0 := UInt8.toNat_inj.mp (Nat.lt_one_iff.mp hb)
    rw [gmulLoop, hzero, Fips197.mul_zero, UInt8.xor_zero]
  | succ i ih =>
    have hhalf : (b >>> 1).toNat < 2 ^ i := by
      rw [UInt8.toNat_shiftRight]
      change b.toNat >>> 1 < 2 ^ i
      rw [Nat.shiftRight_one]
      omega
    have hdouble : (if a &&& 0x80 ≠ 0 then a <<< 1 ^^^ 0x1b else a <<< 1) = Fips197.mul 2 a := by
      rw [← xtime_eq, xtime]
      split <;> simp
    have hbit : (if b &&& 1 ≠ 0 then p ^^^ a else p)
        = p ^^^ Fips197.mul a (if b &&& 1 ≠ 0 then 1 else 0) := by
      split
      · rw [Fips197.mul_comm, Fips197.one_mul]
      · rw [Fips197.mul_zero, UInt8.xor_zero]
    simp only [gmulLoop]
    rw [ih _ _ _ hhalf, hdouble, hbit, Fips197.mul_comm 2 a, Fips197.mul_assoc, UInt8.xor_assoc,
      ← Fips197.mul_xor, doubling.2]

/-- **`gmul` is the product of the field.** -/
theorem gmul_eq (a b : UInt8) : gmul a b = Fips197.mul a b := by
  rw [gmul, gmulLoop_eq 8 a b 0 b.toNat_lt, UInt8.zero_xor]

/-! ## The steps of a round -/

open Fips197 (ofBlock ofBlock_apply)

private theorem ofBlock_apply_col (s : Block) (r c : Fin 4) :
    ofBlock s r c = s[4 * c.val + r.val] := by
  rw [ofBlock_apply]
  simp only [Nat.add_comm r.val]

theorem ofBlock_subBytes (s : Block) : ofBlock (subBytes s) = Fips197.subBytes (ofBlock s) := by
  funext r c
  simp only [ofBlock_apply, subBytes, Fips197.subBytes, Vector.getElem_map, SB_eq_sBox]

theorem ofBlock_invSubBytes (s : Block) :
    ofBlock (invSubBytes s) = Fips197.invSubBytes (ofBlock s) := by
  funext r c
  simp only [ofBlock_apply, invSubBytes, Fips197.invSubBytes, Vector.getElem_map, RSB_eq_invSBox]

theorem getElem_shiftRows (s : Block) {i : ℕ} (hi : i < 16) :
    (shiftRows s)[i] = s[(i + 4 * (i % 4)) % 16] := by
  simp only [shiftRows, Vector.getElem_set]
  interval_cases i <;> simp

/-- Row `r` moves `r` columns to the right, which is `4 - r` columns to the left. -/
theorem getElem_invShiftRows (s : Block) {i : ℕ} (hi : i < 16) :
    (invShiftRows s)[i] = s[(i + 12 * (i % 4)) % 16] := by
  simp only [invShiftRows, Vector.getElem_set]
  interval_cases i <;> simp

theorem ofBlock_shiftRows (s : Block) : ofBlock (shiftRows s) = Fips197.shiftRows (ofBlock s) := by
  funext r c
  have hidx : ∀ r c : Fin 4, (r.val + 4 * c.val + 4 * ((r.val + 4 * c.val) % 4)) % 16
      = r.val + 4 * (c + r).val := by decide
  rw [Fips197.shiftRows, ofBlock_apply, ofBlock_apply, getElem_shiftRows]
  simp only [hidx]

theorem ofBlock_invShiftRows (s : Block) :
    ofBlock (invShiftRows s) = Fips197.invShiftRows (ofBlock s) := by
  funext r c
  have hidx : ∀ r c : Fin 4, (r.val + 4 * c.val + 12 * ((r.val + 4 * c.val) % 4)) % 16
      = r.val + 4 * (c - r).val := by decide
  rw [Fips197.invShiftRows, ofBlock_apply, ofBlock_apply, getElem_invShiftRows]
  simp only [hidx]

theorem getElem_mixColumn_of_ne (p : ℕ) (s : Block) (h : p + 3 < 16) {i : ℕ} (hi : i < 16)
    (hne : i < p ∨ p + 3 < i) : (mixColumn p s h)[i] = s[i] := by
  simp only [mixColumn, Vector.getElem_set]
  rw [if_neg (by omega), if_neg (by omega), if_neg (by omega), if_neg (by omega)]

theorem getElem_invMixColumn_of_ne (p : ℕ) (s : Block) (h : p + 3 < 16) {i : ℕ} (hi : i < 16)
    (hne : i < p ∨ p + 3 < i) : (invMixColumn p s h)[i] = s[i] := by
  simp only [invMixColumn, Vector.getElem_set]
  rw [if_neg (by omega), if_neg (by omega), if_neg (by omega), if_neg (by omega)]

/-- On its own column, `mixColumn` is the product with the matrix of the standard. -/
theorem ofBlock_mixColumn (s : Block) {p : ℕ} (h : p + 3 < 16) (c : Fin 4) (hp : p = 4 * c.val)
    (r c' : Fin 4) :
    ofBlock (mixColumn p s h) r c'
      = if c' = c then Fips197.mixColumns (ofBlock s) r c else ofBlock s r c' := by
  subst hp
  by_cases hc : c' = c
  · subst hc
    rw [if_pos rfl, Fips197.mixColumns_apply]
    simp only [ofBlock_apply_col, mixColumn, Vector.getElem_set, Fips197.one_mul, ← xtime_eq,
      mul_three_eq]
    fin_cases r <;> simp <;>
      generalize s[4 * c'.val] = x₀, s[4 * c'.val + 1] = x₁, s[4 * c'.val + 2] = x₂,
        s[4 * c'.val + 3] = x₃ <;>
      ac_rfl
  · rw [if_neg hc, ofBlock_apply, ofBlock_apply]
    exact getElem_mixColumn_of_ne _ _ _ _ (by omega)

theorem ofBlock_invMixColumn (s : Block) {p : ℕ} (h : p + 3 < 16) (c : Fin 4)
    (hp : p = 4 * c.val) (r c' : Fin 4) :
    ofBlock (invMixColumn p s h) r c'
      = if c' = c then Fips197.invMixColumns (ofBlock s) r c else ofBlock s r c' := by
  subst hp
  by_cases hc : c' = c
  · subst hc
    rw [if_pos rfl, Fips197.invMixColumns_apply]
    simp only [ofBlock_apply_col, invMixColumn, Vector.getElem_set, gmul_eq]
    fin_cases r <;> simp <;>
      generalize s[4 * c'.val] = x₀, s[4 * c'.val + 1] = x₁, s[4 * c'.val + 2] = x₂,
        s[4 * c'.val + 3] = x₃ <;>
      ac_rfl
  · rw [if_neg hc, ofBlock_apply, ofBlock_apply]
    exact getElem_invMixColumn_of_ne _ _ _ _ (by omega)

/-- Four column steps, one for each column and each reading its own column only, are a step on the
whole state. -/
private theorem columns_eq {a : Fips197.Word} {s s₀ s₁ s₂ s₃ : Fips197.State}
    (h₀ : ∀ r c, s₀ r c = if c = 0 then Fips197.circulant a s r 0 else s r c)
    (h₁ : ∀ r c, s₁ r c = if c = 1 then Fips197.circulant a s₀ r 1 else s₀ r c)
    (h₂ : ∀ r c, s₂ r c = if c = 2 then Fips197.circulant a s₁ r 2 else s₁ r c)
    (h₃ : ∀ r c, s₃ r c = if c = 3 then Fips197.circulant a s₂ r 3 else s₂ r c) :
    s₃ = Fips197.circulant a s := by
  funext r c
  fin_cases c <;> simp [h₀, h₁, h₂, h₃, Fips197.circulant]

theorem ofBlock_mixColumns (s : Block) :
    ofBlock (mixColumns s) = Fips197.mixColumns (ofBlock s) :=
  columns_eq (ofBlock_mixColumn s _ 0 rfl) (ofBlock_mixColumn _ _ 1 rfl)
    (ofBlock_mixColumn _ _ 2 rfl) (ofBlock_mixColumn _ _ 3 rfl)

theorem ofBlock_invMixColumns (s : Block) :
    ofBlock (invMixColumns s) = Fips197.invMixColumns (ofBlock s) :=
  columns_eq (ofBlock_invMixColumn s _ 0 rfl) (ofBlock_invMixColumn _ _ 1 rfl)
    (ofBlock_invMixColumn _ _ 2 rfl) (ofBlock_invMixColumn _ _ 3 rfl)

/-! ## The key schedule -/

private theorem rcon_eq : ∀ i < 10, RC i = Fips197.xPow i := by decide

theorem getElem_nextRoundKey_zero (i : ℕ) (prev : Block) (j : Fin 4) :
    (nextRoundKey i prev)[j.val]
      = prev[j.val] ^^^ (SB prev[12 + (j + 1).val] ^^^ if j = 0 then RC i else 0) := by
  fin_cases j <;> simp [nextRoundKey, UInt8.xor_assoc]

theorem getElem_nextRoundKey_succ (i : ℕ) (prev : Block) (c : Fin 3) (j : Fin 4) :
    (nextRoundKey i prev)[4 * (c.val + 1) + j.val]
      = prev[4 * (c.val + 1) + j.val] ^^^ (nextRoundKey i prev)[4 * c.val + j.val] := by
  fin_cases c <;> fin_cases j <;> rfl

private theorem w_first (key : Block) (r : ℕ) : Fips197.w key (4 * (r + 1)) =
    Fips197.xorWord (Fips197.w key (4 * r)) (Fips197.xorWord
      (Fips197.subWord (Fips197.rotWord (Fips197.w key (4 * r + 3))))
      (Fips197.rconWord (r + 1))) := by
  rw [Fips197.w, dif_neg (by omega)]
  dsimp only
  rw [if_pos (by omega)]
  simp only [show 4 * (r + 1) - 1 = 4 * r + 3 by omega, show 4 * (r + 1) - 4 = 4 * r by omega,
    show 4 * (r + 1) / 4 = r + 1 by omega]

private theorem w_next (key : Block) (r : ℕ) {c : ℕ} (hc : c < 3) :
    Fips197.w key (4 * (r + 1) + (c + 1)) =
      Fips197.xorWord (Fips197.w key (4 * r + (c + 1))) (Fips197.w key (4 * (r + 1) + c)) := by
  rw [Fips197.w, dif_neg (by omega)]
  dsimp only
  rw [if_neg (by omega)]
  simp only [show 4 * (r + 1) + (c + 1) - 1 = 4 * (r + 1) + c by omega,
    show 4 * (r + 1) + (c + 1) - 4 = 4 * r + (c + 1) by omega]

/-- Byte `4 * c + j` of round key `r` is byte `j` of the word `w[4 * r + c]`. -/
theorem getElem_roundKey (key : Block) {r : ℕ} (hr : r ≤ 10) {c : ℕ} (hc : c < 4) (j : Fin 4) :
    (roundKey key r)[4 * c + j.val] = Fips197.w key (4 * r + c) j := by
  induction r generalizing c j with
  | zero =>
    rw [Fips197.w, dif_pos (by omega)]
    simp [roundKey, Fips197.keyWord]
  | succ r ih =>
    have hrc : RC r = Fips197.xPow r := rcon_eq r (by omega)
    induction c generalizing j with
    | zero =>
      have h₀ := ih (by omega) (c := 0) (by omega) j
      have h₃ := ih (by omega) (c := 3) (by omega) (j + 1)
      simp only [Nat.mul_zero, Nat.zero_add, Nat.add_zero] at h₀ h₃ ⊢
      rw [roundKey, getElem_nextRoundKey_zero, w_first, h₀, h₃, SB_eq_sBox, hrc]
      rfl
    | succ c ihc =>
      rw [roundKey, getElem_nextRoundKey_succ r _ ⟨c, by omega⟩ j, w_next key r (by omega),
        ih (by omega) hc j, ← roundKey, ihc (by omega) j]
      rfl

theorem ofBlock_addRoundKey (key s : Block) {r : ℕ} (hr : r ≤ 10) :
    ofBlock (addRoundKey (roundKey key r) s) = Fips197.addRoundKey key r (ofBlock s) := by
  funext j c
  rw [ofBlock_apply_col, Fips197.addRoundKey, ofBlock_apply_col, ← getElem_roundKey key hr c.isLt j]
  simp [addRoundKey]

/-! ## The block functions -/

theorem ofBlock_encryptRounds (key blk : Block) {n : ℕ} (hn : n < 10) :
    ofBlock (encryptRounds key blk n) = Fips197.rounds key (ofBlock blk) n := by
  induction n with
  | zero => exact ofBlock_addRoundKey key blk (by omega)
  | succ n ih =>
    simp only [encryptRounds]
    rw [if_pos hn, ofBlock_addRoundKey key _ (by omega), ofBlock_mixColumns, ofBlock_shiftRows,
      ofBlock_subBytes, ih (by omega)]
    rfl

/-- **`aes_encrypt_block` is AES-128 encryption**, for every key and block. -/
theorem aesEncryptBlock_eq (key blk : Block) :
    aesEncryptBlock key blk = Fips197.encrypt key blk := by
  have h : ofBlock (aesEncryptBlock key blk) = Fips197.cipher key (ofBlock blk) := by
    rw [aesEncryptBlock, encryptRounds, if_neg (by omega), ofBlock_addRoundKey key _ (by omega), 
      ofBlock_shiftRows, ofBlock_subBytes, ofBlock_encryptRounds key blk (by omega), Fips197.cipher]
  rw [Fips197.encrypt, ← h, Fips197.toBlock_ofBlock]

/-- The example vector of the standard (appendix B), under the shared key. -/
example : aesEncryptBlock AES_SHARED_KEY
    #v[0x32, 0x43, 0xf6, 0xa8, 0x88, 0x5a, 0x30, 0x8d, 0x31, 0x31, 0x98, 0xa2, 0xe0, 0x37, 0x07,
      0x34]
    = #v[0x39, 0x25, 0x84, 0x1d, 0x02, 0xdc, 0x09, 0xfb, 0xdc, 0x11, 0x85, 0x97, 0x19, 0x6a, 0x0b,
      0x32] := by decide +kernel

theorem ofBlock_decryptRounds (key : Block) {n : ℕ} (hn : n < 10) (s : Block) :
    ofBlock (decryptRounds key n s) = Fips197.addRoundKey key 0 (Fips197.invSubBytes
      (Fips197.invShiftRows (Fips197.invRounds key n (ofBlock s)))) := by
  induction n generalizing s with
  | zero =>
    simp only [decryptRounds, decryptRound]
    rw [if_neg (by omega), ofBlock_addRoundKey key _ (by omega), ofBlock_invSubBytes,
      ofBlock_invShiftRows, Fips197.invRounds]
  | succ n ih =>
    rw [decryptRounds, ih (by omega)]
    simp only [decryptRound]
    rw [if_pos (by omega), ofBlock_invMixColumns, ofBlock_addRoundKey key _ (by omega),
      ofBlock_invSubBytes, ofBlock_invShiftRows, Fips197.invRounds]

/-- **`aes_decrypt_block` is AES-128 decryption**, for every key and block. -/
theorem aesDecryptBlock_eq (key blk : Block) :
    aesDecryptBlock key blk = Fips197.decrypt key blk := by
  have h : ofBlock (aesDecryptBlock key blk) = Fips197.invCipher key (ofBlock blk) := by
    rw [aesDecryptBlock, ofBlock_decryptRounds key (by omega), ofBlock_addRoundKey key _ (by omega)]
    rfl
  rw [Fips197.decrypt, ← h, Fips197.toBlock_ofBlock]

/-! The two block functions are inverse under the same key. -/

theorem aesDecryptBlock_aesEncryptBlock (key blk : Block) :
    aesDecryptBlock key (aesEncryptBlock key blk) = blk := by
  rw [aesDecryptBlock_eq, aesEncryptBlock_eq, Fips197.decrypt_encrypt]

theorem aesEncryptBlock_aesDecryptBlock (key blk : Block) :
    aesEncryptBlock key (aesDecryptBlock key blk) = blk := by
  rw [aesEncryptBlock_eq, aesDecryptBlock_eq, Fips197.encrypt_decrypt]

end Emcs.Aes
