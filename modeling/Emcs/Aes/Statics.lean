import Emcs.Aes.Correct

/-!
# The cipher with its static variables

In the source the round keys are one array `s_rk` of 176 bytes, filled when a block function is
first called (`s_rk_ready`). Here the array is filled byte by byte as `aes_key_expand` does, and the
block functions read their round keys out of it at the offsets of the source. Whatever has been
called before, they compute the block functions on the key: `Loaded` holds at the start and is kept.
-/

namespace Emcs.Aes

/-- `s_rk`. -/
abbrev Schedule := Vector UInt8 176

/-- The static variables of the cipher. The state `s_st` is overwritten at the start of each
call. -/
structure Statics where
  sRk : Schedule
  sRkReady : Bool

def Statics.boot : Statics := ⟨Vector.replicate 176 0, false⟩

/-- The block that starts at byte `16 * r`. -/
def blockAt (rk : Schedule) (r : ℕ) : Block := Vector.ofFn fun j ↦ rk[16 * r + j.val]!

/-! ## Filling the array -/

/-- The four assignments of a turn of `aes_key_expand`, `prev` at byte `16 * i`. -/
def expandFirst (i : ℕ) (rk : Schedule) : Schedule :=
  let rk := rk.set! (16 * i + 16) (rk[16 * i]! ^^^ SB rk[16 * i + 13]! ^^^ RC i)
  let rk := rk.set! (16 * i + 17) (rk[16 * i + 1]! ^^^ SB rk[16 * i + 14]!)
  let rk := rk.set! (16 * i + 18) (rk[16 * i + 2]! ^^^ SB rk[16 * i + 15]!)
  rk.set! (16 * i + 19) (rk[16 * i + 3]! ^^^ SB rk[16 * i + 12]!)

/-- The inner loop for the `n` bytes from `j = 4` on. -/
def expandRest (i : ℕ) : ℕ → Schedule → Schedule
  | 0, rk => rk
  | n + 1, rk =>
    let rk := expandRest i n rk
    rk.set! (16 * i + 20 + n) (rk[16 * i + 4 + n]! ^^^ rk[16 * i + 16 + n]!)

/-- The first `n` turns of the outer loop. -/
def expandTurns : ℕ → Schedule → Schedule
  | 0, rk => rk
  | n + 1, rk => expandRest n 12 (expandFirst n (expandTurns n rk))

/-- `memcpy(s_rk, key, 16)`. -/
def copyKey (key : Block) (rk : Schedule) : Schedule :=
  Vector.ofFn fun k ↦ if k.val < 16 then key[k.val]! else rk[k.val]!

def aesKeyExpand (key : Block) (s : Statics) : Statics :=
  ⟨expandTurns 10 (copyKey key s.sRk), true⟩

/-! ## The block functions -/

/-- The state of `aes_encrypt_block` after round `rnd`. -/
def encryptRoundsAt (rk : Schedule) (blk : Block) : ℕ → Block
  | 0 => addRoundKey (blockAt rk 0) blk
  | rnd + 1 =>
    let s := shiftRows (subBytes (encryptRoundsAt rk blk rnd))
    let s := if rnd + 1 < 10 then mixColumns s else s
    addRoundKey (blockAt rk (rnd + 1)) s

/-- The body of the loop of `aes_decrypt_block` in round `rnd`. -/
def decryptRoundAt (rk : Schedule) (rnd : ℕ) (s : Block) : Block :=
  let s := invSubBytes (invShiftRows s)
  let s := addRoundKey (blockAt rk rnd) s
  if rnd > 0 then invMixColumns s else s

/-- The rounds `rnd, rnd - 1, .., 0` of `aes_decrypt_block`. -/
def decryptRoundsAt (rk : Schedule) : ℕ → Block → Block
  | 0, s => decryptRoundAt rk 0 s
  | rnd + 1, s => decryptRoundsAt rk rnd (decryptRoundAt rk (rnd + 1) s)

/-- The test of `s_rk_ready` at the head of both block functions. -/
def Statics.ready (key : Block) (s : Statics) : Statics :=
  if s.sRkReady then s else aesKeyExpand key s

/-- `aes_encrypt_block`: the statics afterwards, and the block. -/
def Statics.encryptBlock (key : Block) (s : Statics) (blk : Block) : Statics × Block :=
  let s := s.ready key
  (s, encryptRoundsAt s.sRk blk 10)

def Statics.decryptBlock (key : Block) (s : Statics) (blk : Block) : Statics × Block :=
  let s := s.ready key
  (s, decryptRoundsAt s.sRk 9 (addRoundKey (blockAt s.sRk 10) blk))

/-! ## What the array holds -/

private theorem getElem!_set!_ne (rk : Schedule) (v : UInt8) {k k' : ℕ} (h : k ≠ k') :
    (rk.set! k v)[k']! = rk[k']! := by
  by_cases hk' : k' < 176
  · rw [getElem!_pos _ k' hk', getElem!_pos rk k' hk']
    simp [Vector.set!_eq_setIfInBounds, h]
  · rw [getElem!_neg _ k' hk', getElem!_neg rk k' hk']

private theorem getElem!_set!_self (rk : Schedule) (v : UInt8) {k : ℕ} (hk : k < 176) :
    (rk.set! k v)[k]! = v := by
  rw [getElem!_pos _ k hk]
  simp [Vector.set!_eq_setIfInBounds]

theorem getElem_blockAt (rk : Schedule) (r : ℕ) {j : ℕ} (hj : j < 16) :
    (blockAt rk r)[j] = rk[16 * r + j]! := by
  simp [blockAt]

theorem blockAt_congr {rk rk' : Schedule} {r r' : ℕ}
    (h : ∀ j < 16, rk[16 * r + j]! = rk'[16 * r' + j]!) : blockAt rk r = blockAt rk' r' := by
  refine Vector.ext fun j hj ↦ ?_
  rw [getElem_blockAt rk r hj, getElem_blockAt rk' r' hj, h j hj]

theorem expandFirst_word {i : ℕ} (hi : i < 10) (rk : Schedule) (j : Fin 4) :
    (expandFirst i rk)[16 * i + 16 + j.val]! = (nextRoundKey i (blockAt rk i))[j.val] := by
  rw [getElem_nextRoundKey_zero, getElem_blockAt rk i (by omega), getElem_blockAt rk i (by omega)]
  fin_cases j <;>
    simp (disch := omega) only [expandFirst, getElem!_set!_ne, getElem!_set!_self] <;>
    simp [UInt8.xor_assoc]

theorem expandFirst_of_ne {i : ℕ} (rk : Schedule) {k : ℕ}
    (hk : k < 16 * i + 16 ∨ 16 * i + 20 ≤ k) : (expandFirst i rk)[k]! = rk[k]! := by
  simp (disch := omega) only [expandFirst, getElem!_set!_ne]

theorem expandRest_of_ne {i n : ℕ} (rk : Schedule) {k : ℕ}
    (hk : k < 16 * i + 20 ∨ 16 * i + 20 + n ≤ k) : (expandRest i n rk)[k]! = rk[k]! := by
  induction n with
  | zero => rfl
  | succ n ih =>
    simp only [expandRest]
    rw [getElem!_set!_ne _ _ (by omega), ih (by omega)]

/-- The later bytes of the next block, each from the byte four places before it. -/
theorem expandRest_byte {i : ℕ} (hi : i < 10) (rk : Schedule) {n m : ℕ} (hn : n ≤ 12) (hm : m < n) :
    (expandRest i n rk)[16 * i + 20 + m]!
      = rk[16 * i + 4 + m]! ^^^ (expandRest i n rk)[16 * i + 16 + m]! := by
  induction n with
  | zero => omega
  | succ n ih =>
    simp only [expandRest]
    rw [getElem!_set!_ne _ _ (by omega : 16 * i + 20 + n ≠ 16 * i + 16 + m)]
    by_cases hlast : m = n
    · subst hlast
      rw [getElem!_set!_self _ _ (by omega), expandRest_of_ne rk (by omega)]
    · rw [getElem!_set!_ne _ _ (by omega), ih (by omega) (by omega)]

/-- **A turn of the loop** writes the next block of the schedule. -/
theorem blockAt_turn {i : ℕ} (hi : i < 10) (rk : Schedule) :
    blockAt (expandRest i 12 (expandFirst i rk)) (i + 1) = nextRoundKey i (blockAt rk i) := by
  -- word by word: the first from the assignments, each later one from the word before it
  have hword : ∀ c (hc : c < 4) (j : Fin 4),
      (expandRest i 12 (expandFirst i rk))[16 * i + 16 + (4 * c + j.val)]!
        = (nextRoundKey i (blockAt rk i))[4 * c + j.val] := by
    intro c
    induction c with
    | zero =>
      intro hc j
      simp only [Nat.mul_zero, Nat.zero_add]
      rw [expandRest_of_ne _ (by omega), expandFirst_word hi]
    | succ c ih =>
      intro hc j
      have hbyte := expandRest_byte hi (expandFirst i rk) le_rfl (by omega : 4 * c + j.val < 12)
      have hprev : (expandFirst i rk)[16 * i + 4 + (4 * c + j.val)]!
          = (blockAt rk i)[4 * (c + 1) + j.val] := by
        rw [expandFirst_of_ne rk (by omega), getElem_blockAt rk i (by omega)]
        congr 1
        omega
      have hidx : 16 * i + 16 + (4 * (c + 1) + j.val) = 16 * i + 20 + (4 * c + j.val) := by omega
      rw [hidx, hbyte, ih (by omega), hprev]
      exact (getElem_nextRoundKey_succ i (blockAt rk i) ⟨c, by omega⟩ j).symm
  refine Vector.ext fun j hj ↦ ?_
  rw [getElem_blockAt _ _ hj]
  have h := hword (j / 4) (by omega) ⟨j % 4, Nat.mod_lt _ (by decide)⟩
  simp only [Nat.div_add_mod] at h
  exact h

theorem blockAt_expandTurns (key : Block) (rk : Schedule) (h : blockAt rk 0 = key) {n : ℕ}
    (hn : n ≤ 10) {r : ℕ} (hr : r ≤ n) : blockAt (expandTurns n rk) r = roundKey key r := by
  induction n generalizing r with
  | zero =>
    obtain rfl : r = 0 := by omega
    exact h
  | succ n ih =>
    rw [expandTurns]
    by_cases hlast : r = n + 1
    · subst hlast
      rw [blockAt_turn hn, ih (by omega) le_rfl, roundKey]
    · rw [← ih (by omega) (by omega : r ≤ n)]
      refine blockAt_congr fun j hj ↦ ?_
      rw [expandRest_of_ne _ (by omega), expandFirst_of_ne _ (by omega)]

theorem blockAt_copyKey (key : Block) (rk : Schedule) : blockAt (copyKey key rk) 0 = key := by
  refine Vector.ext fun j hj ↦ ?_
  rw [getElem_blockAt _ _ hj, getElem!_pos _ _ (by omega)]
  simp [copyKey, hj]

/-! ## Every call -/

/-- The array holds the round keys of `key`, if it is said to be ready. -/
def Loaded (key : Block) (s : Statics) : Prop :=
  s.sRkReady = true → ∀ r ≤ 10, blockAt s.sRk r = roundKey key r

theorem loaded_boot (key : Block) : Loaded key Statics.boot := by
  intro h
  exact absurd h Bool.false_ne_true

theorem loaded_aesKeyExpand (key : Block) (s : Statics) : Loaded key (aesKeyExpand key s) :=
  fun _ _ hr ↦ blockAt_expandTurns key _ (blockAt_copyKey key s.sRk) le_rfl hr

theorem ready_spec {key : Block} {s : Statics} (h : Loaded key s) :
    (s.ready key).sRkReady = true ∧ ∀ r ≤ 10, blockAt (s.ready key).sRk r = roundKey key r := by
  rw [Statics.ready]
  by_cases hs : s.sRkReady = true
  · rw [if_pos hs]
    exact ⟨hs, h hs⟩
  · rw [if_neg hs]
    exact ⟨rfl, loaded_aesKeyExpand key s rfl⟩

theorem Loaded.ready {key : Block} {s : Statics} (h : Loaded key s) : Loaded key (s.ready key) :=
  fun _ ↦ (ready_spec h).2

theorem encryptRoundsAt_eq {key : Block} {rk : Schedule}
    (h : ∀ r ≤ 10, blockAt rk r = roundKey key r) (blk : Block) {n : ℕ} (hn : n ≤ 10) :
    encryptRoundsAt rk blk n = encryptRounds key blk n := by
  induction n with
  | zero => rw [encryptRoundsAt, encryptRounds, h 0 hn]
  | succ n ih => simp only [encryptRoundsAt, encryptRounds, ih (by omega), h (n + 1) hn]

theorem decryptRoundsAt_eq {key : Block} {rk : Schedule}
    (h : ∀ r ≤ 10, blockAt rk r = roundKey key r) {n : ℕ} (hn : n ≤ 10) (s : Block) :
    decryptRoundsAt rk n s = decryptRounds key n s := by
  induction n generalizing s with
  | zero => simp only [decryptRoundsAt, decryptRounds, decryptRoundAt, decryptRound, h 0 hn]
  | succ n ih =>
    rw [decryptRoundsAt, decryptRounds, ih (by omega)]
    simp only [decryptRoundAt, decryptRound, h (n + 1) hn]

theorem Loaded.encryptBlock {key : Block} {s : Statics} (h : Loaded key s) (blk : Block) :
    (s.encryptBlock key blk).2 = aesEncryptBlock key blk :=
  encryptRoundsAt_eq (ready_spec h).2 blk le_rfl

theorem Loaded.decryptBlock {key : Block} {s : Statics} (h : Loaded key s) (blk : Block) :
    (s.decryptBlock key blk).2 = aesDecryptBlock key blk := by
  rw [aesDecryptBlock, ← (ready_spec h).2 10 le_rfl]
  exact decryptRoundsAt_eq (ready_spec h).2 (by omega) _

/-- What the rest of the transport calls. -/
inductive Call
  | expand
  | encrypt (blk : Block)
  | decrypt (blk : Block)

def Statics.call (key : Block) (s : Statics) : Call → Statics
  | .expand => aesKeyExpand key s
  | .encrypt blk => (s.encryptBlock key blk).1
  | .decrypt blk => (s.decryptBlock key blk).1

/-- The statics after `calls`. -/
def Statics.after (key : Block) (calls : List Call) : Statics :=
  calls.foldl (Statics.call key) Statics.boot

theorem Loaded.call {key : Block} {s : Statics} (h : Loaded key s) (c : Call) :
    Loaded key (s.call key c) := by
  cases c with
  | expand => exact loaded_aesKeyExpand key s
  | encrypt blk => exact h.ready
  | decrypt blk => exact h.ready

theorem loaded_after (key : Block) (calls : List Call) : Loaded key (Statics.after key calls) := by
  rw [Statics.after]
  generalize hs : Statics.boot = s
  have h : Loaded key s := hs ▸ loaded_boot key
  clear hs
  induction calls generalizing s with
  | nil => exact h
  | cons c calls ih => exact ih _ (h.call c)

/-- **The cipher of the transport is AES-128**: after any calls, `aes_encrypt_block` is the cipher
of the standard under the key that `aes_key_expand` loads, and `aes_decrypt_block` its two-sided
inverse. -/
theorem blocks_correct (key : Block) (before before' : List Call) :
    (∀ blk, ((Statics.after key before).encryptBlock key blk).2 = Fips197.encrypt key blk) ∧
    Function.LeftInverse (fun blk ↦ ((Statics.after key before').decryptBlock key blk).2)
      (fun blk ↦ ((Statics.after key before).encryptBlock key blk).2) ∧
    Function.RightInverse (fun blk ↦ ((Statics.after key before').decryptBlock key blk).2)
      (fun blk ↦ ((Statics.after key before).encryptBlock key blk).2) := by
  have henc := (loaded_after key before).encryptBlock
  have hdec := (loaded_after key before').decryptBlock
  refine ⟨fun blk ↦ ?_, fun blk ↦ ?_, fun blk ↦ ?_⟩
  · rw [henc, aesEncryptBlock_eq]
  · simp only [henc, hdec, aesDecryptBlock_aesEncryptBlock]
  · simp only [henc, hdec, aesEncryptBlock_aesDecryptBlock]

end Emcs.Aes
