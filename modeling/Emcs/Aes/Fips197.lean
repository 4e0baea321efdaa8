import Mathlib.Algebra.Group.Fin.Basic
import Mathlib.Data.Fin.VecNotation
import Mathlib.Data.FinEnum
import Mathlib.Data.Nat.Bitwise
import Mathlib.Data.Vector.Basic
import Mathlib.Tactic.FinCases

/-!
# FIPS-197 AES-128

The standard cipher, written from the standard's own terms and from none of the program's tables:
bytes are polynomials over the two-element field modulo `x⁸ + x⁴ + x³ + x + 1`, the S-box is the
inverse followed by the affine map, the state is a matrix whose byte `(r, c)` is input byte
`r + 4 * c`, and the key schedule is the sequence of words `w[i]`.

The inverse cipher undoes the cipher (`decrypt_encrypt`), and the cipher the inverse cipher. Neither
blocks nor pairs of bytes are enumerated for this: the product of the field is additive in each
factor (`mul_xor`, `xor_mul`), so its laws are checked on the powers of `x`, and the product of the
two column matrices is computed entry by entry.
-/

namespace Emcs.Fips197

/-! ## The field -/

/-- The product of `a` with the terms of `b` of degree below `n`. -/
def polyMul (a b : ℕ) : ℕ → ℕ
  | 0 => 0
  | n + 1 => polyMul a b n ^^^ (b >>> n % 2) * (a <<< n)

/-- The remainder modulo `m(x) = x⁸ + x⁴ + x³ + x + 1` of a polynomial of degree below `8 + n`. -/
def polyMod : ℕ → ℕ → ℕ
  | 0, p => p
  | n + 1, p => polyMod n (p ^^^ (p >>> (8 + n) % 2) * (0x11b <<< n))

/-- Multiplication in the field, the standard's `•`. -/
def mul (a b : UInt8) : UInt8 := UInt8.ofNat (polyMod 7 (polyMul a.toNat b.toNat 8))

def square (a : UInt8) : UInt8 := mul a a

/-- The multiplicative inverse, with `0` mapped to itself: `a²⁵⁴`. -/
def inv (a : UInt8) : UInt8 :=
  let a2 := square a
  let a4 := square a2
  let a8 := square a4
  let a16 := square a8
  let a32 := square a16
  let a64 := square a32
  let a128 := square a64
  mul a2 (mul a4 (mul a8 (mul a16 (mul a32 (mul a64 a128)))))

/-! ## The product is additive -/

private theorem bit_xor_mul (b b' n k : ℕ) :
    ((b ^^^ b') >>> n % 2) * k = (b >>> n % 2) * k ^^^ (b' >>> n % 2) * k := by
  rw [Nat.shiftRight_xor_distrib, Nat.xor_mod_two_eq]
  rcases Nat.mod_two_eq_zero_or_one (b >>> n) with h | h <;>
    rcases Nat.mod_two_eq_zero_or_one (b' >>> n) with h' | h' <;>
    simp [h, h', Nat.add_mod]

theorem polyMul_xor (a b b' n : ℕ) :
    polyMul a (b ^^^ b') n = polyMul a b n ^^^ polyMul a b' n := by
  induction n with
  | zero => exact (Nat.xor_self 0).symm
  | succ n ih =>
    simp only [polyMul]
    rw [ih, bit_xor_mul]
    ac_rfl

theorem polyMod_xor (n p p' : ℕ) : polyMod n (p ^^^ p') = polyMod n p ^^^ polyMod n p' := by
  induction n generalizing p p' with
  | zero => rfl
  | succ n ih =>
    simp only [polyMod]
    rw [bit_xor_mul, ← ih]
    congr 1
    ac_rfl

theorem mul_xor (k x y : UInt8) : mul k (x ^^^ y) = mul k x ^^^ mul k y := by
  rw [mul, UInt8.toNat_xor, polyMul_xor, polyMod_xor, UInt8.ofNat_xor]
  rfl

private theorem mul_xor_bit (b n u v : ℕ) :
    (b >>> n % 2) * (u ^^^ v) = (b >>> n % 2) * u ^^^ (b >>> n % 2) * v := by
  rcases Nat.mod_two_eq_zero_or_one (b >>> n) with h | h <;> simp [h]

theorem xor_polyMul (a a' b n : ℕ) :
    polyMul (a ^^^ a') b n = polyMul a b n ^^^ polyMul a' b n := by
  induction n with
  | zero => exact (Nat.xor_self 0).symm
  | succ n ih =>
    simp only [polyMul]
    rw [ih, Nat.shiftLeft_xor_distrib, mul_xor_bit]
    ac_rfl

theorem xor_mul (x y k : UInt8) : mul (x ^^^ y) k = mul x k ^^^ mul y k := by
  rw [mul, UInt8.toNat_xor, xor_polyMul, polyMod_xor, UInt8.ofNat_xor]
  rfl

/-! ## The laws of the field -/

/-- The powers of `x` of degree below 8. -/
def monomial (i : Fin 8) : UInt8 := 1 <<< UInt8.ofNat i

/-- The exponents of the terms of a byte. -/
def terms (x : UInt8) : List (Fin 8) := (List.finRange 8).filter fun i ↦ x.toNat.testBit i

private theorem foldr_terms : ∀ x : UInt8, (terms x).foldr (fun i y ↦ monomial i ^^^ y) 0 = x := by
  decide +kernel

/-- Two additive maps that agree on the powers of `x` agree. -/
theorem eq_of_additive {f g : UInt8 → UInt8} (hf : ∀ x y, f (x ^^^ y) = f x ^^^ f y)
    (hg : ∀ x y, g (x ^^^ y) = g x ^^^ g y) (h : ∀ i, f (monomial i) = g (monomial i))
    (x : UInt8) : f x = g x := by
  have hf₀ : f 0 = 0 := by simpa using hf 0 0
  have hg₀ : g 0 = 0 := by simpa using hg 0 0
  rw [← foldr_terms x]
  induction terms x with
  | nil => exact hf₀.trans hg₀.symm
  | cons i l ih => rw [List.foldr_cons, hf, hg, h, ih]

private theorem monomial_laws :
    (∀ i j, mul (monomial i) (monomial j) = mul (monomial j) (monomial i)) ∧
    (∀ i j k, mul (mul (monomial i) (monomial j)) (monomial k)
      = mul (monomial i) (mul (monomial j) (monomial k))) ∧
    (∀ i, mul 1 (monomial i) = monomial i) ∧ ∀ i, square^[8] (monomial i) = monomial i := by
  decide +kernel

theorem mul_comm (x y : UInt8) : mul x y = mul y x := by
  obtain ⟨hcomm, -, -, -⟩ := monomial_laws
  refine eq_of_additive (f := (mul · y)) (g := mul y) (xor_mul · · y) (mul_xor y) (fun i ↦ ?_) x
  exact eq_of_additive (g := (mul · _)) (mul_xor _) (xor_mul · · _) (hcomm i) y

theorem mul_assoc (x y z : UInt8) : mul (mul x y) z = mul x (mul y z) := by
  obtain ⟨-, hassoc, -, -⟩ := monomial_laws
  refine eq_of_additive (f := fun x ↦ mul (mul x y) z) (g := (mul · (mul y z)))
    (fun u v ↦ ?_) (xor_mul · · _) (fun i ↦ ?_) x
  · rw [xor_mul, xor_mul]
  refine eq_of_additive (f := fun y ↦ mul (mul _ y) z) (g := fun y ↦ mul _ (mul y z))
    (fun u v ↦ ?_) (fun u v ↦ ?_) (fun j ↦ ?_) y
  · rw [mul_xor, xor_mul]
  · rw [xor_mul, mul_xor]
  refine eq_of_additive (g := fun z ↦ mul _ (mul _ z)) (mul_xor _) (fun u v ↦ ?_) (hassoc i j) z
  rw [mul_xor, mul_xor]

theorem one_mul (x : UInt8) : mul 1 x = x := by
  obtain ⟨-, -, hone, -⟩ := monomial_laws
  exact eq_of_additive (g := id) (mul_xor 1) (fun _ _ ↦ rfl) hone x

theorem mul_zero (x : UInt8) : mul x 0 = 0 := by simpa using mul_xor x 0 0

theorem zero_mul (x : UInt8) : mul 0 x = 0 := by rw [mul_comm, mul_zero]

/-! ## Inverses -/

theorem square_xor (x y : UInt8) : square (x ^^^ y) = square x ^^^ square y := by
  have hcross : mul x y ^^^ mul y x = 0 := by rw [mul_comm, UInt8.xor_self]
  calc square (x ^^^ y) = square x ^^^ square y ^^^ (mul x y ^^^ mul y x) := by
        simp only [square, mul_xor, xor_mul]
        ac_rfl
    _ = square x ^^^ square y := by rw [hcross, UInt8.xor_zero]

/-- Eight squarings are the identity. Squaring is additive, so the powers of `x` are enough. -/
theorem iterate_square (x : UInt8) : square^[8] x = x := by
  have hadd : ∀ n x y, square^[n] (x ^^^ y) = square^[n] x ^^^ square^[n] y := by
    intro n
    induction n with
    | zero => exact fun _ _ ↦ rfl
    | succ n ih => exact fun x y ↦ by simp only [Function.iterate_succ_apply, square_xor, ih]
  obtain ⟨-, -, -, hsquare⟩ := monomial_laws
  exact eq_of_additive (g := id) (hadd 8) (fun _ _ ↦ rfl) hsquare x

/-- `a²⁵⁶ = a`, factor by factor. -/
theorem mul_mul_inv (a : UInt8) : mul a (mul a (inv a)) = a := by
  have hsquare : ∀ b c, mul b (mul b c) = mul (square b) c := fun b c ↦ (mul_assoc b b c).symm
  simp only [inv, hsquare]
  exact iterate_square a

private theorem eq_zero_or_one_of_square : ∀ e : UInt8, square e = e → e = 0 ∨ e = 1 := by
  decide +kernel

theorem mul_inv {a : UInt8} (ha : a ≠ 0) : mul a (inv a) = 1 := by
  have hidem : square (mul a (inv a)) = mul a (inv a) := by
    calc square (mul a (inv a)) = mul (mul (inv a) a) (mul a (inv a)) := by
          rw [square, mul_comm (inv a) a]
      _ = mul (inv a) a := by rw [mul_assoc, mul_mul_inv]
      _ = mul a (inv a) := mul_comm _ _
  rcases eq_zero_or_one_of_square _ hidem with h | h
  · have hzero := mul_mul_inv a
    rw [h, mul_zero] at hzero
    exact absurd hzero.symm ha
  · exact h

theorem eq_inv_of_mul {a b : UInt8} (h : mul a b = 1) : b = inv a := by
  have ha : a ≠ 0 := by
    rintro rfl
    rw [zero_mul] at h
    exact absurd h (by decide)
  calc b = mul (mul (inv a) a) b := by rw [mul_comm (inv a), mul_inv ha, one_mul]
    _ = inv a := by rw [mul_assoc, h, mul_comm, one_mul]

@[simp] theorem inv_zero : inv 0 = 0 := by simp [inv, square, mul_zero]

theorem inv_inv (x : UInt8) : inv (inv x) = x := by
  by_cases hx : x = 0
  · rw [hx, inv_zero, inv_zero]
  · have hmul : mul (inv x) x = 1 := by rw [mul_comm, mul_inv hx]
    exact (eq_inv_of_mul hmul).symm

/-! ## The S-box -/

/-- Rotation of a byte to the left by `k < 8` places. -/
def rotl (b k : UInt8) : UInt8 := (b <<< k) ||| (b >>> (8 - k))

/-- The affine map of the standard: bit `i` of the result is
`b_i + b_{i+4} + b_{i+5} + b_{i+6} + b_{i+7} + c_i`, indices modulo 8, with `c = 0x63`. -/
def affine (b : UInt8) : UInt8 := b ^^^ rotl b 1 ^^^ rotl b 2 ^^^ rotl b 3 ^^^ rotl b 4 ^^^ 0x63

/-- The inverse of `affine`. -/
def invAffine (b : UInt8) : UInt8 := rotl b 1 ^^^ rotl b 3 ^^^ rotl b 6 ^^^ 0x05

theorem invAffine_affine : ∀ x : UInt8, invAffine (affine x) = x := by decide +kernel

theorem affine_invAffine : ∀ x : UInt8, affine (invAffine x) = x :=
  Function.LeftInverse.rightInverse_of_surjective invAffine_affine
    (Finite.surjective_of_injective (Function.LeftInverse.injective invAffine_affine))

def sBox (b : UInt8) : UInt8 := affine (inv b)

def invSBox (b : UInt8) : UInt8 := inv (invAffine b)

/-! ## Words and the key schedule -/

/-- Four bytes. -/
abbrev Word := Fin 4 → UInt8

def subWord (w : Word) : Word := fun r ↦ sBox (w r)

def rotWord (w : Word) : Word := fun r ↦ w (r + 1)

/-- `{02}` to the power `i`. -/
def xPow : ℕ → UInt8
  | 0 => 1
  | i + 1 => mul 2 (xPow i)

/-- The round constant word `Rcon[i] = [{02}^(i-1), 0, 0, 0]`. -/
def rconWord (i : ℕ) : Word := fun r ↦ if r = 0 then xPow (i - 1) else 0

def xorWord (v w : Word) : Word := fun r ↦ v r ^^^ w r

/-- Word `i` of the key. -/
def keyWord (key : Vector UInt8 16) (i : Fin 4) : Word := fun r ↦ key[4 * i.val + r.val]

/-- The word `w[i]` of the key schedule. -/
def w (key : Vector UInt8 16) (i : ℕ) : Word :=
  if h : i < 4 then keyWord key ⟨i, h⟩
  else
    let temp := w key (i - 1)
    xorWord (w key (i - 4))
      (if i % 4 = 0 then xorWord (subWord (rotWord temp)) (rconWord (i / 4)) else temp)

/-! ## The state and its transformations -/

/-- The state: row, then column. -/
abbrev State := Fin 4 → Fin 4 → UInt8

def subBytes (s : State) : State := fun r c ↦ sBox (s r c)

def invSubBytes (s : State) : State := fun r c ↦ invSBox (s r c)

def shiftRows (s : State) : State := fun r c ↦ s r (c + r)

def invShiftRows (s : State) : State := fun r c ↦ s r (c - r)

/-- The matrix whose row `r` is the row `a` rotated `r` places to the right, times every column. -/
def circulant (a : Word) (s : State) : State := fun r c ↦
  mul (a (0 - r)) (s 0 c) ^^^ mul (a (1 - r)) (s 1 c) ^^^ mul (a (2 - r)) (s 2 c) ^^^
    mul (a (3 - r)) (s 3 c)

def mixColumns (s : State) : State := circulant ![0x02, 0x03, 0x01, 0x01] s

def invMixColumns (s : State) : State := circulant ![0x0e, 0x0b, 0x0d, 0x09] s

/-- Add the four words of round `round`. -/
def addRoundKey (key : Vector UInt8 16) (round : ℕ) (s : State) : State := fun r c ↦
  s r c ^^^ w key (4 * round + c) r

/-! ## Cipher and inverse cipher -/

/-- Rounds `1 .. n` of the cipher, each with all four transformations. -/
def rounds (key : Vector UInt8 16) (s : State) : ℕ → State
  | 0 => addRoundKey key 0 s
  | n + 1 => addRoundKey key (n + 1) (mixColumns (shiftRows (subBytes (rounds key s n))))

def cipher (key : Vector UInt8 16) (s : State) : State :=
  addRoundKey key 10 (shiftRows (subBytes (rounds key s 9)))

/-- Rounds `n .. 1` of the inverse cipher. -/
def invRounds (key : Vector UInt8 16) : ℕ → State → State
  | 0, s => s
  | n + 1, s =>
    invRounds key n (invMixColumns (addRoundKey key (n + 1) (invSubBytes (invShiftRows s))))

def invCipher (key : Vector UInt8 16) (s : State) : State :=
  addRoundKey key 0 (invSubBytes (invShiftRows (invRounds key 9 (addRoundKey key 10 s))))

/-! ## Blocks -/

/-- Input byte `r + 4 * c` is state byte `(r, c)`. -/
def ofBlock (b : Vector UInt8 16) : State := fun r c ↦ b[r.val + 4 * c.val]

theorem ofBlock_apply (b : Vector UInt8 16) (r c : Fin 4) : ofBlock b r c = b[r.val + 4 * c.val] :=
  rfl

/-- State byte `(r, c)` is output byte `r + 4 * c`. -/
def toBlock (s : State) : Vector UInt8 16 :=
  Vector.ofFn fun i ↦ s ⟨i.val % 4, Nat.mod_lt _ (by decide)⟩ ⟨i.val / 4, by omega⟩

@[simp] theorem toBlock_ofBlock (b : Vector UInt8 16) : toBlock (ofBlock b) = b := by
  ext i hi
  simp [toBlock, ofBlock, Nat.mod_add_div]

@[simp] theorem ofBlock_toBlock (s : State) : ofBlock (toBlock s) = s := by
  funext r c
  have hmod : (r.val + 4 * c.val) % 4 = r.val := by omega
  have hdiv : (r.val + 4 * c.val) / 4 = c.val := by omega
  simp [toBlock, ofBlock, hmod, hdiv]

/-- AES-128 encryption of a block. -/
def encrypt (key blk : Vector UInt8 16) : Vector UInt8 16 := toBlock (cipher key (ofBlock blk))

/-- AES-128 decryption of a block. -/
def decrypt (key blk : Vector UInt8 16) : Vector UInt8 16 := toBlock (invCipher key (ofBlock blk))

/-! ## Each transformation is undone -/

theorem invSBox_sBox (x : UInt8) : invSBox (sBox x) = x := by
  rw [invSBox, sBox, invAffine_affine, inv_inv]

@[simp] theorem invSubBytes_subBytes (s : State) : invSubBytes (subBytes s) = s := by
  funext r c
  exact invSBox_sBox (s r c)

@[simp] theorem invShiftRows_shiftRows (s : State) : invShiftRows (shiftRows s) = s := by
  funext r c
  rw [invShiftRows, shiftRows, sub_add_cancel]

@[simp] theorem addRoundKey_addRoundKey (key : Vector UInt8 16) (round : ℕ) (s : State) :
    addRoundKey key round (addRoundKey key round s) = s := by
  funext r c
  rw [addRoundKey, addRoundKey, UInt8.xor_assoc, UInt8.xor_self, UInt8.xor_zero]

private theorem entry {a b c d k : UInt8}
    (h : mul 14 a ^^^ mul 11 b ^^^ mul 13 c ^^^ mul 9 d = k) (x : UInt8) :
    mul 14 (mul a x) ^^^ mul 11 (mul b x) ^^^ mul 13 (mul c x) ^^^ mul 9 (mul d x) = mul k x := by
  simp only [← mul_assoc, ← xor_mul, h]

/-! The product of the two column matrices is the identity: its four entries along a row. -/

private theorem diagonal (x : UInt8) :
    mul 14 (mul 2 x) ^^^ mul 11 (mul 1 x) ^^^ mul 13 (mul 1 x) ^^^ mul 9 (mul 3 x) = x :=
  (entry (by rfl) x).trans (one_mul x)

private theorem offOne (x : UInt8) :
    mul 14 (mul 3 x) ^^^ mul 11 (mul 2 x) ^^^ mul 13 (mul 1 x) ^^^ mul 9 (mul 1 x) = 0 :=
  (entry (by rfl) x).trans (zero_mul x)

private theorem offTwo (x : UInt8) :
    mul 14 (mul 1 x) ^^^ mul 11 (mul 3 x) ^^^ mul 13 (mul 2 x) ^^^ mul 9 (mul 1 x) = 0 :=
  (entry (by rfl) x).trans (zero_mul x)

private theorem offThree (x : UInt8) :
    mul 14 (mul 1 x) ^^^ mul 11 (mul 1 x) ^^^ mul 13 (mul 3 x) ^^^ mul 9 (mul 2 x) = 0 :=
  (entry (by rfl) x).trans (zero_mul x)

/-- The entry at row `r`, summed from the diagonal of the matrix on. -/
theorem circulant_apply (a : Word) (s : State) (r c : Fin 4) :
    circulant a s r c = mul (a 0) (s r c) ^^^ mul (a 1) (s (r + 1) c) ^^^
      mul (a 2) (s (r + 2) c) ^^^ mul (a 3) (s (r + 3) c) := by
  unfold circulant
  fin_cases r
  · rfl
  · change mul (a 3) (s 0 c) ^^^ mul (a 0) (s 1 c) ^^^ mul (a 1) (s 2 c) ^^^ mul (a 2) (s 3 c) =
      mul (a 0) (s 1 c) ^^^ mul (a 1) (s 2 c) ^^^ mul (a 2) (s 3 c) ^^^ mul (a 3) (s 0 c)
    ac_rfl
  · change mul (a 2) (s 0 c) ^^^ mul (a 3) (s 1 c) ^^^ mul (a 0) (s 2 c) ^^^ mul (a 1) (s 3 c) =
      mul (a 0) (s 2 c) ^^^ mul (a 1) (s 3 c) ^^^ mul (a 2) (s 0 c) ^^^ mul (a 3) (s 1 c)
    ac_rfl
  · change mul (a 1) (s 0 c) ^^^ mul (a 2) (s 1 c) ^^^ mul (a 3) (s 2 c) ^^^ mul (a 0) (s 3 c) =
      mul (a 0) (s 3 c) ^^^ mul (a 1) (s 0 c) ^^^ mul (a 2) (s 1 c) ^^^ mul (a 3) (s 2 c)
    ac_rfl

theorem mixColumns_apply (s : State) (r c : Fin 4) :
    mixColumns s r c = mul 2 (s r c) ^^^ mul 3 (s (r + 1) c) ^^^ mul 1 (s (r + 2) c) ^^^
      mul 1 (s (r + 3) c) :=
  circulant_apply _ s r c

theorem invMixColumns_apply (s : State) (r c : Fin 4) :
    invMixColumns s r c = mul 14 (s r c) ^^^ mul 11 (s (r + 1) c) ^^^ mul 13 (s (r + 2) c) ^^^
      mul 9 (s (r + 3) c) :=
  circulant_apply _ s r c

private theorem row_add : ∀ r : Fin 4, r + 1 + 1 = r + 2 ∧ r + 1 + 2 = r + 3 ∧ r + 1 + 3 = r ∧
    r + 2 + 1 = r + 3 ∧ r + 2 + 2 = r ∧ r + 2 + 3 = r + 1 ∧
    r + 3 + 1 = r ∧ r + 3 + 2 = r + 1 ∧ r + 3 + 3 = r + 2 := by
  decide

@[simp] theorem invMixColumns_mixColumns (s : State) : invMixColumns (mixColumns s) = s := by
  funext r c
  obtain ⟨h₁₁, h₁₂, h₁₃, h₂₁, h₂₂, h₂₃, h₃₁, h₃₂, h₃₃⟩ := row_add r
  rw [invMixColumns_apply]
  simp only [mixColumns_apply, h₁₁, h₁₂, h₁₃, h₂₁, h₂₂, h₂₃, h₃₁, h₃₂, h₃₃, mul_xor]
  generalize s r c = x₀, s (r + 1) c = x₁, s (r + 2) c = x₂, s (r + 3) c = x₃
  -- the sixteen products, collected by the byte of the column they come from
  calc _ = (mul 14 (mul 2 x₀) ^^^ mul 11 (mul 1 x₀) ^^^ mul 13 (mul 1 x₀) ^^^ mul 9 (mul 3 x₀))
        ^^^ (mul 14 (mul 3 x₁) ^^^ mul 11 (mul 2 x₁) ^^^ mul 13 (mul 1 x₁) ^^^ mul 9 (mul 1 x₁))
        ^^^ (mul 14 (mul 1 x₂) ^^^ mul 11 (mul 3 x₂) ^^^ mul 13 (mul 2 x₂) ^^^ mul 9 (mul 1 x₂))
        ^^^ (mul 14 (mul 1 x₃) ^^^ mul 11 (mul 1 x₃) ^^^ mul 13 (mul 3 x₃)
          ^^^ mul 9 (mul 2 x₃)) := by ac_rfl
    _ = x₀ := by
      rw [diagonal, offOne, offTwo, offThree, UInt8.xor_zero, UInt8.xor_zero, UInt8.xor_zero]

/-! ## The inverse cipher undoes the cipher -/

/-- The inverse rounds take off one round after another, from inside the last substitution. -/
theorem invRounds_rounds (key : Vector UInt8 16) (s : State) (n : ℕ) :
    invRounds key n (shiftRows (subBytes (rounds key s n)))
      = shiftRows (subBytes (addRoundKey key 0 s)) := by
  induction n with
  | zero => rfl
  | succ n ih =>
    rw [invRounds, invShiftRows_shiftRows, invSubBytes_subBytes, rounds, addRoundKey_addRoundKey,
      invMixColumns_mixColumns, ih]

theorem invCipher_cipher (key : Vector UInt8 16) (s : State) :
    invCipher key (cipher key s) = s := by
  rw [invCipher, cipher, addRoundKey_addRoundKey, invRounds_rounds, invShiftRows_shiftRows,
    invSubBytes_subBytes, addRoundKey_addRoundKey]

/-- **Decryption undoes encryption**, under every key. -/
theorem decrypt_encrypt (key blk : Vector UInt8 16) : decrypt key (encrypt key blk) = blk := by
  rw [decrypt, encrypt, ofBlock_toBlock, invCipher_cipher, toBlock_ofBlock]

/-- There are finitely many states, so the cipher undoes the inverse cipher as well. -/
theorem cipher_invCipher (key : Vector UInt8 16) : ∀ s, cipher key (invCipher key s) = s :=
  Function.LeftInverse.rightInverse_of_surjective (invCipher_cipher key)
    (Finite.surjective_of_injective (Function.LeftInverse.injective (invCipher_cipher key)))

/-- **Encryption undoes decryption**, under every key. -/
theorem encrypt_decrypt (key blk : Vector UInt8 16) : encrypt key (decrypt key blk) = blk := by
  rw [encrypt, decrypt, ofBlock_toBlock, cipher_invCipher, toBlock_ofBlock]

end Emcs.Fips197
