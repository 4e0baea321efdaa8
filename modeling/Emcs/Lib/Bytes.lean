import Mathlib.Data.List.Basic

/-!
# Sixteen-bit fields in big-endian byte pairs

## The lemmas

A word that was written is read back, and the two bytes that are read are those that were written.
The lemmas are tagged for `simp`, so that a field of a packet is compared with its argument without
going into the bits.
-/

namespace Bytes

/-- Packets are compared byte by byte. -/
instance instLawfulBEqBytes : LawfulBEq (List UInt8) := inferInstance

/-- `(x >> 8) & 0xFF`. -/
def hi8 (x : UInt16) : UInt8 := (x >>> 8).toUInt8

/-- `x & 0xFF`. -/
def lo8 (x : UInt16) : UInt8 := x.toUInt8

/-- `(hi << 8) | lo`. -/
def be16 (hi lo : UInt8) : UInt16 := (hi.toUInt16 <<< 8) ||| lo.toUInt16

theorem toNat_be16 (hi lo : UInt8) : (be16 hi lo).toNat = hi.toNat * 256 + lo.toNat := by
  have hhi := hi.toNat_lt
  have hlo : lo.toNat < 2 ^ 8 := lo.toNat_lt
  have hshift : (hi.toNat <<< 8) % 2 ^ 16 = hi.toNat <<< 8 := by
    rw [Nat.shiftLeft_eq]
    omega
  rw [be16, UInt16.toNat_or, UInt16.toNat_shiftLeft, UInt8.toNat_toUInt16, UInt8.toNat_toUInt16]
  change (hi.toNat <<< 8) % 2 ^ 16 ||| lo.toNat = _
  rw [hshift, ← Nat.shiftLeft_add_eq_or_of_lt hlo, Nat.shiftLeft_eq]

/-- **Reading back what was written.** -/
@[simp] theorem be16_hi8_lo8 (x : UInt16) : be16 (hi8 x) (lo8 x) = x := by
  have hx := x.toNat_lt
  apply UInt16.toNat_inj.mp
  rw [toNat_be16, hi8, lo8, UInt16.toNat_toUInt8, UInt16.toNat_toUInt8, UInt16.toNat_shiftRight]
  change x.toNat >>> 8 % 2 ^ 8 * 256 + x.toNat % 2 ^ 8 = x.toNat
  rw [Nat.shiftRight_eq_div_pow]
  omega

@[simp] theorem hi8_be16 (hi lo : UInt8) : hi8 (be16 hi lo) = hi := by
  have hlo := lo.toNat_lt
  apply UInt8.toNat_inj.mp
  rw [hi8, UInt16.toNat_toUInt8, UInt16.toNat_shiftRight, toNat_be16]
  change (hi.toNat * 256 + lo.toNat) >>> 8 % 2 ^ 8 = hi.toNat
  rw [Nat.shiftRight_eq_div_pow]
  have hhi := hi.toNat_lt
  omega

@[simp] theorem lo8_be16 (hi lo : UInt8) : lo8 (be16 hi lo) = lo := by
  have hlo := lo.toNat_lt
  apply UInt8.toNat_inj.mp
  rw [lo8, UInt16.toNat_toUInt8, toNat_be16]
  omega

end Bytes
