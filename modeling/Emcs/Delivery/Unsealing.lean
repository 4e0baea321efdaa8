import Emcs.Delivery.Sealing

/-!
# Both sides unseal alike

A payload from the air need not be a sealed message. What either side makes of it is one function of
the payload, `unsealed`: the codebook mode of AES-128 decryption, the padding taken off, and nothing
for a payload that is refused.

## The refused payloads

A payload is refused if its length is no positive multiple of 16, if its last byte is no padding
length from 1 to 16, or if nothing but padding is in it (`Refused`). Neither decryptor looks at the
other padding bytes, so both accept the same payloads and take off the same number of bytes. The two
functions differ in their buffers only: the node works in that of its caller, the bridge in its own.
-/

namespace Emcs.Delivery

open Aes BlockMode Bridge Mesh

/-- The payload `c` decrypted, with the padding on. -/
def decrypted (c : List UInt8) : List UInt8 :=
  ecb (Fips197.decrypt AES_SHARED_KEY) (c.length / 16) c

/-- The message in the payload `c`. -/
def unsealed (c : List UInt8) : List UInt8 :=
  if c.length = 0 ∨ c.length % 16 ≠ 0 then [] else unpad 16 (decrypted c)

/-- No message is in the payload: no whole blocks, no padding, or nothing else. -/
def Refused (c : List UInt8) : Prop :=
  let last := (decrypted c).getLastD 0
  c.length = 0 ∨ c.length % 16 ≠ 0 ∨ ¬(1 ≤ last.toNat ∧ last.toNat ≤ 16) ∨
    c.length ≤ last.toNat

@[simp] theorem length_decrypted (c : List UInt8) : (decrypted c).length = c.length :=
  length_ecb _ (Nat.mul_div_le _ _)

theorem unsealed_sealed (m : List UInt8) : unsealed (sealed m) = m := by
  have hpos := length_sealed_pos m
  rw [unsealed, if_neg (by rw [length_sealed_mod]; omega), decrypted, length_sealed_div,
    decrypt_sealed, unpad_pad (by decide) (by decide)]

theorem unsealed_eq_nil_iff (c : List UInt8) : unsealed c = [] ↔ Refused c := by
  rw [unsealed, Refused]
  split
  · next h =>
    refine iff_of_true rfl ?_
    rcases h with h | h
    · exact Or.inl h
    · exact Or.inr (Or.inl h)
  · next h =>
    rw [not_or] at h
    rw [unpad_eq_nil_iff, length_decrypted, or_iff_right h.1, or_iff_right h.2]

theorem getD_decrypted {c : List UInt8} (hc : c.length ≠ 0) (tail : List UInt8) :
    (decrypted c ++ tail).getD (c.length - 1) 0 = (decrypted c).getLastD 0 := by
  rw [List.getD_append _ _ _ _ (by rw [length_decrypted]; omega), List.getLastD_eq_getLast?,
    List.getLast?_eq_getElem?, length_decrypted, List.getD_eq_getElem?_getD]

theorem padByte_refused_iff (p : UInt8) : (p = 0 ∨ p > 16) ↔ (p.toNat = 0 ∨ p.toNat > 16) := by
  rw [← UInt8.toNat_inj, gt_iff_lt, UInt8.lt_iff_toNat_lt]
  rfl

/-- **The node unseals** into a buffer that has room for the payload. -/
theorem aesDecryptPayload_eq {c dst : List UInt8} (h : c.length ≤ dst.length) :
    (aesDecryptPayload c dst).2 = (unsealed c).length ∧
    (aesDecryptPayload c dst).1.take (aesDecryptPayload c dst).2 = unsealed c := by
  have hblock : aesDecryptBlock AES_SHARED_KEY = Fips197.decrypt AES_SHARED_KEY :=
    funext (aesDecryptBlock_eq AES_SHARED_KEY)
  rw [aesDecryptPayload, unsealed, hblock, ← decrypted]
  by_cases hlen : c.length = 0 ∨ c.length % 16 ≠ 0
  · have hguard : c.length = 0 ∨ c.length % 16 ≠ 0 ∨ c.length > dst.length := by
      rcases hlen with h | h
      · exact Or.inl h
      · exact Or.inr (Or.inl h)
    rw [if_pos hguard, if_pos hlen]
    exact ⟨rfl, rfl⟩
  · have hguard : ¬(c.length = 0 ∨ c.length % 16 ≠ 0 ∨ c.length > dst.length) := by omega
    rw [not_or] at hlen
    rw [if_neg hguard, if_neg (not_or.mpr hlen)]
    simp only [getD_decrypted hlen.1, padByte_refused_iff, unpad, length_decrypted]
    split
    · exact ⟨rfl, rfl⟩
    · refine ⟨?_, ?_⟩
      · rw [List.length_take, length_decrypted, Nat.min_eq_left (Nat.sub_le _ _)]
      · rw [List.take_append_of_le_length]
        rw [length_decrypted]
        exact Nat.sub_le _ _

/-- **The bridge unseals** payloads that its buffers have room for. -/
theorem gwAesDecrypt_eq (evp : Evp) {c : List UInt8} {outMax : ℕ} (hc : c.length ≤ 256)
    (h : c.length ≤ outMax) : gwAesDecrypt evp c outMax = unsealed c := by
  rw [gwAesDecrypt, unsealed]
  split
  · rfl
  · next hlen =>
    rw [not_or, not_not] at hlen
    have hupd : evp.decryptUpdate AES_SHARED_KEY c = decrypted c :=
      evp.decryptUpdate_eq _ _ _ (by omega)
    have hbyte := getD_decrypted hlen.1 []
    rw [List.append_nil] at hbyte
    rw [if_neg (Nat.not_lt.mpr hc)]
    simp only [hupd, hbyte, padByte_refused_iff, unpad, length_decrypted]
    split
    · rfl
    · rw [if_neg (by omega)]

/-- **Both payload decryptors agree**, on malformed ciphertexts as on valid ones: the same length,
the same bytes, and none exactly for the refused ones. -/
theorem decryptors_agree (evp : Evp) {c dst : List UInt8} {outMax : ℕ} (hc : c.length ≤ 255)
    (hdst : c.length ≤ dst.length) (hout : c.length ≤ outMax) :
    (aesDecryptPayload c dst).2 = (gwAesDecrypt evp c outMax).length ∧
    (aesDecryptPayload c dst).1.take (aesDecryptPayload c dst).2 = gwAesDecrypt evp c outMax ∧
    ((aesDecryptPayload c dst).2 = 0 ↔ Refused c) ∧
    ((gwAesDecrypt evp c outMax).length = 0 ↔ Refused c) := by
  obtain ⟨hlen, hbytes⟩ := aesDecryptPayload_eq hdst
  have hgw := gwAesDecrypt_eq evp (Nat.le_succ_of_le hc) hout
  have hnil : (unsealed c).length = 0 ↔ Refused c := by
    rw [List.length_eq_zero_iff, unsealed_eq_nil_iff]
  refine ⟨?_, ?_, ?_, ?_⟩
  · rw [hlen, hgw]
  · rw [hbytes, hgw]
  · rw [hlen, hnil]
  · rw [hgw, hnil]

/-- A sealed PINGREQ, taken off by both sides. -/
theorem decryptors_agree_pingreq :
    let c : List UInt8 := [0xa8, 0x64, 0x70, 0xe3, 0xa4, 0xfa, 0xdb, 0xe6, 0x81, 0x78, 0x11, 0x3e,
      0x90, 0xa9, 0x91, 0x35]
    let dst : List UInt8 := List.replicate 64 0
    (aesDecryptPayload c dst).1.take (aesDecryptPayload c dst).2 = [0x02, 0x16] ∧
    (aesDecryptPayload c dst).2 = (gwAesDecrypt Evp.software c GW_PAYLOAD_MAX).length ∧
    (aesDecryptPayload c dst).1.take (aesDecryptPayload c dst).2
      = gwAesDecrypt Evp.software c GW_PAYLOAD_MAX ∧
    ((aesDecryptPayload c dst).2 = 0 ↔ Refused c) ∧
    ((gwAesDecrypt Evp.software c GW_PAYLOAD_MAX).length = 0 ↔ Refused c) :=
  ⟨by decide +kernel, decryptors_agree Evp.software (by decide) (by decide) (by decide)⟩

end Emcs.Delivery
