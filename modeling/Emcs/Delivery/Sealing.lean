import Emcs.Bridge.Gateway
import Emcs.Mesh.Node

/-!
# Both sides seal alike

What a payload looks like on the air is one function of the message, `sealed`: the padded message in
the codebook mode of AES-128. The node's hand-written cipher and the bridge's use of OpenSSL both
compute it, as long as the message is short enough for the byte arithmetic of the lengths, and both
take it off again. The results here are the four equations that say so; the rest of the development
uses them and not the ciphers.

## The arithmetic

Both sides compute the padded length in a byte, and both reserve a block for the padding of a
message that fills its last block. `paddedLen_mod` is the one fact about it: up to 239 bytes the
byte is the length. All bounds on messages in the modules about delivery come from here and from the
sizes of the buffers.
-/

namespace Emcs.Delivery

open Aes BlockMode Bridge Mesh

/-- The payload that carries the message `m`. -/
def sealed (m : List UInt8) : List UInt8 :=
  ecb (Fips197.encrypt AES_SHARED_KEY) (m.length / 16 + 1) (pad 16 m)

theorem length_pad_sixteen (m : List UInt8) : (pad 16 m).length = 16 * (m.length / 16 + 1) :=
  length_pad (by decide) m

@[simp] theorem length_sealed (m : List UInt8) : (sealed m).length = 16 * (m.length / 16 + 1) := by
  rw [sealed, length_ecb _ (Nat.le_of_eq (length_pad_sixteen m).symm), length_pad_sixteen]

theorem length_sealed_pos (m : List UInt8) : 0 < (sealed m).length := by
  rw [length_sealed]
  omega

theorem length_sealed_mod (m : List UInt8) : (sealed m).length % 16 = 0 := by
  rw [length_sealed, Nat.mul_mod_right]

theorem length_sealed_div (m : List UInt8) : (sealed m).length / 16 = m.length / 16 + 1 := by
  rw [length_sealed, Nat.mul_div_cancel_left _ (by decide)]

theorem decrypt_sealed (m : List UInt8) :
    ecb (Fips197.decrypt AES_SHARED_KEY) (m.length / 16 + 1) (sealed m) = pad 16 m :=
  ecb_leftInverse (Fips197.decrypt_encrypt AES_SHARED_KEY)
    (Nat.le_of_eq (length_pad_sixteen m).symm)

/-! ## The padding byte -/

theorem padLen_add_length (m : List UInt8) :
    m.length + padLen 16 m.length = 16 * (m.length / 16 + 1) :=
  add_padLen (by decide) m.length

/-- The padded length of a message of at most 239 bytes is one byte. -/
theorem paddedLen_mod {m : List UInt8} (h : m.length ≤ 239) :
    (m.length + (16 - m.length % 16)) % 256 = 16 * (m.length / 16 + 1) := by
  have hlen : m.length + (16 - m.length % 16) = 16 * (m.length / 16 + 1) := padLen_add_length m
  rw [hlen]
  exact Nat.mod_eq_of_lt (by omega)

theorem toNat_padByte (m : List UInt8) :
    (UInt8.ofNat (padLen 16 m.length)).toNat = padLen 16 m.length :=
  UInt8.toNat_ofNat_of_lt (Nat.lt_of_le_of_lt (padLen_le 16 _) (by decide))

theorem padByte_ok (m : List UInt8) :
    ¬(UInt8.ofNat (padLen 16 m.length) = 0 ∨ UInt8.ofNat (padLen 16 m.length) > 16) := by
  have hpos := padLen_pos (n := 16) (by decide) m.length
  have hle := padLen_le 16 m.length
  have hval := toNat_padByte m
  rintro (h | h)
  · rw [← UInt8.toNat_inj, hval, UInt8.toNat_zero] at h
    exact absurd h hpos.ne'
  · rw [gt_iff_lt, UInt8.lt_iff_toNat_lt, hval] at h
    exact absurd hle (Nat.not_le.mpr h)

theorem getD_pad (m tail : List UInt8) :
    (pad 16 m ++ tail).getD ((sealed m).length - 1) 0 = UInt8.ofNat (padLen 16 m.length) := by
  have hlen := length_pad_sixteen m
  have hpos := length_sealed_pos m
  rw [length_sealed] at hpos ⊢
  rw [List.getD_append _ _ _ _ (by omega), ← getLastD_pad (by decide) m, List.getLastD_eq_getLast?,
    List.getLast?_eq_getElem?, hlen, List.getD_eq_getElem?_getD]

theorem sealed_sub_padByte (m : List UInt8) :
    (sealed m).length - (UInt8.ofNat (padLen 16 m.length)).toNat = m.length := by
  rw [toNat_padByte, length_sealed, ← padLen_add_length, Nat.add_sub_cancel]

theorem take_pad (m tail : List UInt8) : (pad 16 m ++ tail).take m.length = m := by
  rw [pad, List.append_assoc, List.take_left]

/-! ## The node -/

/-- **The node seals** messages that fit its encryption buffer. -/
theorem aesEncryptPayload_eq (m : List UInt8) (h : m.length ≤ 47) :
    aesEncryptPayload m AES_BUF_SIZE = sealed m := by
  have hmod := paddedLen_mod (h.trans (by decide))
  have hle : 16 * (m.length / 16 + 1) ≤ AES_BUF_SIZE := by
    change _ ≤ 48
    omega
  have hblock : aesEncryptBlock AES_SHARED_KEY = Fips197.encrypt AES_SHARED_KEY :=
    funext (aesEncryptBlock_eq AES_SHARED_KEY)
  simp only [aesEncryptPayload]
  rw [hmod, if_neg (Nat.not_lt.mpr hle), Nat.mul_div_cancel_left _ (by decide), hblock]
  exact List.take_of_length_le (Nat.le_of_eq (length_sealed m))

/-- **The node unseals** into a buffer that has room for the ciphertext: the buffer then starts with
the padded message. -/
theorem aesDecryptPayload_sealed (m dst : List UInt8) (h : (sealed m).length ≤ dst.length) :
    aesDecryptPayload (sealed m) dst = (pad 16 m ++ dst.drop (sealed m).length, m.length) := by
  have hguard : ¬((sealed m).length = 0 ∨ (sealed m).length % 16 ≠ 0 ∨
      (sealed m).length > dst.length) := by
    rw [length_sealed_mod]
    have hpos := length_sealed_pos m
    omega
  have hblock : aesDecryptBlock AES_SHARED_KEY = Fips197.decrypt AES_SHARED_KEY :=
    funext (aesDecryptBlock_eq AES_SHARED_KEY)
  rw [aesDecryptPayload, if_neg hguard]
  simp only [length_sealed_div, hblock, decrypt_sealed, getD_pad]
  rw [if_neg (padByte_ok m), sealed_sub_padByte]

/-! ## The bridge -/

/-- **The bridge seals** messages whose padded length fits a byte. -/
theorem gwAesEncrypt_eq (evp : Evp) (m : List UInt8) (h : m.length ≤ 239) :
    gwAesEncrypt evp m GW_PAYLOAD_MAX = sealed m := by
  have hbound : ¬16 * (m.length / 16 + 1) > GW_PAYLOAD_MAX := by
    change ¬255 < _
    omega
  have hpad : m ++ List.replicate (16 - m.length % 16) (UInt8.ofNat (16 - m.length % 16))
      = pad 16 m := rfl
  simp only [gwAesEncrypt]
  rw [paddedLen_mod h, if_neg hbound, hpad,
    List.take_of_length_le (Nat.le_of_eq (length_pad_sixteen m))]
  exact evp.encryptUpdate_eq _ _ _ (length_pad_sixteen m)

/-- **The bridge unseals** every message that a ciphertext of at most 256 bytes can carry. -/
theorem gwAesDecrypt_sealed (evp : Evp) (m : List UInt8) (h : m.length ≤ 239) :
    gwAesDecrypt evp (sealed m) GW_PAYLOAD_MAX = m := by
  have hpos := length_sealed_pos m
  have hle : (sealed m).length ≤ 256 := by
    rw [length_sealed]
    omega
  have hupd : evp.decryptUpdate AES_SHARED_KEY (sealed m) = pad 16 m := by
    rw [evp.decryptUpdate_eq _ _ _ (length_sealed m), decrypt_sealed]
  have hbyte := getD_pad m []
  rw [List.append_nil] at hbyte
  have hbound : ¬m.length > GW_PAYLOAD_MAX := by
    change ¬255 < m.length
    omega
  have htake := take_pad m []
  rw [List.append_nil] at htake
  rw [gwAesDecrypt, if_neg (by rw [length_sealed_mod]; omega), if_neg (Nat.not_lt.mpr hle)]
  simp only [hupd, hbyte]
  rw [if_neg (padByte_ok m), sealed_sub_padByte, if_neg hbound, htake]

end Emcs.Delivery
