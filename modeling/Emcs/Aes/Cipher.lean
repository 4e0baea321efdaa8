import Mathlib.Data.Vector.Basic
import Mathlib.Tactic.IntervalCases

/-!
# The hand-written block cipher of the Arduino transport

The inline AES of `mqttsn_transport_lora.cpp`: tables, key schedule, and the two block functions.
The state `s_st` is the flat array of the source, byte `col * 4 + row`. The source keeps the round
keys in one array `s_rk` of 176 bytes; block `r` of it is `roundKey key r` here, and the loops over
the rounds are recursions on the round number.

## The construction

`encryptRounds` counts the rounds up and `decryptRounds` down, as the loops of the source do, and
the last round of the one and of the other leaves the columns alone. The round keys come from
`roundKey`, a recursion on the block number; that the array of the source holds the same bytes is a
matter of its own. `gmul` is the loop of the source, eight turns over the bits of the second factor.
-/

namespace Emcs.Aes

/-- A 16-byte block, and the cipher state `s_st`. -/
abbrev Block := Vector UInt8 16

/-! ## Tables -/

set_option maxRecDepth 1024 in
def sbox : Vector UInt8 256 := #v[
  0x63, 0x7c, 0x77, 0x7b, 0xf2, 0x6b, 0x6f, 0xc5, 0x30, 0x01, 0x67, 0x2b, 0xfe, 0xd7, 0xab, 0x76,
  0xca, 0x82, 0xc9, 0x7d, 0xfa, 0x59, 0x47, 0xf0, 0xad, 0xd4, 0xa2, 0xaf, 0x9c, 0xa4, 0x72, 0xc0,
  0xb7, 0xfd, 0x93, 0x26, 0x36, 0x3f, 0xf7, 0xcc, 0x34, 0xa5, 0xe5, 0xf1, 0x71, 0xd8, 0x31, 0x15,
  0x04, 0xc7, 0x23, 0xc3, 0x18, 0x96, 0x05, 0x9a, 0x07, 0x12, 0x80, 0xe2, 0xeb, 0x27, 0xb2, 0x75,
  0x09, 0x83, 0x2c, 0x1a, 0x1b, 0x6e, 0x5a, 0xa0, 0x52, 0x3b, 0xd6, 0xb3, 0x29, 0xe3, 0x2f, 0x84,
  0x53, 0xd1, 0x00, 0xed, 0x20, 0xfc, 0xb1, 0x5b, 0x6a, 0xcb, 0xbe, 0x39, 0x4a, 0x4c, 0x58, 0xcf,
  0xd0, 0xef, 0xaa, 0xfb, 0x43, 0x4d, 0x33, 0x85, 0x45, 0xf9, 0x02, 0x7f, 0x50, 0x3c, 0x9f, 0xa8,
  0x51, 0xa3, 0x40, 0x8f, 0x92, 0x9d, 0x38, 0xf5, 0xbc, 0xb6, 0xda, 0x21, 0x10, 0xff, 0xf3, 0xd2,
  0xcd, 0x0c, 0x13, 0xec, 0x5f, 0x97, 0x44, 0x17, 0xc4, 0xa7, 0x7e, 0x3d, 0x64, 0x5d, 0x19, 0x73,
  0x60, 0x81, 0x4f, 0xdc, 0x22, 0x2a, 0x90, 0x88, 0x46, 0xee, 0xb8, 0x14, 0xde, 0x5e, 0x0b, 0xdb,
  0xe0, 0x32, 0x3a, 0x0a, 0x49, 0x06, 0x24, 0x5c, 0xc2, 0xd3, 0xac, 0x62, 0x91, 0x95, 0xe4, 0x79,
  0xe7, 0xc8, 0x37, 0x6d, 0x8d, 0xd5, 0x4e, 0xa9, 0x6c, 0x56, 0xf4, 0xea, 0x65, 0x7a, 0xae, 0x08,
  0xba, 0x78, 0x25, 0x2e, 0x1c, 0xa6, 0xb4, 0xc6, 0xe8, 0xdd, 0x74, 0x1f, 0x4b, 0xbd, 0x8b, 0x8a,
  0x70, 0x3e, 0xb5, 0x66, 0x48, 0x03, 0xf6, 0x0e, 0x61, 0x35, 0x57, 0xb9, 0x86, 0xc1, 0x1d, 0x9e,
  0xe1, 0xf8, 0x98, 0x11, 0x69, 0xd9, 0x8e, 0x94, 0x9b, 0x1e, 0x87, 0xe9, 0xce, 0x55, 0x28, 0xdf,
  0x8c, 0xa1, 0x89, 0x0d, 0xbf, 0xe6, 0x42, 0x68, 0x41, 0x99, 0x2d, 0x0f, 0xb0, 0x54, 0xbb, 0x16]

set_option maxRecDepth 1024 in
def rsbox : Vector UInt8 256 := #v[
  0x52, 0x09, 0x6a, 0xd5, 0x30, 0x36, 0xa5, 0x38, 0xbf, 0x40, 0xa3, 0x9e, 0x81, 0xf3, 0xd7, 0xfb,
  0x7c, 0xe3, 0x39, 0x82, 0x9b, 0x2f, 0xff, 0x87, 0x34, 0x8e, 0x43, 0x44, 0xc4, 0xde, 0xe9, 0xcb,
  0x54, 0x7b, 0x94, 0x32, 0xa6, 0xc2, 0x23, 0x3d, 0xee, 0x4c, 0x95, 0x0b, 0x42, 0xfa, 0xc3, 0x4e,
  0x08, 0x2e, 0xa1, 0x66, 0x28, 0xd9, 0x24, 0xb2, 0x76, 0x5b, 0xa2, 0x49, 0x6d, 0x8b, 0xd1, 0x25,
  0x72, 0xf8, 0xf6, 0x64, 0x86, 0x68, 0x98, 0x16, 0xd4, 0xa4, 0x5c, 0xcc, 0x5d, 0x65, 0xb6, 0x92,
  0x6c, 0x70, 0x48, 0x50, 0xfd, 0xed, 0xb9, 0xda, 0x5e, 0x15, 0x46, 0x57, 0xa7, 0x8d, 0x9d, 0x84,
  0x90, 0xd8, 0xab, 0x00, 0x8c, 0xbc, 0xd3, 0x0a, 0xf7, 0xe4, 0x58, 0x05, 0xb8, 0xb3, 0x45, 0x06,
  0xd0, 0x2c, 0x1e, 0x8f, 0xca, 0x3f, 0x0f, 0x02, 0xc1, 0xaf, 0xbd, 0x03, 0x01, 0x13, 0x8a, 0x6b,
  0x3a, 0x91, 0x11, 0x41, 0x4f, 0x67, 0xdc, 0xea, 0x97, 0xf2, 0xcf, 0xce, 0xf0, 0xb4, 0xe6, 0x73,
  0x96, 0xac, 0x74, 0x22, 0xe7, 0xad, 0x35, 0x85, 0xe2, 0xf9, 0x37, 0xe8, 0x1c, 0x75, 0xdf, 0x6e,
  0x47, 0xf1, 0x1a, 0x71, 0x1d, 0x29, 0xc5, 0x89, 0x6f, 0xb7, 0x62, 0x0e, 0xaa, 0x18, 0xbe, 0x1b,
  0xfc, 0x56, 0x3e, 0x4b, 0xc6, 0xd2, 0x79, 0x20, 0x9a, 0xdb, 0xc0, 0xfe, 0x78, 0xcd, 0x5a, 0xf4,
  0x1f, 0xdd, 0xa8, 0x33, 0x88, 0x07, 0xc7, 0x31, 0xb1, 0x12, 0x10, 0x59, 0x27, 0x80, 0xec, 0x5f,
  0x60, 0x51, 0x7f, 0xa9, 0x19, 0xb5, 0x4a, 0x0d, 0x2d, 0xe5, 0x7a, 0x9f, 0x93, 0xc9, 0x9c, 0xef,
  0xa0, 0xe0, 0x3b, 0x4d, 0xae, 0x2a, 0xf5, 0xb0, 0xc8, 0xeb, 0xbb, 0x3c, 0x83, 0x53, 0x99, 0x61,
  0x17, 0x2b, 0x04, 0x7e, 0xba, 0x77, 0xd6, 0x26, 0xe1, 0x69, 0x14, 0x63, 0x55, 0x21, 0x0c, 0x7d]

def rcon : Vector UInt8 10 := #v[0x01, 0x02, 0x04, 0x08, 0x10, 0x20, 0x40, 0x80, 0x1b, 0x36]

def SB (x : UInt8) : UInt8 := sbox[x.toFin]

def RSB (x : UInt8) : UInt8 := rsbox[x.toFin]

def RC (i : ℕ) : UInt8 := rcon.toList.getD i 0

/-- The shared key of `aes_payload.h`. -/
def AES_SHARED_KEY : Block :=
  #v[0x2B, 0x7E, 0x15, 0x16, 0x28, 0xAE, 0xD2, 0xA6, 0xAB, 0xF7, 0x15, 0x88, 0x09, 0xCF, 0x4F, 0x3C]

/-! ## Multiplication in the field -/

def xtime (x : UInt8) : UInt8 := (x <<< 1) ^^^ (if x &&& 0x80 ≠ 0 then 0x1b else 0)

/-- The loop of `gmul`: `a` is doubled and `b` halved while `p` collects the product. -/
def gmulLoop : ℕ → UInt8 → UInt8 → UInt8 → UInt8
  | 0, _, _, p => p
  | i + 1, a, b, p =>
    let p := if b &&& 1 ≠ 0 then p ^^^ a else p
    let hi := a &&& 0x80
    let a := a <<< 1
    let a := if hi ≠ 0 then a ^^^ 0x1b else a
    gmulLoop i a (b >>> 1) p

def gmul (a b : UInt8) : UInt8 := gmulLoop 8 a b 0

/-! ## The key schedule -/

/-- One turn of the loop of `aes_key_expand`: the block after `prev`. -/
def nextRoundKey (i : ℕ) (prev : Block) : Block :=
  -- RotWord, SubWord and Rcon on the last word of the previous block
  let n0 := prev[0] ^^^ SB prev[13] ^^^ RC i
  let n1 := prev[1] ^^^ SB prev[14]
  let n2 := prev[2] ^^^ SB prev[15]
  let n3 := prev[3] ^^^ SB prev[12]
  let n4 := prev[4] ^^^ n0
  let n5 := prev[5] ^^^ n1
  let n6 := prev[6] ^^^ n2
  let n7 := prev[7] ^^^ n3
  let n8 := prev[8] ^^^ n4
  let n9 := prev[9] ^^^ n5
  let n10 := prev[10] ^^^ n6
  let n11 := prev[11] ^^^ n7
  let n12 := prev[12] ^^^ n8
  let n13 := prev[13] ^^^ n9
  let n14 := prev[14] ^^^ n10
  let n15 := prev[15] ^^^ n11
  #v[n0, n1, n2, n3, n4, n5, n6, n7, n8, n9, n10, n11, n12, n13, n14, n15]

/-- Block `r` of `s_rk` after `aes_key_expand`. -/
def roundKey (key : Block) : ℕ → Block
  | 0 => key
  | r + 1 => nextRoundKey r (roundKey key r)

/-! ## The steps of a round -/

def addRoundKey (rk s : Block) : Block := Vector.zipWith (· ^^^ ·) s rk

def subBytes (s : Block) : Block := s.map SB

def invSubBytes (s : Block) : Block := s.map RSB

/-- The row rotations of `aes_encrypt_block`, assignment by assignment. -/
def shiftRows (s : Block) : Block :=
  let t := s[1]
  let s := s.set 1 s[5]
  let s := s.set 5 s[9]
  let s := s.set 9 s[13]
  let s := s.set 13 t
  let t := s[2]
  let s := s.set 2 s[10]
  let s := s.set 10 t
  let t := s[6]
  let s := s.set 6 s[14]
  let s := s.set 14 t
  let t := s[3]
  let s := s.set 3 s[15]
  let s := s.set 15 s[11]
  let s := s.set 11 s[7]
  s.set 7 t

/-- The row rotations of `aes_decrypt_block`. -/
def invShiftRows (s : Block) : Block :=
  let t := s[13]
  let s := s.set 13 s[9]
  let s := s.set 9 s[5]
  let s := s.set 5 s[1]
  let s := s.set 1 t
  let t := s[2]
  let s := s.set 2 s[10]
  let s := s.set 10 t
  let t := s[6]
  let s := s.set 6 s[14]
  let s := s.set 14 t
  let t := s[3]
  let s := s.set 3 s[7]
  let s := s.set 7 s[11]
  let s := s.set 11 s[15]
  s.set 15 t

/-- The column step of `aes_encrypt_block` on the column starting at byte `p`. -/
def mixColumn (p : ℕ) (s : Block) (h : p + 3 < 16 := by omega) : Block :=
  let a := s[p]
  let b := s[p + 1]
  let cc := s[p + 2]
  let d := s[p + 3]
  let s := s.set p (xtime a ^^^ xtime b ^^^ b ^^^ cc ^^^ d)
  let s := s.set (p + 1) (a ^^^ xtime b ^^^ xtime cc ^^^ cc ^^^ d)
  let s := s.set (p + 2) (a ^^^ b ^^^ xtime cc ^^^ xtime d ^^^ d)
  s.set (p + 3) (xtime a ^^^ a ^^^ b ^^^ cc ^^^ xtime d)

def mixColumns (s : Block) : Block := mixColumn 12 (mixColumn 8 (mixColumn 4 (mixColumn 0 s)))

/-- The column step of `aes_decrypt_block`. -/
def invMixColumn (p : ℕ) (s : Block) (h : p + 3 < 16 := by omega) : Block :=
  let a := s[p]
  let b := s[p + 1]
  let cc := s[p + 2]
  let d := s[p + 3]
  let s := s.set p (gmul 14 a ^^^ gmul 11 b ^^^ gmul 13 cc ^^^ gmul 9 d)
  let s := s.set (p + 1) (gmul 9 a ^^^ gmul 14 b ^^^ gmul 11 cc ^^^ gmul 13 d)
  let s := s.set (p + 2) (gmul 13 a ^^^ gmul 9 b ^^^ gmul 14 cc ^^^ gmul 11 d)
  s.set (p + 3) (gmul 11 a ^^^ gmul 13 b ^^^ gmul 9 cc ^^^ gmul 14 d)

def invMixColumns (s : Block) : Block :=
  invMixColumn 12 (invMixColumn 8 (invMixColumn 4 (invMixColumn 0 s)))

/-! ## The block functions -/

/-- The state of `aes_encrypt_block` after round `rnd`; round 0 is the first key addition. -/
def encryptRounds (key blk : Block) : ℕ → Block
  | 0 => addRoundKey (roundKey key 0) blk
  | rnd + 1 =>
    let s := shiftRows (subBytes (encryptRounds key blk rnd))
    let s := if rnd + 1 < 10 then mixColumns s else s
    addRoundKey (roundKey key (rnd + 1)) s

def aesEncryptBlock (key blk : Block) : Block := encryptRounds key blk 10

/-- The body of the loop of `aes_decrypt_block` in round `rnd`. -/
def decryptRound (key : Block) (rnd : ℕ) (s : Block) : Block :=
  let s := invSubBytes (invShiftRows s)
  let s := addRoundKey (roundKey key rnd) s
  if rnd > 0 then invMixColumns s else s

/-- The rounds `rnd, rnd - 1, .., 0` of `aes_decrypt_block`. -/
def decryptRounds (key : Block) : ℕ → Block → Block
  | 0, s => decryptRound key 0 s
  | rnd + 1, s => decryptRounds key rnd (decryptRound key (rnd + 1) s)

def aesDecryptBlock (key blk : Block) : Block :=
  decryptRounds key 9 (addRoundKey (roundKey key 10) blk)

end Emcs.Aes
