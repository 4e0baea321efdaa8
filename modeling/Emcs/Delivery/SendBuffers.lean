import Emcs.Delivery.Sealing
import Emcs.Lib.Buffers

/-!
# The buffers of a send

`mqttsn_transport_send` with the two static buffers it works in, `s_enc_buf` and `s_tx_buf`. Every
access checks its bounds, so a call either stays inside its buffers or is `none`.

`aes_encrypt_payload` refuses a message whose padded length exceeds the buffer. It computes that
length in a byte, and for 240 bytes and more the sum is 256: the byte is 0, the test passes, and the
whole message is copied into 48 bytes. The length 0 is returned and the caller takes it for a
refusal. For every shorter message the call is what `mqttsnTransportSend` says.

## The proof

The send is cut where the source calls: encryption, then the frame. Below 48 bytes both stay inside
their arrays, from 48 to 239 the encryption refuses before it writes anything, and from 240 on its
first copy is out of bounds. The three cases are the three lemmas on `checkedTransportSend`, and the
main result puts them together.
-/

namespace Emcs.Delivery

open Aes BlockMode Mesh

/-! ## The functions on their buffers -/

/-- `aes_encrypt_payload` into the buffer `dst`, with the length it returns. -/
def checkedAesEncryptPayload {n : ℕ} (src : List UInt8) (dst : Buffer UInt8 n) (dstMax : ℕ) :
    Option (Buffer UInt8 n × ℕ) :=
  let pad := 16 - src.length % 16
  let encLen := (src.length + pad) % 256
  if encLen > dstMax then some (dst, 0)
  else do
    let dst ← dst.store 0 src
    let dst ← dst.store src.length (List.replicate pad (UInt8.ofNat pad))
    let dst ← dst.onBlocks (aesEncryptBlock AES_SHARED_KEY) (encLen / 16)
    return (dst, encLen)

/-- The static buffers of `mqttsn_transport_send`. -/
structure SendBuffers where
  encBuf : Buffer UInt8 AES_BUF_SIZE
  txBuf : Buffer UInt8 LORA_BUF_SIZE
  deriving DecidableEq

/-- What a call of `mqttsn_transport_send` leaves behind. -/
structure SendResult where
  transport : Transport
  buffers : SendBuffers
  sent : Option AirFrame
  rc : Int
  deriving DecidableEq

/-- The part of `mqttsn_transport_send` that builds the frame, with the bytes it hands to
`radio_tx`. -/
def buildFrame (cfg : NodeConfig) (seq : UInt8) (b : SendBuffers) (encLen : ℕ) :
    Option (SendBuffers × List UInt8) := do
  let txBuf ← b.txBuf.storeEach 0 [cfg.myNodeId, MESH_ADDR_GATEWAY, MESH_TTL_DEFAULT, seq]
  let enc ← b.encBuf.read 0 encLen
  let txBuf ← txBuf.store MESH_HEADER_SIZE enc
  let raw ← txBuf.read 0 (MESH_HEADER_SIZE + encLen)
  return ({ b with txBuf := txBuf }, raw)

/-- `mqttsn_transport_send` on its buffers. -/
def checkedTransportSend (cfg : NodeConfig) (t : Transport) (b : SendBuffers) (buf : List UInt8)
    (ok : Bool) : Option SendResult :=
  if buf.length = 0 then some ⟨t, b, none, -1⟩
  else do
    let enc ← checkedAesEncryptPayload buf b.encBuf AES_BUF_SIZE
    let b := { b with encBuf := enc.1 }
    if enc.2 = 0 then some ⟨t, b, none, -1⟩
    else if (MESH_HEADER_SIZE + enc.2) % 256 > LORA_BUF_SIZE then some ⟨t, b, none, -1⟩
    else
      let t := { t with seqNum := t.seqNum + 1 }
      let t := dedupAdd t cfg.myNodeId t.seqNum
      let frame ← buildFrame cfg t.seqNum b enc.2
      let tx := radioTx cfg frame.2 (meshNextHop cfg MESH_ADDR_GATEWAY) ok
      return ⟨t, frame.1, tx.1, tx.2⟩

/-! ## Encryption -/

section Encryption

variable {n : ℕ} {m : List UInt8} {dst : Buffer UInt8 n} {dstMax : ℕ}

/-- A message whose blocks fit is sealed in the buffer. -/
theorem checkedAesEncryptPayload_of_le (h : m.length ≤ 239)
    (hmax : 16 * (m.length / 16 + 1) ≤ dstMax) (hn : dstMax ≤ n) :
    Safe (checkedAesEncryptPayload m dst dstMax) fun r ↦
      r.1.Starts (sealed m) ∧ r.2 = (sealed m).length := by
  have hpad : m.length + (16 - m.length % 16) = 16 * (m.length / 16 + 1) := padLen_add_length m
  have hlen := length_pad_sixteen m
  have hblock : aesEncryptBlock AES_SHARED_KEY = Fips197.encrypt AES_SHARED_KEY :=
    funext (aesEncryptBlock_eq AES_SHARED_KEY)
  simp only [checkedAesEncryptPayload]
  rw [paddedLen_mod h, if_neg (Nat.not_lt.mpr hmax), Nat.mul_div_cancel_left _ (by decide), hblock]
  -- the message, the padding, and the blocks in place
  refine (Buffer.store_start dst (by omega)).bind fun b₁ h₁ ↦ ?_
  refine (Buffer.store_end h₁ rfl (by
    rw [List.length_replicate]
    omega)).bind fun b₂ h₂ ↦ ?_
  refine (Buffer.onBlocks_rule _ h₂ (Nat.le_of_eq hlen.symm)).bind fun b₃ h₃ ↦ ?_
  exact Safe.pure ⟨h₃, (length_sealed m).symm⟩

theorem checkedAesEncryptPayload_of_lt (h : m.length ≤ 239)
    (hmax : dstMax < 16 * (m.length / 16 + 1)) :
    checkedAesEncryptPayload m dst dstMax = some (dst, 0) := by
  simp only [checkedAesEncryptPayload]
  rw [paddedLen_mod h, if_pos hmax]

/-- A message whose padded length wraps is copied, whatever the size of the buffer. -/
theorem checkedAesEncryptPayload_of_wrap (h : 240 ≤ m.length) (h' : m.length ≤ 255) (hn : n < 240) :
    checkedAesEncryptPayload m dst dstMax = none := by
  have hmod : (m.length + (16 - m.length % 16)) % 256 = 0 := by omega
  simp only [checkedAesEncryptPayload, hmod]
  rw [if_neg (Nat.not_lt_zero _), Buffer.store_eq_none (by omega)]
  rfl

end Encryption

/-! ## The send -/

section Send

variable {cfg : NodeConfig} {t : Transport} {b : SendBuffers} {m : List UInt8} {ok : Bool}

theorem buildFrame_rule {seq : UInt8} {enc : List UInt8} (henc : b.encBuf.Starts enc)
    (hfit : MESH_HEADER_SIZE + enc.length ≤ LORA_BUF_SIZE) :
    Safe (buildFrame cfg seq b enc.length) fun r ↦
      r.2 = [cfg.myNodeId, MESH_ADDR_GATEWAY, MESH_TTL_DEFAULT, seq] ++ enc := by
  have hheader := Buffer.storeEach_start b.txBuf
    [cfg.myNodeId, MESH_ADDR_GATEWAY, MESH_TTL_DEFAULT, seq] (show 4 ≤ 64 by decide)
  refine hheader.bind fun tx htx ↦ ?_
  refine (Buffer.read_start henc rfl).bind ?_
  rintro _ rfl
  refine (Buffer.store_end htx rfl hfit).bind fun tx' htx' ↦ ?_
  refine (Buffer.read_start htx' (by rw [List.length_append]; rfl)).bind ?_
  rintro _ rfl
  exact Safe.pure rfl

/-- A message of at most 47 bytes goes to the radio under the next number. -/
theorem checkedTransportSend_of_le (hpos : 1 ≤ m.length) (h : m.length ≤ 47) :
    Safe (checkedTransportSend cfg t b m ok) fun r ↦
      r.transport = dedupAdd { t with seqNum := t.seqNum + 1 } cfg.myNodeId (t.seqNum + 1) ∧
      (r.sent, r.rc) = radioTx cfg
        ([cfg.myNodeId, MESH_ADDR_GATEWAY, MESH_TTL_DEFAULT, t.seqNum + 1] ++ sealed m)
        (meshNextHop cfg MESH_ADDR_GATEWAY) ok := by
  have hlen := length_sealed m
  have hpos' := length_sealed_pos m
  have hmax : 16 * (m.length / 16 + 1) ≤ AES_BUF_SIZE := by
    change _ ≤ 48
    omega
  have hfit : MESH_HEADER_SIZE + (sealed m).length ≤ LORA_BUF_SIZE := by
    change 4 + _ ≤ 64
    omega
  have hframe : ¬(MESH_HEADER_SIZE + (sealed m).length) % 256 > LORA_BUF_SIZE :=
    Nat.not_lt.mpr ((Nat.mod_le _ _).trans hfit)
  rw [checkedTransportSend, if_neg (Nat.ne_of_gt hpos)]
  refine (checkedAesEncryptPayload_of_le (by omega) hmax (Nat.le_refl _)).bind fun enc henc ↦ ?_
  dsimp only
  rw [henc.2, if_neg hpos'.ne', if_neg hframe]
  refine (buildFrame_rule henc.1 hfit).bind fun frame hsent ↦ ?_
  rw [hsent]
  exact Safe.pure ⟨rfl, rfl⟩

/-- A longer message of at most 239 bytes is refused, and nothing changes. -/
theorem checkedTransportSend_of_lt (h : 48 ≤ m.length) (h' : m.length ≤ 239) :
    checkedTransportSend cfg t b m ok = some ⟨t, b, none, -1⟩ := by
  have hmax : AES_BUF_SIZE < 16 * (m.length / 16 + 1) := by
    change 48 < _
    omega
  rw [checkedTransportSend, if_neg (by omega), checkedAesEncryptPayload_of_lt h' hmax]
  rfl

/-- A message of 240 to 255 bytes is written past the end of `s_enc_buf`. -/
theorem checkedTransportSend_of_wrap (h : 240 ≤ m.length) (h' : m.length ≤ 255) :
    checkedTransportSend cfg t b m ok = none := by
  rw [checkedTransportSend, if_neg (by omega), checkedAesEncryptPayload_of_wrap h h' (by decide)]
  rfl

/-- **The buffers do not show**: a call that stays inside them does what `mqttsnTransportSend`
says. -/
theorem checkedTransportSend_eq (h : m.length ≤ 239) :
    Safe (checkedTransportSend cfg t b m ok) fun r ↦
      (r.transport, r.sent, r.rc) = mqttsnTransportSend cfg t m ok := by
  by_cases hzero : m.length = 0
  · rw [checkedTransportSend, mqttsnTransportSend, if_pos hzero, if_pos hzero]
    exact Safe.pure rfl
  by_cases hshort : m.length ≤ 47
  · refine (checkedTransportSend_of_le (by omega) hshort).mono fun r hr ↦ ?_
    have hlen := length_sealed m
    have hframe : ¬(MESH_HEADER_SIZE + (sealed m).length) % 256 > LORA_BUF_SIZE := by
      change ¬64 < (4 + _) % 256
      omega
    simp only [mqttsnTransportSend, aesEncryptPayload_eq m hshort]
    rw [if_neg hzero, if_neg (length_sealed_pos m).ne', if_neg hframe, hr.1]
    exact congrArg _ hr.2
  · rw [checkedTransportSend_of_lt (by omega) h]
    refine Safe.pure ?_
    have hrefuse : aesEncryptPayload m AES_BUF_SIZE = [] := by
      have hpad : m.length + (16 - m.length % 16) = 16 * (m.length / 16 + 1) := padLen_add_length m
      simp only [aesEncryptPayload]
      rw [hpad, if_pos]
      change 48 < _ % 256
      omega
    simp only [mqttsnTransportSend, hrefuse]
    rw [if_neg hzero]
    rfl

end Send

/-- The call stays inside its buffers. It hands one frame under the next number to the radio, or it
refuses and leaves the transport as it was, according to the length of the message. -/
def SafeAndAtomic (cfg : NodeConfig) (t : Transport) (b : SendBuffers) (m : List UInt8)
    (ok : Bool) :
    Prop :=
  Safe (checkedTransportSend cfg t b m ok) fun r ↦
    (m.length ≤ 47 → r.transport.seqNum = t.seqNum + 1 ∧
      (r.sent, r.rc) = radioTx cfg
        ([cfg.myNodeId, MESH_ADDR_GATEWAY, MESH_TTL_DEFAULT, t.seqNum + 1] ++ sealed m)
        (meshNextHop cfg MESH_ADDR_GATEWAY) ok) ∧
    (48 ≤ m.length → r.rc = -1 ∧ r.transport = t ∧ r.sent = none)

/-- **When a send is safe and atomic.** -/
theorem safeAndAtomic_iff {cfg : NodeConfig} {t : Transport} {b : SendBuffers} {m : List UInt8}
    {ok : Bool} (hpos : 1 ≤ m.length) (h : m.length ≤ 255) :
    SafeAndAtomic cfg t b m ok ↔ m.length ≤ 239 := by
  constructor
  · intro hsafe
    by_contra hlt
    exact hsafe.ne_none (checkedTransportSend_of_wrap (by omega) h)
  · intro hle
    by_cases hshort : m.length ≤ 47
    · refine (checkedTransportSend_of_le hpos hshort).mono fun r hr ↦ ⟨fun _ ↦ ?_, fun hlong ↦ ?_⟩
      · exact ⟨congrArg Transport.seqNum hr.1, hr.2⟩
      · omega
    · rw [SafeAndAtomic, checkedTransportSend_of_lt (by omega) hle]
      exact Safe.pure ⟨fun hle' ↦ absurd hle' hshort, fun _ ↦ ⟨rfl, rfl, rfl⟩⟩

/-- The static buffers of a node that was just switched on. -/
def SendBuffers.boot : SendBuffers := ⟨Buffer.fill _ 0, Buffer.fill _ 0⟩

/-- A REGISTER for the topic `cmd` is sent, and a message of 48 bytes is refused. -/
theorem safeAndAtomic_register :
    SafeAndAtomic arduino02 Transport.boot SendBuffers.boot
        [0x09, 0x0A, 0x00, 0x00, 0x00, 0x01, 0x63, 0x6D, 0x64] true ∧
      SafeAndAtomic arduino02 Transport.boot SendBuffers.boot (List.replicate 48 0x17) true := by
  refine ⟨(safeAndAtomic_iff ?_ ?_).mpr ?_, (safeAndAtomic_iff ?_ ?_).mpr ?_⟩
  all_goals decide +kernel

/-- A message of 240 bytes is not sent safely. -/
theorem not_safeAndAtomic :
    ¬SafeAndAtomic arduino02 Transport.boot SendBuffers.boot (List.replicate 240 0) true :=
  fun h ↦ h.ne_none (checkedTransportSend_of_wrap
    (by rw [List.length_replicate]) (by rw [List.length_replicate]; decide))

end Emcs.Delivery
