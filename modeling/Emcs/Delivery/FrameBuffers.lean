import Emcs.Delivery.Transparency
import Emcs.Lib.Buffers

/-!
# The buffers of the bridge

`lora_send` and the first half of `on_rx_done` with the arrays they work in, five sizes between 247
and 256 bytes. Every access checks its bounds. The arrays are on the stack, so a call finds anything
in them.

No access is out of bounds, for messages and frames of every length that a byte can hold. What keeps
the long messages out is a chain: padding beyond 255 bytes makes the length byte 0 and drops the
message, all others have at most 240 bytes of ciphertext, and with both headers these fit
everywhere. So the functions on their buffers are `loraSend`, `meshDecode` and `gwAesDecrypt`.

## The construction

A function on its arrays is the function of the source with every store and load checked; where one
is out of bounds the result is `none`. For each there is a rule in the manner of a Hoare triple,
`Safe`: under a bound on the length the call succeeds, and its result is that of the function
without arrays. Callers use the rules of their callees, and the arrays disappear from the statements
at the top.
-/

namespace Emcs.Delivery

open Aes BlockMode Bridge Mesh

/-! ## The functions on their buffers -/

/-- `gw_aes_encrypt` into `dst`, through its array `tmp`, with the length it returns. -/
def checkedGwAesEncrypt {n : ℕ} (evp : Evp) (tmp : Buffer UInt8 256) (src : List UInt8)
    (dst : Buffer UInt8 n) (dstMax : ℕ) : Option (Buffer UInt8 n × ℕ) :=
  let pad := 16 - src.length % 16
  let encLen := (src.length + pad) % 256
  if encLen > dstMax then some (dst, 0)
  else do
    let tmp ← tmp.store 0 src
    let tmp ← tmp.store src.length (List.replicate pad (UInt8.ofNat pad))
    let plain ← tmp.read 0 encLen
    let dst ← dst.store 0 (evp.encryptUpdate AES_SHARED_KEY plain)
    return (dst, encLen)

/-- `gw_aes_decrypt` into `out`, through its array `tmp`, with the length it returns. -/
def checkedGwAesDecrypt {k n : ℕ} (evp : Evp) (tmp : Buffer UInt8 256) (enc : Buffer UInt8 k)
    (encLen : ℕ) (out : Buffer UInt8 n) (outMax : ℕ) : Option (Buffer UInt8 n × ℕ) :=
  if encLen = 0 ∨ encLen % 16 ≠ 0 then some (out, 0)
  else if encLen > 256 then some (out, 0)
  else do
    let bytes ← enc.read 0 encLen
    let tmp ← tmp.store 0 (evp.decryptUpdate AES_SHARED_KEY bytes)
    let last ← tmp.read (encLen - 1) 1
    let pad := last.getD 0 0
    if pad = 0 ∨ pad > 16 then some (out, 0)
    else
      let plainLen := encLen - pad.toNat
      if plainLen > outMax then some (out, 0)
      else
        let plain ← tmp.read 0 plainLen
        let out ← out.store 0 plain
        return (out, plainLen)

/-- `mesh_packet_t`, with an array for the payload. -/
structure PacketBuffer where
  srcId : UInt8
  dstId : UInt8
  ttl : UInt8
  seqNum : UInt8
  payload : Buffer UInt8 MESH_PAYLOAD_MAX
  payloadLen : ℕ
  deriving DecidableEq

/-- `mesh_encode` into `buf`, with the length it returns. -/
def checkedMeshEncode {n : ℕ} (pkt : PacketBuffer) (buf : Buffer UInt8 n) (bufSize : ℕ) :
    Option (Buffer UInt8 n × ℕ) :=
  let total := (MESH_HEADER_SIZE + pkt.payloadLen) % 256
  if total > bufSize then some (buf, 0)
  else do
    let buf ← buf.storeEach 0 [pkt.srcId, pkt.dstId, pkt.ttl, pkt.seqNum]
    let payload ← pkt.payload.read 0 pkt.payloadLen
    let buf ← buf.store MESH_HEADER_SIZE payload
    return (buf, total)

/-- `mesh_decode` of the `len` bytes that start at `off`, into a packet whose array holds
`payload`; `none` where it returns 0. -/
def checkedMeshDecode {n : ℕ} (buf : Buffer UInt8 n) (off len : ℕ)
    (payload : Buffer UInt8 MESH_PAYLOAD_MAX) : Option (Option PacketBuffer) :=
  if len < MESH_HEADER_SIZE then some none
  else do
    let header ← buf.read off MESH_HEADER_SIZE
    let payloadLen := (256 + len - MESH_HEADER_SIZE) % 256
    let bytes ← buf.read (off + MESH_HEADER_SIZE) payloadLen
    let payload ← payload.store 0 bytes
    return some ⟨header.getD 0 0, header.getD 1 0, header.getD 2 0, header.getD 3 0,
      payload, payloadLen⟩

/-- The arrays of `lora_send`, that of `gw_aes_encrypt` among them, as a call finds them. -/
structure SendArrays where
  tmp : Buffer UInt8 256
  encBuf : Buffer UInt8 GW_PAYLOAD_MAX
  payload : Buffer UInt8 MESH_PAYLOAD_MAX
  meshBuf : Buffer UInt8 GW_PAYLOAD_MAX
  frame : Buffer UInt8 GW_PAYLOAD_MAX

/-- The part of `lora_send` that builds the frame, with the bytes written to the radio; an inner
`none` where it returns -1. -/
def buildDownlink (b : SendArrays) (dstNode seq : UInt8) (encBuf : Buffer UInt8 GW_PAYLOAD_MAX)
    (encLen : ℕ) : Option (Option (List UInt8)) := do
  let bytes ← encBuf.read 0 encLen
  let payload ← b.payload.store 0 bytes
  let pkt : PacketBuffer := ⟨MESH_ADDR_GATEWAY, dstNode, MESH_TTL_DEFAULT, seq, payload, encLen⟩
  let mesh ← checkedMeshEncode pkt b.meshBuf GW_PAYLOAD_MAX
  if mesh.2 = 0 then some none
  else
    let frame ← b.frame.storeEach 0 [gwNextHop dstNode, MESH_ADDR_GATEWAY, seq, 0x00]
    let bytes ← mesh.1.read 0 mesh.2
    let frame ← frame.store RH_HDR bytes
    let total := (RH_HDR + mesh.2) % 256
    let raw ← frame.read 0 total
    return some raw

/-- `lora_send` on its arrays. -/
def checkedLoraSend (evp : Evp) (b : SendArrays) (dstNode seq : UInt8) (payload : List UInt8) :
    Option (Option (List UInt8)) := do
  let enc ← checkedGwAesEncrypt evp b.tmp payload b.encBuf GW_PAYLOAD_MAX
  if enc.2 = 0 then some none
  else if enc.2 + FRAME_HDR_TOTAL > GW_PAYLOAD_MAX then some none
  else buildDownlink b dstNode seq enc.1 enc.2

/-- The arrays of `on_rx_done`, that of `gw_aes_decrypt` among them, as a call finds them. -/
structure ReceiveArrays where
  buf : Buffer UInt8 (GW_PAYLOAD_MAX + 1)
  payload : Buffer UInt8 MESH_PAYLOAD_MAX
  tmp : Buffer UInt8 256
  plainBuf : Buffer UInt8 GW_PAYLOAD_MAX

/-- `on_rx_done` down to `mesh_decode`, on the bytes that the radio holds: the size check, the copy,
and the packet behind the radio header. -/
def checkedRxParse (b : ReceiveArrays) (data : RadioBuf) : Option (Option PacketBuffer) :=
  let size := data.val.length
  if size < FRAME_HDR_TOTAL + 1 ∨ size > GW_PAYLOAD_MAX then some none
  else do
    let buf ← b.buf.store 0 data.val
    checkedMeshDecode buf RH_HDR ((256 + size - RH_HDR) % 256) b.payload

/-- The decryption in `on_rx_done`. -/
def checkedRxDecrypt (evp : Evp) (b : ReceiveArrays) (pkt : PacketBuffer) :
    Option (Buffer UInt8 GW_PAYLOAD_MAX × ℕ) :=
  checkedGwAesDecrypt evp b.tmp pkt.payload pkt.payloadLen b.plainBuf GW_PAYLOAD_MAX

/-! ## Encryption and decryption -/

section Cipher

variable {evp : Evp} {tmp : Buffer UInt8 256} {n : ℕ} {m : List UInt8} {dst : Buffer UInt8 n}

/-- A message of at most 239 bytes is sealed in the buffer. -/
theorem checkedGwAesEncrypt_of_le (h : m.length ≤ 239) (hn : 16 * (m.length / 16 + 1) ≤ n) :
    Safe (checkedGwAesEncrypt evp tmp m dst GW_PAYLOAD_MAX) fun r ↦
      r.1.Starts (sealed m) ∧ r.2 = (sealed m).length := by
  have hpad : m.length + (16 - m.length % 16) = 16 * (m.length / 16 + 1) := padLen_add_length m
  have hmax : ¬16 * (m.length / 16 + 1) > GW_PAYLOAD_MAX := by
    change ¬255 < _
    omega
  have hlen := length_pad_sixteen m
  simp only [checkedGwAesEncrypt]
  rw [paddedLen_mod h, if_neg hmax]
  refine (Buffer.store_start tmp (by omega)).bind fun b₁ h₁ ↦ ?_
  refine (Buffer.store_end h₁ rfl (by
    rw [List.length_replicate]
    omega)).bind fun b₂ h₂ ↦ ?_
  have hplain : b₂.Starts (pad 16 m) := h₂
  have hupd : evp.encryptUpdate AES_SHARED_KEY (pad 16 m) = sealed m :=
    evp.encryptUpdate_eq _ _ _ hlen
  refine (Buffer.read_start hplain hlen.symm).bind ?_
  rintro _ rfl
  rw [hupd]
  refine (Buffer.store_start dst (by rwa [length_sealed])).bind fun b₃ h₃ ↦ ?_
  exact Safe.pure ⟨h₃, (length_sealed m).symm⟩

theorem checkedGwAesEncrypt_of_wrap (h : 240 ≤ m.length) (h' : m.length ≤ 255) :
    Safe (checkedGwAesEncrypt evp tmp m dst GW_PAYLOAD_MAX) fun r ↦ r.2 = 0 := by
  have hmod : (m.length + (16 - m.length % 16)) % 256 = 0 := by omega
  simp only [checkedGwAesEncrypt, hmod]
  rw [if_neg (Nat.not_lt_zero _)]
  refine (Buffer.store_start tmp (by omega)).bind fun b₁ h₁ ↦ ?_
  refine (Buffer.store_end h₁ rfl (by
    rw [List.length_replicate]
    omega)).bind fun b₂ h₂ ↦ ?_
  refine (Buffer.read_start (Buffer.starts_nil b₂) rfl).bind ?_
  rintro _ rfl
  rw [evp.encryptUpdate_eq _ 0 [] rfl, ecb_zero]
  refine (Buffer.store_start dst (by simp)).bind fun b₃ _ ↦ ?_
  exact Safe.pure rfl

/-- Decryption of a ciphertext that a packet can carry is `gwAesDecrypt`. -/
theorem checkedGwAesDecrypt_rule {k : ℕ} {enc : Buffer UInt8 k} {l : List UInt8}
    {out : Buffer UInt8 GW_PAYLOAD_MAX} (henc : enc.Starts l) (hle : l.length ≤ GW_PAYLOAD_MAX) :
    Safe (checkedGwAesDecrypt evp tmp enc l.length out GW_PAYLOAD_MAX) fun r ↦
      r.1.Starts (gwAesDecrypt evp l GW_PAYLOAD_MAX) ∧
        r.2 = (gwAesDecrypt evp l GW_PAYLOAD_MAX).length := by
  change _ ≤ 255 at hle
  rw [checkedGwAesDecrypt, gwAesDecrypt]
  by_cases hblocks : l.length = 0 ∨ l.length % 16 ≠ 0
  · rw [if_pos hblocks, if_pos hblocks]
    exact Safe.pure ⟨Buffer.starts_nil _, rfl⟩
  rw [if_neg hblocks, if_neg hblocks, if_neg (by omega), if_neg (by omega)]
  have hdiv : l.length = 16 * (l.length / 16) := by omega
  have hlen : (evp.decryptUpdate AES_SHARED_KEY l).length = l.length := by
    rw [evp.decryptUpdate_eq _ _ _ hdiv, length_ecb _ (Nat.le_of_eq hdiv.symm)]
  refine (Buffer.read_start henc rfl).bind fun bytes hbytes ↦ ?_
  rw [hbytes]
  refine (Buffer.store_start tmp (by
    rw [hlen]
    exact hle.trans (by decide))).bind fun b h ↦ ?_
  have hlt : l.length - 1 < (evp.decryptUpdate AES_SHARED_KEY l).length := by
    rw [hlen]
    omega
  refine (Buffer.read_one h hlt).bind fun last hlast ↦ ?_
  have hpad : last.getD 0 0 = (evp.decryptUpdate AES_SHARED_KEY l).getD (l.length - 1) 0 := by
    rw [hlast, List.getD_eq_getElem _ _ hlt]
    rfl
  rw [hpad]
  dsimp only
  generalize (evp.decryptUpdate AES_SHARED_KEY l).getD (l.length - 1) 0 = pad
  split
  · exact Safe.pure ⟨Buffer.starts_nil _, rfl⟩
  split
  · exact Safe.pure ⟨Buffer.starts_nil _, rfl⟩
  · refine (Buffer.read_take h (by rw [hlen]; exact Nat.sub_le _ _)).bind fun plain hplain ↦ ?_
    have hlen' : plain.length = l.length - pad.toNat := by
      rw [hplain, List.length_take, hlen, Nat.min_eq_left (Nat.sub_le _ _)]
    refine (Buffer.store_start out (by
      rw [hlen']
      exact (Nat.sub_le _ _).trans hle)).bind fun b' h' ↦ ?_
    rw [← hplain]
    exact Safe.pure ⟨h', hlen'.symm⟩

end Cipher

/-! ## The frame -/

/-- `mesh_encode` of a packet that fits: the mesh header and the payload. -/
theorem checkedMeshEncode_rule {n : ℕ} {pkt : PacketBuffer} {payload : List UInt8}
    {buf : Buffer UInt8 n} (hpayload : pkt.payload.Starts payload)
    (hlen : pkt.payloadLen = payload.length) (hfit : MESH_HEADER_SIZE + payload.length ≤ n)
    (hn : n ≤ 255) :
    Safe (checkedMeshEncode pkt buf n) fun r ↦
      r.1.Starts ([pkt.srcId, pkt.dstId, pkt.ttl, pkt.seqNum] ++ payload) ∧
        r.2 = MESH_HEADER_SIZE + payload.length := by
  have hmod : (MESH_HEADER_SIZE + payload.length) % 256 = MESH_HEADER_SIZE + payload.length :=
    Nat.mod_eq_of_lt (by omega)
  have hheader := Buffer.storeEach_start buf
    [pkt.srcId, pkt.dstId, pkt.ttl, pkt.seqNum] ((Nat.le_add_right 4 _).trans hfit)
  rw [checkedMeshEncode, hlen, hmod]
  rw [if_neg (Nat.not_lt.mpr hfit)]
  refine hheader.bind fun b₁ h₁ ↦ ?_
  refine (Buffer.read_start hpayload rfl).bind fun bytes hbytes ↦ ?_
  rw [hbytes]
  refine (Buffer.store_end h₁ rfl hfit).bind fun b₂ h₂ ↦ ?_
  exact Safe.pure ⟨h₂, rfl⟩

/-- The frame is the radio header, the mesh header and the ciphertext. -/
theorem buildDownlink_rule {b : SendArrays} {dst seq : UInt8} {encBuf : Buffer UInt8 GW_PAYLOAD_MAX}
    {enc : List UInt8} (henc : encBuf.Starts enc) (hfit : enc.length ≤ 247) :
    Safe (buildDownlink b dst seq encBuf enc.length) fun r ↦
      r = some ([gwNextHop dst, MESH_ADDR_GATEWAY, seq, 0x00] ++
        ([MESH_ADDR_GATEWAY, dst, MESH_TTL_DEFAULT, seq] ++ enc)) := by
  rw [buildDownlink]
  refine (Buffer.read_start henc rfl).bind fun bytes hbytes ↦ ?_
  rw [hbytes]
  refine (Buffer.store_start b.payload hfit).bind fun payload hpayload ↦ ?_
  refine (checkedMeshEncode_rule hpayload rfl (by
    change 4 + enc.length ≤ 255
    omega) (Nat.le_refl _)).bind fun mesh hmesh ↦ ?_
  have hne : mesh.2 ≠ 0 := by
    rw [hmesh.2]
    change 4 + enc.length ≠ 0
    omega
  have hheader := Buffer.storeEach_start b.frame
    [gwNextHop dst, MESH_ADDR_GATEWAY, seq, 0x00] (show 4 ≤ 255 by decide)
  have hlen : ([MESH_ADDR_GATEWAY, dst, MESH_TTL_DEFAULT, seq] ++ enc).length = mesh.2 := by
    rw [hmesh.2, List.length_append]
    rfl
  have hmod : (RH_HDR + mesh.2) % 256 = RH_HDR + mesh.2 := by
    rw [hmesh.2]
    change (4 + (4 + enc.length)) % 256 = 4 + (4 + enc.length)
    omega
  rw [if_neg hne]
  refine hheader.bind fun b₁ h₁ ↦ ?_
  refine (Buffer.read_start hmesh.1 hlen.symm).bind fun bytes hbytes ↦ ?_
  rw [hbytes]
  refine (Buffer.store_end h₁ rfl (by
    rw [hlen, hmesh.2]
    change 4 + (4 + enc.length) ≤ 255
    omega)).bind fun b₂ h₂ ↦ ?_
  dsimp only
  rw [hmod]
  refine (Buffer.read_start h₂ (by rw [List.length_append, hlen]; rfl)).bind fun raw hraw ↦ ?_
  rw [hraw]
  exact Safe.pure rfl

/-- **`lora_send` stays inside its arrays** and does what `loraSend` says. -/
theorem checkedLoraSend_eq {evp : Evp} {b : SendArrays} {dst seq : UInt8} {m : List UInt8}
    (h : m.length ≤ 255) : checkedLoraSend evp b dst seq m = some (loraSend evp dst seq m) := by
  apply Safe.eq_some
  rw [checkedLoraSend]
  by_cases hshort : m.length ≤ 239
  · have hlen := length_sealed m
    have hpos := length_sealed_pos m
    have hle : ¬(sealed m).length + FRAME_HDR_TOTAL > GW_PAYLOAD_MAX := by
      change ¬255 < (sealed m).length + 8
      omega
    have hroom : 16 * (m.length / 16 + 1) ≤ GW_PAYLOAD_MAX := by
      change _ ≤ 255
      omega
    rw [loraSend_eq evp dst seq m hshort]
    refine (checkedGwAesEncrypt_of_le hshort hroom).bind fun enc henc ↦ ?_
    rw [henc.2, if_neg hpos.ne', if_neg hle]
    exact buildDownlink_rule henc.1 (by omega)
  · rw [loraSend_eq_none evp dst seq (by omega) h]
    refine (checkedGwAesEncrypt_of_wrap (by omega) h).bind fun enc henc ↦ ?_
    rw [if_pos henc]
    exact Safe.pure rfl

/-! ## Reception -/

/-- `mesh_decode` of a packet that fits the array. -/
theorem checkedMeshDecode_rule {n off len : ℕ} {buf : Buffer UInt8 n} {rh payload : List UInt8}
    {src dst ttl seq : UInt8} (array : Buffer UInt8 MESH_PAYLOAD_MAX)
    (hbuf : buf.Starts (rh ++ ([src, dst, ttl, seq] ++ payload))) (hoff : off = rh.length)
    (hlen : len = MESH_HEADER_SIZE + payload.length) (hfit : payload.length ≤ MESH_PAYLOAD_MAX) :
    Safe (checkedMeshDecode buf off len array) fun r ↦
      ∃ array', r = some ⟨src, dst, ttl, seq, array', payload.length⟩ ∧ array'.Starts payload := by
  have hge : ¬len < MESH_HEADER_SIZE := by omega
  have hmod : (256 + len - MESH_HEADER_SIZE) % 256 = payload.length := by
    have hlt : payload.length < 256 := Nat.lt_of_le_of_lt hfit (by decide)
    omega
  rw [checkedMeshDecode, if_neg hge, hmod]
  refine (Buffer.read_middle hbuf hoff rfl).bind fun header hheader ↦ ?_
  have hpayload : buf.Starts ((rh ++ [src, dst, ttl, seq]) ++ (payload ++ [])) := by
    rwa [List.append_nil, List.append_assoc]
  refine (Buffer.read_middle hpayload (by rw [List.length_append, hoff]; rfl) rfl).bind
    fun bytes hbytes ↦ ?_
  rw [hbytes, hheader]
  refine (Buffer.store_start array hfit).bind fun array' harray ↦ ?_
  exact Safe.pure ⟨array', rfl, harray⟩

theorem exists_meshDecode {buf : List UInt8} (h : buf.length ≤ MESH_RH_MAX_LEN)
    (hheader : MESH_HEADER_SIZE ≤ buf.length) : ∃ pkt, meshDecode buf h = some pkt := by
  match buf, hheader with
  | _ :: _ :: _ :: _ :: _, _ => exact ⟨_, rfl⟩

/-- **`on_rx_done` parses every frame inside its arrays**, and finds the packet that `meshDecode`
finds behind the radio header. -/
theorem checkedRxParse_rule (b : ReceiveArrays) (data : RadioBuf) :
    Safe (checkedRxParse b data) fun r ↦
      (data.val.length ≤ FRAME_HDR_TOTAL ∧ r = none) ∨
      (FRAME_HDR_TOTAL < data.val.length ∧ ∃ pkt array,
        meshDecode (data.val.drop RH_HDR) data.length_drop_le = some pkt ∧
        array.Starts pkt.payload ∧
        r = some ⟨pkt.srcId, pkt.dstId, pkt.ttl, pkt.seqNum, array, pkt.payload.length⟩) := by
  obtain ⟨raw, hraw⟩ := data
  rw [checkedRxParse]
  dsimp only
  by_cases hsize : raw.length ≤ FRAME_HDR_TOTAL
  · rw [if_pos (Or.inl (Nat.lt_succ_of_le hsize))]
    exact Safe.pure (Or.inl ⟨hsize, rfl⟩)
  rw [if_neg (by omega)]
  have hlong : RH_HDR + MESH_HEADER_SIZE < raw.length := Nat.not_le.mp hsize
  have hlen : (raw.take RH_HDR).length = RH_HDR := by
    rw [List.length_take]
    exact Nat.min_eq_left (by omega)
  obtain ⟨pkt, hpkt⟩ := exists_meshDecode (RadioBuf.length_drop_le ⟨raw, hraw⟩) (by
    rw [List.length_drop]
    exact Nat.le_sub_of_add_le' hlong.le)
  have hdrop : (raw.drop RH_HDR).length = MESH_HEADER_SIZE + pkt.payload.length :=
    (congrArg List.length (eq_of_meshDecode hpkt)).trans List.length_append
  refine (Buffer.store_start b.buf (Nat.le_succ_of_le hraw)).bind fun buf hbuf ↦ ?_
  rw [← List.take_append_drop RH_HDR raw, eq_of_meshDecode hpkt] at hbuf
  refine (checkedMeshDecode_rule b.payload hbuf hlen.symm ?_ pkt.payload_le).mono ?_
  · rw [List.length_drop] at hdrop
    change raw.length ≤ 255 at hraw
    change ¬raw.length ≤ 8 at hsize
    change raw.length - 4 = 4 + pkt.payload.length at hdrop
    change (256 + raw.length - 4) % 256 = 4 + pkt.payload.length
    omega
  · rintro r ⟨array, rfl, harray⟩
    exact Or.inr ⟨Nat.not_le.mp hsize, pkt, array, hpkt, harray, rfl⟩

/-- The decryption in `on_rx_done` is `gwAesDecrypt`. -/
theorem checkedRxDecrypt_rule {evp : Evp} {b : ReceiveArrays} {pkt : PacketBuffer} {l : List UInt8}
    (hpayload : pkt.payload.Starts l) (hlen : pkt.payloadLen = l.length)
    (hle : l.length ≤ GW_PAYLOAD_MAX) :
    Safe (checkedRxDecrypt evp b pkt) fun r ↦
      r.1.Starts (gwAesDecrypt evp l GW_PAYLOAD_MAX) ∧
        r.2 = (gwAesDecrypt evp l GW_PAYLOAD_MAX).length := by
  rw [checkedRxDecrypt, hlen]
  exact checkedGwAesDecrypt_rule hpayload hle

/-! ## Framing -/

/-- Reception of the frame, destination, number and message read off again. -/
def Restores (evp : Evp) (b : ReceiveArrays) (dst seq : UInt8) (m : List UInt8) (frame : RadioBuf) :
    Prop :=
  Safe (checkedRxParse b frame) fun r ↦ ∃ pkt, r = some pkt ∧ pkt.dstId = dst ∧ pkt.seqNum = seq ∧
    Safe (checkedRxDecrypt evp b pkt) fun plain ↦ plain.1.Starts m ∧ plain.2 = m.length

theorem restores_loraSend {evp : Evp} {b : ReceiveArrays} {dst seq : UInt8} {m : List UInt8}
    {frame : RadioBuf} (h : m.length ≤ 239) (hframe : loraSend evp dst seq m = some frame.val) :
    Restores evp b dst seq m frame := by
  have hlen := length_sealed m
  have hdrop := drop_loraSend h hframe
  refine (checkedRxParse_rule b frame).mono fun r hr ↦ ?_
  rcases hr with ⟨hshort, -⟩ | ⟨-, pkt, array, hpkt, harray, rfl⟩
  · -- the ciphertext alone is longer than what the size check refuses
    have hlong := congrArg List.length hdrop
    rw [List.length_drop, List.length_append, hlen] at hlong
    change frame.val.length ≤ 8 at hshort
    change frame.val.length - 4 = 4 + 16 * (m.length / 16 + 1) at hlong
    omega
  · rw [eq_of_meshDecode hpkt] at hdrop
    obtain ⟨-, hdst, -, hseq, hpayload⟩ : pkt.srcId = MESH_ADDR_GATEWAY ∧ pkt.dstId = dst ∧
        pkt.ttl = MESH_TTL_DEFAULT ∧ pkt.seqNum = seq ∧ pkt.payload = sealed m := by
      simpa using hdrop
    rw [hpayload] at harray
    have hle : (sealed m).length ≤ GW_PAYLOAD_MAX := by
      change (sealed m).length ≤ 255
      omega
    refine ⟨_, rfl, hdst, hseq, ?_⟩
    refine (checkedRxDecrypt_rule harray (congrArg List.length hpayload) hle).mono
      fun plain hplain ↦ ?_
    rwa [gwAesDecrypt_sealed evp m h] at hplain

/-- **The framing of the bridge.** A datagram of 1 to 255 bytes is dropped when it has at least 240
bytes. Otherwise a frame of at most 255 bytes goes out, from which the receiving side reads the
destination, the number and the datagram. A frame of any content and length is parsed into a packet
whose payload fits its array. No access is out of bounds. -/
theorem framing_sound {evp : Evp} {m : List UInt8} (hpos : 1 ≤ m.length) (h : m.length ≤ 255)
    (dst seq : UInt8) (b : SendArrays) (b' : ReceiveArrays) :
    (Safe (checkedLoraSend evp b dst seq m) fun r ↦ (r = none ↔ 240 ≤ m.length) ∧
      ∀ frame, r = some frame → frame.length = 8 + 16 * (m.length / 16 + 1) ∧
        ∃ hle : frame.length ≤ GW_PAYLOAD_MAX, Restores evp b' dst seq m ⟨frame, hle⟩) ∧
    ∀ data : RadioBuf, Safe (checkedRxParse b' data) fun r ↦
      ∀ pkt, r = some pkt → pkt.payloadLen ≤ MESH_PAYLOAD_MAX := by
  constructor
  · refine ⟨_, checkedLoraSend_eq h, ?_, fun frame hframe ↦ ?_⟩
    · constructor
      · intro hnone
        by_contra hlt
        rw [loraSend_eq evp dst seq m (by omega)] at hnone
        contradiction
      · exact fun hge ↦ loraSend_eq_none evp dst seq hge h
    · have hle := length_le_of_loraSend h hframe
      have hlen : frame.length = 8 + 16 * (m.length / 16 + 1) := by
        rw [loraSend_eq evp dst seq m hle, Option.some_inj] at hframe
        rw [← hframe, List.length_append, List.length_append, length_sealed, ← Nat.add_assoc]
        rfl
      have hmax : frame.length ≤ GW_PAYLOAD_MAX := by
        change _ ≤ 255
        omega
      exact ⟨hlen, hmax, restores_loraSend hle hframe⟩
  · intro data
    refine (checkedRxParse_rule b' data).mono fun r hr pkt hpkt ↦ ?_
    rcases hr with ⟨-, rfl⟩ | ⟨-, pkt', array, -, -, rfl⟩
    · contradiction
    · rw [← Option.some_inj.mp hpkt]
      exact pkt'.payload_le

/-- Arrays that hold zeros. -/
def SendArrays.zero : SendArrays :=
  ⟨Buffer.fill _ 0, Buffer.fill _ 0, Buffer.fill _ 0, Buffer.fill _ 0, Buffer.fill _ 0⟩

def ReceiveArrays.zero : ReceiveArrays :=
  ⟨Buffer.fill _ 0, Buffer.fill _ 0, Buffer.fill _ 0, Buffer.fill _ 0⟩

theorem framing_sound_connack :
    Safe (checkedLoraSend Evp.software SendArrays.zero 0x22 1 [3, 0x05, 0]) fun r ↦
      (r = none ↔ 240 ≤ 3) ∧ ∀ frame, r = some frame → frame.length = 24 ∧
        ∃ hle : frame.length ≤ GW_PAYLOAD_MAX,
          Restores Evp.software ReceiveArrays.zero 0x22 1 [3, 0x05, 0] ⟨frame, hle⟩ :=
  (framing_sound (m := [3, 0x05, 0]) (by decide) (by decide) 0x22 1 SendArrays.zero
    ReceiveArrays.zero).1

end Emcs.Delivery
