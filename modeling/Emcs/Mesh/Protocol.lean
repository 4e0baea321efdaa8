import Mathlib.Data.List.Basic

/-!
# The mesh header

The shared header `mesh_protocol.h`: every frame carries source, destination, remaining hops and
sequence number before its payload. Both firmwares and the bridge use this one layout. A packet
carries the bound on its payload, so that the copies into `payload` stay inside the array; the
caller of `meshDecode` owes the matching bound on the bytes it passes.
-/

namespace Emcs.Mesh

def MESH_ADDR_GATEWAY : UInt8 := 0x00

def MESH_ADDR_BROADCAST : UInt8 := 0xFF

def MESH_HEADER_SIZE : ℕ := 4

def MESH_TTL_DEFAULT : UInt8 := 3

def MESH_RH_MAX_LEN : ℕ := 251

def MESH_PAYLOAD_MAX : ℕ := MESH_RH_MAX_LEN - MESH_HEADER_SIZE

/-- `mesh_packet_t`; `payload` is the valid part, so `payload_len` is its length. -/
structure MeshPacket where
  srcId : UInt8
  dstId : UInt8
  ttl : UInt8
  seqNum : UInt8
  payload : List UInt8
  payload_le : payload.length ≤ MESH_PAYLOAD_MAX

/-- `mesh_encode` into a buffer of `bufSize` bytes: the bytes `buf[0..total)`. Nothing is written
and 0 is returned, here `[]`, when the frame does not fit. -/
def meshEncode (pkt : MeshPacket) (bufSize : ℕ) : List UInt8 :=
  let total := (MESH_HEADER_SIZE + pkt.payload.length) % 256
  if total > bufSize then []
  else ([pkt.srcId, pkt.dstId, pkt.ttl, pkt.seqNum] ++ pkt.payload).take total

/-- `mesh_decode` of a whole buffer. -/
def meshDecode (buf : List UInt8) (h : buf.length ≤ MESH_RH_MAX_LEN) : Option MeshPacket :=
  match buf, h with
  | src :: dst :: ttl :: seq :: payload, h =>
    some ⟨src, dst, ttl, seq, payload, Nat.le_sub_of_add_le h⟩
  | _, _ => none

/-- The length fits the byte that returns it: the bound on the payload rules the wrap-around out. -/
theorem meshEncode_eq (pkt : MeshPacket) {bufSize : ℕ}
    (h : MESH_HEADER_SIZE + pkt.payload.length ≤ bufSize) :
    meshEncode pkt bufSize = [pkt.srcId, pkt.dstId, pkt.ttl, pkt.seqNum] ++ pkt.payload := by
  have hlt : MESH_HEADER_SIZE + pkt.payload.length < 256 :=
    Nat.lt_of_le_of_lt (Nat.add_le_add_left pkt.payload_le _) (by decide)
  rw [meshEncode]
  rw [Nat.mod_eq_of_lt hlt, if_neg (Nat.not_lt.mpr h), List.take_of_length_le]
  rw [List.length_append]
  exact Nat.le_refl _

theorem meshDecode_meshEncode (pkt : MeshPacket) {bufSize : ℕ}
    (h : MESH_HEADER_SIZE + pkt.payload.length ≤ bufSize)
    (h' : (meshEncode pkt bufSize).length ≤ MESH_RH_MAX_LEN) :
    meshDecode (meshEncode pkt bufSize) h' = some pkt := by
  simp only [meshEncode_eq pkt h]
  rfl

theorem eq_of_meshDecode {buf : List UInt8} {h : buf.length ≤ MESH_RH_MAX_LEN} {pkt : MeshPacket}
    (hdec : meshDecode buf h = some pkt) :
    buf = [pkt.srcId, pkt.dstId, pkt.ttl, pkt.seqNum] ++ pkt.payload := by
  match buf, h, hdec with
  | src :: dst :: ttl :: seq :: payload, h, hdec =>
    rw [← Option.some_inj.mp hdec]
    rfl

end Emcs.Mesh
