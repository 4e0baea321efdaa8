import Emcs.Aes.Correct
import Emcs.Lib.BlockMode
import Emcs.Lib.RingCache
import Emcs.Lib.Slots
import Emcs.Mesh.Protocol

/-!
# The bridge between the mesh and the UDP side

`Waveshare1121-Gateway/main.c`: frames from the radio are decoded, decrypted, checked for duplicates
and handed to `sendto` on the socket of the node they come from; datagrams from the sockets are
staged with a sequence number and sent to the node.

OpenSSL is not part of the repository. It enters as an `Evp`: two functions on strings, which on
whole blocks are the codebook mode of AES-128. The operating system enters as data: the clock, the
descriptors that `socket` returns, the success of `bind`, and which sockets have a datagram.

## The construction

Every function is a function of the variables it reads and of what the system answers, and returns
the variables it has changed beside its result. `on_rx_done` is cut in two at the point where it
first looks at its own state: `rxDecode` takes a frame apart, and `rxHandle` decides what to do with
the packet. The heartbeat and the thread for the downlink are `expireClients`, `collect` and
`loraSend`.
-/

namespace Emcs.Bridge

open Mesh BlockMode

/-! ## OpenSSL -/

/-- The use the bridge makes of OpenSSL: a context for `EVP_aes_128_ecb` without padding, and one
update call. -/
structure Evp where
  decryptUpdate : Aes.Block → List UInt8 → List UInt8
  encryptUpdate : Aes.Block → List UInt8 → List UInt8
  /-- On whole blocks, decryption is the codebook mode of AES-128 decryption. -/
  decryptUpdate_eq : ∀ key k l, l.length = 16 * k →
    decryptUpdate key l = ecb (Fips197.decrypt key) k l
  /-- On whole blocks, encryption is the codebook mode of AES-128 encryption. -/
  encryptUpdate_eq : ∀ key k l, l.length = 16 * k →
    encryptUpdate key l = ecb (Fips197.encrypt key) k l

/-- The two functions computed by the cipher of the nodes. -/
def Evp.software : Evp where
  decryptUpdate key l := ecb (Aes.aesDecryptBlock key) (l.length / 16) l
  encryptUpdate key l := ecb (Aes.aesEncryptBlock key) (l.length / 16) l
  decryptUpdate_eq key k l h := by
    rw [h, Nat.mul_div_cancel_left k (by decide), funext (Aes.aesDecryptBlock_eq key)]
  encryptUpdate_eq key k l h := by
    rw [h, Nat.mul_div_cancel_left k (by decide), funext (Aes.aesEncryptBlock_eq key)]

def GW_PAYLOAD_MAX : ℕ := 255

/-- `gw_aes_decrypt` with the result `out[0..plain_len)`, `[]` for a refused ciphertext. -/
def gwAesDecrypt (evp : Evp) (enc : List UInt8) (outMax : ℕ) : List UInt8 :=
  if enc.length = 0 ∨ enc.length % 16 ≠ 0 then []
  else if enc.length > 256 then []
  else
    let tmp := evp.decryptUpdate Aes.AES_SHARED_KEY enc
    let pad := tmp.getD (enc.length - 1) 0
    if pad = 0 ∨ pad > 16 then []
    else
      let plainLen := enc.length - pad.toNat
      if plainLen > outMax then [] else tmp.take plainLen

/-- `gw_aes_encrypt` with the result `dst[0..enc_len)`, `[]` for a refused length. The source
computes both lengths in a byte. -/
def gwAesEncrypt (evp : Evp) (src : List UInt8) (dstMax : ℕ) : List UInt8 :=
  let pad := 16 - src.length % 16
  let encLen := (src.length + pad) % 256
  if encLen > dstMax then []
  else evp.encryptUpdate Aes.AES_SHARED_KEY
    ((src ++ List.replicate pad (UInt8.ofNat pad)).take encLen)

/-! ## The client registry -/

def MAX_CLIENTS : ℕ := 30

def CLIENT_PORT_BASE : ℕ := 20000

def CLIENT_TIMEOUT_S : ℤ := 300

/-- The address of the Paho gateway, `none` before it is filled in. -/
abbrev PahoAddr := Option (String × UInt16)

def PAHO_GW : PahoAddr := some ("127.0.0.1", 10000)

/-- `client_t`. -/
structure Client where
  nodeId : UInt8
  udpSock : ℤ
  localPort : UInt16
  pahoAddr : PahoAddr
  lastSeq : UInt8
  lastSeen : ℤ
  active : Bool
  pktCount : UInt32
  hopTotal : UInt32
  dnSeq : UInt8
  deriving DecidableEq

/-- A client slot after `memset`. -/
def Client.zero : Client where
  nodeId := 0
  udpSock := 0
  localPort := 0
  pahoAddr := none
  lastSeq := 0
  lastSeen := 0
  active := false
  pktCount := 0
  hopTotal := 0
  dnSeq := 0

def GW_DEDUP_SIZE : ℕ := 16

/-- The variables of the bridge. A valid cache entry is the pair of its `src` and `seq`. -/
structure Gateway where
  clients : Vector Client MAX_CLIENTS
  gwDedup : RingCache (UInt8 × UInt8) GW_DEDUP_SIZE
  deriving DecidableEq

/-- The state in which `main` starts. -/
def Gateway.boot : Gateway where
  clients := Vector.replicate MAX_CLIENTS Client.zero
  gwDedup := RingCache.empty GW_DEDUP_SIZE (by decide)

/-- What the operating system answers during one call: the time, the descriptor of a fresh socket,
and the result of binding it. -/
structure Os where
  time : ℤ
  sock : ℤ
  bindOk : Bool

/-- The first loop of `get_or_create_client` on the slot it finds. -/
def refreshClient (c : Client) (connect : Bool) (os : Os) : Client :=
  let c := if connect then
      { c with pktCount := 0, hopTotal := 0, lastSeq := 0, dnSeq := 0, udpSock := os.sock,
               pahoAddr := PAHO_GW }
    else c
  { c with lastSeen := os.time }

/-- The second loop of `get_or_create_client` on the free slot `i`. -/
def createClient (c : Client) (i : ℕ) (srcId : UInt8) (os : Os) : Client :=
  let c := { c with nodeId := srcId, active := true, lastSeen := os.time, lastSeq := 0,
                    pktCount := 0, hopTotal := 0,
                    localPort := UInt16.ofNat (CLIENT_PORT_BASE + i), udpSock := os.sock }
  if os.sock < 0 then { c with active := false }
  else if !os.bindOk then { c with active := false }
  else { c with pahoAddr := PAHO_GW }

/-- `get_or_create_client`: the table afterwards and the slot, `none` for `NULL`. -/
def getOrCreateClient (clients : Vector Client MAX_CLIENTS) (srcId : UInt8) (connect : Bool)
    (os : Os) : Vector Client MAX_CLIENTS × Option (Fin MAX_CLIENTS) :=
  match Slots.first (fun c ↦ c.active && c.nodeId == srcId) clients with
  | some i => (clients.set i (refreshClient clients[i] connect os) i.isLt, some i)
  | none =>
    match Slots.first (fun c ↦ !c.active) clients with
    | none => (clients, none)
    | some i =>
      let c := createClient clients[i] i srcId os
      (clients.set i c i.isLt, if c.active then some i else none)

/-- `expire_clients` at the time `now`. -/
def expireClients (gw : Gateway) (now : ℤ) : Gateway :=
  { gw with clients := gw.clients.map fun c ↦
      if !c.active then c else if now - c.lastSeen < CLIENT_TIMEOUT_S then c else Client.zero }

/-! ## Duplicates -/

def gwDedupSeen (gw : Gateway) (src seq : UInt8) : Bool :=
  gw.gwDedup.slots.any fun o ↦ o.any fun e ↦ e.1 == src && e.2 == seq

def gwDedupAdd (gw : Gateway) (src seq : UInt8) : Gateway :=
  { gw with gwDedup := gw.gwDedup.add (src, seq) }

def gwDedupClearSrc (gw : Gateway) (src : UInt8) : Gateway :=
  { gw with gwDedup := gw.gwDedup.invalidate fun e ↦ e.1 == src }

/-! ## From the radio to the sockets -/

def RH_HDR : ℕ := 4

def FRAME_HDR_TOTAL : ℕ := RH_HDR + MESH_HEADER_SIZE

def OUT_OF_RANGE : List UInt8 := [0x22, 0x24]

/-- The bytes the radio holds: their number is read from a byte. -/
abbrev RadioBuf := { l : List UInt8 // l.length ≤ GW_PAYLOAD_MAX }

/-- One call of `sendto`: the slot it is made for, its socket, and the datagram. -/
structure Sendto where
  client : Fin MAX_CLIENTS
  sock : ℤ
  data : List UInt8
  addr : PahoAddr
  deriving DecidableEq

/-- The end of `on_rx_done`, for a packet that passed the duplicate check. -/
def forwardToPaho (gw : Gateway) (srcId rhSeq hopsTaken : UInt8) (plain : List UInt8)
    (connect : Bool) (os : Os) : Gateway × Option Sendto :=
  match getOrCreateClient gw.clients srcId connect os with
  | (clients, none) => ({ gw with clients := clients }, none)
  | (clients, some i) =>
    let c := clients[i]
    let c := { c with lastSeq := rhSeq, pktCount := c.pktCount + 1,
                      hopTotal := c.hopTotal + hopsTaken.toUInt32 }
    ({ gw with clients := clients.set i c i.isLt }, some ⟨i, c.udpSock, plain, c.pahoAddr⟩)

/-- The test for a CONNECT: its message type is in the second byte. -/
def isConnect (plain : List UInt8) : Bool := plain.length ≥ 2 && plain.getD 1 0 == 0x04

/-- What `on_rx_done` knows of a frame before it looks at its own state: the mesh packet, the number
in the radio header, the hops taken, and the decrypted message. -/
structure RxPacket where
  pkt : MeshPacket
  rhSeq : UInt8
  hopsTaken : UInt8
  plain : List UInt8

theorem RadioBuf.length_drop_le (buf : RadioBuf) :
    (buf.val.drop RH_HDR).length ≤ MESH_RH_MAX_LEN := by
  rw [List.length_drop]
  exact Nat.sub_le_of_le_add buf.property

/-- `on_rx_done` down to the decryption: size, header, range simulation, destination, payload. -/
def rxDecode (evp : Evp) (buf : RadioBuf) : Option RxPacket :=
  if buf.val.length < FRAME_HDR_TOTAL + 1 ∨ buf.val.length > GW_PAYLOAD_MAX then none
  else
    let rhSeq := buf.val.getD 2 0
    match meshDecode (buf.val.drop RH_HDR) buf.length_drop_le with
    | none => none
    | some pkt =>
      let hopsTaken := MESH_TTL_DEFAULT - pkt.ttl
      if pkt.srcId ∈ OUT_OF_RANGE ∧ hopsTaken = 0 then none
      else if pkt.dstId ≠ MESH_ADDR_GATEWAY ∧ pkt.dstId ≠ MESH_ADDR_BROADCAST then none
      else if pkt.payload.length = 0 then none
      else
        let plain := gwAesDecrypt evp pkt.payload GW_PAYLOAD_MAX
        if plain.length = 0 then none else some ⟨pkt, rhSeq, hopsTaken, plain⟩

/-- The duplicate cache after the clearing that a CONNECT causes. -/
def clearIfConnect (gw : Gateway) (p : RxPacket) : Gateway :=
  if isConnect p.plain then gwDedupClearSrc gw p.pkt.srcId else gw

/-- The frame passes the duplicate check. -/
def rxAccepts (gw : Gateway) (p : RxPacket) : Bool :=
  !gwDedupSeen (clearIfConnect gw p) p.pkt.srcId p.pkt.seqNum

/-- `on_rx_done` from the CONNECT test on. -/
def rxHandle (gw : Gateway) (p : RxPacket) (os : Os) : Gateway × Option Sendto :=
  if !rxAccepts gw p then (clearIfConnect gw p, none)
  else
    let gw := gwDedupAdd (clearIfConnect gw p) p.pkt.srcId p.pkt.seqNum
    forwardToPaho gw p.pkt.srcId p.rhSeq p.hopsTaken p.plain (isConnect p.plain) os

/-- `on_rx_done` on the bytes `buf`: the state afterwards and the call of `sendto`, if any. -/
def onRxDone (evp : Evp) (gw : Gateway) (buf : RadioBuf) (os : Os) : Gateway × Option Sendto :=
  match rxDecode evp buf with
  | none => (gw, none)
  | some p => rxHandle gw p os

/-! ## From the sockets to the radio -/

def GW_ROUTING_TABLE : List (UInt8 × UInt8) := [(0x22, 0x23), (0x24, 0x23)]

def gwNextHop (dst : UInt8) : UInt8 :=
  ((GW_ROUTING_TABLE.find? fun e ↦ e.1 == dst).map (·.2)).getD dst

private theorem payload_le {n : ℕ} (h : ¬ n + FRAME_HDR_TOTAL > GW_PAYLOAD_MAX) :
    n ≤ MESH_PAYLOAD_MAX :=
  Nat.le_of_add_le_add_right (b := FRAME_HDR_TOTAL) (Nat.not_lt.mp h)

/-- `lora_send`: the bytes written to the radio, `none` where it returns -1. -/
def loraSend (evp : Evp) (dstNode seq : UInt8) (payload : List UInt8) : Option (List UInt8) :=
  let enc := gwAesEncrypt evp payload GW_PAYLOAD_MAX
  if enc.length = 0 then none
  else if h : enc.length + FRAME_HDR_TOTAL > GW_PAYLOAD_MAX then none
  else
    let pkt : MeshPacket := ⟨MESH_ADDR_GATEWAY, dstNode, MESH_TTL_DEFAULT, seq, enc, payload_le h⟩
    let mesh := meshEncode pkt GW_PAYLOAD_MAX
    if mesh.length = 0 then none
    else some ([gwNextHop dstNode, MESH_ADDR_GATEWAY, seq, 0x00] ++ mesh)

/-- A datagram waiting for its turn on the radio. -/
structure Staged where
  node : UInt8
  seq : UInt8
  data : List UInt8
  deriving DecidableEq

/-- The collecting loop of `downstream_thread` on slot `i`, given what `recvfrom` reads there: the
datagram is staged with the number of the slot, which moves on. -/
def stageClient (clients : Vector Client MAX_CLIENTS) (i : Fin MAX_CLIENTS)
    (dgram : Option (List UInt8)) : Vector Client MAX_CLIENTS × Option Staged :=
  let c := clients[i]
  match dgram with
  | none => (clients, none)
  | some data =>
    if !c.active ∨ data.length = 0 then (clients, none)
    else
      (clients.set i { c with dnSeq := c.dnSeq + 1 } i.isLt,
        some ⟨c.nodeId, c.dnSeq, data.take GW_PAYLOAD_MAX⟩)

/-- The collecting loop of `downstream_thread`: one pass over the slots under the lock. -/
def collect (clients : Vector Client MAX_CLIENTS)
    (ready : Fin MAX_CLIENTS → Option (List UInt8)) : Vector Client MAX_CLIENTS × List Staged :=
  (List.finRange MAX_CLIENTS).foldl
    (fun acc i ↦
      let r := stageClient acc.1 i (ready i)
      (r.1, acc.2 ++ r.2.toList))
    (clients, [])

end Emcs.Bridge
