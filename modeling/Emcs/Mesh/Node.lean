import Emcs.Aes.Cipher
import Emcs.Lib.BlockMode
import Emcs.Lib.RingCache
import Emcs.Mesh.Protocol

/-!
# The transport of a node

`mqttsn_transport_lora.cpp`: what an Arduino node sends, and what it does with a frame its radio
received. The build-time configuration is a record, so one definition covers every node of the
mesh: endpoints and relays, flooding and static routing.

The radio, the clock and the random delays are outside. What they decide enters as data: a `Poll` is
one turn of the receive loop, with what the driver had to offer and the clock reading that ends the
turn. The static buffers `s_rx_buf`, `s_tx_buf` and `s_enc_buf` are written before they are read, so
their contents between calls are not part of the state; the caller's buffer of
`mqttsn_transport_recv` is, because decryption writes into it even when the frame is dropped.

## The construction

A call of `mqttsn_transport_recv` is a loop over polls. One turn of it, `receiveTurn`, tells what
becomes of one frame: it is not for this node, a duplicate, forwarded, or delivered to the caller.
`receiveLoop` puts turns together until one of them leaves the loop or the time is up, and whatever
holds of a call is shown for a turn first.

The duplicate cache is a ring of eight pairs, `RingCache`, so that adding, looking up and clearing
are the operations of the library, and the facts about them are facts about membership.
-/

namespace Emcs.Mesh

/-! ## Configuration and state -/

inductive NodeRole where
  | endpoint
  | relay
  deriving DecidableEq

inductive MeshMode where
  | flooding
  | routing
  deriving DecidableEq

/-- What `config.h` fixes when a node is built. -/
structure NodeConfig where
  myNodeId : UInt8
  myNodeRole : NodeRole
  meshMode : MeshMode
  routingTable : List (UInt8 × UInt8)
  deriving DecidableEq

/-! The four builds of `config.h`. -/

def arduino02 : NodeConfig := ⟨0x22, .endpoint, .routing, [(MESH_ADDR_GATEWAY, 0x23)]⟩

def arduino03 : NodeConfig := ⟨0x23, .relay, .routing, [(MESH_ADDR_GATEWAY, MESH_ADDR_GATEWAY)]⟩

def arduino04 : NodeConfig := ⟨0x24, .endpoint, .routing, [(MESH_ADDR_GATEWAY, 0x23)]⟩

def arduino05 : NodeConfig :=
  ⟨0x25, .relay, .routing, [(MESH_ADDR_GATEWAY, 0x23), (0x22, 0x22), (0x24, 0x24)]⟩

def MESH_DEDUP_CACHE_SIZE : ℕ := 8

def LORA_BUF_SIZE : ℕ := 64

def AES_BUF_SIZE : ℕ := 48

def RH_BROADCAST_ADDRESS : UInt8 := 0xFF

/-- The variables of the transport that outlive a call. A valid cache entry is the pair of its
`src_id` and `seq_num`. -/
structure Transport where
  dedup : RingCache (UInt8 × UInt8) MESH_DEDUP_CACHE_SIZE
  seqNum : UInt8
  lastRssi : Int16
  lastHopCount : UInt8
  deriving DecidableEq

/-- The zeroed variables of a node that was just switched on. -/
def Transport.boot : Transport where
  dedup := RingCache.empty MESH_DEDUP_CACHE_SIZE (by decide)
  seqNum := 0
  lastRssi := 0
  lastHopCount := 0

/-- The part of `mqttsn_transport_init` that is not about the radio. The head of the cache stays
where it is. -/
def mqttsnTransportInit (t : Transport) : Transport :=
  { t with dedup := t.dedup.invalidate fun _ ↦ true, seqNum := 0 }

/-! ## Payload encryption -/

open Aes BlockMode

/-- `aes_encrypt_payload` with the result `dst[0..enc_len)`, `[]` for a refused length. The source
computes both lengths in a byte. -/
def aesEncryptPayload (src : List UInt8) (dstMax : ℕ) : List UInt8 :=
  let pad := 16 - src.length % 16
  let encLen := (src.length + pad) % 256
  if encLen > dstMax then []
  else (ecb (aesEncryptBlock AES_SHARED_KEY) (encLen / 16)
    (src ++ List.replicate pad (UInt8.ofNat pad))).take encLen

/-- `aes_decrypt_payload` into the whole buffer `dst`: the buffer afterwards and the length
returned, 0 for a refused ciphertext. -/
def aesDecryptPayload (src dst : List UInt8) : List UInt8 × ℕ :=
  if src.length = 0 ∨ src.length % 16 ≠ 0 ∨ src.length > dst.length then (dst, 0)
  else
    let dst := ecb (aesDecryptBlock AES_SHARED_KEY) (src.length / 16) src ++ dst.drop src.length
    let pad := dst.getD (src.length - 1) 0
    if pad = 0 ∨ pad > 16 then (dst, 0) else (dst, src.length - pad.toNat)

/-! ## The duplicate cache -/

/-- `dedup_seen`: the stored number is compared through the signed difference. -/
def dedupSeen (t : Transport) (src seq : UInt8) : Bool :=
  t.dedup.slots.any fun o ↦ o.any fun e ↦ e.1 == src && (seq - e.2).toInt8 == 0

def dedupAdd (t : Transport) (src seq : UInt8) : Transport :=
  { t with dedup := t.dedup.add (src, seq) }

/-- The loop of the relay branch that clears the entries of the gateway. -/
def clearGateway (t : Transport) : Transport :=
  { t with dedup := t.dedup.invalidate fun e ↦ e.1 == MESH_ADDR_GATEWAY }

/-! ## Sending -/

def meshNextHop (cfg : NodeConfig) (dst : UInt8) : UInt8 :=
  match cfg.meshMode with
  | .routing => ((cfg.routingTable.find? fun e ↦ e.1 == dst).map (·.2)).getD dst
  | .flooding => dst

/-- A frame on the air: the addresses of the radio header, and the bytes after that header. -/
structure AirFrame where
  headerTo : UInt8
  headerFrom : UInt8
  raw : List UInt8
  deriving DecidableEq

/-- The destination that `radio_tx` writes into the radio header. -/
def radioTo (cfg : NodeConfig) (nextHop : UInt8) : UInt8 :=
  match cfg.meshMode with
  | .routing => nextHop
  | .flooding => RH_BROADCAST_ADDRESS

/-- `radio_tx`, where `ok` is the answer of the driver's `send`: the frame sent, if any, and the
return code. -/
def radioTx (cfg : NodeConfig) (raw : List UInt8) (nextHop : UInt8) (ok : Bool) :
    Option AirFrame × Int :=
  if raw.length = 0 then (none, -1)
  else if ok then (some ⟨radioTo cfg nextHop, cfg.myNodeId, raw⟩, 0)
  else (none, -1)

/-- `mqttsn_transport_send`: the state after the call, the frame sent and the return code. -/
def mqttsnTransportSend (cfg : NodeConfig) (t : Transport) (buf : List UInt8) (ok : Bool) :
    Transport × Option AirFrame × Int :=
  if buf.length = 0 then (t, none, -1)
  else
    let enc := aesEncryptPayload buf AES_BUF_SIZE
    if enc.length = 0 then (t, none, -1)
    else if (MESH_HEADER_SIZE + enc.length) % 256 > LORA_BUF_SIZE then (t, none, -1)
    else
      let t := { t with seqNum := t.seqNum + 1 }
      let t := dedupAdd t cfg.myNodeId t.seqNum
      let nextHop := meshNextHop cfg MESH_ADDR_GATEWAY
      let raw := [cfg.myNodeId, MESH_ADDR_GATEWAY, MESH_TTL_DEFAULT, t.seqNum] ++ enc
      (t, radioTx cfg raw nextHop ok)

/-! ## Receiving -/

/-- One turn of the receive loop: whether the driver has a packet, what its `recv` yields (`none`
when it fails), the signal strength, the answer of the driver's `send` should the frame be
forwarded, and `millis()` where the loop condition reads it. -/
structure Poll where
  available : Bool
  recv : Option (List UInt8)
  rssi : Int16
  fwdOk : Bool
  now : UInt32

/-- How a turn of the receive loop ends: it leaves the loop, goes on to the loop condition, or
returns a length. -/
inductive Turn where
  | leave
  | next
  | ret (len : ℕ)
  deriving DecidableEq

/-- The variables of the transport, the buffer of the caller, and what the turn sent. -/
structure TurnResult where
  transport : Transport
  buf : List UInt8
  sent : Option AirFrame
  turn : Turn
  deriving DecidableEq

/-- The receive loop on a frame for this node. -/
def deliverFrame (t : Transport) (buf : List UInt8) (src ttl seq : UInt8) (payload : List UInt8) :
    TurnResult :=
  if payload.length = 0 ∨ payload.length > buf.length then ⟨t, buf, none, .next⟩
  else
    let t := { t with lastHopCount := MESH_TTL_DEFAULT - ttl }
    let t := dedupAdd t src seq
    let r := aesDecryptPayload payload buf
    if r.2 = 0 then ⟨t, r.1, none, .next⟩ else ⟨t, r.1, none, .ret r.2⟩

/-- The next hop of the relay branch. -/
def relayNextHop (cfg : NodeConfig) (dst : UInt8) : UInt8 :=
  match cfg.meshMode with
  | .routing => meshNextHop cfg dst
  | .flooding => RH_BROADCAST_ADDRESS

/-- The receive loop on a frame for another node: relays forward it, endpoints discard it. -/
def forwardFrame (cfg : NodeConfig) (t : Transport) (buf : List UInt8) (src dst ttl seq : UInt8)
    (payload : List UInt8) (fwdOk : Bool) : TurnResult :=
  match cfg.myNodeRole with
  | .endpoint => ⟨t, buf, none, .next⟩
  | .relay =>
    if ttl = 0 then ⟨t, buf, none, .next⟩
    else
      let t := clearGateway t
      let t := dedupAdd t src seq
      let raw := [src, dst, ttl - 1, seq] ++ payload
      ⟨t, buf, (radioTx cfg raw (relayNextHop cfg dst) fwdOk).1, .next⟩

/-- One turn of the receive loop on the bytes `raw` that the driver delivered. -/
def receiveFrame (cfg : NodeConfig) (t : Transport) (buf raw : List UInt8) (rssi : Int16)
    (fwdOk : Bool) : TurnResult :=
  match raw with
  | src :: dst :: ttl :: seq :: payload =>
    let t := { t with lastRssi := rssi }
    if dedupSeen t src seq then ⟨t, buf, none, .next⟩
    else if dst = cfg.myNodeId ∨ dst = MESH_ADDR_BROADCAST then
      deliverFrame t buf src ttl seq payload
    else forwardFrame cfg t buf src dst ttl seq payload fwdOk
  -- fewer bytes than a mesh header
  | _ => ⟨t, buf, none, .next⟩

/-- One turn of the receive loop. The driver copies at most `LORA_BUF_SIZE` bytes. -/
def receiveTurn (cfg : NodeConfig) (t : Transport) (buf : List UInt8) (nonBlocking : Bool)
    (p : Poll) : TurnResult :=
  if !p.available then ⟨t, buf, none, if nonBlocking then .leave else .next⟩
  else match p.recv with
    | none => ⟨t, buf, none, .next⟩
    | some raw => receiveFrame cfg t buf (raw.take LORA_BUF_SIZE) p.rssi p.fwdOk

/-- What a call of `mqttsn_transport_recv` did: the variables of the transport, the buffer of the
caller, the frames sent, and the length returned, `none` as long as the call has not returned. -/
structure Received where
  transport : Transport
  buf : List UInt8
  sent : List AirFrame
  ret : Option ℕ
  deriving DecidableEq

/-- The loop of `mqttsn_transport_recv` over the turns it goes through. -/
def receiveLoop (cfg : NodeConfig) (nonBlocking : Bool) (deadline : UInt32) (t : Transport)
    (buf : List UInt8) : List Poll → Received
  | [] => ⟨t, buf, [], none⟩
  | p :: ps =>
    let r := receiveTurn cfg t buf nonBlocking p
    match r.turn with
    | .leave => ⟨r.transport, r.buf, r.sent.toList, some 0⟩
    | .ret len => ⟨r.transport, r.buf, r.sent.toList, some len⟩
    | .next =>
      if !nonBlocking && p.now < deadline then
        let rest := receiveLoop cfg nonBlocking deadline r.transport r.buf ps
        { rest with sent := r.sent.toList ++ rest.sent }
      else ⟨r.transport, r.buf, r.sent.toList, some 0⟩

/-- `mqttsn_transport_recv` into the buffer `buf`, called at `start` and going through the turns
`polls`. -/
def mqttsnTransportRecv (cfg : NodeConfig) (t : Transport) (buf : List UInt8)
    (timeoutMs start : UInt32) (polls : List Poll) : Received :=
  receiveLoop cfg (timeoutMs = 0) (start + timeoutMs) t buf polls

/-! ## The duplicate cache holds pairs -/

@[simp] theorem dedupAdd_seqNum (t : Transport) (src seq : UInt8) :
    (dedupAdd t src seq).seqNum = t.seqNum := rfl

theorem toInt8_sub_eq_zero {a b : UInt8} : (a - b).toInt8 = 0 ↔ a = b := by
  constructor
  · intro h
    have h' := congrArg Int8.toUInt8 h
    rw [UInt8.toUInt8_toInt8] at h'
    rw [UInt8.sub_eq_iff_eq_add.mp h']
    exact UInt8.zero_add b
  · intro h
    rw [h, UInt8.sub_self]
    rfl

theorem dedupSeen_iff {t : Transport} {src seq : UInt8} :
    dedupSeen t src seq = true ↔ (src, seq) ∈ t.dedup := by
  rw [dedupSeen, RingCache.any_slots]
  constructor
  · rintro ⟨⟨src', seq'⟩, hmem, h⟩
    rw [Bool.and_eq_true, beq_iff_eq, beq_iff_eq, toInt8_sub_eq_zero] at h
    rwa [← h.1, h.2]
  · intro h
    refine ⟨(src, seq), h, ?_⟩
    rw [Bool.and_eq_true, beq_iff_eq, beq_iff_eq, toInt8_sub_eq_zero]
    exact ⟨rfl, rfl⟩

theorem dedupSeen_eq_false_iff {t : Transport} {src seq : UInt8} :
    dedupSeen t src seq = false ↔ (src, seq) ∉ t.dedup := by
  rw [← Bool.not_eq_true, dedupSeen_iff]

theorem not_mem_mqttsnTransportInit (t : Transport) (k : UInt8 × UInt8) :
    k ∉ (mqttsnTransportInit t).dedup := fun h ↦
  Bool.false_ne_true (RingCache.mem_invalidate.mp h).2.symm

theorem dedupSeen_boot (src seq : UInt8) : dedupSeen Transport.boot src seq = false :=
  dedupSeen_eq_false_iff.mpr (RingCache.not_mem_empty _ _)

/-! ## The turns of the receive loop -/

section Turns

variable {cfg : NodeConfig} {t : Transport} {buf payload : List UInt8} {src dst ttl seq : UInt8}
  {rssi : Int16} {fwdOk : Bool}

theorem receiveFrame_seen (h : dedupSeen t src seq = true) :
    receiveFrame cfg t buf ([src, dst, ttl, seq] ++ payload) rssi fwdOk
      = ⟨{ t with lastRssi := rssi }, buf, none, .next⟩ :=
  if_pos h

theorem receiveFrame_for_me (h : dedupSeen t src seq = false)
    (hdst : dst = cfg.myNodeId ∨ dst = MESH_ADDR_BROADCAST) :
    receiveFrame cfg t buf ([src, dst, ttl, seq] ++ payload) rssi fwdOk
      = deliverFrame { t with lastRssi := rssi } buf src ttl seq payload :=
  (if_neg (by rw [show dedupSeen { t with lastRssi := rssi } src seq = false from h]
              exact Bool.false_ne_true)).trans (if_pos hdst)

theorem receiveFrame_for_other (h : dedupSeen t src seq = false)
    (hdst : ¬(dst = cfg.myNodeId ∨ dst = MESH_ADDR_BROADCAST)) :
    receiveFrame cfg t buf ([src, dst, ttl, seq] ++ payload) rssi fwdOk
      = forwardFrame cfg { t with lastRssi := rssi } buf src dst ttl seq payload fwdOk :=
  (if_neg (by rw [show dedupSeen { t with lastRssi := rssi } src seq = false from h]
              exact Bool.false_ne_true)).trans (if_neg hdst)

/-- The relay branch on a frame with hops left, when the radio sends it. -/
theorem forwardFrame_relay (hrole : cfg.myNodeRole = .relay) (httl : ttl ≠ 0) :
    forwardFrame cfg t buf src dst ttl seq payload true =
      ⟨dedupAdd (clearGateway t) src seq, buf,
        some ⟨radioTo cfg (relayNextHop cfg dst), cfg.myNodeId,
          [src, dst, ttl - 1, seq] ++ payload⟩,
        .next⟩ := by
  simp only [forwardFrame, hrole]
  rw [if_neg httl]
  rfl

/-- A turn adds the key of its frame to the cache, if anything. -/
theorem mem_dedup_receiveFrame {k : UInt8 × UInt8}
    (h : k ∈ (receiveFrame cfg t buf ([src, dst, ttl, seq] ++ payload) rssi
      fwdOk).transport.dedup) : k = (src, seq) ∨ k ∈ t.dedup := by
  cases hseen : dedupSeen t src seq with
  | true =>
    rw [receiveFrame_seen hseen] at h
    exact Or.inr h
  | false =>
    by_cases hdst : dst = cfg.myNodeId ∨ dst = MESH_ADDR_BROADCAST
    · rw [receiveFrame_for_me hseen hdst, deliverFrame] at h
      split at h
      · exact Or.inr h
      · dsimp only at h
        split at h
        · exact RingCache.eq_or_mem_of_mem_add h
        · exact RingCache.eq_or_mem_of_mem_add h
    · rw [receiveFrame_for_other hseen hdst, forwardFrame] at h
      split at h
      · exact Or.inr h
      · split at h
        · exact Or.inr h
        · refine (RingCache.eq_or_mem_of_mem_add h).imp_right fun h' ↦ ?_
          exact (RingCache.mem_invalidate.mp h').1

/-- What a turn sends is its frame with one hop less. -/
theorem raw_of_sent_receiveFrame {a : AirFrame}
    (h : (receiveFrame cfg t buf ([src, dst, ttl, seq] ++ payload) rssi fwdOk).sent = some a) :
    a.raw = [src, dst, ttl - 1, seq] ++ payload := by
  cases hseen : dedupSeen t src seq with
  | true =>
    rw [receiveFrame_seen hseen] at h
    exact nomatch h
  | false =>
    by_cases hdst : dst = cfg.myNodeId ∨ dst = MESH_ADDR_BROADCAST
    · rw [receiveFrame_for_me hseen hdst, deliverFrame] at h
      split at h
      · exact nomatch h
      · dsimp only at h
        split at h <;> exact nomatch h
    · rw [receiveFrame_for_other hseen hdst, forwardFrame] at h
      split at h
      · exact nomatch h
      · split at h
        · exact nomatch h
        · cases fwdOk with
          | false => exact nomatch h
          | true => exact congrArg AirFrame.raw (Option.some_inj.mp h).symm

/-- A call of `mqttsn_transport_send` is refused, or takes the next sequence number. -/
theorem mqttsnTransportSend_cases (cfg : NodeConfig) (t : Transport) (m : List UInt8) (ok : Bool) :
    mqttsnTransportSend cfg t m ok = (t, none, -1) ∨
      ((mqttsnTransportSend cfg t m ok).1
          = dedupAdd { t with seqNum := t.seqNum + 1 } cfg.myNodeId (t.seqNum + 1) ∧
        ∀ a, (mqttsnTransportSend cfg t m ok).2.1 = some a →
          a.raw = [cfg.myNodeId, MESH_ADDR_GATEWAY, MESH_TTL_DEFAULT, t.seqNum + 1] ++
            aesEncryptPayload m AES_BUF_SIZE) := by
  rw [mqttsnTransportSend]
  by_cases h₁ : m.length = 0
  · rw [if_pos h₁]
    exact Or.inl rfl
  rw [if_neg h₁]
  dsimp only
  by_cases h₂ : (aesEncryptPayload m AES_BUF_SIZE).length = 0
  · rw [if_pos h₂]
    exact Or.inl rfl
  rw [if_neg h₂]
  by_cases h₃ : (MESH_HEADER_SIZE + (aesEncryptPayload m AES_BUF_SIZE).length) % 256 > LORA_BUF_SIZE
  · rw [if_pos h₃]
    exact Or.inl rfl
  rw [if_neg h₃]
  refine Or.inr ⟨rfl, fun a ha ↦ ?_⟩
  cases ok with
  | false => exact nomatch ha
  | true => exact congrArg AirFrame.raw (Option.some_inj.mp ha).symm

theorem add_one_ne_self (seq : UInt8) : seq + 1 ≠ seq := by
  intro h
  rw [UInt8.add_comm, ← UInt8.eq_sub_iff_add_eq, UInt8.sub_self] at h
  exact absurd h (by decide)

/-- A poll in which the driver delivers `raw`. -/
def Poll.Delivers (p : Poll) (raw : List UInt8) : Prop := p.available = true ∧ p.recv = some raw

theorem receiveTurn_of_delivers {raw : List UInt8} {nonBlocking : Bool} {p : Poll}
    (hp : p.Delivers raw) (hraw : raw.length ≤ LORA_BUF_SIZE) :
    receiveTurn cfg t buf nonBlocking p = receiveFrame cfg t buf raw p.rssi p.fwdOk := by
  simp only [receiveTurn, hp.1, hp.2, List.take_of_length_le hraw]
  rfl

end Turns

end Emcs.Mesh
