import Emcs.Delivery.Downlink
import Emcs.Bridge.Registry

/-!
# Uplink delivery

From `mqttsn_transport_send` on a node, through any number of relays, to the `sendto` of the bridge.

Every relay on the way is a node with its own configuration, history and buffer: a `Hop`. What a
relay does to the frame is one equation (`forwardFrame_relay`); the chain of relays is an induction
over the hops in which only the TTL byte moves (`relayChain_eq`); and at its end the bridge accepts
the frame because its header is intact and the payload is still the sealed message.

## The hypotheses

They are what the path needs and no more: the message fits the encryption buffer, no more relays
than the frame has hops, no relay has its key in the cache, a node out of range of the bridge has a
relay, and the bridge has a slot for the node and has not seen the key, unless the message is a
CONNECT, which clears it. Nothing else is asked of the relays, neither of the bytes in their buffers
nor of what they receive before and after.
-/

namespace Emcs.Delivery

open Aes BlockMode Bridge Mesh

/-! ## The frame of the node -/

/-- The bytes on the air after `mqttsn_transport_send`. -/
def uplinkFrame (src ttl seq : UInt8) (m : List UInt8) : List UInt8 :=
  [src, MESH_ADDR_GATEWAY, ttl, seq] ++ sealed m

/-- **The frame of `mqttsn_transport_send`**, under the next sequence number. -/
theorem mqttsnTransportSend_eq (cfg : NodeConfig) (t : Transport) (m : List UInt8)
    (hpos : 0 < m.length) (h : m.length ≤ 47) :
    mqttsnTransportSend cfg t m true =
      (dedupAdd { t with seqNum := t.seqNum + 1 } cfg.myNodeId (t.seqNum + 1),
        some ⟨radioTo cfg (meshNextHop cfg MESH_ADDR_GATEWAY), cfg.myNodeId,
          uplinkFrame cfg.myNodeId MESH_TTL_DEFAULT (t.seqNum + 1) m⟩, 0) := by
  have hlen := length_sealed_pos m
  have hle : ¬(MESH_HEADER_SIZE + (sealed m).length) % 256 > LORA_BUF_SIZE := by
    rw [length_sealed]
    change ¬64 < (4 + 16 * (m.length / 16 + 1)) % 256
    omega
  simp only [mqttsnTransportSend, aesEncryptPayload_eq m h]
  rw [if_neg hpos.ne', if_neg hlen.ne', if_neg hle, radioTx, if_neg (by simp)]
  rfl

/-! ## Relays -/

/-- A relay and the circumstances of one call of its `mqttsn_transport_recv`: its build, its
history, the buffer of the caller, the times, and what the loop goes through after the turn in which
the frame arrives. -/
structure Hop where
  cfg : NodeConfig
  transport : Transport
  buf : List UInt8
  timeoutMs : UInt32
  start : UInt32
  rssi : Int16
  now : UInt32
  rest : List Poll

/-- The call in which the frame arrives and the radio sends what the relay hands to it. -/
def Hop.recv (hop : Hop) (frame : List UInt8) : Received :=
  mqttsnTransportRecv hop.cfg hop.transport hop.buf hop.timeoutMs hop.start
    (⟨true, some frame, hop.rssi, true, hop.now⟩ :: hop.rest)

/-- The relay branch is the one run on frames from `src` under `seq`. -/
structure Hop.Relays (hop : Hop) (src seq : UInt8) : Prop where
  role : hop.cfg.myNodeRole = .relay
  not_gateway : hop.cfg.myNodeId ≠ MESH_ADDR_GATEWAY
  fresh : dedupSeen hop.transport src seq = false

/-- What is on the air behind a chain of relays, each hearing the first frame of the one before. -/
def relayChain : List Hop → List UInt8 → Option (List UInt8)
  | [], frame => some frame
  | hop :: hops, frame => ((hop.recv frame).sent.head?.map (·.raw)).bind (relayChain hops)

/-- The first frame of a call is the one forwarded in the turn the frame arrives. -/
theorem head?_sent_receiveLoop {cfg : NodeConfig} {nonBlocking : Bool} {deadline : UInt32}
    {t : Transport} {buf : List UInt8} {p : Poll} {rest : List Poll} {a : AirFrame}
    (h : (receiveTurn cfg t buf nonBlocking p).sent = some a) :
    (receiveLoop cfg nonBlocking deadline t buf (p :: rest)).sent.head? = some a := by
  rw [receiveLoop]
  dsimp only
  split
  · simp only [h]
    rfl
  · simp only [h]
    rfl
  · split
    · simp only [h]
      rfl
    · simp only [h]
      rfl

theorem Hop.Relays.head?_sent_recv {hop : Hop} {src ttl seq : UInt8} {m : List UInt8}
    (h : hop.Relays src seq) (httl : ttl ≠ 0) (hm : m.length ≤ 47) :
    (hop.recv (uplinkFrame src ttl seq m)).sent.head?.map (·.raw)
      = some (uplinkFrame src (ttl - 1) seq m) := by
  have hdst : ¬(MESH_ADDR_GATEWAY = hop.cfg.myNodeId ∨
      MESH_ADDR_GATEWAY = MESH_ADDR_BROADCAST) := by
    rintro (heq | heq)
    · exact h.not_gateway heq.symm
    · exact absurd heq (by decide)
  have hturn (nonBlocking : Bool) : (receiveTurn hop.cfg hop.transport hop.buf nonBlocking
      ⟨true, some (uplinkFrame src ttl seq m), hop.rssi, true, hop.now⟩).sent
      = some ⟨radioTo hop.cfg (relayNextHop hop.cfg MESH_ADDR_GATEWAY), hop.cfg.myNodeId,
          uplinkFrame src (ttl - 1) seq m⟩ := by
    rw [receiveTurn_of_delivers ⟨rfl, rfl⟩ (length_frame_le hm), uplinkFrame,
      receiveFrame_for_other h.fresh hdst, forwardFrame_relay h.role httl]
    rfl
  rw [Hop.recv, mqttsnTransportRecv, head?_sent_receiveLoop (hturn _)]
  rfl

/-- **Relays change the TTL byte only**, and each takes one off. -/
theorem relayChain_eq {hops : List Hop} {src ttl seq : UInt8} {m : List UInt8}
    (hrelay : ∀ hop ∈ hops, hop.Relays src seq) (hm : m.length ≤ 47)
    (httl : hops.length ≤ ttl.toNat) :
    relayChain hops (uplinkFrame src ttl seq m)
      = some (uplinkFrame src (ttl - UInt8.ofNat hops.length) seq m) := by
  induction hops generalizing ttl with
  | nil => simp [relayChain]
  | cons hop hops ih =>
    rw [List.length_cons] at httl
    have hne : ttl ≠ 0 := by
      intro h
      rw [h, UInt8.toNat_zero] at httl
      omega
    have hle : (1 : UInt8) ≤ ttl := by
      rw [UInt8.le_iff_toNat_le]
      change 1 ≤ _
      omega
    have hdec : (ttl - 1).toNat = ttl.toNat - 1 := UInt8.toNat_sub_of_le _ _ hle
    have hsub : ttl - 1 - UInt8.ofNat hops.length = ttl - UInt8.ofNat (hops.length + 1) := by
      rw [UInt8.ofNat_add, UInt8.sub_eq_iff_eq_add, UInt8.sub_eq_iff_eq_add, UInt8.add_assoc]
      exact (UInt8.sub_add_cancel _ _).symm
    rw [relayChain, (hrelay hop List.mem_cons_self).head?_sent_recv hne hm, Option.bind_some,
      ih (fun hop' h ↦ hrelay hop' (List.mem_cons_of_mem _ h)) (by rw [hdec]; omega), hsub,
      List.length_cons]

/-! ## The frame at the bridge -/

theorem length_radioBuf_le {rhTo rhFrom rhId rhFlags src ttl seq : UInt8} {m : List UInt8}
    (hm : m.length ≤ 47) :
    ([rhTo, rhFrom, rhId, rhFlags] ++ uplinkFrame src ttl seq m).length ≤ GW_PAYLOAD_MAX := by
  have h : (uplinkFrame src ttl seq m).length ≤ 64 := length_frame_le hm
  rw [List.length_append]
  change 4 + _ ≤ 255
  omega

/-- The bridge takes the frame apart and finds the message. -/
theorem rxDecode_uplinkFrame (evp : Evp) (rhTo rhFrom rhId rhFlags src ttl seq : UInt8)
    {m : List UInt8} (hpos : 0 < m.length) (hm : m.length ≤ 47)
    (hrange : ¬(src ∈ OUT_OF_RANGE ∧ MESH_TTL_DEFAULT - ttl = 0)) :
    ∃ hpay, rxDecode evp ⟨[rhTo, rhFrom, rhId, rhFlags] ++ uplinkFrame src ttl seq m,
        length_radioBuf_le hm⟩
      = some ⟨⟨src, MESH_ADDR_GATEWAY, ttl, seq, sealed m, hpay⟩, rhId, MESH_TTL_DEFAULT - ttl,
        m⟩ := by
  have hpay : (sealed m).length ≤ MESH_PAYLOAD_MAX := by
    rw [length_sealed]
    change _ ≤ 247
    omega
  have hplain := gwAesDecrypt_sealed evp m (by omega)
  refine ⟨hpay, (rxDecode_eq evp rhTo rhFrom rhId rhFlags src ttl seq (length_sealed_pos m) hpay
    (length_radioBuf_le hm) hrange ?_).trans ?_⟩
  · rw [hplain]
    exact hpos.ne'
  · rw [hplain]

/-- **Uplink delivery.** What a node sends arrives at the socket of its client slot as it was, after
any number of relays within the TTL, and with every relay counted. -/
theorem onRxDone_mqttsnTransportSend (evp : Evp) (cfg : NodeConfig) (t : Transport) (m : List UInt8)
    (hops : List Hop) (gw : Gateway) (os : Os) (rhTo rhFrom rhId rhFlags : UInt8)
    (hpos : 1 ≤ m.length) (hle : m.length ≤ 47) (hk : hops.length ≤ MESH_TTL_DEFAULT.toNat)
    (hrelay : ∀ hop ∈ hops, hop.Relays cfg.myNodeId (t.seqNum + 1))
    (hrange : cfg.myNodeId ∈ OUT_OF_RANGE → 1 ≤ hops.length)
    (hfresh : isConnect m = true ∨ gwDedupSeen gw cfg.myNodeId (t.seqNum + 1) = false)
    (hslot : SlotAvailable gw.clients cfg.myNodeId os) :
    ∃ a frame, (mqttsnTransportSend cfg t m true).2.1 = some a ∧
      relayChain hops a.raw = some frame ∧
      frame = a.raw.set 2 (MESH_TTL_DEFAULT - UInt8.ofNat hops.length) ∧
      ∃ (h : ([rhTo, rhFrom, rhId, rhFlags] ++ frame).length ≤ GW_PAYLOAD_MAX) (gw' : Gateway)
        (s : Sendto),
        onRxDone evp gw ⟨[rhTo, rhFrom, rhId, rhFlags] ++ frame, h⟩ os = (gw', some s) ∧
        s.data = m ∧ gw'.clients[s.client].active = true ∧
        gw'.clients[s.client].nodeId = cfg.myNodeId ∧ s.sock = gw'.clients[s.client].udpSock ∧
        gw'.clients[s.client].hopTotal
          = (getOrCreateClient gw.clients cfg.myNodeId (isConnect m) os).1[s.client].hopTotal
            + UInt32.ofNat hops.length := by
  have hk3 : hops.length ≤ 3 := hk
  have hcount : MESH_TTL_DEFAULT - (MESH_TTL_DEFAULT - UInt8.ofNat hops.length)
      = UInt8.ofNat hops.length := by
    rw [UInt8.sub_eq_iff_eq_add, UInt8.add_comm, UInt8.sub_add_cancel]
  have hval : (UInt8.ofNat hops.length).toNat = hops.length :=
    UInt8.toNat_ofNat_of_lt (Nat.lt_of_le_of_lt hk3 (by decide))
  -- a frame that a relay has sent on is not taken for one from out of range
  have hrange' : ¬(cfg.myNodeId ∈ OUT_OF_RANGE ∧
      MESH_TTL_DEFAULT - (MESH_TTL_DEFAULT - UInt8.ofNat hops.length) = 0) := by
    rintro ⟨hmem, hzero⟩
    rw [hcount, ← UInt8.toNat_inj, hval, UInt8.toNat_zero] at hzero
    have := hrange hmem
    omega
  obtain ⟨hpay, hdec⟩ := rxDecode_uplinkFrame evp rhTo rhFrom rhId rhFlags cfg.myNodeId
    (MESH_TTL_DEFAULT - UInt8.ofNat hops.length) (t.seqNum + 1) hpos hle hrange'
  rw [hcount] at hdec
  have hwide : (UInt8.ofNat hops.length).toUInt32 = UInt32.ofNat hops.length := by
    apply UInt32.toNat_inj.mp
    rw [UInt8.toNat_toUInt32, hval, UInt32.toNat_ofNat', Nat.mod_eq_of_lt (by omega)]
  refine ⟨_, uplinkFrame cfg.myNodeId (MESH_TTL_DEFAULT - UInt8.ofNat hops.length) (t.seqNum + 1) m,
    by rw [mqttsnTransportSend_eq cfg t m hpos hle], relayChain_eq hrelay hle hk, rfl,
    length_radioBuf_le hle, ?_⟩
  rw [gwDedupSeen_eq_false_iff] at hfresh
  obtain ⟨gw', s, hrx, hdata, hact, hid, hsock, hhop⟩ :=
    onRxDone_of_accepts hdec (rxAccepts_iff.mpr hfresh) hslot
  rw [hwide] at hhop
  exact ⟨gw', s, hrx, hdata, hact, hid, hsock, hhop⟩

/-- A PINGREQ of the node `0x24`, relayed once by `0x23` and received by a bridge that has seen
nothing yet. -/
theorem onRxDone_mqttsnTransportSend_pingreq :
    ∃ a frame, (mqttsnTransportSend arduino04 Transport.boot [0x02, 0x16] true).2.1 = some a ∧
      relayChain [⟨arduino03, Transport.boot, List.replicate 23 0, 200, 0, -60, 200, []⟩] a.raw
        = some frame ∧
      ∃ h gw' s, onRxDone Evp.software Gateway.boot ⟨[0x00, 0x23, 0x00, 0x00] ++ frame, h⟩
        ⟨1000, 5, true⟩ = (gw', some s) ∧ s.data = [0x02, 0x16] := by
  have hrelay : ∀ hop ∈ [(⟨arduino03, Transport.boot, List.replicate 23 0, 200, 0, -60, 200, []⟩ :
      Hop)], hop.Relays arduino04.myNodeId (Transport.boot.seqNum + 1) := by
    intro hop hmem
    rw [List.mem_singleton.mp hmem]
    exact ⟨rfl, by decide, dedupSeen_boot _ _⟩
  have hslot : SlotAvailable Gateway.boot.clients arduino04.myNodeId ⟨1000, 5, true⟩ :=
    Or.inr ⟨⟨⟨0, by decide⟩, by decide⟩, by decide, rfl⟩
  have hfresh : gwDedupSeen Gateway.boot arduino04.myNodeId (Transport.boot.seqNum + 1) = false :=
    gwDedupSeen_boot _ _
  obtain ⟨a, frame, hsend, hchain, -, h, gw', s, hrx, hdata, -⟩ :=
    onRxDone_mqttsnTransportSend Evp.software arduino04 Transport.boot [0x02, 0x16] _ Gateway.boot
      ⟨1000, 5, true⟩ 0x00 0x23 0x00 0x00 (by decide) (by decide) (by decide) hrelay
      (fun _ ↦ Nat.le_refl 1) (Or.inr hfresh) hslot
  exact ⟨a, frame, hsend, hchain, h, gw', s, hrx, hdata⟩

end Emcs.Delivery
