import Emcs.Bridge.Gateway

/-!
# The client registry and the duplicate cache of the bridge

Spec lemmas: when `get_or_create_client` finds a slot, which slot that is, and what `gw_dedup_seen`
says about the ring.

## The outcomes

`get_or_create_client` ends in one of four ways (`Lookup`): the node has a slot; all slots are
active and it has none; the first free slot is filled in for it; or `socket` or `bind` fails in that
slot, which stays inactive. Which of them it is depends on the table and the answers of the system,
and `SlotAvailable` says when the result is a slot. Everything that the bridge does with a packet is
said in terms of these two, so nothing after this module opens the loops over the table again.
-/

namespace Emcs.Bridge

open Mesh

theorem gwDedupSeen_iff {gw : Gateway} {src seq : UInt8} :
    gwDedupSeen gw src seq = true ↔ (src, seq) ∈ gw.gwDedup := by
  rw [gwDedupSeen, RingCache.any_slots]
  constructor
  · rintro ⟨⟨src', seq'⟩, hmem, h⟩
    rw [Bool.and_eq_true, beq_iff_eq, beq_iff_eq] at h
    rwa [← h.1, ← h.2]
  · intro h
    refine ⟨(src, seq), h, ?_⟩
    rw [Bool.and_eq_true, beq_iff_eq, beq_iff_eq]
    exact ⟨rfl, rfl⟩

theorem gwDedupSeen_eq_false_iff {gw : Gateway} {src seq : UInt8} :
    gwDedupSeen gw src seq = false ↔ (src, seq) ∉ gw.gwDedup := by
  rw [← Bool.not_eq_true, gwDedupSeen_iff]

theorem gwDedupSeen_boot (src seq : UInt8) : gwDedupSeen Gateway.boot src seq = false :=
  gwDedupSeen_eq_false_iff.mpr (RingCache.not_mem_empty _ _)

/-- `get_or_create_client` has a slot for the node: it is registered, or a slot is free and the
operating system gives a bound socket. -/
def SlotAvailable (clients : Vector Client MAX_CLIENTS) (srcId : UInt8) (os : Os) : Prop :=
  (∃ i : Fin MAX_CLIENTS, clients[i].active = true ∧ clients[i].nodeId = srcId) ∨
    (∃ i : Fin MAX_CLIENTS, clients[i].active = false) ∧ 0 ≤ os.sock ∧ os.bindOk = true

/-! ## Looking a node up -/

/-- What `get_or_create_client` does, with the table and the slot it returns. -/
inductive Lookup (clients : Vector Client MAX_CLIENTS) (srcId : UInt8) (connect : Bool) (os : Os) :
    Vector Client MAX_CLIENTS × Option (Fin MAX_CLIENTS) → Prop where
  | found (i : Fin MAX_CLIENTS) (hactive : clients[i].active = true)
      (hid : clients[i].nodeId = srcId) :
      Lookup clients srcId connect os
        (clients.set i (refreshClient clients[i] connect os) i.isLt, some i)
  | full (hnew : ∀ j : Fin MAX_CLIENTS, clients[j].active = true → clients[j].nodeId ≠ srcId)
      (hfull : ∀ j : Fin MAX_CLIENTS, clients[j].active = true) :
      Lookup clients srcId connect os (clients, none)
  | created (i : Fin MAX_CLIENTS) (hfree : clients[i].active = false)
      (hnew : ∀ j : Fin MAX_CLIENTS, clients[j].active = true → clients[j].nodeId ≠ srcId)
      (hsock : 0 ≤ os.sock) (hbind : os.bindOk = true) :
      Lookup clients srcId connect os
        (clients.set i (createClient clients[i] i srcId os) i.isLt, some i)
  | failed (i : Fin MAX_CLIENTS) (hfree : clients[i].active = false)
      (hnew : ∀ j : Fin MAX_CLIENTS, clients[j].active = true → clients[j].nodeId ≠ srcId)
      (hos : os.sock < 0 ∨ os.bindOk = false) :
      Lookup clients srcId connect os
        (clients.set i (createClient clients[i] i srcId os) i.isLt, none)

theorem createClient_active (c : Client) (i : ℕ) (srcId : UInt8) {os : Os} (hsock : 0 ≤ os.sock)
    (hbind : os.bindOk = true) :
    (createClient c i srcId os).active = true ∧ (createClient c i srcId os).nodeId = srcId := by
  simp only [createClient, hbind]
  rw [if_neg (by omega)]
  exact ⟨rfl, rfl⟩

theorem createClient_inactive (c : Client) (i : ℕ) (srcId : UInt8) {os : Os}
    (h : os.sock < 0 ∨ os.bindOk = false) : (createClient c i srcId os).active = false := by
  rw [createClient]
  dsimp only
  by_cases hsock : os.sock < 0
  · rw [if_pos hsock]
  · rw [if_neg hsock, h.resolve_left hsock]
    rfl

theorem lookup (clients : Vector Client MAX_CLIENTS) (srcId : UInt8) (connect : Bool) (os : Os) :
    Lookup clients srcId connect os (getOrCreateClient clients srcId connect os) := by
  rw [getOrCreateClient]
  cases hreg : Slots.first (fun c ↦ c.active && c.nodeId == srcId) clients with
  | some i =>
    have hi := Slots.of_first_eq_some hreg
    rw [Bool.and_eq_true, beq_iff_eq] at hi
    exact .found i hi.1 hi.2
  | none =>
    have hnew : ∀ j : Fin MAX_CLIENTS, clients[j].active = true → clients[j].nodeId ≠ srcId := by
      intro j hactive hid
      have hj := Slots.first_eq_none_iff.mp hreg j
      rw [hactive, hid, beq_self_eq_true] at hj
      exact Bool.false_ne_true hj.symm
    dsimp only
    cases hfree : Slots.first (fun c ↦ !c.active) clients with
    | none =>
      exact .full hnew fun j ↦ by simpa using Slots.first_eq_none_iff.mp hfree j
    | some i =>
      have hi : clients[i].active = false := by simpa using Slots.of_first_eq_some hfree
      dsimp only
      by_cases hos : os.sock < 0 ∨ os.bindOk = false
      · rw [if_neg (by rw [createClient_inactive _ _ _ hos]; exact Bool.false_ne_true)]
        exact .failed i hi hnew hos
      · rw [not_or, not_lt, Bool.not_eq_false] at hos
        rw [if_pos (createClient_active clients[i] i srcId hos.1 hos.2).1]
        exact .created i hi hnew hos.1 hos.2

/-- **A slot is found whenever one is available**, it is active afterwards, and it is the slot of
the node. -/
theorem getOrCreateClient_of_available {clients : Vector Client MAX_CLIENTS} {srcId : UInt8}
    (connect : Bool) {os : Os} (h : SlotAvailable clients srcId os) :
    ∃ clients' i, getOrCreateClient clients srcId connect os = (clients', some i) ∧
      clients'[i].active = true ∧ clients'[i].nodeId = srcId := by
  have hlookup := lookup clients srcId connect os
  generalize getOrCreateClient clients srcId connect os = r at hlookup ⊢
  cases hlookup with
  | found i hactive hid =>
    refine ⟨_, i, rfl, ?_, ?_⟩
    · rw [Slots.get_set_self]
      cases connect <;> exact hactive
    · rw [Slots.get_set_self]
      cases connect <;> exact hid
  | full hnew hfull =>
    rcases h with ⟨i, hactive, hid⟩ | ⟨⟨i, hfree⟩, -⟩
    · exact absurd hid (hnew i hactive)
    · exact absurd (hfree.symm.trans (hfull i)) Bool.false_ne_true
  | created i hfree hnew hsock hbind =>
    obtain ⟨hactive, hid⟩ := createClient_active clients[i] i srcId hsock hbind
    refine ⟨_, i, rfl, ?_, ?_⟩
    · rw [Slots.get_set_self, hactive]
    · rw [Slots.get_set_self, hid]
  | failed i hfree hnew hos =>
    rcases h with ⟨j, hactive, hid⟩ | ⟨-, hsock, hbind⟩
    · exact absurd hid (hnew j hactive)
    · rw [hbind] at hos
      exact absurd hos (not_or.mpr ⟨not_lt.mpr hsock, by decide⟩)

/-! ## What the bridge does with a packet -/

theorem rxAccepts_iff {gw : Gateway} {p : RxPacket} :
    rxAccepts gw p = true ↔
      isConnect p.plain = true ∨ (p.pkt.srcId, p.pkt.seqNum) ∉ gw.gwDedup := by
  rw [rxAccepts, Bool.not_eq_true', gwDedupSeen_eq_false_iff, clearIfConnect]
  by_cases hc : isConnect p.plain = true
  · rw [if_pos hc, gwDedupClearSrc, RingCache.mem_invalidate, beq_self_eq_true]
    exact ⟨fun _ ↦ Or.inl hc, fun _ h ↦ Bool.false_ne_true h.2.symm⟩
  · rw [if_neg hc]
    exact (or_iff_right hc).symm

/-- A frame that does not pass the duplicate check leaves everything as it is. -/
theorem rxHandle_of_not_accepts {gw : Gateway} {p : RxPacket} (os : Os)
    (h : rxAccepts gw p = false) : rxHandle gw p os = (gw, none) := by
  have hc : isConnect p.plain ≠ true := fun hc ↦
    Bool.false_ne_true (h.symm.trans (rxAccepts_iff.mpr (Or.inl hc)))
  rw [rxHandle, h, clearIfConnect, if_neg hc]
  rfl

/-- The state in which an accepted frame is handed over. -/
def accepted (gw : Gateway) (p : RxPacket) : Gateway :=
  gwDedupAdd (clearIfConnect gw p) p.pkt.srcId p.pkt.seqNum

theorem rxHandle_of_accepts {gw : Gateway} {p : RxPacket} (os : Os) (h : rxAccepts gw p = true) :
    rxHandle gw p os = forwardToPaho (accepted gw p) p.pkt.srcId p.rhSeq p.hopsTaken p.plain
      (isConnect p.plain) os := by
  rw [rxHandle, h]
  rfl

@[simp] theorem accepted_clients (gw : Gateway) (p : RxPacket) :
    (accepted gw p).clients = gw.clients := by
  cases h : isConnect p.plain <;> simp [accepted, clearIfConnect, h, gwDedupAdd, gwDedupClearSrc]

@[simp] theorem forwardToPaho_gwDedup (gw : Gateway) (srcId rhSeq hopsTaken : UInt8)
    (plain : List UInt8) (connect : Bool) (os : Os) :
    (forwardToPaho gw srcId rhSeq hopsTaken plain connect os).1.gwDedup = gw.gwDedup := by
  rw [forwardToPaho]
  split <;> rfl

theorem gwDedup_of_accepts {gw : Gateway} {p : RxPacket} (os : Os) (h : rxAccepts gw p = true) :
    (rxHandle gw p os).1.gwDedup
      = (clearIfConnect gw p).gwDedup.add (p.pkt.srcId, p.pkt.seqNum) := by
  rw [rxHandle_of_accepts os h, forwardToPaho_gwDedup]
  rfl

/-- **Taking a frame apart**: the checks of `on_rx_done` on a frame for the bridge. -/
theorem rxDecode_eq (evp : Evp) (rhTo rhFrom rhId rhFlags src ttl seq : UInt8)
    {payload : List UInt8} (hpos : 0 < payload.length) (hpay : payload.length ≤ MESH_PAYLOAD_MAX)
    (hbuf : ([rhTo, rhFrom, rhId, rhFlags]
        ++ ([src, MESH_ADDR_GATEWAY, ttl, seq] ++ payload)).length
      ≤ GW_PAYLOAD_MAX)
    (hrange : ¬(src ∈ OUT_OF_RANGE ∧ MESH_TTL_DEFAULT - ttl = 0))
    (hplain : (gwAesDecrypt evp payload GW_PAYLOAD_MAX).length ≠ 0) :
    rxDecode evp ⟨[rhTo, rhFrom, rhId, rhFlags] ++
        ([src, MESH_ADDR_GATEWAY, ttl, seq] ++ payload), hbuf⟩
      = some ⟨⟨src, MESH_ADDR_GATEWAY, ttl, seq, payload, hpay⟩, rhId, MESH_TTL_DEFAULT - ttl,
        gwAesDecrypt evp payload GW_PAYLOAD_MAX⟩ := by
  have hsize : ¬(([rhTo, rhFrom, rhId, rhFlags] ++
      ([src, MESH_ADDR_GATEWAY, ttl, seq] ++ payload)).length < FRAME_HDR_TOTAL + 1 ∨
      ([rhTo, rhFrom, rhId, rhFlags] ++
      ([src, MESH_ADDR_GATEWAY, ttl, seq] ++ payload)).length > GW_PAYLOAD_MAX) := by
    rintro (h | h)
    · rw [List.length_append, List.length_append] at h
      change 4 + (4 + payload.length) < 9 at h
      omega
    · exact Nat.not_lt.mpr hbuf h
  have hdst : ¬(MESH_ADDR_GATEWAY ≠ MESH_ADDR_GATEWAY ∧ MESH_ADDR_GATEWAY ≠ MESH_ADDR_BROADCAST) :=
    fun h ↦ h.1 rfl
  rw [rxDecode, if_neg hsize]
  refine (if_neg hrange).trans ?_
  refine (if_neg hdst).trans ?_
  refine (if_neg hpos.ne').trans ?_
  exact if_neg hplain

/-- A packet shows the header of the frame it was taken from. -/
theorem drop_of_rxDecode {evp : Evp} {buf : RadioBuf} {p : RxPacket}
    (h : rxDecode evp buf = some p) : buf.val.drop RH_HDR
      = [p.pkt.srcId, p.pkt.dstId, p.pkt.ttl, p.pkt.seqNum] ++ p.pkt.payload := by
  rw [rxDecode] at h
  split at h
  · contradiction
  · dsimp only at h
    split at h
    · contradiction
    · rename_i pkt hdec
      split at h
      · contradiction
      split at h
      · contradiction
      split at h
      · contradiction
      split at h
      · contradiction
      rw [← Option.some_inj.mp h]
      exact eq_of_meshDecode hdec

/-- **Handing over**: the datagram goes out on the slot of the node, and the slot counts the
hops. -/
theorem forwardToPaho_of_available {gw : Gateway} {srcId : UInt8} {os : Os}
    (rhSeq hopsTaken : UInt8) (plain : List UInt8) (connect : Bool)
    (h : SlotAvailable gw.clients srcId os) :
    ∃ gw' s, forwardToPaho gw srcId rhSeq hopsTaken plain connect os = (gw', some s) ∧
      s.data = plain ∧ gw'.clients[s.client].active = true ∧
      gw'.clients[s.client].nodeId = srcId ∧ s.sock = gw'.clients[s.client].udpSock ∧
      gw'.clients[s.client].hopTotal
        = (getOrCreateClient gw.clients srcId connect os).1[s.client].hopTotal
          + hopsTaken.toUInt32 := by
  obtain ⟨clients, i, heq, hact, hid⟩ := getOrCreateClient_of_available connect h
  rw [forwardToPaho, heq]
  refine ⟨_, _, rfl, rfl, ?_, ?_, ?_, ?_⟩
  · rw [Slots.get_set_self]
    exact hact
  · rw [Slots.get_set_self]
    exact hid
  · rw [Slots.get_set_self]
  · rw [Slots.get_set_self]

theorem onRxDone_of_decode {evp : Evp} {buf : RadioBuf} {p : RxPacket}
    (h : rxDecode evp buf = some p) (gw : Gateway) (os : Os) :
    onRxDone evp gw buf os = rxHandle gw p os := by
  rw [onRxDone, h]

/-- **An accepted frame goes out** on the slot of its node. -/
theorem rxHandle_of_available {gw : Gateway} {p : RxPacket} {os : Os}
    (hacc : rxAccepts gw p = true) (hslot : SlotAvailable gw.clients p.pkt.srcId os) :
    ∃ gw' s, rxHandle gw p os = (gw', some s) ∧ s.data = p.plain ∧
      gw'.clients[s.client].active = true ∧ gw'.clients[s.client].nodeId = p.pkt.srcId ∧
      s.sock = gw'.clients[s.client].udpSock ∧
      gw'.clients[s.client].hopTotal
        = (getOrCreateClient gw.clients p.pkt.srcId (isConnect p.plain) os).1[s.client].hopTotal
          + p.hopsTaken.toUInt32 := by
  rw [rxHandle_of_accepts os hacc]
  rw [← accepted_clients gw p] at hslot ⊢
  exact forwardToPaho_of_available p.rhSeq p.hopsTaken p.plain (isConnect p.plain) hslot

theorem onRxDone_of_accepts {evp : Evp} {gw : Gateway} {buf : RadioBuf} {p : RxPacket} {os : Os}
    (hdec : rxDecode evp buf = some p) (hacc : rxAccepts gw p = true)
    (hslot : SlotAvailable gw.clients p.pkt.srcId os) :
    ∃ gw' s, onRxDone evp gw buf os = (gw', some s) ∧ s.data = p.plain ∧
      gw'.clients[s.client].active = true ∧ gw'.clients[s.client].nodeId = p.pkt.srcId ∧
      s.sock = gw'.clients[s.client].udpSock ∧
      gw'.clients[s.client].hopTotal
        = (getOrCreateClient gw.clients p.pkt.srcId (isConnect p.plain) os).1[s.client].hopTotal
          + p.hopsTaken.toUInt32 := by
  rw [onRxDone_of_decode hdec]
  exact rxHandle_of_available hacc hslot

/-! ## Downlink frames -/

/-- What is on the air behind the radio header, whenever `lora_send` sends something. -/
theorem drop_of_loraSend {evp : Evp} {dst seq : UInt8} {data frame : List UInt8}
    (h : loraSend evp dst seq data = some frame) :
    frame.drop RH_HDR = [MESH_ADDR_GATEWAY, dst, MESH_TTL_DEFAULT, seq] ++
      gwAesEncrypt evp data GW_PAYLOAD_MAX := by
  rw [loraSend] at h
  by_cases h₁ : (gwAesEncrypt evp data GW_PAYLOAD_MAX).length = 0
  · rw [if_pos h₁] at h
    exact nomatch h
  rw [if_neg h₁] at h
  by_cases h₂ : (gwAesEncrypt evp data GW_PAYLOAD_MAX).length + FRAME_HDR_TOTAL > GW_PAYLOAD_MAX
  · rw [dif_pos h₂] at h
    exact nomatch h
  rw [dif_neg h₂] at h
  dsimp only at h
  have hfit :
      MESH_HEADER_SIZE + (gwAesEncrypt evp data GW_PAYLOAD_MAX).length ≤ GW_PAYLOAD_MAX := by
    have h₃ : ¬255 < (gwAesEncrypt evp data GW_PAYLOAD_MAX).length + 8 := h₂
    change 4 + _ ≤ 255
    omega
  rw [meshEncode_eq _ hfit] at h
  split at h
  · exact nomatch h
  · rw [← Option.some_inj.mp h]
    rfl

end Emcs.Bridge
