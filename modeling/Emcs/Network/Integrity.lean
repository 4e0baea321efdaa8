import Emcs.Bridge.Sockets
import Emcs.Bridge.Table
import Emcs.Delivery.Transparency
import Emcs.Delivery.Uplink
import Emcs.Network.Freshness

/-!
# What the mesh delivers

Frames are lost, repeated and overtaken, relays cut them off, nodes restart and slots change hands.
Whatever happens: what the bridge hands to a socket is a message of the node that has the slot, and
what a node receives was read from the socket of a slot that the node had then. Messages arrive
whole or not at all.

A frame on the air carries the sealed message of a node for the bridge, or one of the bridge for a
node. What a relay has cut off is no whole number of blocks, and cannot be decrypted.

## The invariant

`Intact` says of every frame on the air that it carries a message that was sent by a node, or read
from a socket for one, and of the slots that they are leased to ids of nodes. The histories `sent`
and `read` only grow, so a frame that was in order stays in order however late it is delivered. What
is delivered is read off a frame that carries a message: a whole one is unsealed to this message,
and one that was cut off is refused (`turn_deliverFrame_of_mod`).
-/

namespace Emcs.Network

open Bridge Mesh Delivery

variable {ι : Type} {cfg : ι → NodeConfig} {evp : Evp} {sent sent' : ι → List UInt8 → Prop}
  {read read' : UInt8 → List UInt8 → Prop} {raw : List UInt8} {src dst : UInt8} {m : List UInt8}

/-! ## Frames -/

/-- The bytes of a frame with a message. A relay that could not take all of them has sent on the
first 64. -/
def Carries (raw : List UInt8) (src dst : UInt8) (m : List UInt8) : Prop :=
  ∃ ttl seq, raw = [src, dst, ttl, seq] ++ sealed m ∨
    raw = [src, dst, ttl, seq] ++ (sealed m).take 60

theorem Carries.of_short (h : Carries raw src dst m) (hm : m.length ≤ 47) :
    ∃ ttl seq, raw = [src, dst, ttl, seq] ++ sealed m := by
  obtain ⟨ttl, seq, heq | heq⟩ := h
  · exact ⟨ttl, seq, heq⟩
  · rw [List.take_of_length_le] at heq
    · exact ⟨ttl, seq, heq⟩
    · rw [length_sealed]
      omega

theorem take_frame (src dst ttl seq : UInt8) (payload : List UInt8) :
    ([src, dst, ttl, seq] ++ payload).take LORA_BUF_SIZE
      = [src, dst, ttl, seq] ++ payload.take 60 := rfl

theorem eq_of_frame {src dst ttl seq src' dst' ttl' seq' : UInt8} {payload payload' : List UInt8}
    (h : [src, dst, ttl, seq] ++ payload = [src', dst', ttl', seq'] ++ payload') :
    src = src' ∧ dst = dst' ∧ payload = payload' := by
  simp only [List.cons_append, List.nil_append, List.cons.injEq] at h
  exact ⟨h.1, h.2.1, h.2.2.2.2⟩

theorem Carries.take (h : Carries raw src dst m) :
    ∃ ttl seq, raw.take LORA_BUF_SIZE = [src, dst, ttl, seq] ++ (sealed m).take 60 := by
  obtain ⟨ttl, seq, rfl | rfl⟩ := h
  · exact ⟨ttl, seq, take_frame _ _ _ _ _⟩
  · refine ⟨ttl, seq, ?_⟩
    rw [take_frame, List.take_take, Nat.min_self]

theorem Carries.forwarded {c : NodeConfig} {t : Transport} {buf : List UInt8} {rssi : Int16}
    {fwdOk : Bool} {a : AirFrame} (h : Carries raw src dst m)
    (ha : (receiveFrame c t buf (raw.take LORA_BUF_SIZE) rssi fwdOk).sent = some a) :
    Carries a.raw src dst m := by
  obtain ⟨ttl, seq, heq⟩ := h.take
  rw [heq] at ha
  exact ⟨ttl - 1, seq, Or.inr (raw_of_sent_receiveFrame ha)⟩

theorem turn_deliverFrame_of_mod {t : Transport} {buf payload : List UInt8} {ttl seq : UInt8}
    (h : payload.length % 16 ≠ 0) : (deliverFrame t buf src ttl seq payload).turn = .next := by
  rw [deliverFrame]
  split
  · rfl
  · dsimp only
    rw [aesDecryptPayload, if_pos (Or.inr (Or.inl h))]
    rfl

/-- **What a node returns is the message**, which was for this node. -/
theorem Carries.returned {c : NodeConfig} {t : Transport} {buf : List UInt8} {rssi : Int16}
    {fwdOk : Bool} {n : ℕ} (h : Carries raw src dst m) (hpos : 0 < m.length)
    (hret : (receiveFrame c t buf (raw.take LORA_BUF_SIZE) rssi fwdOk).turn = .ret n) :
    (dst = c.myNodeId ∨ dst = MESH_ADDR_BROADCAST) ∧
      (receiveFrame c t buf (raw.take LORA_BUF_SIZE) rssi fwdOk).buf.take n = m := by
  obtain ⟨ttl, seq, heq⟩ := h.take
  rw [heq] at hret ⊢
  cases hseen : dedupSeen t src seq with
  | true =>
    rw [receiveFrame_seen hseen] at hret
    contradiction
  | false =>
    by_cases hdst : dst = c.myNodeId ∨ dst = MESH_ADDR_BROADCAST
    · rw [receiveFrame_for_me hseen hdst] at hret ⊢
      refine ⟨hdst, ?_⟩
      by_cases hlen : (sealed m).length ≤ 60
      · rw [List.take_of_length_le hlen] at hret ⊢
        -- a ciphertext that does not fit the buffer is not decrypted
        have hfit : (sealed m).length ≤ buf.length := by
          by_contra hlong
          rw [deliverFrame_too_long _ _ _ _ _ _ (Nat.not_le.mp hlong)] at hret
          contradiction
        obtain ⟨hturn, hbuf⟩ := deliverFrame_sealed { t with lastRssi := rssi } buf src ttl seq m
          hpos hfit
        rw [Turn.ret.inj (hret.symm.trans hturn)]
        exact hbuf
      · have hcut : ((sealed m).take 60).length = 60 := by
          rw [List.length_take]
          omega
        rw [turn_deliverFrame_of_mod (by rw [hcut]; decide)] at hret
        contradiction
    · rw [receiveFrame_for_other hseen hdst, forwardFrame] at hret
      split at hret
      · contradiction
      · split at hret
        · contradiction
        · contradiction

/-! ## The invariant -/

variable (cfg sent read) in
/-- **Every frame carries a message**: one that a node has sent to the bridge, or one that was read
for a node. The slots are leased to nodes. -/
structure Intact (s : Net ι) : Prop where
  leased : ∀ {i n port}, leases s.gateway.clients i = some (n, port) → ∃ x, (cfg x).myNodeId = n
  staged : ∀ p ∈ s.staged, (∃ x, (cfg x).myNodeId = p.2.node) ∧
    ∃ data, read p.2.node data ∧ 0 < data.length ∧ p.2.data = data.take GW_PAYLOAD_MAX
  air : ∀ c ∈ s.air,
    (∃ x m, sent x m ∧ 0 < m.length ∧ m.length ≤ 47 ∧
      Carries c.raw (cfg x).myNodeId MESH_ADDR_GATEWAY m) ∨
    ∃ x data, read (cfg x).myNodeId data ∧ 0 < data.length ∧ data.length ≤ 239 ∧
      Carries c.raw MESH_ADDR_GATEWAY (cfg x).myNodeId data

theorem Intact.mono {s : Net ι} (hs : Intact cfg sent read s) (hsent : ∀ x m, sent x m → sent' x m)
    (hread : ∀ n data, read n data → read' n data) : Intact cfg sent' read' s where
  leased := hs.leased
  staged p hp := by
    obtain ⟨hnode, data, hdata, hrest⟩ := hs.staged p hp
    exact ⟨hnode, data, hread _ _ hdata, hrest⟩
  air c hc := by
    rcases hs.air c hc with ⟨x, m, hm, hrest⟩ | ⟨x, data, hdata, hrest⟩
    · exact Or.inl ⟨x, m, hsent x m hm, hrest⟩
    · exact Or.inr ⟨x, data, hread _ _ hdata, hrest⟩

theorem leases_boot (i : Fin MAX_CLIENTS) :
    leases (Net.boot : Net ι).gateway.clients i = none := by
  rw [Net.boot, leases, Host.boot_inactive]
  rfl

theorem Intact.boot : Intact cfg sent read (Net.boot : Net ι) where
  leased {i n port} h := by
    rw [leases_boot] at h
    contradiction
  staged _ h := absurd h List.not_mem_nil
  air _ h := absurd h List.not_mem_nil

/-! ## The steps of the nodes -/

/-- A node sends messages that fit its encryption buffer, and no others. -/
theorem length_le_of_sent {c : NodeConfig} {t : Transport} {ok : Bool} {a : AirFrame}
    (hm : m.length ≤ 239) (h : (mqttsnTransportSend c t m ok).2.1 = some a) :
    0 < m.length ∧ m.length ≤ 47 := by
  rw [mqttsnTransportSend] at h
  by_cases hpos : m.length = 0
  · rw [if_pos hpos] at h
    contradiction
  refine ⟨Nat.pos_of_ne_zero hpos, ?_⟩
  by_contra hlong
  have hnil : aesEncryptPayload m AES_BUF_SIZE = [] := by
    simp only [aesEncryptPayload]
    refine if_pos ?_
    change 48 < (m.length + (16 - m.length % 16)) % 256
    rw [paddedLen_mod hm]
    omega
  rw [if_neg hpos, hnil] at h
  contradiction

section

variable [DecidableEq ι]

theorem Intact.send {s : Net ι} (hs : Intact cfg sent read s) {x : ι} {ok : Bool} (hm : sent x m)
    (hlen : m.length ≤ 239) : Intact cfg sent read (stepSend cfg s x m ok) := by
  rw [stepSend]
  dsimp only
  split
  · exact ⟨hs.leased, hs.staged, hs.air⟩
  refine ⟨hs.leased, hs.staged, fun c hc ↦ ?_⟩
  rcases List.mem_append.mp hc with hc | hc
  · exact hs.air c hc
  obtain ⟨a, ha, rfl⟩ := List.mem_map.mp hc
  have ha' := Option.mem_toList.mp ha
  obtain ⟨hpos, hshort⟩ := length_le_of_sent hlen ha'
  rcases mqttsnTransportSend_cases (cfg x) (s.transport x) m ok with heq | ⟨-, hraw⟩
  · rw [heq] at ha'
    contradiction
  · have hcarries := hraw a ha'
    rw [aesEncryptPayload_eq m hshort] at hcarries
    exact Or.inl ⟨x, m, hm, hpos, hshort, _, _, Or.inl hcarries⟩

theorem Intact.deliver {s : Net ι} (hs : Intact cfg sent read s) (x : ι) {c : Copy} (hc : c ∈ s.air)
    (buf : List UInt8) (rssi : Int16) (fwdOk : Bool) :
    Intact cfg sent read (stepDeliver cfg s x c buf rssi fwdOk) := by
  refine ⟨hs.leased, hs.staged, fun c' hc' ↦ ?_⟩
  rcases List.mem_append.mp hc' with hc' | hc'
  · exact hs.air c' hc'
  obtain ⟨a, ha, rfl⟩ := List.mem_map.mp hc'
  have ha' := Option.mem_toList.mp ha
  rcases hs.air c hc with ⟨y, m, hm, hpos, hlen, h⟩ | ⟨y, data, hdata, hpos, hlen, h⟩
  · exact Or.inl ⟨y, m, hm, hpos, hlen, h.forwarded ha'⟩
  · exact Or.inr ⟨y, data, hdata, hpos, hlen, h.forwarded ha'⟩

end

/-! ## The steps of the bridge -/

/-- A packet that is taken apart is for the bridge or for all, and its message is decrypted. -/
theorem for_of_rxDecode {buf : RadioBuf} {p : RxPacket} (h : rxDecode evp buf = some p) :
    (p.pkt.dstId = MESH_ADDR_GATEWAY ∨ p.pkt.dstId = MESH_ADDR_BROADCAST) ∧
      p.plain = gwAesDecrypt evp p.pkt.payload GW_PAYLOAD_MAX := by
  rw [rxDecode] at h
  split at h
  · contradiction
  dsimp only at h
  split at h
  · contradiction
  rename_i pkt hdec
  split at h
  · contradiction
  split at h
  · contradiction
  rename_i hdst
  split at h
  · contradiction
  split at h
  · contradiction
  rw [← Option.some_inj.mp h]
  exact ⟨Decidable.or_iff_not_not_and_not.mpr hdst, rfl⟩

/-- **What the bridge takes from the air is a message of a node.** -/
theorem Intact.of_rxDecode {s : Net ι} (hs : Intact cfg sent read s)
    (hid : ∀ x, (cfg x).myNodeId ≠ MESH_ADDR_GATEWAY ∧ (cfg x).myNodeId ≠ MESH_ADDR_BROADCAST)
    {c : Copy} (hc : c ∈ s.air) {rh : UInt8 × UInt8 × UInt8 × UInt8} {hlen} {p : RxPacket}
    (hp : rxDecode evp (radioBuf rh c.raw hlen) = some p) :
    ∃ x, sent x p.plain ∧ (cfg x).myNodeId = p.pkt.srcId := by
  have hdrop : c.raw = [p.pkt.srcId, p.pkt.dstId, p.pkt.ttl, p.pkt.seqNum] ++ p.pkt.payload :=
    drop_of_rxDecode hp
  obtain ⟨hdst, hplain⟩ := for_of_rxDecode hp
  rcases hs.air c hc with ⟨x, m, hm, hpos, hshort, h⟩ | ⟨x, data, -, -, -, ttl, seq, h⟩
  · obtain ⟨ttl, seq, heq⟩ := h.of_short hshort
    obtain ⟨hsrc, -, hpayload⟩ := eq_of_frame (hdrop.symm.trans heq)
    refine ⟨x, ?_, hsrc.symm⟩
    rw [hplain, hpayload, gwAesDecrypt_sealed evp m (hshort.trans (by decide))]
    exact hm
  · -- a frame for a node is not for the bridge
    have hto : p.pkt.dstId = (cfg x).myNodeId := by
      rcases h with heq | heq
      · exact (eq_of_frame (hdrop.symm.trans heq)).2.1
      · exact (eq_of_frame (hdrop.symm.trans heq)).2.1
    rw [hto] at hdst
    exact (hdst.elim (hid x).1 (hid x).2).elim

theorem of_mem_stageClient {clients : Vector Client MAX_CLIENTS} {i : Fin MAX_CLIENTS}
    {dgram : Option (List UInt8)} {d : Staged} (h : d ∈ (stageClient clients i dgram).2) :
    ∃ port data, leases clients i = some (d.node, port) ∧ dgram = some data ∧ 0 < data.length ∧
      d.data = data.take GW_PAYLOAD_MAX := by
  rw [stageClient.eq_def] at h
  dsimp only at h
  split at h
  · contradiction
  rename_i data
  split at h
  · contradiction
  rename_i hready
  rw [not_or, Bool.not_eq_true', Bool.not_eq_false] at hready
  cases Option.some.inj h
  exact ⟨_, data, Client.lease_eq_some_iff.mpr ⟨hready.1, rfl, rfl⟩, rfl,
    Nat.pos_of_ne_zero hready.2, rfl⟩

/-- **What is staged was read from a socket**, that of a slot that is leased to the node. -/
theorem of_mem_collect {clients : Vector Client MAX_CLIENTS}
    {ready : Fin MAX_CLIENTS → Option (List UInt8)} {d : Staged}
    (h : d ∈ (collect clients ready).2) :
    ∃ i port data, leases clients i = some (d.node, port) ∧ ready i = some data ∧
      0 < data.length ∧ d.data = data.take GW_PAYLOAD_MAX := by
  rw [collect] at h
  suffices hall : ∀ (l : List (Fin MAX_CLIENTS)) (acc : Vector Client MAX_CLIENTS × List Staged),
      leases acc.1 = leases clients → d ∉ acc.2 →
      d ∈ (l.foldl (fun acc i ↦ ((stageClient acc.1 i (ready i)).1,
        acc.2 ++ (stageClient acc.1 i (ready i)).2.toList)) acc).2 →
      ∃ i port data, leases clients i = some (d.node, port) ∧ ready i = some data ∧
        0 < data.length ∧ d.data = data.take GW_PAYLOAD_MAX from
    hall _ _ rfl List.not_mem_nil h
  intro l
  induction l with
  | nil => exact fun _ _ hnot hmem ↦ absurd hmem hnot
  | cons i l ih =>
    intro acc hleases hnot hmem
    by_cases hnow : d ∈ (stageClient acc.1 i (ready i)).2
    · obtain ⟨port, data, hlease, hrest⟩ := of_mem_stageClient hnow
      exact ⟨i, port, data, hleases ▸ hlease, hrest⟩
    · refine ih _ ((Gateway.leases_stageClient i (ready i)).trans hleases) (fun hsome ↦ ?_) hmem
      exact (List.mem_append.mp hsome).elim hnot fun hd ↦ hnow (Option.mem_toList.mp hd)

theorem Intact.uplink {s : Net ι} (hs : Intact cfg sent read s)
    (hid : ∀ x, (cfg x).myNodeId ≠ MESH_ADDR_GATEWAY ∧ (cfg x).myNodeId ≠ MESH_ADDR_BROADCAST)
    {c : Copy} (hc : c ∈ s.air) (rh : UInt8 × UInt8 × UInt8 × UInt8) (os : Os) :
    Intact cfg sent read (stepUplink evp s c rh os) := by
  rw [stepUplink]
  split
  · rename_i hlen
    split
    · exact hs
    · rename_i p hp
      refine ⟨fun {i n port} hlease ↦ ?_, hs.staged, hs.air⟩
      dsimp only at hlease
      rw [onRxDone_of_decode hp] at hlease
      rcases Gateway.leases_rxHandle s.gateway p os with heq | ⟨-, j, hgrant⟩
      · exact hs.leased (heq ▸ hlease)
      · rw [hgrant.eq] at hlease
        by_cases hij : i = j
        · subst hij
          rw [Function.update_self] at hlease
          obtain ⟨x, -, hx⟩ := hs.of_rxDecode hid hc hp
          exact ⟨x, hx.trans (Prod.mk.inj (Option.some.inj hlease)).1⟩
        · rw [Function.update_of_ne hij] at hlease
          exact hs.leased hlease
  · exact hs

theorem Intact.stage {s : Net ι} (hs : Intact cfg sent read s)
    {ready : Fin MAX_CLIENTS → Option (List UInt8)}
    (hread : ∀ {i n port data}, leases s.gateway.clients i = some (n, port) → ready i = some data →
      s.staged = [] → read n data) : Intact cfg sent read (stepStage evp s ready) := by
  rw [stepStage]
  split
  · exact hs
  · rename_i hnone
    have hleases : leases (collect s.gateway.clients ready).1 = leases s.gateway.clients :=
      Gateway.leases_collect ready
    have hstaged (d : Staged) (hd : d ∈ (collect s.gateway.clients ready).2) := of_mem_collect hd
    generalize collect s.gateway.clients ready = r at hleases hstaged
    refine ⟨fun hlease ↦ hs.leased (hleases ▸ hlease), fun q hq ↦ ?_, hs.air⟩
    obtain ⟨i, port, data, hlease, hready, hpos, hdata⟩ := hstaged q.2 (List.of_mem_zip hq).2
    exact ⟨hs.leased hlease, data, hread hlease hready (not_not.mp hnone), hpos, hdata⟩

theorem Intact.transmit {s : Net ι} (hs : Intact cfg sent read s) :
    Intact cfg sent read (stepTransmit evp s) := by
  rw [stepTransmit]
  split
  · exact hs
  · rename_i tag d rest heq
    refine ⟨hs.leased, fun q hq ↦ hs.staged q (heq ▸ List.mem_cons_of_mem _ hq), fun c hc ↦ ?_⟩
    rcases List.mem_append.mp hc with hc | hc
    · exact hs.air c hc
    obtain ⟨f, hf, rfl⟩ := List.mem_map.mp hc
    have hsend := Option.mem_toList.mp hf
    obtain ⟨⟨x, hx⟩, data, hdata, hpos, htake⟩ := hs.staged (tag, d) (heq ▸ List.mem_cons_self)
    change (cfg x).myNodeId = d.node at hx
    change d.data = _ at htake
    have hle : d.data.length ≤ 239 := by
      refine length_le_of_loraSend ?_ hsend
      rw [htake, List.length_take]
      exact Nat.min_le_left _ _
    -- so nothing was cut off when it was read
    have hwhole : d.data = data := by
      rw [htake, List.length_take] at hle
      rw [htake]
      refine List.take_of_length_le ?_
      change min 255 _ ≤ _ at hle
      change _ ≤ 255
      omega
    refine Or.inr ⟨x, data, hx ▸ hdata, hpos, hwhole ▸ hle, MESH_TTL_DEFAULT, d.seq, Or.inl ?_⟩
    rw [hx, ← hwhole]
    exact drop_loraSend hle hsend

theorem Intact.expire {s : Net ι} (hs : Intact cfg sent read s) (now : ℤ) :
    Intact cfg sent read { s with gateway := expireClients s.gateway now } := by
  refine ⟨fun {i n port} hlease ↦ ?_, hs.staged, hs.air⟩
  dsimp only at hlease
  rw [leases, Gateway.get_expireClients] at hlease
  split at hlease
  · contradiction
  · exact hs.leased hlease

/-! ## What is delivered in every run -/

section

variable [DecidableEq ι]

/-- **Every step keeps the frames intact.** -/
theorem Intact.step {s : Net ι} (hs : Intact cfg sent read s)
    (hid : ∀ x, (cfg x).myNodeId ≠ MESH_ADDR_GATEWAY ∧ (cfg x).myNodeId ≠ MESH_ADDR_BROADCAST)
    {e : Event ι} (hsent : ∀ {x m ok}, e = .send x m ok → sent x m ∧ m.length ≤ 239)
    (hread : ∀ {ready i n port data}, e = .stage ready → s.staged = [] →
      leases s.gateway.clients i = some (n, port) → ready i = some data → read n data) :
    Intact cfg sent read (Network.step cfg evp s e) := by
  cases e with
  | send x m ok => exact hs.send (hsent rfl).1 (hsent rfl).2
  | deliver x c buf rssi fwdOk =>
    rw [Network.step]
    split
    · exact hs.deliver x ‹_› buf rssi fwdOk
    · exact hs
  | reboot x => exact ⟨hs.leased, hs.staged, hs.air⟩
  | uplink c rh os =>
    rw [Network.step]
    split
    · exact hs.uplink hid ‹_› rh os
    · exact hs
  | stage ready => exact hs.stage fun hlease hready hnone ↦ hread rfl hnone hlease hready
  | transmit => exact hs.transmit
  | expire now => exact hs.expire now

/-- The padded length of a message that is sent is one byte. -/
def Event.fits : Event ι → Bool
  | .send _ m _ => decide (m.length ≤ 239)
  | _ => true

/-- In the run the node has sent the message. -/
def HasSent (es : List (Event ι)) (x : ι) (m : List UInt8) : Prop := ∃ ok, .send x m ok ∈ es

variable (cfg evp) in
/-- In the run the datagram was read from the socket of a slot that the node had then. -/
def WasRead (es : List (Event ι)) (n : UInt8) (data : List UInt8) : Prop :=
  ∃ pre ready post i port, es = pre ++ .stage ready :: post ∧
    (reached cfg evp pre).staged = [] ∧
    leases (reached cfg evp pre).gateway.clients i = some (n, port) ∧ ready i = some data

theorem intact_reached
    (hid : ∀ x, (cfg x).myNodeId ≠ MESH_ADDR_GATEWAY ∧ (cfg x).myNodeId ≠ MESH_ADDR_BROADCAST)
    (es : List (Event ι)) (hlen : ∀ e ∈ es, e.fits = true) :
    Intact cfg (HasSent es) (WasRead cfg evp es) (reached cfg evp es) := by
  induction es using List.reverseRecOn with
  | nil => exact .boot
  | append_singleton es e ih =>
    have hbefore := ih fun e hmem ↦ hlen e (List.mem_append_left _ hmem)
    rw [reached_append]
    have hnow : Intact cfg (HasSent (es ++ [e])) (WasRead cfg evp (es ++ [e]))
        (reached cfg evp es) := by
      refine hbefore.mono ?_ ?_
      · rintro x m ⟨ok, hmem⟩
        exact ⟨ok, List.mem_append_left _ hmem⟩
      · rintro n data ⟨pre, ready, post, i, port, rfl, hread⟩
        exact ⟨pre, ready, post ++ [e], i, port, by rw [List.append_assoc, List.cons_append], hread⟩
    refine hnow.step hid ?_ ?_
    · rintro x m ok rfl
      have hmem : Event.send x m ok ∈ es ++ [.send x m ok] :=
        List.mem_append_right _ (List.mem_singleton_self _)
      exact ⟨⟨ok, hmem⟩, of_decide_eq_true (hlen _ hmem)⟩
    · rintro ready i n port data rfl hnone hlease hready
      exact ⟨es, ready, [], i, port, rfl, hnone, hlease, hready⟩

variable (evp) in
/-- The call of `sendto` in a step. -/
def sendto (s : Net ι) : Event ι → Option Sendto
  | .uplink c rh os =>
    if c ∈ s.air then
      if h : RH_HDR + c.raw.length ≤ GW_PAYLOAD_MAX then
        (onRxDone evp s.gateway (radioBuf rh c.raw h) os).2
      else none
    else none
  | _ => none

variable (cfg) in
/-- The message that `mqttsn_transport_recv` returns in a step, and the node. -/
def returned (s : Net ι) : Event ι → Option (ι × List UInt8)
  | .deliver x c buf rssi fwdOk =>
    if c ∈ s.air then
      let r := receiveFrame (cfg x) (s.transport x) buf (c.raw.take LORA_BUF_SIZE) rssi fwdOk
      match r.turn with
      | .ret n => some (x, r.buf.take n)
      | _ => none
    else none
  | _ => none

/-- What is handed to a socket was sent by the node that has the slot then. -/
theorem Intact.of_sendto {s : Net ι} (hs : Intact cfg sent read s)
    (hid : ∀ x, (cfg x).myNodeId ≠ MESH_ADDR_GATEWAY ∧ (cfg x).myNodeId ≠ MESH_ADDR_BROADCAST)
    {e : Event ι} {d : Sendto} (h : sendto evp s e = some d) :
    ∃ x, sent x d.data ∧ (Network.step cfg evp s e).gateway.clients[d.client].active = true ∧
      (Network.step cfg evp s e).gateway.clients[d.client].nodeId = (cfg x).myNodeId ∧
      d.sock = (Network.step cfg evp s e).gateway.clients[d.client].udpSock := by
  cases e with
  | uplink c rh os =>
    rw [sendto] at h
    split at h
    · rename_i hc
      split at h
      · rename_i hfits
        cases hp : rxDecode evp (radioBuf rh c.raw hfits) with
        | none =>
          rw [onRxDone, hp] at h
          contradiction
        | some p =>
          rw [onRxDone_of_decode hp] at h
          obtain ⟨x, hx, hsrc⟩ := hs.of_rxDecode hid hc hp
          have hstep : (Network.step cfg evp s (.uplink c rh os)).gateway
              = (rxHandle s.gateway p os).1 := by
            rw [Network.step, if_pos hc, stepUplink, dif_pos hfits, hp]
            dsimp only
            rw [onRxDone_of_decode hp]
          have hacc : rxAccepts s.gateway p = true := by
            by_contra hno
            rw [rxHandle_of_not_accepts os (Bool.not_eq_true _ ▸ hno)] at h
            contradiction
          have hslot : SlotAvailable s.gateway.clients p.pkt.srcId os := by
            by_contra hno
            rw [Gateway.rxHandle_of_not_available hno] at h
            contradiction
          obtain ⟨gw', d', heq, hdata, hactive, hnode, hsock, -⟩ := rxHandle_of_available hacc hslot
          rw [heq] at h hstep
          cases Option.some.inj h
          rw [hstep, hdata]
          exact ⟨x, hx, hactive, hnode.trans hsrc.symm, hsock⟩
      · contradiction
    · contradiction
  | _ => contradiction

omit [DecidableEq ι] in
/-- What a node receives was read for it, and its length is one byte. -/
theorem Intact.of_returned {s : Net ι} (hs : Intact cfg sent read s)
    (hid : ∀ x, (cfg x).myNodeId ≠ MESH_ADDR_GATEWAY ∧ (cfg x).myNodeId ≠ MESH_ADDR_BROADCAST)
    {e : Event ι} {x : ι} {data : List UInt8} (h : returned cfg s e = some (x, data)) :
    read (cfg x).myNodeId data ∧ data.length ≤ 239 := by
  cases e with
  | deliver y c buf rssi fwdOk =>
    rw [returned] at h
    split at h
    · rename_i hc
      dsimp only at h
      split at h
      · rename_i n hturn
        cases Option.some.inj h
        rcases hs.air c hc with ⟨z, m, -, hpos, -, hcarries⟩ | ⟨z, m, hm, hpos, hlen, hcarries⟩
        · -- what is for the bridge is not for a node
          obtain ⟨hdst, -⟩ := hcarries.returned hpos hturn
          exact absurd hdst (not_or.mpr ⟨(hid x).1.symm, by decide⟩)
        · obtain ⟨hdst, hbuf⟩ := hcarries.returned hpos hturn
          rw [hbuf, ← hdst.resolve_right (hid z).2]
          exact ⟨hm, hlen⟩
      · contradiction
    · contradiction
  | _ => contradiction

/-- **What the bridge hands to a socket was sent by the node that has the slot**, as it is. -/
theorem handed_was_sent
    (hid : ∀ x, (cfg x).myNodeId ≠ MESH_ADDR_GATEWAY ∧ (cfg x).myNodeId ≠ MESH_ADDR_BROADCAST)
    {es : List (Event ι)} (hlen : ∀ e ∈ es, e.fits = true) {e : Event ι}
    {d : Sendto} (h : sendto evp (reached cfg evp es) e = some d) :
    ∃ x, HasSent es x d.data ∧
      (reached cfg evp (es ++ [e])).gateway.clients[d.client].active = true ∧
      (reached cfg evp (es ++ [e])).gateway.clients[d.client].nodeId = (cfg x).myNodeId ∧
      d.sock = (reached cfg evp (es ++ [e])).gateway.clients[d.client].udpSock := by
  have hafter : reached cfg evp (es ++ [e]) = step cfg evp (reached cfg evp es) e :=
    reached_append cfg evp es [e]
  rw [hafter]
  exact (intact_reached hid es hlen).of_sendto hid h

theorem handed_was_sent_connect :
    ∃ d, sendto Evp.software (reached twoNodes Evp.software connected) bridgeHearsConnect = some d ∧
      d.data = connectMsg ∧ ∃ x, HasSent connected x d.data := by
  have h : (sendto Evp.software (reached twoNodes Evp.software connected) bridgeHearsConnect).map
      Sendto.data = some connectMsg := by decide +kernel
  obtain ⟨d, hd, hdata⟩ := Option.map_eq_some_iff.mp h
  obtain ⟨x, hx, -⟩ := handed_was_sent (by decide) (by decide) hd
  exact ⟨d, hd, hdata, x, hx⟩

/-- **What a node receives was read for it**, as it is. -/
theorem returned_was_read
    (hid : ∀ x, (cfg x).myNodeId ≠ MESH_ADDR_GATEWAY ∧ (cfg x).myNodeId ≠ MESH_ADDR_BROADCAST)
    {es : List (Event ι)} (hlen : ∀ e ∈ es, e.fits = true) {e : Event ι}
    {x : ι} {data : List UInt8} (h : returned cfg (reached cfg evp es) e = some (x, data)) :
    WasRead cfg evp es (cfg x).myNodeId data :=
  ((intact_reached hid es hlen).of_returned hid h).1

/-- The endpoint hears what the relay has sent on of the answer. -/
def endpointHears : Event Bool :=
  .deliver false (copyAfter twoNodes (answered ++ [relayHears answered 2]) 3) (List.replicate 23 0)
    (-60) true

theorem returned_was_read_connack :
    ∃ data, returned twoNodes (reached twoNodes Evp.software (answered ++ [relayHears answered 2]))
        endpointHears = some (false, data) ∧ data = [0x03, 0x05, 0x00] ∧
      WasRead twoNodes Evp.software (answered ++ [relayHears answered 2]) 0x24 data := by
  have h : returned twoNodes (reached twoNodes Evp.software (answered ++ [relayHears answered 2]))
      endpointHears = some (false, [0x03, 0x05, 0x00]) := by decide +kernel
  exact ⟨_, h, rfl, returned_was_read (by decide) (by decide) h⟩

end

end Emcs.Network
