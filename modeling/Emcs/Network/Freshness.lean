import Emcs.Network.Provenance

/-!
# Fresh frames and the duplicate caches of the nodes

A datagram that a node has not received before should pass its duplicate check. It does as long as
the pair of source and number identifies the datagram: the cache of a node then holds the keys of
other datagrams only (`Sound.not_seen`).

The program does not keep the pair unique. The bridge numbers its datagrams per client, from zero
again after every CONNECT, but sends all of them under one source; a node starts from zero again
when it restarts. Both are stated here in the same way. In a run whose steps never give a key to a
second datagram, every fresh frame passes. And once two datagrams with one key are on the air, any
relay that has heard neither can be made to drop the second by letting it hear the first.

## The proof

For the good runs, the invariant of provenance is enough: a key in the cache of a node is that of a
datagram the node has heard, and where keys identify datagrams a fresh frame has none of these keys.
The condition is one on the steps that compose datagrams, so it is carried along the run as a
predicate on keys, once for the downlink and once for the uplink.

The other half is about one run: `Collision` is a state with two datagrams of one key on the air and
a relay that has heard neither, and two deliveries lead from it to a fresh frame that is dropped.
-/

namespace Emcs.Network

open Bridge Mesh

variable {ι : Type} {cfg : ι → NodeConfig} {evp : Evp}

/-! ## Keys that identify their datagram -/

/-- Among the keys in `p`, no two datagrams share one. -/
def Distinct (p : UInt8 × UInt8 → Bool) (l : List Datagram) : Prop :=
  ((l.map Datagram.key).filter p).Nodup

theorem Distinct.eq {p : UInt8 × UInt8 → Bool} {l : List Datagram} (h : Distinct p l) {i j : ℕ}
    {d d' : Datagram} (hi : l[i]? = some d) (hj : l[j]? = some d') (hkey : d.key = d'.key)
    (hp : p d.key = true) : i = j := by
  have hpair := List.pairwise_filter.mp h
  rw [List.pairwise_iff_getElem] at hpair
  obtain ⟨hil, rfl⟩ := List.getElem?_eq_some_iff.mp hi
  obtain ⟨hjl, rfl⟩ := List.getElem?_eq_some_iff.mp hj
  have hlen : (l.map Datagram.key).length = l.length := List.length_map _
  rcases Nat.lt_trichotomy i j with hlt | heq | hgt
  · refine absurd ?_ (hpair i j (by rw [hlen]; exact hil) (by rw [hlen]; exact hjl) hlt ?_ ?_)
    · simpa using hkey
    · simpa using hp
    · rw [hkey] at hp
      simpa using hp
  · exact heq
  · refine absurd ?_ (hpair j i (by rw [hlen]; exact hjl) (by rw [hlen]; exact hil) hgt ?_ ?_)
    · simpa using hkey.symm
    · rw [hkey] at hp
      simpa using hp
    · simpa using hp

theorem Distinct.append_singleton {p : UInt8 × UInt8 → Bool} {l : List Datagram}
    (h : Distinct p l) {d : Datagram} (hd : p d.key = true → d.key ∉ l.map Datagram.key) :
    Distinct p (l ++ [d]) := by
  rw [Distinct, List.map_append, List.filter_append, List.nodup_append]
  refine ⟨h, ?_, ?_⟩
  · exact (List.nodup_singleton d.key).filter p
  · rintro k hk k' hk' rfl
    obtain ⟨hmem, hp⟩ := List.mem_filter.mp hk'
    rw [List.map_singleton, List.mem_singleton] at hmem
    subst hmem
    exact hd hp (List.mem_filter.mp hk).1

/-! ## What the duplicate check lets pass -/

/-- What happens to a frame that is not taken for a duplicate: a relay forwards it, and a node it is
addressed to delivers it. -/
structure Handled (cfg : NodeConfig) (t : Transport) (buf : List UInt8) (rssi : Int16)
    (src dst ttl seq : UInt8) (payload : List UInt8) : Prop where
  not_seen : dedupSeen t src seq = false
  forwards : cfg.myNodeRole = .relay → ¬(dst = cfg.myNodeId ∨ dst = MESH_ADDR_BROADCAST) →
    ttl ≠ 0 → (receiveFrame cfg t buf ([src, dst, ttl, seq] ++ payload) rssi true).sent
      = some ⟨radioTo cfg (relayNextHop cfg dst), cfg.myNodeId,
          [src, dst, ttl - 1, seq] ++ payload⟩
  delivers : dst = cfg.myNodeId ∨ dst = MESH_ADDR_BROADCAST → ∀ fwdOk,
    receiveFrame cfg t buf ([src, dst, ttl, seq] ++ payload) rssi fwdOk
      = deliverFrame { t with lastRssi := rssi } buf src ttl seq payload

theorem Handled.of_not_seen {cfg : NodeConfig} {t : Transport} {buf payload : List UInt8}
    {rssi : Int16} {src dst ttl seq : UInt8} (h : dedupSeen t src seq = false) :
    Handled cfg t buf rssi src dst ttl seq payload where
  not_seen := h
  forwards hrole hdst httl := by rw [receiveFrame_for_other h hdst, forwardFrame_relay hrole httl]
  delivers hdst _ := receiveFrame_for_me h hdst

variable (cfg) in
/-- A copy of a datagram of another node that the receiver has no copy of yet is not taken for a
duplicate, when its key is in `p`. -/
def FreshPasses (p : UInt8 × UInt8 → Bool) (s : Net ι) : Event ι → Prop
  | .deliver x c buf rssi _ => c ∈ s.air → ∀ d, s.Composed c.tag d → p d.key = true →
      d.src ≠ (cfg x).myNodeId → c.tag ∉ s.heard x →
      ∃ dst ttl payload, c.raw.take LORA_BUF_SIZE = [d.src, dst, ttl, d.seq] ++ payload ∧
        Handled (cfg x) (s.transport x) buf rssi d.src dst ttl d.seq payload
  | _ => True

/-- **Nothing is remembered of a datagram that was not heard**, when keys identify datagrams. -/
theorem Sound.not_seen {s : Net ι} (hs : Sound cfg s) {p : UInt8 × UInt8 → Bool}
    (hdist : Distinct p s.composed) {x : ι} {tag : ℕ} {d : Datagram} (hd : s.Composed tag d)
    (hp : p d.key = true) (hother : d.src ≠ (cfg x).myNodeId) (hfresh : tag ∉ s.heard x) :
    dedupSeen (s.transport x) d.src d.seq = false := by
  rw [dedupSeen_eq_false_iff]
  intro hmem
  rcases hs.cache x (d.src, d.seq) hmem with hown | ⟨tag', htag', d', hd', hkey⟩
  · exact hother hown
  · have heq : tag' = tag := hdist.eq hd' hd hkey (by rw [hkey]; exact hp)
    exact hfresh (heq ▸ htag')

theorem Sound.freshPasses {s : Net ι} (hs : Sound cfg s) {p : UInt8 × UInt8 → Bool}
    (hdist : Distinct p s.composed) (e : Event ι) : FreshPasses cfg p s e := by
  cases e with
  | deliver x c buf rssi fwdOk =>
    intro hc d hd hp hother hfresh
    obtain ⟨d', hd', dst, ttl, payload, hraw⟩ := hs.air c hc
    obtain rfl : d' = d := Option.some_inj.mp (hd'.symm.trans hd)
    refine ⟨dst, ttl, payload.take 60, ?_, Handled.of_not_seen ?_⟩
    · rw [hraw]
      rfl
    · exact hs.not_seen hdist hd hp hother hfresh
  | _ => trivial

/-! ## Two datagrams under one key -/

variable [DecidableEq ι]

variable (cfg) in
/-- Two datagrams under one key are on the air, and the relay `x` has heard neither; the first copy
has hops left and is not for `x`. -/
structure Collision (p : UInt8 × UInt8 → Bool) (s : Net ι) (x : ι) (c₁ c₂ : Copy) : Prop where
  mem_air : c₁ ∈ s.air ∧ c₂ ∈ s.air
  same_key : ∃ d₁ d₂, s.Composed c₁.tag d₁ ∧ s.Composed c₂.tag d₂ ∧ d₁.key = d₂.key ∧
    p d₁.key = true ∧ d₁.src ≠ (cfg x).myNodeId ∧
    ∃ dst ttl payload, c₁.raw = [d₁.src, dst, ttl, d₁.seq] ++ payload ∧ ttl ≠ 0 ∧
      ¬(dst = (cfg x).myNodeId ∨ dst = MESH_ADDR_BROADCAST)
  tag_ne : c₁.tag ≠ c₂.tag
  relay : (cfg x).myNodeRole = .relay
  fresh : c₁.tag ∉ s.heard x ∧ c₂.tag ∉ s.heard x

/-- **A relay that hears two datagrams of one key drops the second.** -/
theorem Collision.not_always_freshPasses {p : UInt8 × UInt8 → Bool} {es : List (Event ι)} {x : ι}
    {c₁ c₂ : Copy} (hcol : Collision cfg p (reached cfg evp es) x c₁ c₂) (buf : List UInt8)
    (rssi : Int16) :
    ¬Trace.Always (step cfg evp) (FreshPasses cfg p) Net.boot
      (es ++ [.deliver x c₁ buf rssi true, .deliver x c₂ buf rssi true]) := by
  obtain ⟨⟨hc₁, hc₂⟩,
    ⟨d₁, d₂, hd₁, hd₂, hkey, hp, hother, dst, ttl, payload, hraw, httl, hdst⟩, hne,
    hrole, h₁, h₂⟩ := hcol
  intro h
  obtain ⟨-, hfirst, hsecond, -⟩ := Trace.always_append.mp h
  obtain ⟨_, _, _, -, hhandled⟩ := hfirst hc₁ d₁ hd₁ hp hother h₁
  have hnew : dedupSeen ((reached cfg evp es).transport x) d₁.src d₁.seq = false :=
    hhandled.not_seen
  -- the first copy is forwarded, so its key is in the cache when the second one arrives
  have hstep : step cfg evp (reached cfg evp es) (.deliver x c₁ buf rssi true)
      = stepDeliver cfg (reached cfg evp es) x c₁ buf rssi true := if_pos hc₁
  have htake : c₁.raw.take LORA_BUF_SIZE = [d₁.src, dst, ttl, d₁.seq] ++ payload.take 60 := by
    rw [hraw]
    rfl
  have hmem : (d₁.src, d₁.seq)
      ∈ ((stepDeliver cfg (reached cfg evp es) x c₁ buf rssi true).transport x).dedup := by
    rw [stepDeliver, htake]
    dsimp only
    rw [Function.update_self, receiveFrame_for_other hnew hdst,
      forwardFrame_relay hrole httl]
    exact RingCache.mem_add_self _ _
  change FreshPasses cfg p (step cfg evp (reached cfg evp es) _) _ at hsecond
  rw [hstep] at hsecond
  have hair : c₂ ∈ (stepDeliver cfg (reached cfg evp es) x c₁ buf rssi true).air :=
    List.mem_append_left _ hc₂
  have hfresh : c₂.tag ∉ (stepDeliver cfg (reached cfg evp es) x c₁ buf rssi true).heard x := by
    rw [stepDeliver]
    dsimp only
    rw [Function.update_self, List.mem_cons]
    rintro (heq | hold)
    · exact hne heq.symm
    · exact h₂ hold
  have hsrc : d₁.src = d₂.src := congrArg Prod.fst hkey
  have hseq : d₁.seq = d₂.seq := congrArg Prod.snd hkey
  obtain ⟨_, _, _, -, hhandled₂⟩ := hsecond hair d₂ hd₂ (hkey ▸ hp) (hsrc ▸ hother) hfresh
  rw [hsrc, hseq] at hmem
  exact dedupSeen_eq_false_iff.mp hhandled₂.not_seen hmem

/-- A frame that would have been fresh but is taken for a duplicate. -/
theorem not_always_of_seen {p : UInt8 × UInt8 → Bool} {es : List (Event ι)} {x : ι} {c : Copy}
    {k : UInt8 × UInt8} (hc : c ∈ (reached cfg evp es).air)
    (hk : (reached cfg evp es).composed[c.tag]?.map Datagram.key = some k) (hp : p k = true)
    (hother : k.1 ≠ (cfg x).myNodeId) (hfresh : c.tag ∉ (reached cfg evp es).heard x)
    (hseen : dedupSeen ((reached cfg evp es).transport x) k.1 k.2 = true) (buf : List UInt8)
    (rssi : Int16) (fwdOk : Bool) :
    ¬Trace.Always (step cfg evp) (FreshPasses cfg p) Net.boot
      (es ++ [.deliver x c buf rssi fwdOk]) := by
  intro h
  obtain ⟨d, hd, rfl⟩ := Option.map_eq_some_iff.mp hk
  obtain ⟨_, _, _, -, hhandled⟩ := h.at hc d hd hp hother hfresh
  exact Bool.false_ne_true (hhandled.not_seen.symm.trans hseen)

/-! ## Two nodes of `config.h` -/

/-- An endpoint and a relay. -/
def twoNodes : Bool → NodeConfig
  | false => arduino04
  | true => arduino03

variable (cfg) in
/-- The copy in place `k` on the air after a run. -/
def copyAfter (es : List (Event ι)) (k : ℕ) : Copy :=
  (reached cfg Evp.software es).air.getD k ⟨0, []⟩

/-- A CONNECT with the client id `a4`. -/
def connectMsg : List UInt8 := [0x08, 0x04, 0x04, 0x01, 0x00, 0x3c, 0x61, 0x34]

/-- The endpoint sends a CONNECT. -/
def sendConnect : Event Bool := .send false connectMsg true

/-- The relay receives the copy in place `k`. -/
def relayHears (es : List (Event Bool)) (k : ℕ) : Event Bool :=
  .deliver true (copyAfter twoNodes es k) [] (-60) true

/-- The CONNECT of the endpoint, forwarded by the relay. -/
def connected : List (Event Bool) := [sendConnect, relayHears [sendConnect] 0]

/-! ## Downlink: the numbers of the bridge -/

/-- The key of a datagram that the bridge composed. -/
def fromBridge (k : UInt8 × UInt8) : Bool := k.1 == MESH_ADDR_GATEWAY

variable (evp) in
/-- The counters of the client slots give no number a second time: not to two datagrams of one pass,
and not to a datagram when another was staged under that number before. -/
def StagesFreshNumbers (s : Net ι) : Event ι → Prop
  | .stage ready => s.staged = [] →
      Distinct fromBridge (s.composed ++ stagedDatagrams evp (collect s.gateway.clients ready).2)
  | _ => True

theorem distinct_fromBridge_step (hid : ∀ x, (cfg x).myNodeId ≠ MESH_ADDR_GATEWAY) {s : Net ι}
    {e : Event ι} (h : Distinct fromBridge s.composed) (hC : StagesFreshNumbers evp s e) :
    Distinct fromBridge (step cfg evp s e).composed := by
  rcases composed_step cfg evp s e with heq | ⟨x, m, ok, payload, rfl, heq⟩ | ⟨ready, rfl, hst, heq⟩
  · rw [heq]
    exact h
  · rw [heq]
    exact h.append_singleton fun hp ↦ absurd (eq_of_beq hp) (hid x)
  · rw [heq]
    exact hC hst

/-- **Fresh downlink frames pass** in every run in which no number is staged twice. Where two
downlink datagrams under one number are on the air after a run, it can go on so that one does not: a
relay that has heard neither drops the second one it hears. -/
theorem fresh_downlink_passes (hid : ∀ x, (cfg x).myNodeId ≠ MESH_ADDR_GATEWAY)
    (es : List (Event ι)) :
    (Trace.Always (step cfg evp) (StagesFreshNumbers evp) Net.boot es →
      Trace.Always (step cfg evp) (FreshPasses cfg fromBridge) Net.boot es) ∧
    ∀ x c₁ c₂, Collision cfg fromBridge (reached cfg evp es) x c₁ c₂ → ∀ buf rssi,
      ¬Trace.Always (step cfg evp) (FreshPasses cfg fromBridge) Net.boot
        (es ++ [.deliver x c₁ buf rssi true, .deliver x c₂ buf rssi true]) := by
  refine ⟨fun h ↦ ?_, fun x c₁ c₂ hcol buf rssi ↦ hcol.not_always_freshPasses buf rssi⟩
  refine Trace.always_of_invariant (P := fun s ↦ Sound cfg s ∧ Distinct fromBridge s.composed)
    (fun s e hs hC ↦ ⟨hs.1.step e, distinct_fromBridge_step hid hs.2 hC⟩)
    (fun s e hs _ ↦ hs.1.freshPasses hs.2 e) ⟨sound_boot, List.nodup_nil⟩ h

/-- The forwarded CONNECT arrives at the bridge. -/
def bridgeHearsConnect : Event Bool :=
  .uplink (copyAfter twoNodes connected 1) (0, 0x23, 0, 0) ⟨0, 5, true⟩

/-- The socket of the first client has a CONNACK. -/
def stageConnack : Event Bool :=
  .stage fun i ↦ if i.val = 0 then some [0x03, 0x05, 0x00] else none

/-- The CONNECT arrives, and the bridge answers it. -/
def answered : List (Event Bool) := connected ++ [bridgeHearsConnect, stageConnack, .transmit]

/-- The answer is a frame that the relay has not heard, and it passes. -/
theorem fresh_downlink_passes_twoNodes :
    (copyAfter twoNodes answered 2 ∈ (reached twoNodes Evp.software answered).air ∧
      (reached twoNodes Evp.software answered).composed[
        (copyAfter twoNodes answered 2).tag]?.map Datagram.key = some (0, 0) ∧
      (copyAfter twoNodes answered 2).tag
        ∉ (reached twoNodes Evp.software answered).heard true) ∧
    Trace.Always (step twoNodes Evp.software) (FreshPasses twoNodes fromBridge) Net.boot
      (answered ++ [relayHears answered 2]) := by
  refine ⟨by decide +kernel, (fresh_downlink_passes (by decide) _).1 ?_⟩
  refine ⟨trivial, trivial, trivial, fun _ ↦ ?_, trivial, trivial, trivial⟩
  unfold Distinct
  decide +kernel

/-- The CONNECT arrives twice, and each time the bridge answers it. -/
def answeredTwice : List (Event Bool) := connected ++
  [bridgeHearsConnect, stageConnack, .transmit, bridgeHearsConnect, stageConnack, .transmit]

/-- **The second answer is dropped by the relay** once it has heard the first: the arrival of the
CONNECT set the counter of the client back, so both answers have number 0. -/
theorem second_answer_dropped :
    ¬Trace.Always (step twoNodes Evp.software) (FreshPasses twoNodes fromBridge) Net.boot
      (answeredTwice ++ [relayHears answeredTwice 2] ++
        [.deliver true (copyAfter twoNodes answeredTwice 3) [] (-60) true]) := by
  have h : copyAfter twoNodes answeredTwice 3
        ∈ (reached twoNodes Evp.software (answeredTwice ++ [relayHears answeredTwice 2])).air ∧
      (reached twoNodes Evp.software (answeredTwice ++ [relayHears answeredTwice 2])).composed[
        (copyAfter twoNodes answeredTwice 3).tag]?.map Datagram.key = some (0, 0) ∧
      (copyAfter twoNodes answeredTwice 3).tag
        ∉ (reached twoNodes Evp.software (answeredTwice ++ [relayHears answeredTwice 2])).heard
          true ∧
      dedupSeen ((reached twoNodes Evp.software
        (answeredTwice ++ [relayHears answeredTwice 2])).transport true) 0 0 = true := by
    decide +kernel
  obtain ⟨hc, hk, hfresh, hseen⟩ := h
  exact not_always_of_seen hc hk rfl (by decide) hfresh hseen [] (-60) true

/-! ## Uplink: the numbers of the nodes -/

/-- The key of a datagram that a node composed. -/
def fromNode (k : UInt8 × UInt8) : Bool := k.1 != MESH_ADDR_GATEWAY

variable (cfg) in
/-- A node does not send under a number that it used before. -/
def SendsFreshNumbers (s : Net ι) : Event ι → Prop
  | .send x _ _ =>
    ((cfg x).myNodeId, (s.transport x).seqNum + 1) ∉ s.composed.map Datagram.key
  | _ => True

theorem distinct_fromNode_step {s : Net ι} {e : Event ι} (h : Distinct fromNode s.composed)
    (hC : SendsFreshNumbers cfg s e) : Distinct fromNode (step cfg evp s e).composed := by
  rcases composed_step cfg evp s e with heq | ⟨x, m, ok, payload, rfl, heq⟩ | ⟨ready, rfl, hst, heq⟩
  · rw [heq]
    exact h
  · rw [heq]
    exact h.append_singleton fun _ ↦ hC
  · have hnone : ((stagedDatagrams evp (collect s.gateway.clients ready).2).map
        Datagram.key).filter fromNode = [] := by
      rw [List.filter_eq_nil_iff]
      intro k hk
      obtain ⟨d, hd, rfl⟩ := List.mem_map.mp hk
      obtain ⟨st, -, rfl⟩ := List.mem_map.mp hd
      exact Bool.false_ne_true
    rw [heq, Distinct, List.map_append, List.filter_append, hnone, List.append_nil]
    exact h

/-- **Fresh uplink frames pass** in every run in which no node uses a number twice. Where two frames
of one node under one number are on the air after a run, it can go on so that one does not: another
relay that has heard neither drops the second one it hears. -/
theorem fresh_uplink_passes (es : List (Event ι)) :
    (Trace.Always (step cfg evp) (SendsFreshNumbers cfg) Net.boot es →
      Trace.Always (step cfg evp) (FreshPasses cfg fromNode) Net.boot es) ∧
    ∀ x c₁ c₂, Collision cfg fromNode (reached cfg evp es) x c₁ c₂ → ∀ buf rssi,
      ¬Trace.Always (step cfg evp) (FreshPasses cfg fromNode) Net.boot
        (es ++ [.deliver x c₁ buf rssi true, .deliver x c₂ buf rssi true]) := by
  refine ⟨fun h ↦ ?_, fun x c₁ c₂ hcol buf rssi ↦ hcol.not_always_freshPasses buf rssi⟩
  refine Trace.always_of_invariant (P := fun s ↦ Sound cfg s ∧ Distinct fromNode s.composed)
    (fun s e hs hC ↦ ⟨hs.1.step e, distinct_fromNode_step hs.2 hC⟩)
    (fun s e hs _ ↦ hs.1.freshPasses hs.2 e) ⟨sound_boot, List.nodup_nil⟩ h

theorem fresh_uplink_passes_twoNodes :
    Trace.Always (step twoNodes Evp.software) (FreshPasses twoNodes fromNode) Net.boot
      connected :=
  (fresh_uplink_passes connected).1 ⟨List.not_mem_nil, trivial, trivial⟩

/-- The endpoint restarts after its CONNECT and connects again. -/
def reconnected : List (Event Bool) := connected ++ [.reboot false, sendConnect]

/-- **The CONNECT after a restart is dropped by the relay** that forwarded the one before it: both
have number 1. -/
theorem connect_after_reboot_dropped :
    ¬Trace.Always (step twoNodes Evp.software) (FreshPasses twoNodes fromNode) Net.boot
      (reconnected ++ [.deliver true (copyAfter twoNodes reconnected 2) [] (-60) true]) := by
  have h : copyAfter twoNodes reconnected 2 ∈ (reached twoNodes Evp.software reconnected).air ∧
      (reached twoNodes Evp.software reconnected).composed[
        (copyAfter twoNodes reconnected 2).tag]?.map Datagram.key = some (0x24, 1) ∧
      (copyAfter twoNodes reconnected 2).tag ∉
        (reached twoNodes Evp.software reconnected).heard true ∧
      dedupSeen ((reached twoNodes Evp.software reconnected).transport true) 0x24 1 = true := by
    decide +kernel
  obtain ⟨hc, hk, hfresh, hseen⟩ := h
  exact not_always_of_seen hc hk rfl (by decide) hfresh hseen [] (-60) true

end Emcs.Network
