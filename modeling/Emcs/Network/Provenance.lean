import Emcs.Network.Model

/-!
# Where the keys of a duplicate cache come from

The invariant of the mesh behind every statement about its duplicate caches: a copy on the air shows
the source and the number of the datagram its tag stands for, and every key in the cache of a node
is its own or that of a datagram the node has received a copy of. The converse does not hold, and
need not: caches are small, and relays clear the entries of the bridge.

## The invariant

`Sound` has a clause for each place where a key can stand: on the air, among the staged datagrams,
and in a cache. Each of them points to a datagram that was composed, by its tag, and composed
datagrams never change. So a step has to account for the one frame it adds and the one key it
caches; everything else is carried over by monotonicity (`Sound.compose`).

The tags are what makes the statement possible. The program sees two bytes, which come round; the
observer tells the datagrams apart that carry the same two bytes.
-/

namespace Emcs.Network

open Bridge Mesh

variable {ι : Type} {cfg : ι → NodeConfig} {evp : Evp}

/-- Datagram `d` was composed as number `tag`. -/
def Net.Composed (s : Net ι) (tag : ℕ) (d : Datagram) : Prop := s.composed[tag]? = some d

/-- The bytes show the source and the number of the datagram. -/
def Shows (raw : List UInt8) (d : Datagram) : Prop :=
  ∃ dst ttl payload, raw = [d.src, dst, ttl, d.seq] ++ payload

variable (cfg) in
/-- The provenance invariant. -/
structure Sound (s : Net ι) : Prop where
  air : ∀ c ∈ s.air, ∃ d, s.Composed c.tag d ∧ Shows c.raw d
  staged : ∀ p ∈ s.staged, ∃ d, s.Composed p.1 d ∧ d.key = (MESH_ADDR_GATEWAY, p.2.seq)
  cache : ∀ x k, k ∈ (s.transport x).dedup → k.1 = (cfg x).myNodeId ∨
    ∃ tag ∈ s.heard x, ∃ d, s.Composed tag d ∧ d.key = k

theorem getElem?_append_of_some {α : Type} {l l' : List α} {i : ℕ} {a : α} (h : l[i]? = some a) :
    (l ++ l')[i]? = some a := by
  obtain ⟨hi, -⟩ := List.getElem?_eq_some_iff.mp h
  rw [List.getElem?_append_left hi, h]

theorem sound_boot : Sound cfg (Net.boot : Net ι) where
  air _ h := absurd h List.not_mem_nil
  staged _ h := absurd h List.not_mem_nil
  cache _ k h := absurd h (RingCache.not_mem_empty _ k)

/-! ## The steps of the nodes -/

theorem Sound.compose {s : Net ι} (hs : Sound cfg s) (l : List Datagram) :
    Sound cfg { s with composed := s.composed ++ l } where
  air c hc := by
    obtain ⟨d, hd, hraw⟩ := hs.air c hc
    exact ⟨d, getElem?_append_of_some hd, hraw⟩
  staged p hp := by
    obtain ⟨d, hd, hkey⟩ := hs.staged p hp
    exact ⟨d, getElem?_append_of_some hd, hkey⟩
  cache x k hk := by
    refine (hs.cache x k hk).imp_right ?_
    rintro ⟨tag, htag, d, hd, hkey⟩
    exact ⟨tag, htag, d, getElem?_append_of_some hd, hkey⟩

section Nodes

variable [DecidableEq ι]

theorem mem_dedup_update (t : ι → Transport) (x : ι) (t' : Transport) {y : ι} {k : UInt8 × UInt8}
    (h : k ∈ (Function.update t x t' y).dedup) :
    (y = x ∧ k ∈ t'.dedup) ∨ (y ≠ x ∧ k ∈ (t y).dedup) := by
  by_cases hy : y = x
  · subst hy
    rw [Function.update_self] at h
    exact Or.inl ⟨rfl, h⟩
  · rw [Function.update_of_ne hy] at h
    exact Or.inr ⟨hy, h⟩

theorem Sound.send {s : Net ι} (hs : Sound cfg s) (x : ι) (m : List UInt8) (ok : Bool) :
    Sound cfg (stepSend cfg s x m ok) := by
  rw [stepSend]
  rcases mqttsnTransportSend_cases (cfg x) (s.transport x) m ok with heq | ⟨ht, ha⟩
  · rw [heq]
    dsimp only
    rw [if_pos rfl, Function.update_eq_self]
    exact hs
  · generalize mqttsnTransportSend (cfg x) (s.transport x) m ok = r at ht ha ⊢
    obtain ⟨t, a, rc⟩ := r
    dsimp only at ht ha ⊢
    subst ht
    rw [dedupAdd_seqNum, if_neg (add_one_ne_self _)]
    have hnew := hs.compose [⟨(cfg x).myNodeId, (s.transport x).seqNum + 1,
      aesEncryptPayload m AES_BUF_SIZE⟩]
    refine ⟨fun c hc ↦ ?_, hnew.staged, fun y k hk ↦ ?_⟩
    · rcases List.mem_append.mp hc with hc | hc
      · exact hnew.air c hc
      · obtain ⟨a', ha', rfl⟩ := List.mem_map.mp hc
        refine ⟨_, List.getElem?_concat_length, MESH_ADDR_GATEWAY, MESH_TTL_DEFAULT, _,
          ha a' (Option.mem_toList.mp ha')⟩
    · rcases mem_dedup_update s.transport x _ hk with ⟨rfl, hk⟩ | ⟨-, hk⟩
      · rcases RingCache.eq_or_mem_of_mem_add hk with rfl | hk
        · exact Or.inl rfl
        · exact hnew.cache y k hk
      · exact hnew.cache y k hk

theorem Sound.deliver {s : Net ι} (hs : Sound cfg s) (x : ι) {c : Copy} (hc : c ∈ s.air)
    (buf : List UInt8) (rssi : Int16) (fwdOk : Bool) :
    Sound cfg (stepDeliver cfg s x c buf rssi fwdOk) := by
  obtain ⟨d, hd, dst, ttl, payload, hraw⟩ := hs.air c hc
  have htake : c.raw.take LORA_BUF_SIZE = [d.src, dst, ttl, d.seq] ++ payload.take 60 := by
    rw [hraw]
    rfl
  refine ⟨fun c' hc' ↦ ?_, hs.staged, fun y k hk ↦ ?_⟩
  · rcases List.mem_append.mp hc' with hc' | hc'
    · exact hs.air c' hc'
    · obtain ⟨a, ha, rfl⟩ := List.mem_map.mp hc'
      rw [htake] at ha
      exact ⟨d, hd, dst, ttl - 1, _, raw_of_sent_receiveFrame (Option.mem_toList.mp ha)⟩
  · rcases mem_dedup_update s.transport x _ hk with ⟨rfl, hk⟩ | ⟨hy, hk⟩
    · rw [htake] at hk
      simp only [stepDeliver, Function.update_self]
      rcases mem_dedup_receiveFrame hk with rfl | hk
      · exact Or.inr ⟨c.tag, List.mem_cons_self, d, hd, rfl⟩
      · refine (hs.cache y k hk).imp_right ?_
        rintro ⟨tag, htag, h⟩
        exact ⟨tag, List.mem_cons_of_mem _ htag, h⟩
    · simp only [stepDeliver, Function.update_of_ne hy]
      exact hs.cache y k hk

theorem Sound.reboot {s : Net ι} (hs : Sound cfg s) (x : ι) :
    Sound cfg { s with
      transport := Function.update s.transport x (mqttsnTransportInit Transport.boot) } := by
  refine ⟨hs.air, hs.staged, fun y k hk ↦ ?_⟩
  rcases mem_dedup_update s.transport x _ hk with ⟨-, hinit⟩ | ⟨-, hold⟩
  · exact absurd hinit (not_mem_mqttsnTransportInit _ k)
  · exact hs.cache y k hold

end Nodes

/-! ## The steps of the bridge -/

theorem Sound.uplink {s : Net ι} (hs : Sound cfg s) (c : Copy)
    (rh : UInt8 × UInt8 × UInt8 × UInt8) (os : Os) : Sound cfg (stepUplink evp s c rh os) := by
  rw [stepUplink]
  split
  · split
    · exact hs
    · exact ⟨hs.air, hs.staged, hs.cache⟩
  · exact hs

theorem Sound.stage {s : Net ι} (hs : Sound cfg s)
    (ready : Fin MAX_CLIENTS → Option (List UInt8)) : Sound cfg (stepStage evp s ready) := by
  rw [stepStage]
  split
  · exact hs
  · dsimp only
    generalize (collect s.gateway.clients ready).2 = l
    have hnew := hs.compose (stagedDatagrams evp l)
    refine ⟨hnew.air, fun p hp ↦ ?_, hnew.cache⟩
    obtain ⟨i, hi, rfl⟩ := List.mem_iff_getElem.mp hp
    have hi' : i < l.length := by
      rw [List.length_zip, List.length_range', Nat.min_self] at hi
      exact hi
    refine ⟨⟨MESH_ADDR_GATEWAY, l[i].seq, gwAesEncrypt evp l[i].data GW_PAYLOAD_MAX⟩, ?_, ?_⟩
    · simp [Net.Composed, stagedDatagrams, hi']
    · simp [Datagram.key]

theorem Sound.transmit {s : Net ι} (hs : Sound cfg s) : Sound cfg (stepTransmit evp s) := by
  rw [stepTransmit]
  split
  · exact hs
  · rename_i tag d rest heq
    refine ⟨fun c hc ↦ ?_, fun p hp ↦ ?_, hs.cache⟩
    · rcases List.mem_append.mp hc with hc | hc
      · exact hs.air c hc
      · obtain ⟨f, hf, rfl⟩ := List.mem_map.mp hc
        obtain ⟨d', hd', hkey⟩ := hs.staged (tag, d) (by rw [heq]; exact List.mem_cons_self)
        refine ⟨d', hd', d.node, MESH_TTL_DEFAULT, gwAesEncrypt evp d.data GW_PAYLOAD_MAX, ?_⟩
        have hsrc : d'.src = MESH_ADDR_GATEWAY := congrArg Prod.fst hkey
        have hseq : d'.seq = d.seq := congrArg Prod.snd hkey
        rw [hsrc, hseq]
        exact drop_of_loraSend (Option.mem_toList.mp hf)
    · exact hs.staged p (by rw [heq]; exact List.mem_cons_of_mem _ hp)

/-- **Every step keeps the provenance invariant.** -/
theorem Sound.step [DecidableEq ι] {s : Net ι} (hs : Sound cfg s) (e : Event ι) :
    Sound cfg (step cfg evp s e) := by
  cases e with
  | send x m ok => exact hs.send x m ok
  | deliver x c buf rssi fwdOk =>
    rw [Network.step]
    split
    · exact hs.deliver x ‹_› buf rssi fwdOk
    · exact hs
  | reboot x => exact hs.reboot x
  | uplink c rh os =>
    rw [Network.step]
    split
    · exact hs.uplink c rh os
    · exact hs
  | stage ready => exact hs.stage ready
  | transmit => exact hs.transmit
  | expire now => exact ⟨hs.air, hs.staged, hs.cache⟩

theorem sound_reached [DecidableEq ι] (cfg : ι → NodeConfig) (evp : Evp) (es : List (Event ι)) :
    Sound cfg (reached cfg evp es) :=
  Trace.run_invariant' (fun _ e hs ↦ hs.step e) es sound_boot

/-! ## What a step composes -/

variable [DecidableEq ι]

variable (cfg evp) in
/-- What a step composes: a node at most one datagram under its next number, the bridge what it
stages. -/
theorem composed_step (s : Net ι) (e : Event ι) :
    (step cfg evp s e).composed = s.composed ∨
      (∃ x m ok payload, e = .send x m ok ∧ (step cfg evp s e).composed
        = s.composed ++ [⟨(cfg x).myNodeId, (s.transport x).seqNum + 1, payload⟩]) ∨
      ∃ ready, e = .stage ready ∧ s.staged = [] ∧ (step cfg evp s e).composed
        = s.composed ++ stagedDatagrams evp (collect s.gateway.clients ready).2 := by
  cases e with
  | send x m ok =>
    simp only [step, stepSend]
    rcases mqttsnTransportSend_cases (cfg x) (s.transport x) m ok with heq | ⟨ht, -⟩
    · rw [heq, if_pos rfl]
      exact Or.inl rfl
    · rw [ht, dedupAdd_seqNum, if_neg (add_one_ne_self _)]
      exact Or.inr (Or.inl ⟨x, m, ok, _, rfl, rfl⟩)
  | deliver x c buf rssi fwdOk =>
    rw [step]
    split <;> exact Or.inl rfl
  | reboot x => exact Or.inl rfl
  | uplink c rh os =>
    rw [step, stepUplink]
    split
    · split
      · split <;> exact Or.inl rfl
      · exact Or.inl rfl
    · exact Or.inl rfl
  | stage ready =>
    rw [step, stepStage]
    by_cases h : s.staged = []
    · rw [if_neg (fun hne ↦ hne h)]
      exact Or.inr (Or.inr ⟨ready, rfl, h, rfl⟩)
    · rw [if_pos h]
      exact Or.inl rfl
  | transmit =>
    rw [step, stepTransmit]
    split <;> exact Or.inl rfl
  | expire now => exact Or.inl rfl

theorem Net.Composed.step {s : Net ι} {tag : ℕ} {d : Datagram} (h : s.Composed tag d)
    (e : Event ι) :
    (Network.step cfg evp s e).Composed tag d := by
  rcases composed_step cfg evp s e with heq | ⟨x, m, ok, payload, -, heq⟩ | ⟨ready, -, -, heq⟩
  · rw [Net.Composed, heq]
    exact h
  · rw [Net.Composed, heq]
    exact getElem?_append_of_some h
  · rw [Net.Composed, heq]
    exact getElem?_append_of_some h

end Emcs.Network
