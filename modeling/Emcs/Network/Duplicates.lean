import Emcs.Network.Freshness

/-!
# At most once to the broker

The bridge hands the frame of a node to its broker socket at most once, because the key of an
accepted frame stays in the ring of the bridge until sixteen other frames have been accepted. The
invariant is `RingCache.Within`: the key stands at most as far back as the number of acceptances
since.

There is one way for it to go earlier. A frame that decodes to a CONNECT clears every key of its
source, and it does so before the duplicate check. So the law holds from an accepted copy up to the
next CONNECT of the same source, a late copy of an old CONNECT included, and ends there.

## The proof

Between two acceptances of the same frame the log of the bridge grows by the other frames accepted
in between. `Remembered` ties the place of the key in the ring to their number: one step moves the
key back by at most one place, and only by accepting another frame, so as long as fewer than sixteen
others are accepted the key is still there when the next copy comes. A second acceptance would thus
need the key to be gone, and the only other way for it to go is a CONNECT of the same source.
-/

namespace Emcs.Network

open Bridge Mesh

variable {ι : Type} {cfg : ι → NodeConfig} {evp : Evp}

/-! ## What reaches the duplicate check -/

section Arrival

variable (evp)

/-- The packet that `on_rx_done` takes apart in a step, with the number of its datagram. -/
def arrival (s : Net ι) : Event ι → Option (ℕ × RxPacket)
  | .uplink c rh _ =>
    if c ∈ s.air then
      if h : RH_HDR + c.raw.length ≤ GW_PAYLOAD_MAX then
        (rxDecode evp (radioBuf rh c.raw h)).map fun p ↦ (c.tag, p)
      else none
    else none
  | _ => none

/-- The number of the datagram that a step accepts. -/
def acceptance (s : Net ι) (e : Event ι) : Option ℕ :=
  (arrival evp s e).bind fun a ↦ if rxAccepts s.gateway a.2 then some a.1 else none

/-- The number of the datagram that a step hands to `sendto`. -/
def handover (s : Net ι) : Event ι → Option ℕ
  | .uplink c rh os => (arrival evp s (.uplink c rh os)).bind fun a ↦
      (rxHandle s.gateway a.2 os).2.map fun _ ↦ a.1
  | _ => none

end Arrival

theorem arrival_congr {s s' : Net ι} {e : Event ι} (h : s.air = s'.air) :
    arrival evp s e = arrival evp s' e := by
  cases e with
  | uplink c rh os => rw [arrival, arrival, h]
  | _ => rfl

/-- A packet that arrives is a copy on the air. -/
theorem exists_of_arrival {s : Net ι} {e : Event ι} {tag : ℕ} {p : RxPacket}
    (h : arrival evp s e = some (tag, p)) : ∃ c rh os hlen, e = .uplink c rh os ∧ c ∈ s.air ∧
      c.tag = tag ∧ rxDecode evp (radioBuf rh c.raw hlen) = some p := by
  cases e with
  | uplink c rh os =>
    rw [arrival] at h
    by_cases hc : c ∈ s.air
    · rw [if_pos hc] at h
      by_cases hlen : RH_HDR + c.raw.length ≤ GW_PAYLOAD_MAX
      · rw [dif_pos hlen] at h
        obtain ⟨p', hp', heq⟩ := Option.map_eq_some_iff.mp h
        obtain ⟨rfl, rfl⟩ := Prod.mk.inj heq
        exact ⟨c, rh, os, hlen, rfl, hc, rfl, hp'⟩
      · rw [dif_neg hlen] at h
        exact nomatch h
    · rw [if_neg hc] at h
      exact nomatch h
  | _ => exact nomatch h

theorem acceptance_of_arrival {s : Net ι} {e : Event ι} {tag : ℕ} {p : RxPacket}
    (harr : arrival evp s e = some (tag, p)) :
    acceptance evp s e = if rxAccepts s.gateway p then some tag else none := by
  rw [acceptance, harr]
  rfl

theorem acceptance_of_handover {s : Net ι} {e : Event ι} {tag : ℕ}
    (h : handover evp s e = some tag) : acceptance evp s e = some tag := by
  cases e with
  | uplink c rh os =>
    obtain ⟨⟨t, p⟩, harr, hsend⟩ := Option.bind_eq_some_iff.mp h
    obtain ⟨d, hd, rfl⟩ := Option.map_eq_some_iff.mp hsend
    rw [acceptance_of_arrival harr, if_pos]
    by_contra hacc
    rw [rxHandle_of_not_accepts os (Bool.not_eq_true _ ▸ hacc)] at hd
    exact nomatch hd
  | _ => exact nomatch h

theorem exists_of_acceptance {s : Net ι} {e : Event ι} {tag : ℕ}
    (h : acceptance evp s e = some tag) :
    ∃ p, arrival evp s e = some (tag, p) ∧ rxAccepts s.gateway p = true := by
  obtain ⟨⟨t, p⟩, harr, hacc⟩ := Option.bind_eq_some_iff.mp h
  dsimp only at hacc
  by_cases h : rxAccepts s.gateway p = true
  · rw [if_pos h] at hacc
    exact ⟨p, Option.some_inj.mp hacc ▸ harr, h⟩
  · rw [if_neg h] at hacc
    exact nomatch hacc

theorem Sound.key_of_arrival {s : Net ι} (hs : Sound cfg s) {e : Event ι} {tag : ℕ} {p : RxPacket}
    (h : arrival evp s e = some (tag, p)) :
    ∃ d, s.Composed tag d ∧ d.key = (p.pkt.srcId, p.pkt.seqNum) := by
  obtain ⟨c, rh, os, hlen, -, hc, rfl, hp⟩ := exists_of_arrival h
  obtain ⟨d, hd, dst, ttl, payload, hraw⟩ := hs.air c hc
  have hdrop := drop_of_rxDecode hp
  change c.raw = _ at hdrop
  rw [hraw] at hdrop
  injection hdrop with hsrc hdrop
  injection hdrop with hdst hdrop
  injection hdrop with httl hdrop
  injection hdrop with hseq hdrop
  refine ⟨d, hd, ?_⟩
  rw [Datagram.key, hsrc, hseq]

variable [DecidableEq ι]

variable (cfg evp) in
/-- **What a step does to the bridge**: it takes an arriving packet through `rxHandle`, or it leaves
the duplicate cache and both logs alone. -/
theorem bridge_step (s : Net ι) (e : Event ι) :
    (arrival evp s e = none ∧ (step cfg evp s e).gateway.gwDedup = s.gateway.gwDedup ∧
      (step cfg evp s e).accepted = s.accepted ∧ (step cfg evp s e).handed = s.handed) ∨
    ∃ c rh os p, e = .uplink c rh os ∧ arrival evp s e = some (c.tag, p) ∧
      (step cfg evp s e).gateway = (rxHandle s.gateway p os).1 ∧
      (step cfg evp s e).accepted
        = s.accepted ++ (if rxAccepts s.gateway p then [c.tag] else []) ∧
      (step cfg evp s e).handed
        = s.handed ++ (rxHandle s.gateway p os).2.toList.map fun _ ↦ c.tag := by
  cases e with
  | uplink c rh os =>
    simp only [step, arrival, stepUplink]
    by_cases hc : c ∈ s.air
    · rw [if_pos hc, if_pos hc]
      by_cases hlen : RH_HDR + c.raw.length ≤ GW_PAYLOAD_MAX
      · rw [dif_pos hlen, dif_pos hlen]
        cases hp : rxDecode evp (radioBuf rh c.raw hlen) with
        | none => exact Or.inl ⟨rfl, rfl, rfl, rfl⟩
        | some p =>
          refine Or.inr ⟨c, rh, os, p, rfl, rfl, ?_⟩
          rw [onRxDone_of_decode hp]
          exact ⟨rfl, rfl, rfl⟩
      · rw [dif_neg hlen, dif_neg hlen]
        exact Or.inl ⟨rfl, rfl, rfl, rfl⟩
    · rw [if_neg hc, if_neg hc]
      exact Or.inl ⟨rfl, rfl, rfl, rfl⟩
  | send x m ok =>
    refine Or.inl ⟨rfl, ?_⟩
    simp only [step, stepSend]
    split <;> exact ⟨rfl, rfl, rfl⟩
  | deliver x c buf rssi fwdOk =>
    refine Or.inl ⟨rfl, ?_⟩
    rw [step]
    split <;> exact ⟨rfl, rfl, rfl⟩
  | reboot x => exact Or.inl ⟨rfl, rfl, rfl, rfl⟩
  | stage ready =>
    refine Or.inl ⟨rfl, ?_⟩
    rw [step, stepStage]
    split <;> exact ⟨rfl, rfl, rfl⟩
  | transmit =>
    refine Or.inl ⟨rfl, ?_⟩
    rw [step, stepTransmit]
    split <;> exact ⟨rfl, rfl, rfl⟩
  | expire now => exact Or.inl ⟨rfl, rfl, rfl, rfl⟩

theorem uplink_gateway {s : Net ι} {c : Copy} {rh : UInt8 × UInt8 × UInt8 × UInt8} {os : Os}
    {tag : ℕ} {p : RxPacket} (h : arrival evp s (.uplink c rh os) = some (tag, p)) :
    (step cfg evp s (.uplink c rh os)).gateway = (rxHandle s.gateway p os).1 := by
  rcases bridge_step cfg evp s (.uplink c rh os) with
      ⟨hnone, -⟩ | ⟨c, rh, os, p', heq, harr, hgw, -⟩
  · rw [hnone] at h
    exact nomatch h
  · obtain ⟨rfl, rfl, rfl⟩ := Event.uplink.inj heq
    obtain ⟨-, rfl⟩ := Prod.mk.inj (Option.some_inj.mp (harr.symm.trans h))
    exact hgw

theorem uplink_air (s : Net ι) (c : Copy) (rh : UInt8 × UInt8 × UInt8 × UInt8) (os : Os) :
    (step cfg evp s (.uplink c rh os)).air = s.air := by
  rw [step, stepUplink]
  split
  · split
    · split <;> rfl
    · rfl
  · rfl

variable (cfg evp)

theorem accepted_step (s : Net ι) (e : Event ι) :
    (step cfg evp s e).accepted = s.accepted ++ (acceptance evp s e).toList := by
  rcases bridge_step cfg evp s e with ⟨harr, -, hacc, -⟩ | ⟨c, rh, os, p, rfl, harr, -, hacc, -⟩
  · rw [hacc, acceptance, harr]
    exact (List.append_nil _).symm
  · rw [hacc, acceptance, harr]
    by_cases h : rxAccepts s.gateway p = true
    · simp [h]
    · simp [h]

theorem handed_step (s : Net ι) (e : Event ι) :
    (step cfg evp s e).handed = s.handed ++ (handover evp s e).toList := by
  rcases bridge_step cfg evp s e with ⟨harr, -, -, hhand⟩ | ⟨c, rh, os, p, rfl, harr, -, -, hhand⟩
  · rw [hhand]
    cases e with
    | uplink c rh os =>
      rw [handover, harr]
      exact (List.append_nil _).symm
    | _ => exact (List.append_nil _).symm
  · rw [hhand, handover, harr]
    cases h : (rxHandle s.gateway p os).2 <;> simp [h]

/-! ## The law -/

/-- How many frames the bridge has accepted that are not of datagram `tag`. -/
def others (s : Net ι) (tag : ℕ) : ℕ := s.accepted.countP fun t ↦ t != tag

/-- The step brings no CONNECT from the source of `d`. -/
def NoConnect (evp : Evp) (d : Datagram) (s : Net ι) (e : Event ι) : Prop :=
  ∀ tag p, arrival evp s e = some (tag, p) → p.pkt.srcId = d.src → isConnect p.plain = false

/-- The step brings no CONNECT. -/
def NoConnectArrives (evp : Evp) (s : Net ι) (e : Event ι) : Bool :=
  (arrival evp s e).all fun a ↦ !isConnect a.2.plain

theorem others_step (s : Net ι) (e : Event ι) (tag : ℕ) : others (step cfg evp s e) tag
    = others s tag + (acceptance evp s e).toList.countP fun t ↦ t != tag := by
  rw [others, accepted_step, List.countP_append, others]

theorem others_le_run (s : Net ι) (es : List (Event ι)) (tag : ℕ) :
    others s tag ≤ others (Trace.run (step cfg evp) s es) tag := by
  induction es generalizing s with
  | nil => exact Nat.le_refl _
  | cons e es ih =>
    refine Nat.le_trans ?_ (ih (step cfg evp s e))
    rw [others_step]
    exact Nat.le_add_right _ _

theorem others_run_le (s : Net ι) (es : List (Event ι)) (tag : ℕ) :
    others (Trace.run (step cfg evp) s es) tag ≤ others s tag + es.length := by
  induction es generalizing s with
  | nil => exact Nat.le_refl _
  | cons e es ih =>
    have hone : (acceptance evp s e).toList.countP (fun t ↦ t != tag) ≤ 1 :=
      Nat.le_trans List.countP_le_length Option.length_toList_le
    refine Nat.le_trans (ih (step cfg evp s e)) ?_
    rw [others_step, List.length_cons]
    omega

variable {cfg evp}

/-- The key of `d`, which is datagram `tag`, stands at most as far back as the number of other
frames accepted since there were `n`. -/
structure Remembered (tag : ℕ) (d : Datagram) (n : ℕ) (s : Net ι) : Prop where
  composed : s.Composed tag d
  le_others : n ≤ others s tag
  within : s.gateway.gwDedup.Within d.key (others s tag - n + 1)

/-- **One step moves the key at most one place back**, and not at all unless it accepts another
frame. -/
theorem Remembered.step {tag n : ℕ} {d : Datagram} {s : Net ι} (hr : Remembered tag d n s)
    (hs : Sound cfg s) {e : Event ι} (hno : NoConnect evp d s e)
    (hfew : others (step cfg evp s e) tag < n + GW_DEDUP_SIZE) :
    Remembered tag d n (step cfg evp s e) := by
  have hle := hr.le_others
  have hstep := others_step cfg evp s e tag
  refine ⟨hr.composed.step e, Nat.le_trans hle (hstep ▸ Nat.le_add_right _ _), ?_⟩
  rcases bridge_step cfg evp s e with
      ⟨harr, hsame, hacc, -⟩ | ⟨c, rh, os, p, rfl, harr, hgw, hacc, -⟩
  · rw [others, hacc, hsame]
    exact hr.within
  have haccept := acceptance_of_arrival harr
  by_cases h : rxAccepts s.gateway p = true
  · rw [if_pos h] at haccept
    rw [haccept] at hstep
    -- a CONNECT of another source does not touch the key
    have hclear : (clearIfConnect s.gateway p).gwDedup.Within d.key (others s tag - n + 1) := by
      rw [clearIfConnect]
      by_cases hc : isConnect p.plain = true
      · rw [if_pos hc]
        refine hr.within.invalidate ?_
        rw [beq_eq_false_iff_ne]
        intro hsrc
        exact Bool.false_ne_true ((hno c.tag p harr hsrc.symm).symm.trans hc)
      · rw [if_neg hc]
        exact hr.within
    rw [hgw, gwDedup_of_accepts os h]
    obtain ⟨d', hd', hkey⟩ := hs.key_of_arrival harr
    by_cases htag : c.tag = tag
    · have hd : d' = d := Option.some_inj.mp (hd'.symm.trans (htag ▸ hr.composed))
      rw [← hkey, hd]
      exact (RingCache.within_add_self _ _).mono (Nat.le_add_left _ _)
    · have hone : ((some c.tag).toList.countP fun t ↦ t != tag) = 1 := by simp [htag]
      rw [hone] at hstep
      rw [hstep] at hfew ⊢
      have hplace : others s tag - n + 1 < GW_DEDUP_SIZE := by omega
      have hnext : others s tag + 1 - n + 1 = others s tag - n + 1 + 1 := by omega
      rw [hnext]
      exact hclear.add hplace
  · rw [if_neg h] at haccept
    rw [haccept] at hstep
    rw [hgw, rxHandle_of_not_accepts os (Bool.not_eq_true _ ▸ h), hstep]
    exact hr.within

theorem Remembered.run {tag n : ℕ} {d : Datagram} {s : Net ι} {es : List (Event ι)}
    (hr : Remembered tag d n s) (hs : Sound cfg s)
    (hno : Trace.Always (Network.step cfg evp) (NoConnect evp d) s es)
    (hfew : others (Trace.run (Network.step cfg evp) s es) tag < n + GW_DEDUP_SIZE) :
    Remembered tag d n (Trace.run (Network.step cfg evp) s es) := by
  induction es generalizing s with
  | nil => exact hr
  | cons e es ih =>
    have hle := others_le_run cfg evp (Network.step cfg evp s e) es tag
    exact ih (hr.step hs hno.1 (Nat.lt_of_le_of_lt hle hfew)) (hs.step e) hno.2 hfew

theorem remembered_of_acceptance {s : Net ι} (hs : Sound cfg s) {e : Event ι} {tag : ℕ}
    {d : Datagram} (hd : s.Composed tag d) (h : acceptance evp s e = some tag) :
    Remembered tag d (others (step cfg evp s e) tag) (step cfg evp s e) := by
  obtain ⟨p, harr, hacc⟩ := exists_of_acceptance h
  rcases bridge_step cfg evp s e with ⟨hnone, -⟩ | ⟨c, rh, os, p', rfl, harr', hgw, -⟩
  · rw [hnone] at harr
    exact nomatch harr
  · obtain ⟨rfl, rfl⟩ := Prod.mk.inj (Option.some_inj.mp (harr'.symm.trans harr))
    obtain ⟨d', hd', hkey⟩ := hs.key_of_arrival harr
    have heq : d' = d := Option.some_inj.mp (hd'.symm.trans hd)
    refine ⟨hd.step _, Nat.le_refl _, ?_⟩
    rw [hgw, gwDedup_of_accepts os hacc, ← hkey, heq, Nat.sub_self]
    exact RingCache.within_add_self _ _

variable (cfg evp)

/-- In the run `es`, a copy of datagram `tag` is accepted after `pre` in the step `e₀`, and the step
`e` after `mid` brings another copy. -/
structure Again (es : List (Event ι)) (tag : ℕ) (pre : List (Event ι)) (e₀ : Event ι)
    (mid : List (Event ι)) (e : Event ι) : Prop where
  split : ∃ post, es = pre ++ e₀ :: (mid ++ e :: post)
  first : acceptance evp (reached cfg evp pre) e₀ = some tag
  again : ∃ p, arrival evp (reached cfg evp (pre ++ e₀ :: mid)) e = some (tag, p)

/-- Between an accepted copy and another copy, the bridge accepts fewer other frames than its ring
has slots. -/
def FewOthers (es : List (Event ι)) (tag : ℕ) : Prop :=
  ∀ pre e₀ mid e, Again cfg evp es tag pre e₀ mid e →
    others (reached cfg evp (pre ++ e₀ :: mid)) tag
      < others (reached cfg evp (pre ++ [e₀])) tag + GW_DEDUP_SIZE

/-- After an accepted copy no CONNECT of the same source is decoded, up to and including another
copy. -/
def NoConnectBetween (es : List (Event ι)) (tag : ℕ) : Prop :=
  ∀ pre e₀ mid e, Again cfg evp es tag pre e₀ mid e → ∀ d,
    (reached cfg evp (pre ++ [e₀])).Composed tag d →
      Trace.Always (step cfg evp) (NoConnect evp d) (reached cfg evp (pre ++ [e₀])) (mid ++ [e])

variable {cfg evp}

/-- **A CONNECT makes the bridge forget**: any frame of its source is handed over after it, however
often that was done before. -/
theorem handed_after_connect {s : Net ι} {cc cf : Copy} {rh rh' : UInt8 × UInt8 × UInt8 × UInt8}
    {os os' : Os} {t tag : ℕ} {pc pf : RxPacket}
    (hpc : arrival evp s (.uplink cc rh os) = some (t, pc))
    (hpf : arrival evp s (.uplink cf rh' os') = some (tag, pf)) (hconn : isConnect pc.plain = true)
    (hsrc : pc.pkt.srcId = pf.pkt.srcId)
    (hseq : pf.pkt.seqNum = pc.pkt.seqNum → isConnect pf.plain = true)
    (hslot : SlotAvailable s.gateway.clients pc.pkt.srcId os) :
    s.handed.count tag
      < (Trace.run (step cfg evp) s [.uplink cc rh os, .uplink cf rh' os']).handed.count tag := by
  have hfirst : rxAccepts s.gateway pc = true := rxAccepts_iff.mpr (Or.inl hconn)
  obtain ⟨gw, snd, hsend, -, hact, hid, -⟩ := rxHandle_of_available hfirst hslot
  have hgw : (step cfg evp s (.uplink cc rh os)).gateway = gw := by
    rw [uplink_gateway hpc, hsend]
  have hring : gw.gwDedup
      = (clearIfConnect s.gateway pc).gwDedup.add (pc.pkt.srcId, pc.pkt.seqNum) := by
    rw [← gwDedup_of_accepts os hfirst, hsend]
  have hacc : rxAccepts gw pf = true := by
    refine rxAccepts_iff.mpr (or_iff_not_imp_left.mpr fun hother hmem ↦ ?_)
    rw [hring] at hmem
    rcases RingCache.eq_or_mem_of_mem_add hmem with heq | hold
    · exact hother (hseq (congrArg Prod.snd heq))
    · rw [clearIfConnect, if_pos hconn, gwDedupClearSrc, RingCache.mem_invalidate, hsrc,
        beq_self_eq_true] at hold
      exact Bool.false_ne_true hold.2.symm
  have hslot' : SlotAvailable gw.clients pf.pkt.srcId os' :=
    Or.inl ⟨snd.client, hact, hid.trans hsrc⟩
  obtain ⟨gw', snd', hsend', -⟩ := rxHandle_of_available hacc hslot'
  have hlast : handover evp (step cfg evp s (.uplink cc rh os)) (.uplink cf rh' os')
      = some tag := by
    rw [handover, arrival_congr (uplink_air s cc rh os), hpf, Option.bind_some, hgw, hsend']
    rfl
  rw [Trace.run_cons, Trace.run_cons, Trace.run_nil, handed_step, handed_step, hlast,
    List.count_append, List.count_append, Option.toList_some, List.count_singleton_self]
  omega

/-- **At most once.** A frame is handed to the broker socket at most once in every run in which,
between an accepted copy and another copy, the bridge accepts fewer other frames than its ring has
slots and decodes no CONNECT of the same source. Where it does decode one, the next copy is handed
over again. -/
theorem handed_at_most_once (es : List (Event ι)) (tag : ℕ) :
    (FewOthers cfg evp es tag → NoConnectBetween cfg evp es tag →
      (reached cfg evp es).handed.count tag ≤ 1) ∧
    ∀ cc rh os t pc cf rh' os' pf,
      arrival evp (reached cfg evp es) (.uplink cc rh os) = some (t, pc) →
      arrival evp (reached cfg evp es) (.uplink cf rh' os') = some (tag, pf) →
      isConnect pc.plain = true → pc.pkt.srcId = pf.pkt.srcId →
      (pf.pkt.seqNum = pc.pkt.seqNum → isConnect pf.plain = true) →
      SlotAvailable (reached cfg evp es).gateway.clients pc.pkt.srcId os →
      (reached cfg evp es).handed.count tag
        < (reached cfg evp (es ++ [.uplink cc rh os, .uplink cf rh' os'])).handed.count tag := by
  refine ⟨fun hfew hno ↦ ?_, fun cc rh os t pc cf rh' os' pf hpc hpf hconn hsrc hseq hslot ↦ ?_⟩
  · by_contra hmany
    obtain ⟨pre, e₀, mid, e, post, heq, hfirst, hlast⟩ :=
      Trace.exists_two_of_count (handed_step cfg evp) (Nat.lt_of_not_le hmany)
    have hacc₀ := acceptance_of_handover hfirst
    obtain ⟨p₀, harr₀, -⟩ := exists_of_acceptance hacc₀
    obtain ⟨p, harr, hacc⟩ := exists_of_acceptance (acceptance_of_handover hlast)
    have hagain : Again cfg evp es tag pre e₀ mid e := ⟨⟨post, heq⟩, hacc₀, p, harr⟩
    obtain ⟨d, hd, -⟩ := (sound_reached cfg evp pre).key_of_arrival harr₀
    have hstart : reached cfg evp (pre ++ [e₀]) = step cfg evp (reached cfg evp pre) e₀ :=
      reached_append cfg evp pre [e₀]
    have hrun : reached cfg evp (pre ++ e₀ :: mid)
        = Trace.run (step cfg evp) (step cfg evp (reached cfg evp pre) e₀) mid :=
      reached_append cfg evp pre (e₀ :: mid)
    have hrem := remembered_of_acceptance (sound_reached cfg evp pre) hd hacc₀
    have hbound := hfew pre e₀ mid e hagain
    have hquiet := hno pre e₀ mid e hagain d (hstart ▸ hrem.composed)
    rw [hstart] at hbound hquiet
    obtain ⟨hmid, hend, -⟩ := Trace.always_append.mp hquiet
    rw [hrun] at hbound
    -- the key is still in the ring when the second copy comes, and that copy is no CONNECT
    have hstill := hrem.run ((sound_reached cfg evp pre).step e₀) hmid hbound
    rw [← hrun] at hstill hend
    obtain ⟨d', hd', hkey⟩ := (sound_reached cfg evp _).key_of_arrival harr
    obtain rfl : d' = d := Option.some_inj.mp (hd'.symm.trans hstill.composed)
    rcases rxAccepts_iff.mp hacc with hconn | hnew
    · have hsrc : p.pkt.srcId = d'.src := (congrArg Prod.fst hkey).symm
      exact Bool.false_ne_true ((hend tag p harr hsrc).symm.trans hconn)
    · rw [← hkey] at hnew
      exact hnew hstill.within.mem
  · rw [reached_append]
    exact handed_after_connect hpc hpf hconn hsrc hseq hslot

theorem fewOthers_of_length {es : List (Event ι)} (h : es.length ≤ GW_DEDUP_SIZE) (tag : ℕ) :
    FewOthers cfg evp es tag := by
  rintro pre e₀ mid e ⟨⟨post, rfl⟩, -, -⟩
  have hmid := others_run_le cfg evp (reached cfg evp (pre ++ [e₀])) mid tag
  rw [← reached_append, List.append_assoc, List.singleton_append] at hmid
  simp only [List.length_append, List.length_cons] at h
  omega

theorem noConnectBetween_of_always {es : List (Event ι)}
    (h : Trace.Always (step cfg evp) (fun s e ↦ NoConnectArrives evp s e = true) Net.boot es)
    (tag : ℕ) : NoConnectBetween cfg evp es tag := by
  rintro pre e₀ mid e ⟨⟨post, rfl⟩, -, -⟩ d -
  have hsplit : pre ++ e₀ :: (mid ++ e :: post) = pre ++ [e₀] ++ (mid ++ [e] ++ post) := by simp
  rw [hsplit] at h
  obtain ⟨-, hrest⟩ := Trace.always_append.mp h
  obtain ⟨hmid, -⟩ := Trace.always_append.mp hrest
  refine hmid.mono fun s e' he' tag' p harr _ ↦ ?_
  rw [NoConnectArrives, harr] at he'
  simpa using he'

/-! ## An endpoint between two relays -/

/-- The endpoint and the two relays of `config.h` in its range. -/
def threeNodes : Fin 3 → NodeConfig
  | 0 => arduino04
  | 1 => arduino03
  | 2 => arduino05

/-- The endpoint sends a message, and both relays forward it. -/
def flooded (m : List UInt8) : List (Event (Fin 3)) :=
  [.send 0 m true, .deliver 1 (copyAfter threeNodes [.send 0 m true] 0) [] (-60) true,
    .deliver 2 (copyAfter threeNodes [.send 0 m true] 0) [] (-70) true]

/-- The bridge receives the copy of the first relay. -/
def firstCopy (m : List UInt8) : Event (Fin 3) :=
  .uplink (copyAfter threeNodes (flooded m) 1) (0, 0x23, 0, 0) ⟨0, 5, true⟩

/-- The bridge receives the copy of the second relay. -/
def secondCopy (m : List UInt8) : Event (Fin 3) :=
  .uplink (copyAfter threeNodes (flooded m) 2) (0, 0x25, 0, 0) ⟨0, 6, true⟩

/-- The copies of both relays arrive, one after the other. -/
def bothCopies (m : List UInt8) : List (Event (Fin 3)) :=
  flooded m ++ [firstCopy m, secondCopy m]

/-- A PUBLISH of QoS 1 under topic id 1, with the text `04 1`. -/
def publishMsg : List UInt8 := [0x0b, 0x0c, 0x20, 0x00, 0x01, 0x00, 0x05, 0x30, 0x34, 0x20, 0x31]

/-- The PUBLISH arrives twice, and is handed over once. -/
theorem handed_at_most_once_publish :
    (arrival Evp.software (reached threeNodes Evp.software (flooded publishMsg ++
        [firstCopy publishMsg])) (secondCopy publishMsg)).map (fun a ↦ (a.1, a.2.plain))
          = some (0, publishMsg) ∧
      (reached threeNodes Evp.software (bothCopies publishMsg)).handed = [0] ∧
      (reached threeNodes Evp.software (bothCopies publishMsg)).handed.count 0 ≤ 1 := by
  refine ⟨by decide +kernel, by decide +kernel, ?_⟩
  refine (handed_at_most_once (bothCopies publishMsg) 0).1 (fewOthers_of_length (by decide) 0) ?_
  refine noConnectBetween_of_always ?_ 0
  exact ⟨rfl, rfl, rfl, by decide +kernel, by decide +kernel, trivial⟩

/-- **The CONNECT is handed over twice** when the copies of both relays arrive, one after the other:
the second clears the key that the first has left. -/
theorem connect_handed_twice :
    FewOthers threeNodes Evp.software (bothCopies connectMsg) 0 ∧
      (reached threeNodes Evp.software (bothCopies connectMsg)).handed.count 0 = 2 := by
  refine ⟨fewOthers_of_length (by decide) 0, ?_⟩
  decide +kernel

end Emcs.Network
