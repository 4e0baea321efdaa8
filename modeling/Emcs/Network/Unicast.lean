import Emcs.Network.Forwarding

/-!
# The address in the radio header

With static routing the sender of a frame writes the next hop into the radio header. A relay
forwards whatever it hears, in promiscuous mode, without a look at that address.

A frame is forwarded by nobody but its next hop as long as the other relays that hear it have some
other reason to drop it. Then there is one copy for each hop of the route, each sent by the node
that the one before was addressed to.

## The invariant

The run stays on the route (`OnRoute`): the copy at place `i` has made `i` hops, each by the node it
was addressed to. A new copy must then be an answer to the last one, so the invariant also says that
the next hop of every earlier copy has heard it already (`Spent`). A step in which nobody else
forwards keeps both, and the run lemma is an induction over such steps.
-/

namespace Emcs.Network

open Mesh Relaying

variable {ι : Type*} [Fintype ι] [DecidableEq ι] (cfg : ι → NodeConfig)

/-- **Unicast**: a relay does not retransmit a frame that is addressed to another node. -/
def Unicast (s : List (Relaying.Copy AirFrame ι)) (e : Hearing ι Circumstance) : Prop :=
  ∀ c, s[e.copy]? = some c → e.listener ∈ c.unheard →
    (cfg e.listener).myNodeId ≠ c.item.headerTo →
    reply cfg e.circumstance e.listener c.item = none

/-- A relay that hears a frame addressed to another node has seen it before, is its destination,
finds no hop left in it, or fails to send. -/
def OnlyAddressed (s : List (Relaying.Copy AirFrame ι)) (e : Hearing ι Circumstance) : Prop :=
  ∀ c, s[e.copy]? = some c → e.listener ∈ c.unheard →
    (cfg e.listener).myNodeId ≠ c.item.headerTo →
    ¬(Forwards (cfg e.listener) e.circumstance.transport c.item ∧ e.circumstance.fwdOk = true)

omit [Fintype ι] [DecidableEq ι] in
theorem reply_eq_none_iff (x : Circumstance) (r : ι) (a : AirFrame) :
    reply cfg x r a = none ↔ ¬(Forwards (cfg r) x.transport a ∧ x.fwdOk = true) := by
  constructor
  · intro hnone h
    have hsome := (reply_iff cfg x r a _).mpr ⟨h.1, h.2, rfl⟩
    exact nomatch hnone.symm.trans hsome
  · intro h
    refine Option.eq_none_iff_forall_ne_some.mpr fun b hb ↦ h ?_
    obtain ⟨hforwards, hok, -⟩ := (reply_iff cfg x r a b).mp hb
    exact ⟨hforwards, hok⟩

omit [Fintype ι] [DecidableEq ι] in
theorem unicast_iff_onlyAddressed (s : List (Relaying.Copy AirFrame ι))
    (e : Hearing ι Circumstance) :
    Unicast cfg s e ↔ OnlyAddressed cfg s e := by
  refine forall_congr' fun c ↦ forall_congr' fun _ ↦ forall_congr' fun _ ↦ forall_congr' fun _ ↦ ?_
  exact reply_eq_none_iff cfg e.circumstance e.listener c.item

/-! ## One copy for each hop -/

/-- The copy is what the next hop of another one sends to its own next hop. -/
def NextHop (b b' : AirFrame) : Prop :=
  b.headerFrom = b'.headerTo ∧
    ∃ r, (cfg r).myNodeId = b.headerFrom ∧ b.headerTo = meshNextHop (cfg r) b.dstId

/-- **The copies follow the route**: the copy at a place has made as many hops, and each hop was
made by the node it was addressed to. -/
structure OnRoute (s : List (Relaying.Copy AirFrame ι)) : Prop where
  hops : ∀ (i : ℕ) (c : Relaying.Copy AirFrame ι), s[i]? = some c → c.trail.length = i
  route : ∀ c ∈ s, (c.item :: c.trail).IsChain (NextHop cfg)

/-- The next hop of every copy but the last has heard it. -/
def Spent (s : List (Relaying.Copy AirFrame ι)) : Prop :=
  ∀ i c, s[i]? = some c → i + 1 < s.length → ∀ r ∈ c.unheard, (cfg r).myNodeId ≠ c.item.headerTo

variable {cfg}

omit [DecidableEq ι] in
theorem onRoute_inject (a : AirFrame) : OnRoute cfg (inject a) ∧ Spent cfg (inject a) := by
  refine ⟨⟨fun i c h ↦ ?_, fun c hc ↦ ?_⟩, fun i c _ hlt ↦ ?_⟩
  · obtain ⟨hlt, rfl⟩ := List.getElem?_eq_some_iff.mp h
    have hzero : i = 0 := Nat.lt_one_iff.mp hlt
    subst hzero
    rfl
  · rw [List.mem_singleton.mp hc]
    exact List.isChain_singleton _
  · exact absurd hlt (Nat.not_lt.mpr (Nat.le_add_left 1 i))

omit [Fintype ι] [DecidableEq ι] in
theorem nextHop_of_reply (hmode : ∀ r, (cfg r).meshMode = .routing) {x : Circumstance} {r : ι}
    {a b : AirFrame} (hto : (cfg r).myNodeId = a.headerTo) (h : reply cfg x r a = some b) :
    NextHop cfg b a := by
  obtain ⟨-, -, rfl⟩ := (reply_iff cfg x r a b).mp h
  refine ⟨hto, r, rfl, ?_⟩
  rw [forwarded, radioTo, relayNextHop, hmode r]
  rfl

/-- **A hearing in which nobody else forwards keeps to the route.** -/
theorem onRoute_step (hmode : ∀ r, (cfg r).meshMode = .routing)
    (hid : Function.Injective fun r ↦ (cfg r).myNodeId) {s : List (Relaying.Copy AirFrame ι)}
    (h : OnRoute cfg s ∧ Spent cfg s) {e : Hearing ι Circumstance} (hu : Unicast cfg s e) :
    OnRoute cfg (Relaying.step (reply cfg) s e) ∧ Spent cfg (Relaying.step (reply cfg) s e) := by
  obtain ⟨⟨hhops, hroute⟩, hspent⟩ := h
  -- who answers a copy is its next hop, and that copy is the last one
  have hlast : ∀ c b, s[e.copy]? = some c → e.listener ∈ c.unheard →
      reply cfg e.circumstance e.listener c.item = some b →
      (cfg e.listener).myNodeId = c.item.headerTo ∧ e.copy + 1 = s.length := by
    intro c b hget hmem hb
    have hto : (cfg e.listener).myNodeId = c.item.headerTo := by
      by_contra hne
      exact nomatch (hu c hget hmem hne).symm.trans hb
    have hlt := (List.getElem?_eq_some_iff.mp hget).1
    refine ⟨hto, le_antisymm hlt (Nat.not_lt.mp fun hlt' ↦ ?_)⟩
    exact hspent e.copy c hget hlt' e.listener hmem hto
  refine ⟨⟨fun i c' hget' ↦ ?_, fun c' hc' ↦ ?_⟩, fun i c' hget' hlt' r hr hto ↦ ?_⟩
  · rcases getElem?_step hget' with ⟨c, hget, -, htrail, -, -⟩ | ⟨rfl, c, hget, hmem, hans⟩
    · rw [htrail]
      exact hhops i c hget
    · obtain ⟨hb, htrail, -⟩ := mem_answers hans
      rw [htrail, List.length_cons, hhops e.copy c hget]
      exact (hlast c c'.item hget hmem hb).2
  · obtain ⟨i, hget'⟩ := List.getElem?_of_mem hc'
    rcases getElem?_step hget' with ⟨c, hget, hitem, htrail, -, -⟩ | ⟨rfl, c, hget, hmem, hans⟩
    · rw [hitem, htrail]
      exact hroute c (List.mem_of_getElem? hget)
    · obtain ⟨hb, htrail, -⟩ := mem_answers hans
      rw [htrail]
      refine List.isChain_cons_cons.mpr ⟨?_, hroute c (List.mem_of_getElem? hget)⟩
      exact nextHop_of_reply hmode (hlast c c'.item hget hmem hb).1 hb
  · rcases getElem?_step hget' with ⟨c, hget, hitem, -, hsub, hheard⟩ | ⟨rfl, -⟩
    · rw [hitem] at hto
      by_cases hlt : i + 1 < s.length
      · exact hspent i c hget hlt r (hsub hr) hto
      -- the last copy has just been answered, by its next hop
      have hi := (List.getElem?_eq_some_iff.mp hget).1
      have hgrow : s.length < (Relaying.step (reply cfg) s e).length := by omega
      obtain ⟨-, c₀, b, hget₀, hmem₀, hb⟩ := answered_of_length_lt hgrow
      obtain ⟨hto₀, hcopy⟩ := hlast c₀ b hget₀ hmem₀ hb
      have hsame : i = e.copy := by omega
      rw [← hsame, hget] at hget₀
      obtain rfl := Option.some_inj.mp hget₀
      have hsame' : r = e.listener := hid (hto.trans hto₀.symm)
      exact hheard hsame (hsame' ▸ hr)
    · have hle : (Relaying.step (reply cfg) s e).length ≤ s.length + 1 := by
        by_contra hgt
        have hgrow : s.length < (Relaying.step (reply cfg) s e).length := by omega
        have hone := (answered_of_length_lt hgrow).1
        omega
      omega

/-- **Static routing is unicast** in exactly those runs in which every other relay that hears a
frame has a reason to drop it, and there each hop of the route is made once. -/
theorem unicast_iff (hmode : ∀ r, (cfg r).meshMode = .routing)
    (hid : Function.Injective fun r ↦ (cfg r).myNodeId) (a : AirFrame)
    (es : List (Hearing ι Circumstance)) :
    (Trace.Always (Relaying.step (reply cfg)) (Unicast cfg) (inject a) es ↔
      Trace.Always (Relaying.step (reply cfg)) (OnlyAddressed cfg) (inject a) es) ∧
    (Trace.Always (Relaying.step (reply cfg)) (OnlyAddressed cfg) (inject a) es →
      OnRoute cfg (Trace.run (Relaying.step (reply cfg)) (inject a) es)) := by
  have hiff : Trace.Always (Relaying.step (reply cfg)) (Unicast cfg) (inject a) es ↔
      Trace.Always (Relaying.step (reply cfg)) (OnlyAddressed cfg) (inject a) es :=
    ⟨fun h ↦ h.mono fun s e ↦ (unicast_iff_onlyAddressed cfg s e).mp,
      fun h ↦ h.mono fun s e ↦ (unicast_iff_onlyAddressed cfg s e).mpr⟩
  refine ⟨hiff, fun h ↦ ?_⟩
  exact (Trace.run_invariant (P := fun s ↦ OnRoute cfg s ∧ Spent cfg s)
    (fun s e hs hu ↦ onRoute_step hmode hid hs hu) (onRoute_inject a) (hiff.mpr h)).1

/-- A relay hears the first copy with the key of the uplink in its cache. -/
def hearsAgain (r : Fin 2) : Hearing (Fin 2) Circumstance :=
  ⟨0, r, ⟨dedupAdd Transport.boot uplink.srcId uplink.seqNum, [], true, 0, true, 0⟩⟩

/-- arduino-05 has the key of the uplink in its cache when it hears it, arduino-03 then forwards
it. -/
theorem unicast_iff_uplink :
    Trace.Always (Relaying.step (reply relays)) (Unicast relays)
        (inject uplink) [hearsAgain 1, hears 0] ∧
      OnRoute relays (Trace.run (Relaying.step (reply relays)) (inject uplink)
        [hearsAgain 1, hears 0]) := by
  have h := @unicast_iff _ _ _ relays (by decide) (by decide) uplink [hearsAgain 1, hears 0]
  have hdrop : reply relays (hearsAgain 1).circumstance 1 uplink = none := by
    refine (reply_eq_none_iff relays _ 1 uplink).mpr fun hforwards ↦ ?_
    refine dedupSeen_eq_false_iff.mp hforwards.1.unseen ?_
    exact RingCache.mem_add_self _ _
  have honly : Trace.Always (Relaying.step (reply relays)) (OnlyAddressed relays)
      (inject uplink) [hearsAgain 1, hears 0] := by
    refine ⟨fun c hc _ _ ↦ ?_, fun c hc _ hne ↦ ?_, trivial⟩
    · rw [← Option.some_inj.mp hc]
      exact (reply_eq_none_iff relays _ 1 uplink).mp hdrop
    · obtain ⟨c₀, hget, hitem, -⟩ | ⟨hlast, -⟩ := getElem?_step hc
      · rw [hitem, ← Option.some_inj.mp hget] at hne
        exact absurd rfl hne
      · exact absurd hlast (by decide)
  exact ⟨h.1.mpr honly, h.2 honly⟩

/-- **Both relays hear the uplink**, and both send a copy of it. -/
theorem relay_forwards_unaddressed :
    (radioTx arduino04 uplink.raw (meshNextHop arduino04 MESH_ADDR_GATEWAY) true).1 = some uplink ∧
      ¬Trace.Always (Relaying.step (reply relays)) (Unicast relays)
        (inject uplink) [hears 1, hears 0] ∧
      ¬OnRoute relays (Trace.run (Relaying.step (reply relays)) (inject uplink)
        [hears 1, hears 0]) := by
  refine ⟨rfl, fun h ↦ ?_, fun h ↦ ?_⟩
  · have hnone := h.1 ⟨uplink, [], Finset.univ⟩ rfl (Finset.mem_univ _) (by decide)
    have hsome : reply relays (hears 1).circumstance 1 uplink = some (forwarded arduino05 uplink) :=
      (reply_iff relays _ 1 uplink _).mpr
        ⟨⟨by decide, dedupSeen_boot _ _, by decide, rfl, by decide⟩, rfl, rfl⟩
    exact nomatch hnone.symm.trans hsome
  · have htrail :
        ((Trace.run (Relaying.step (reply relays)) (inject uplink) [hears 1, hears 0])[2]?.map
        fun c ↦ c.trail.length) = some 1 := by decide +kernel
    obtain ⟨c, hget, hone⟩ := Option.map_eq_some_iff.mp htrail
    exact absurd (hone.symm.trans (h.hops 2 c hget)) (by decide)

end Emcs.Network
