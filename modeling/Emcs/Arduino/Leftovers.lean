import Emcs.Arduino.Client
import Mathlib.Data.List.GetD

/-!
# What earlier packets leave in the receive buffer

The receive buffer of the Arduino is not cleared between packets: behind a packet of `L` bytes stand
the bytes of the packets before it. A handler that checks the length never looks at them. The others
look at fixed places, and take a field that the packet is too short for from what an earlier packet
left (`independent_iff`).

The argument runs twice over each handler. A packet that is long enough fixes every byte read; of
one that is too short, two buffers are filled up so that the field reads differently in them.

## The condition

`Determined` gives for each type the length from which its handler reads inside the packet, and
beside it the states in which a shorter packet does nothing whichever bytes it lacks: no entry waits
for any of the ids it could show, or the table is empty already. Two types have no such length,
because their handlers check it before they read.
-/

namespace Emcs.Arduino

open Bytes Mqttsn

/-! ## Two buffers with one packet -/

/-- The packet `p` stands at the front of the receive buffer `b` of `N` bytes. -/
structure Holds (N : ℕ) (p b : List UInt8) : Prop where
  length_eq : b.length = N
  isPrefix : p <+: b

/-- A computation on the buffer that has one result for all buffers with the packet `p`. -/
def Same {α : Type} (N : ℕ) (p : List UInt8) (F : List UInt8 → UInt32 → α) : Prop :=
  ∀ b b' now, Holds N p b → Holds N p b' → F b now = F b' now

/-- The packet `p` is handled the same whatever stands behind it in the buffer. -/
def Independent (N : ℕ) (c : Client) (p : List UInt8) : Prop :=
  Same N p fun b now ↦ udpRecvCallbackArduino c ⟨b, UInt8.ofNat p.length, now⟩

/-- The buffer with `p` at its front and the bytes `f` behind it. -/
def fill (N : ℕ) (p : List UInt8) (f : ℕ → UInt8) : List UInt8 :=
  List.ofFn fun i : Fin N ↦ if i < p.length then p.getD i 0 else f i

section Buffers

variable {N : ℕ} {p b : List UInt8} {i : ℕ}

theorem Holds.getD (h : Holds N p b) (hi : i < p.length) : b.getD i 0 = p.getD i 0 := by
  obtain ⟨rest, rfl⟩ := h.isPrefix
  exact List.getD_append p rest 0 i hi

theorem getD_fill (f : ℕ → UInt8) (hi : i < N) :
    (fill N p f).getD i 0 = if i < p.length then p.getD i 0 else f i := by
  rw [fill, List.getD_eq_getElem _ _ (by rwa [List.length_ofFn]), List.getElem_ofFn]

theorem holds_fill (f : ℕ → UInt8) (h : p.length ≤ N) : Holds N p (fill N p f) where
  length_eq := List.length_ofFn
  isPrefix := by
    rw [List.prefix_iff_getElem?]
    intro i hi
    have hN : i < (fill N p f).length := by
      rw [fill, List.length_ofFn]
      omega
    have hget := getD_fill (p := p) f (hi.trans_le h)
    rw [if_pos hi, List.getD_eq_getElem _ _ hN, List.getD_eq_getElem _ _ hi] at hget
    rw [List.getElem?_eq_getElem hN, hget]

theorem Holds.drop_take {k m : ℕ} (h : Holds N p b) (hkm : k + m ≤ p.length) :
    (b.drop k).take m = (p.drop k).take m := by
  obtain ⟨rest, rfl⟩ := h.isPrefix
  rw [List.drop_append_of_le_length (by omega),
    List.take_append_of_le_length (by rw [List.length_drop]; omega)]

variable {α : Type} {F G : List UInt8 → UInt32 → α}

theorem same_of_forall (x : UInt32 → α) (h : ∀ b now, Holds N p b → F b now = x now) :
    Same N p F := by
  intro b b' now hb hb'
  rw [h b now hb, h b' now hb']

theorem same_congr (h : ∀ b now, Holds N p b → F b now = G b now) : Same N p F ↔ Same N p G := by
  constructor
  · intro hsame b b' now hb hb'
    rw [← h b now hb, ← h b' now hb', hsame b b' now hb hb']
  · intro hsame b b' now hb hb'
    rw [h b now hb, h b' now hb', hsame b b' now hb hb']

theorem same_ite {q : Prop} [Decidable q] :
    Same N p (fun b now ↦ if q then F b now else G b now) ↔
      if q then Same N p F else Same N p G := by
  split
  · rfl
  · rfl

end Buffers

/-! ## Message ids -/

/-- The two bytes at `i` may read as `mid`, as far as the packet fixes them. -/
def Spells (p : List UInt8) (i : ℕ) (mid : UInt16) : Prop :=
  (i < p.length → hi8 mid = p.getD i 0) ∧ (i + 1 < p.length → lo8 mid = p.getD (i + 1) 0)

/-- The message id that a handler reads at byte `i`. -/
abbrev midAt (b : List UInt8) (i : ℕ) : UInt16 := be16 (b.getD i 0) (b.getD (i + 1) 0)

section Ids

variable {N : ℕ} {p b b' : List UInt8} {i : ℕ} {mid : UInt16}

theorem Holds.spells (h : Holds N p b) : Spells p i (midAt b i) := by
  constructor
  · intro hi
    rw [midAt, hi8_be16, h.getD hi]
  · intro hi
    rw [midAt, lo8_be16, h.getD hi]

theorem Holds.midAt_eq (h : Holds N p b) (h' : Holds N p b') (hi : i + 1 < p.length) :
    midAt b i = midAt b' i := by
  rw [midAt, midAt, h.getD (by omega), h.getD hi, h'.getD (by omega), h'.getD hi]

/-- Every id that a packet leaves possible is read in some buffer, with any byte further behind. -/
theorem exists_midAt_eq (hN : i + 1 < N) (hp : p.length ≤ N) (hmid : Spells p i mid)
    (rest : UInt8) :
    ∃ b, Holds N p b ∧ midAt b i = mid ∧
      ∀ j, i + 1 < j → p.length ≤ j → j < N → b.getD j 0 = rest := by
  let f : ℕ → UInt8 := fun j ↦ if j = i then hi8 mid else if j = i + 1 then lo8 mid else rest
  refine ⟨fill N p f, holds_fill f hp, ?_, ?_⟩
  · have hhigh : (fill N p f).getD i 0 = hi8 mid := by
      rw [getD_fill f (by omega)]
      split
      · rename_i hi
        exact (hmid.1 hi).symm
      · exact if_pos rfl
    have hlow : (fill N p f).getD (i + 1) 0 = lo8 mid := by
      rw [getD_fill f hN]
      split
      · rename_i hi
        exact (hmid.2 hi).symm
      · exact (if_neg (Nat.succ_ne_self i)).trans (if_pos rfl)
    rw [midAt, hhigh, hlow, be16_hi8_lo8]
  · intro j hij hj hjN
    rw [getD_fill f hjN, if_neg (by omega)]
    exact (if_neg (by omega)).trans (if_neg (by omega))

theorem exists_spells_ne (hp : p.length ≤ i + 1) (hmid : Spells p i mid) :
    ∃ mid', Spells p i mid' ∧ mid' ≠ mid := by
  refine ⟨be16 (hi8 mid) (lo8 mid + 1), ⟨fun hi ↦ ?_, fun hi ↦ absurd hi (by omega)⟩, fun heq ↦ ?_⟩
  · rw [hi8_be16, hmid.1 hi]
  · have hlow := congrArg lo8 heq
    rw [lo8_be16] at hlow
    exact absurd hlow (by grind)

end Ids

/-! ## Handlers -/

/-- No topic waits for the id that the packet `p` has at byte `i`, as far as it fixes it. -/
def Unawaited (c : Client) (p : List UInt8) (i : ℕ) : Prop :=
  ∀ mid, Spells p i mid → ∀ j : Fin MAX_CUSTOM_TOPICS, c.customTopics[j].awaits false mid = false

/-- No message in flight has the id that the packet `p` has at byte `i`, as far as it fixes it. -/
def Unmatched (c : Client) (p : List UInt8) (i : ℕ) : Prop :=
  ∀ mid, Spells p i mid → ∀ j : Fin MAX_PENDING_QOS_MSGS,
    c.pendingMsgs[j].inUse = true → c.pendingMsgs[j].msgId = mid → mid = 0

theorem completeTopic_eq_self_iff {sender : Bool} {mid tid : UInt16}
    {v : Vector TopicEntry MAX_CUSTOM_TOPICS} :
    completeTopic sender mid tid v = v ↔
      ∀ i : Fin MAX_CUSTOM_TOPICS, v[i].awaits sender mid = false := by
  constructor
  · intro h i
    by_contra hawaits
    obtain ⟨j, hj⟩ := Slots.exists_first (p := TopicEntry.awaits sender mid) (v := v) (i := i)
      (Bool.eq_true_of_not_eq_false hawaits)
    -- the entry found is registered afterwards, and was not before
    have hregistered : v[j].isRegistered = true := by
      rw [completeTopic, hj] at h
      rw [← h, Slots.get_set_self]
    have hfound := Slots.of_first_eq_some hj
    rw [TopicEntry.awaits, hregistered] at hfound
    simp at hfound
  · intro h
    rw [completeTopic, Slots.first_eq_none_iff.mpr h]

section Handlers

variable {N : ℕ} {c : Client} {p : List UInt8}

/-- The topics are forgotten or not by a byte that is not in the packet. -/
theorem same_handleConnack_iff (hN : 8 ≤ N) (hp : p.length ≤ N) :
    Same N p (fun b _ ↦ (handleConnack c b, ([] : List Action))) ↔
      3 ≤ p.length ∨ c.customTopics = Vector.replicate _ TopicEntry.zero := by
  constructor
  · intro hsame
    by_cases hlen : 3 ≤ p.length
    · exact .inl hlen
    · have hreturn : ∀ r : UInt8, (fill N p fun _ ↦ r).getD 2 0 = r := by
        intro r
        rw [getD_fill _ (by omega), if_neg (by omega)]
      have heq := hsame _ _ 0 (holds_fill (fun _ ↦ 0) hp) (holds_fill (fun _ ↦ 1) hp)
      have htopics := congrArg (fun r ↦ r.1.customTopics) heq
      simp only [handleConnack, hreturn, MQTTSN_RETURN_ACCEPTED] at htopics
      exact .inr htopics.symm
  · rintro (hlen | hzero)
    · refine same_of_forall (fun _ ↦ (handleConnack c p, [])) fun b _ hb ↦ ?_
      rw [handleConnack, handleConnack, hb.getD (by omega)]
    · refine same_of_forall (fun _ ↦ ({ c with pingAckReceived := true }, [])) fun b _ _ ↦ ?_
      rw [handleConnack, ← hzero, ite_self]

theorem same_handleRegack (hp : p.length < 256) :
    Same N p fun b _ ↦ (handleRegack c b (UInt8.ofNat p.length), ([] : List Action)) := by
  refine same_of_forall (fun _ ↦ (handleRegack c p (UInt8.ofNat p.length), [])) fun b _ hb ↦ ?_
  rw [handleRegack, handleRegack]
  split
  · rfl
  · rename_i hshort
    have hlen : 7 ≤ p.length := by
      have hle := UInt8.le_iff_toNat_le.mp (UInt8.not_lt.mp hshort)
      rwa [UInt8.toNat_ofNat', Nat.mod_eq_of_lt hp] at hle
    rw [hb.getD (by omega : 6 < _), hb.getD (by omega : 2 < _), hb.getD (by omega : 3 < _),
      hb.getD (by omega : 4 < _), hb.getD (by omega : 5 < _)]

/-- The return code is not in the packet, and maybe not all of the id of the entry. -/
theorem same_handleSuback_iff (hN : 8 ≤ N) (hp : p.length ≤ N) :
    Same N p (fun b _ ↦ (handleSuback c b, ([] : List Action))) ↔
      8 ≤ p.length ∨ Unawaited c p 5 := by
  constructor
  · intro hsame
    by_cases hlen : 8 ≤ p.length
    · exact .inl hlen
    · right
      intro mid hmid
      -- the same id, accepted in one buffer and rejected in the other
      obtain ⟨b, hb, hid, haccepted⟩ := exists_midAt_eq (by omega) hp hmid 0
      obtain ⟨b', hb', -, hrejected⟩ := exists_midAt_eq (by omega) hp hmid 1
      have heq := hsame b b' 0 hb hb'
      have htopics := congrArg (fun r ↦ r.1.customTopics) heq
      simp only [handleSuback, haccepted 7 (by omega) (by omega) (by omega),
        hrejected 7 (by omega) (by omega) (by omega), MQTTSN_RETURN_ACCEPTED] at htopics
      rw [← midAt, hid] at htopics
      exact completeTopic_eq_self_iff.mp htopics
  · rintro (hlen | hnone)
    · refine same_of_forall (fun _ ↦ (handleSuback c p, [])) fun b _ hb ↦ ?_
      rw [handleSuback, handleSuback, hb.getD (by omega : 7 < _), hb.getD (by omega : 3 < _),
        hb.getD (by omega : 4 < _), hb.getD (by omega : 5 < _), hb.getD (by omega : 6 < _)]
    · refine same_of_forall (fun _ ↦ (c, [])) fun b _ hb ↦ ?_
      rw [handleSuback]
      split
      · rfl
      · change ({ c with customTopics := completeTopic false (midAt b 5) (midAt b 3) _ }, _) = _
        rw [completeTopic_eq_self_iff.mpr (hnone _ hb.spells)]

/-- `handle_puback` and `handle_pubcomp`, with their places of the id. -/
theorem same_removePendingQosMsg_iff {i : ℕ} (hi : i + 1 < N) (hp : p.length ≤ N) :
    Same N p (fun b _ ↦ (removePendingQosMsg c (midAt b i), ([] : List Action))) ↔
      i + 2 ≤ p.length ∨ Unmatched c p i := by
  constructor
  · intro hsame
    by_cases hlen : i + 2 ≤ p.length
    · exact .inl hlen
    · right
      intro mid hmid
      -- a second id that the packet allows ends another message, if any
      obtain ⟨mid', hmid', hne⟩ := exists_spells_ne (by omega) hmid
      obtain ⟨b, hb, hid, -⟩ := exists_midAt_eq hi hp hmid 0
      obtain ⟨b', hb', hid', -⟩ := exists_midAt_eq hi hp hmid' 0
      have hpending := congrArg (fun r ↦ r.1.pendingMsgs) (hsame b b' 0 hb hb')
      simp only [removePendingQosMsg, hid, hid'] at hpending
      exact removePending_eq_self_iff.mp (removePending_eq_self_of_eq hne.symm hpending)
  · rintro (hlen | hnone)
    · intro b b' now hb hb'
      have hid : midAt b i = midAt b' i := hb.midAt_eq hb' (by omega)
      simp only [hid]
    · refine same_of_forall (fun _ ↦ (c, [])) fun b _ hb ↦ ?_
      rw [removePendingQosMsg, removePending_eq_self_iff.mpr (hnone _ hb.spells)]

/-- A handler that shows the id it read. -/
theorem same_midAt_iff {α : Type} {i : ℕ} {F : UInt16 → UInt32 → α} (hi : i + 1 < N)
    (hp : p.length ≤ N) (hF : ∀ mid mid' now, F mid now = F mid' now → mid = mid') :
    Same N p (fun b now ↦ F (midAt b i) now) ↔ i + 2 ≤ p.length := by
  constructor
  · intro hsame
    by_contra hlen
    have hspells : Spells p i (midAt p i) := ⟨fun _ ↦ hi8_be16 _ _, fun _ ↦ lo8_be16 _ _⟩
    obtain ⟨b, hb, -, -⟩ := exists_midAt_eq hi hp hspells 0
    obtain ⟨mid', hmid', hne⟩ := exists_spells_ne (by omega) (hb.spells (i := i))
    obtain ⟨b', hb', hid', -⟩ := exists_midAt_eq hi hp hmid' 0
    have heq := hF _ _ _ (hsame b b' 0 hb hb')
    exact hne (hid'.symm.trans heq.symm)
  · intro hlen b b' now hb hb'
    have hid : midAt b i = midAt b' i := hb.midAt_eq hb' (by omega)
    simp only [hid]

theorem same_handlePubrec_iff (hN : 8 ≤ N) (hp : p.length ≤ N) :
    Same N p (fun b now ↦ handlePubrec c b now) ↔ 4 ≤ p.length := by
  let F : UInt16 → UInt32 → Client × List Action := fun mid now ↦
    ({ c with pendingMsgs := markReceived mid now c.pendingMsgs }, [.send (pubrelPacket mid)])
  have hF : ∀ mid mid' now, F mid now = F mid' now → mid = mid' := by
    intro mid mid' now h
    have hsent : [Action.send (pubrelPacket mid)] = [.send (pubrelPacket mid')] :=
      congrArg Prod.snd h
    simp only [pubrelPacket, List.cons.injEq, Action.send.injEq] at hsent
    rw [← be16_hi8_lo8 mid, ← be16_hi8_lo8 mid', hsent.1.2.2.1, hsent.1.2.2.2.1]
  exact same_midAt_iff (F := F) (i := 2) (by omega) hp hF

theorem same_handlePubrel_iff (hN : 8 ≤ N) (hp : p.length ≤ N) :
    Same N p (fun b _ ↦ (handlePubrel c b, ([] : List Action))) ↔ 4 ≤ p.length := by
  let F : UInt16 → UInt32 → Client × List Action := fun mid _ ↦
    ({ c with pubcompPending := true, pubcompMid := mid }, [])
  have hF : ∀ mid mid' now, F mid now = F mid' now → mid = mid' := fun _ _ _ h ↦
    congrArg (fun r ↦ r.1.pubcompMid) h
  exact same_midAt_iff (F := F) (i := 2) (by omega) hp hF

theorem same_handlePublish (hp : p.length < 256) :
    Same N p fun b _ ↦ handlePublish c b (UInt8.ofNat p.length) := by
  refine same_of_forall (fun _ ↦ handlePublish c p (UInt8.ofNat p.length)) fun b _ hb ↦ ?_
  rw [handlePublish, handlePublish]
  split
  · rfl
  · rename_i hshort
    have hto : (UInt8.ofNat p.length).toNat = p.length := by
      rw [UInt8.toNat_ofNat', Nat.mod_eq_of_lt hp]
    have hlen : 7 ≤ p.length := by
      have hle := UInt8.le_iff_toNat_le.mp (UInt8.not_lt.mp hshort)
      rwa [hto] at hle
    have hsub : (UInt8.ofNat p.length - 7).toNat = p.length - 7 := by
      rw [UInt8.toNat_sub_of_le _ _ (UInt8.not_lt.mp hshort), hto]
      rfl
    rw [hsub, hb.drop_take (by omega : 7 + min (p.length - 7) 31 ≤ p.length),
      hb.getD (by omega : 2 < _), hb.getD (by omega : 3 < _), hb.getD (by omega : 4 < _),
      hb.getD (by omega : 5 < _), hb.getD (by omega : 6 < _)]

end Handlers

/-! ## The callback -/

/-- The packet is long enough for the handler of its type, or the bytes that it lacks make no
difference to the client. -/
def Determined (c : Client) (p : List UInt8) : Prop :=
  let mt := p.getD 1 0
  (c.dropAcks && isQosAck mt) = true ∨
    if mt = MQTTSN_MSG_TYPE_CONNACK then
      3 ≤ p.length ∨ c.customTopics = Vector.replicate _ TopicEntry.zero
    else if mt = MQTTSN_MSG_TYPE_SUBACK then 8 ≤ p.length ∨ Unawaited c p 5
    else if mt = MQTTSN_MSG_TYPE_PUBACK then 6 ≤ p.length ∨ Unmatched c p 4
    else if mt = MQTTSN_MSG_TYPE_PUBREC then 4 ≤ p.length
    else if mt = MQTTSN_MSG_TYPE_PUBCOMP then 4 ≤ p.length ∨ Unmatched c p 2
    else if mt = MQTTSN_MSG_TYPE_PUBREL then 4 ≤ p.length
    else True

theorem independent_iff_determined {N : ℕ} {c : Client} {p : List UInt8} (hN : 8 ≤ N)
    (h2 : 2 ≤ p.length) (hp : p.length ≤ N) (h256 : p.length < 256) :
    Independent N c p ↔ Determined c p := by
  have hto : (UInt8.ofNat p.length).toNat = p.length := by
    rw [UInt8.toNat_ofNat', Nat.mod_eq_of_lt h256]
  have hheader : ¬ (UInt8.ofNat p.length).toNat < MQTTSN_HEADER_SIZE := by
    rw [hto, MQTTSN_HEADER_SIZE]
    omega
  -- the type is in the packet, so that the case is the same for all buffers
  have hcases : Independent N c p ↔ Same N p fun b now ↦
      if c.dropAcks && isQosAck (p.getD 1 0) then (c, [])
      else if p.getD 1 0 = MQTTSN_MSG_TYPE_CONNACK then (handleConnack c b, [])
      else if p.getD 1 0 = MQTTSN_MSG_TYPE_REGACK then
        (handleRegack c b (UInt8.ofNat p.length), [])
      else if p.getD 1 0 = MQTTSN_MSG_TYPE_SUBACK then (handleSuback c b, [])
      else if p.getD 1 0 = MQTTSN_MSG_TYPE_PUBACK then (removePendingQosMsg c (midAt b 4), [])
      else if p.getD 1 0 = MQTTSN_MSG_TYPE_PUBREC then handlePubrec c b now
      else if p.getD 1 0 = MQTTSN_MSG_TYPE_PUBCOMP then (removePendingQosMsg c (midAt b 2), [])
      else if p.getD 1 0 = MQTTSN_MSG_TYPE_PUBREL then (handlePubrel c b, [])
      else if p.getD 1 0 = MQTTSN_MSG_TYPE_PUBLISH then handlePublish c b (UInt8.ofNat p.length)
      else if p.getD 1 0 = MQTTSN_MSG_TYPE_PINGRESP then (handlePingresp c now, [])
      else (c, []) := by
    apply same_congr
    intro b now hb
    rw [udpRecvCallbackArduino, if_neg hheader, hb.getD (by omega : 1 < _)]
    rfl
  have hc : ∀ F : UInt32 → Client × List Action, Same N p fun _ now ↦ F now := fun F ↦
    same_of_forall F fun _ _ _ ↦ rfl
  rw [hcases, Determined, same_ite]
  by_cases hdrop : (c.dropAcks && isQosAck (p.getD 1 0)) = true
  · rw [if_pos hdrop]
    exact iff_of_true (hc _) (.inl hdrop)
  · rw [if_neg hdrop, or_iff_right hdrop]
    simp only [same_ite, same_handleConnack_iff hN hp, same_handleSuback_iff hN hp,
      same_removePendingQosMsg_iff (i := 4) (by omega) hp,
      same_removePendingQosMsg_iff (i := 2) (by omega) hp, same_handlePubrec_iff hN hp,
      same_handlePubrel_iff hN hp, iff_true_intro (same_handleRegack (N := N) h256),
      iff_true_intro (same_handlePublish (N := N) h256), iff_true_intro (hc _), ite_self]
    by_cases hregack : p.getD 1 0 = MQTTSN_MSG_TYPE_REGACK
    · rw [hregack]
      simp [MQTTSN_MSG_TYPE_REGACK, MQTTSN_MSG_TYPE_CONNACK, MQTTSN_MSG_TYPE_SUBACK,
        MQTTSN_MSG_TYPE_PUBACK, MQTTSN_MSG_TYPE_PUBREC, MQTTSN_MSG_TYPE_PUBCOMP,
        MQTTSN_MSG_TYPE_PUBREL]
    · rw [if_neg hregack]

/-- **The bytes left in the buffer do not matter exactly if the packet is long enough for its type,
or what it lacks makes no difference.** -/
theorem independent_iff (N : ℕ) (c : Client) (p : List UInt8) (hN : 8 ≤ N) (h2 : 2 ≤ p.length)
    (hp : p.length ≤ N) (h256 : p.length < 256) :
    (∀ (b b' : List UInt8) (now : UInt32), Holds N p b → Holds N p b' →
      udpRecvCallbackArduino c ⟨b, UInt8.ofNat p.length, now⟩ =
        udpRecvCallbackArduino c ⟨b', UInt8.ofNat p.length, now⟩) ↔ Determined c p :=
  independent_iff_determined hN h2 hp h256

/-- A whole PUBACK in the buffer of `mqtt_sn_poll`. -/
theorem independent_iff_puback :
    let p : List UInt8 := [7, 0x0D, 0, 5, 0, 1, 0]
    (∀ (b b' : List UInt8) (now : UInt32), Holds 23 p b → Holds 23 p b' →
      udpRecvCallbackArduino Client.boot ⟨b, 7, now⟩ =
        udpRecvCallbackArduino Client.boot ⟨b', 7, now⟩) ∧ Determined Client.boot p :=
  have hdetermined : Determined Client.boot [7, 0x0D, 0, 5, 0, 1, 0] := .inr (.inl (by decide))
  ⟨(independent_iff 23 Client.boot [7, 0x0D, 0, 5, 0, 1, 0] (by decide) (by decide) (by decide)
    (by decide)).mpr hdetermined, hdetermined⟩

/-- The client after its first message at QoS 1. -/
def awaitingPuback : Client := (mqttSnPublishTopicId Client.boot 5 [104, 105] 1 1 false 0 true).1

/-- A PUBACK cut off after the topic id ends the message or not, by what stands behind it. -/
theorem short_puback_completed :
    ¬ ∀ (c : Client) (L : ℕ) (b b' : List UInt8) (now : UInt32), 2 ≤ L → L < 256 →
      b.length = 23 → b'.length = 23 → b.take L = b'.take L →
      udpRecvCallbackArduino c ⟨b, UInt8.ofNat L, now⟩ =
        udpRecvCallbackArduino c ⟨b', UInt8.ofNat L, now⟩ := by
  intro h
  have heq := h awaitingPuback 4 ([7, 0x0D, 0, 5, 0, 1] ++ List.replicate 17 0)
    ([7, 0x0D, 0, 5, 0, 2] ++ List.replicate 17 0) 0 (by decide) (by decide) rfl rfl rfl
  have hslot := congrArg (fun r ↦ r.1.pendingMsgs[0].inUse) heq
  exact absurd hslot (by decide +kernel)

end Emcs.Arduino
