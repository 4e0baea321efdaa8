import Emcs.Paho.Datagram
import Mathlib.Tactic.Ring

/-!
# The connection to the broker

A packet of MQTT is a byte, the length of what follows, and what follows. The length is written in
digits to the base 128, the lowest first, as many as it takes; three at most are read. What follows
is asked for once, with a length of 16 bits, and `recv` gives what has arrived by then.

So a packet is read as it was written if it is short and has arrived. If it is not, what has arrived
of it is gone, and the rest is read as another packet.

## The proof

Reading a length goes digit by digit with the value so far and a multiplier, and it gives the number
that was written as long as no more than three digits are needed. A packet is then read exactly if
its length is read and fewer than 65536 bytes are asked for and there. For a sequence, the rest
after one packet is where the next begins, so one induction gives both directions, the second by
looking at the first packet that does not arrive.
-/

namespace Emcs.Paho

open Bytes

/-- `MQTTGWPacket`: the header and `_data`, whose length is `_remainingLength`. -/
structure GWPacket where
  header : UInt8
  data : List UInt8
  deriving DecidableEq

def MAX_NO_OF_REMAINING_LENGTH_BYTES : ℕ := 3

/-- `MQTTPacket_encode`. -/
def mqttPacketEncode (length : ℕ) : List UInt8 :=
  let d := UInt8.ofNat (length % 128)
  if length / 128 > 0 then (d ||| 0x80) :: mqttPacketEncode (length / 128) else [d]
termination_by length
decreasing_by omega

namespace GWPacket

/-- `getPacketData`. -/
def getPacketData (p : GWPacket) : List UInt8 :=
  p.header :: (mqttPacketEncode p.data.length ++ p.data)

/-- The loop of `recv`, which may still read `n` bytes. Where the broker has closed the connection,
`c` stays as it was. -/
def readLength : ℕ → UInt8 → ℕ → ℕ → List UInt8 → Option ℕ × List UInt8
  | 0, _, _, _, s => (none, s)
  | n + 1, c, multiplier, length, s =>
    let c := s.headD c
    let length := length + (c &&& 127).toNat * multiplier
    if c &&& 128 ≠ 0 then readLength n c (multiplier * 128) length s.tail
    else (some length, s.tail)

/-- `recv`. The broker sends `s`, of which one byte has arrived when the rest of the packet is asked
for, and `more` behind it; `c` was on the stack. -/
def recv (c : UInt8) (more : ℕ) : List UInt8 → Except ℤ GWPacket × List UInt8
  | [] => (.error 0, [])
  | header :: s =>
    match readLength MAX_NO_OF_REMAINING_LENGTH_BYTES c 1 0 s with
    | (none, s) => (.error (-2), s)
    | (some length, s) =>
      if length > 0 then
        -- the length is a `uint16_t`
        let data := s.take (min (length % 65536) (more + 1))
        (if data.length = length then .ok ⟨header, data⟩ else .error (-2), s.drop data.length)
      else (.ok ⟨header, []⟩, s)

/-- One packet after the other, each with what has arrived of it. -/
def recvAll (c : UInt8) : List ℕ → List UInt8 → List (Except ℤ GWPacket)
  | [], _ => []
  | more :: mores, s => (recv c more s).1 :: recvAll c mores (recv c more s).2

end GWPacket

/-! ## The length -/

theorem digit_continued : ∀ r : Fin 128, ((UInt8.ofNat r ||| 0x80) &&& 127).toNat = r ∧
    (UInt8.ofNat r ||| 0x80) &&& 128 ≠ 0 := by
  decide +kernel

theorem digit_last : ∀ r : Fin 128, (UInt8.ofNat r &&& 127).toNat = r ∧
    UInt8.ofNat r &&& 128 = 0 := by
  decide +kernel

namespace GWPacket

/-- One turn of the loop reads one digit. -/
theorem readLength_encode_succ (n : ℕ) (c : UInt8) (multiplier length k : ℕ) (s : List UInt8) :
    readLength (n + 1) c multiplier length (mqttPacketEncode k ++ s) =
      if k / 128 > 0 then
        readLength n (UInt8.ofNat (k % 128) ||| 0x80) (multiplier * 128)
          (length + k % 128 * multiplier) (mqttPacketEncode (k / 128) ++ s)
      else (some (length + k * multiplier), s) := by
  have hr : k % 128 < 128 := Nat.mod_lt k (by decide)
  rw [mqttPacketEncode]
  split
  · obtain ⟨hlow, hhigh⟩ := digit_continued ⟨k % 128, hr⟩
    rw [List.cons_append, readLength, List.headD_cons, List.tail_cons, if_pos hhigh, hlow]
  · obtain ⟨hlow, hhigh⟩ := digit_last ⟨k % 128, hr⟩
    have hk : k % 128 = k := by omega
    rw [List.singleton_append, readLength, List.headD_cons, List.tail_cons,
      if_neg (not_not.mpr hhigh), hlow]
    dsimp only
    rw [hk]

/-- **A length that is read is the length that was written.** -/
theorem readLength_encode (n : ℕ) (c : UInt8) (multiplier length : ℕ) {k : ℕ}
    (hk : k < 128 ^ (n + 1)) (s : List UInt8) :
    readLength (n + 1) c multiplier length (mqttPacketEncode k ++ s)
      = (some (length + k * multiplier), s) := by
  induction n generalizing c multiplier length k with
  | zero =>
    rw [readLength_encode_succ, if_neg (by omega)]
  | succ n ih =>
    rw [readLength_encode_succ]
    split
    · have hsmall : k / 128 < 128 ^ (n + 1) := by
        rw [Nat.div_lt_iff_lt_mul (by decide), ← pow_succ]
        exact hk
      rw [ih _ _ _ hsmall]
      have hsplit : k = k % 128 + k / 128 * 128 := by omega
      have hsum : length + k % 128 * multiplier + k / 128 * (multiplier * 128)
          = length + k * multiplier := by
        conv_rhs => rw [hsplit]
        ring
      rw [hsum]
    · rfl

/-- A length with too many digits is not read. -/
theorem readLength_encode_long (n : ℕ) (c : UInt8) (multiplier length : ℕ) {k : ℕ}
    (hk : 128 ^ n ≤ k) (hpos : 0 < n) (s : List UInt8) :
    (readLength n c multiplier length (mqttPacketEncode k ++ s)).1 = none := by
  induction n generalizing c multiplier length k with
  | zero => exact absurd hpos (Nat.lt_irrefl 0)
  | succ n ih =>
    have hdiv : 128 ^ n ≤ k / 128 := by
      rw [Nat.le_div_iff_mul_le (by decide), ← pow_succ]
      exact hk
    have hone : 0 < 128 ^ n := Nat.pow_pos (by decide)
    rw [readLength_encode_succ, if_pos (by omega)]
    rcases Nat.eq_zero_or_pos n with rfl | hn
    · rfl
    · exact ih _ _ _ hdiv hn

/-! ## Packets -/

/-- The packet is short, and has arrived. -/
def Arrives (p : GWPacket) (more : ℕ) : Prop := p.data.length < 65536 ∧ p.data.length ≤ more + 1

/-- **A packet that arrives is read as it is**, and nothing else is read. -/
theorem recv_of_arrives {p : GWPacket} {more : ℕ} (h : p.Arrives more) (c : UInt8)
    (rest : List UInt8) : recv c more (p.getPacketData ++ rest) = (.ok p, rest) := by
  obtain ⟨hshort, harrived⟩ := h
  have hlength : readLength MAX_NO_OF_REMAINING_LENGTH_BYTES c 1 0
      (mqttPacketEncode p.data.length ++ (p.data ++ rest))
        = (some p.data.length, p.data ++ rest) := by
    have hread := readLength_encode 2 c 1 0 (k := p.data.length) (by omega) (p.data ++ rest)
    rw [Nat.zero_add, Nat.mul_one] at hread
    exact hread
  rw [getPacketData, List.cons_append, List.append_assoc, recv, hlength]
  dsimp only
  split
  · have hdata : (p.data ++ rest).take (min (p.data.length % 65536) (more + 1)) = p.data := by
      rw [Nat.mod_eq_of_lt hshort, Nat.min_eq_left harrived]
      exact List.take_left
    rw [hdata, if_pos rfl, List.drop_left]
  · obtain ⟨header, data⟩ := p
    have hnil : data = [] := List.eq_nil_of_length_eq_zero (Nat.eq_zero_of_not_pos ‹_›)
    rw [hnil]
    rfl

/-- **A packet that does not arrive is not read**: the connection gives an error. -/
theorem recv_of_not_arrives {p : GWPacket} {more : ℕ} (h : ¬p.Arrives more) (c : UInt8)
    (rest : List UInt8) : (recv c more (p.getPacketData ++ rest)).1 = .error (-2) := by
  rw [getPacketData, List.cons_append, List.append_assoc, recv]
  -- either the digits are too many, or `Network::recv` is asked for too little
  by_cases hlong : 128 ^ 3 ≤ p.data.length
  · have hnone := readLength_encode_long 3 c 1 0 hlong (by decide) (p.data ++ rest)
    split
    · rfl
    · rename_i length s heq
      rw [show readLength 3 c 1 0 _ = _ from heq] at hnone
      contradiction
  · have hread := readLength_encode 2 c 1 0 (k := p.data.length) (by omega) (p.data ++ rest)
    rw [Nat.zero_add, Nat.mul_one] at hread
    rw [show MAX_NO_OF_REMAINING_LENGTH_BYTES = 2 + 1 from rfl, hread]
    dsimp only
    have hcut : min (p.data.length % 65536) (more + 1) < p.data.length := by
      rw [Arrives] at h
      omega
    rw [if_pos (by omega)]
    dsimp only
    refine if_neg ?_
    rw [List.length_take]
    omega

/-- **The packets are read as they were written if and only if every one of them arrives.** -/
theorem recvAll_iff (c : UInt8) (l : List (GWPacket × ℕ)) (rest : List UInt8) :
    recvAll c (l.map Prod.snd) (l.flatMap (fun x ↦ x.1.getPacketData) ++ rest)
      = l.map (fun x ↦ .ok x.1) ↔ ∀ x ∈ l, x.1.Arrives x.2 := by
  induction l with
  | nil => exact iff_of_true rfl fun _ hx ↦ absurd hx List.not_mem_nil
  | cons x l ih =>
    rw [List.forall_mem_cons, List.map_cons, List.map_cons, List.flatMap_cons, List.append_assoc,
      recvAll, List.cons.injEq]
    by_cases hx : x.1.Arrives x.2
    · rw [recv_of_arrives hx, ih]
      exact (and_iff_right rfl).trans (and_iff_right hx).symm
    · rw [recv_of_not_arrives hx]
      exact iff_of_false (fun h ↦ by cases h.1) fun h ↦ hx h.1

end GWPacket

/-! ## Messages -/

def PUBLISH : UInt8 := 3

/-- The header of a PUBLISH. -/
def Publish.header (pub : Publish) : UInt8 :=
  PUBLISH <<< 4 ||| (if pub.dup then 8 else 0) ||| UInt8.ofNat (pub.qos.val * 2) |||
    if pub.retain then 1 else 0

/-- `setPUBLISH`. -/
def Publish.packet (pub : Publish) : GWPacket where
  header := pub.header
  data := writeInt pub.topic.length ++ (pub.topic ++
    ((if pub.qos.val > 0 then writeInt pub.msgId.toNat else []) ++ pub.payload))

namespace GWPacket

/-- `readInt` at the beginning of `data`. -/
def int (data : List UInt8) : ℕ := 256 * (data.headD 0).toNat + (data.tail.headD 0).toNat

/-- The bits for the QoS. -/
def qos (p : GWPacket) : QoS := ⟨((p.header >>> 1) &&& 3).toNat % 4, Nat.mod_lt _ (by decide)⟩

/-- `getPUBLISH`. -/
def getPublish (p : GWPacket) : Option Publish :=
  if p.header >>> 4 = PUBLISH then
    let topiclen := int p.data
    let ptr := p.data.drop (2 + topiclen)
    some
      { dup := p.header &&& 8 ≠ 0
        qos := p.qos
        retain := p.header &&& 1 ≠ 0
        msgId := if p.qos.val > 0 then UInt16.ofNat (int ptr) else 0
        topic := (p.data.drop 2).take topiclen
        payload := if p.qos.val > 0 then ptr.drop 2 else ptr }
  else none

end GWPacket

theorem header_reads : ∀ (dup retain : Bool) (qos : Fin 4),
    let h := PUBLISH <<< 4 ||| (if dup then 8 else 0) ||| UInt8.ofNat (qos.val * 2) |||
      (if retain then 1 else 0 : UInt8)
    h >>> 4 = PUBLISH ∧ decide (h &&& 8 ≠ 0) = dup ∧ decide (h &&& 1 ≠ 0) = retain ∧
      ((h >>> 1) &&& 3).toNat % 4 = qos.val := by
  decide +kernel

namespace GWPacket

theorem int_writeInt (n : ℕ) (l : List UInt8) : int (writeInt n ++ l) = n % 65536 := by
  change 256 * (UInt8.ofNat (n / 256)).toNat + (UInt8.ofNat (n % 256)).toNat = n % 65536
  rw [UInt8.toNat_ofNat', UInt8.toNat_ofNat']
  omega

/-- What is read of a message. -/
theorem getPublish_packet (pub : Publish) : pub.packet.getPublish = some
    { pub with
      msgId := if pub.qos.val > 0 then
        UInt16.ofNat (int (pub.packet.data.drop (2 + int pub.packet.data))) else 0
      topic := (pub.packet.data.drop 2).take (int pub.packet.data)
      payload := if pub.qos.val > 0 then (pub.packet.data.drop (2 + int pub.packet.data)).drop 2
        else pub.packet.data.drop (2 + int pub.packet.data) } := by
  obtain ⟨htype, hdup, hretain, hqos⟩ := header_reads pub.dup pub.retain pub.qos
  have htype' : pub.packet.header >>> 4 = PUBLISH := htype
  have hdup' : decide (pub.packet.header &&& 8 ≠ 0) = pub.dup := hdup
  have hretain' : decide (pub.packet.header &&& 1 ≠ 0) = pub.retain := hretain
  have hqos' : pub.packet.qos = pub.qos := Fin.ext hqos
  rw [getPublish, if_pos htype']
  dsimp only
  rw [hqos', hdup', hretain']

/-- **A message is read back as it was written if and only if it is one of MQTT**: its topic has a
length of 16 bits, and it has no message id at QoS 0. -/
theorem getPublish_packet_iff (pub : Publish) : pub.packet.getPublish = some pub ↔
    pub.topic.length < 65536 ∧ (pub.qos = 0 → pub.msgId = 0) := by
  rw [getPublish_packet, Option.some_inj]
  have hint : int pub.packet.data = pub.topic.length % 65536 := int_writeInt _ _
  have hdrop : pub.packet.data.drop 2 = pub.topic ++
      ((if pub.qos.val > 0 then writeInt pub.msgId.toNat else []) ++ pub.payload) := rfl
  rw [hint, ← List.drop_drop, hdrop]
  constructor
  · intro h
    refine ⟨?_, fun hqos ↦ ?_⟩
    · have hlength := congrArg (fun x : Publish ↦ x.topic.length) h
      dsimp only at hlength
      rw [List.length_take] at hlength
      omega
    · have hid := congrArg Publish.msgId h
      dsimp only at hid
      rw [hqos, if_neg (by decide)] at hid
      exact hid.symm
  · rintro ⟨htopic, hid⟩
    rw [Nat.mod_eq_of_lt htopic, List.take_left, List.drop_left]
    obtain ⟨dup, qos, retain, msgId, topic, payload⟩ := pub
    dsimp only at hid ⊢
    by_cases hqos : qos.val > 0
    · rw [if_pos hqos, if_pos hqos, if_pos hqos, int_writeInt,
        Nat.mod_eq_of_lt msgId.toNat_lt, UInt16.ofNat_toNat]
      rfl
    · rw [if_neg hqos, if_neg hqos, if_neg hqos, hid (Fin.ext (Nat.eq_zero_of_not_pos hqos))]
      rfl

theorem Arrives.topic {pub : Publish} {more : ℕ} (h : pub.packet.Arrives more) :
    pub.topic.length < 65536 := by
  have hlength : pub.topic.length ≤ pub.packet.data.length := by
    change _ ≤ (writeInt pub.topic.length ++ (pub.topic ++ _)).length
    rw [List.length_append, List.length_append]
    omega
  exact hlength.trans_lt h.1

/-- **The messages of a connection are received as they were sent if and only if** each of them
arrives, and has no message id at QoS 0. -/
theorem messages_received_iff (c : UInt8) (l : List (Publish × ℕ)) (rest : List UInt8) :
    (recvAll c (l.map Prod.snd) (l.flatMap (fun x ↦ x.1.packet.getPacketData) ++ rest)).map
        (fun r ↦ r.toOption.bind getPublish) = l.map (fun x ↦ some x.1) ↔
      ∀ x ∈ l, x.1.packet.Arrives x.2 ∧ (x.1.qos = 0 → x.1.msgId = 0) := by
  induction l with
  | nil => exact iff_of_true rfl fun _ hx ↦ absurd hx List.not_mem_nil
  | cons x l ih =>
    rw [List.forall_mem_cons, List.map_cons, List.map_cons, List.flatMap_cons, List.append_assoc,
      recvAll, List.map_cons, List.cons.injEq]
    by_cases hx : x.1.packet.Arrives x.2
    · have hread : (Except.ok x.1.packet : Except ℤ GWPacket).toOption.bind getPublish = some x.1 ↔
          (x.1.qos = 0 → x.1.msgId = 0) :=
        (getPublish_packet_iff x.1).trans (and_iff_right hx.topic)
      rw [recv_of_arrives hx, ih, hread, and_iff_right hx]
    · rw [recv_of_not_arrives hx]
      refine iff_of_false (fun h ↦ ?_) fun h ↦ hx h.1.1
      exact absurd h.1.symm (Option.some_ne_none _)

end GWPacket

end Emcs.Paho
