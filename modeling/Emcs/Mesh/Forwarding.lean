import Emcs.Mesh.Node

/-!
# Forwarding by a node

What a node sends when its receive loop gets a frame, in terms of the frame: the conditions under
which it forwards, and the copy it sends then.

## What is forwarded

`Forwards` gathers the conditions of the relay branch, in terms of the frame and the transport, and
`reply_iff` says that a node sends exactly the copy `forwarded` of a frame that meets them, where
its radio sends. Later modules know the relays by this equivalence only.

A copy has the addresses and the number of its frame and one hop less, and the payload as far as the
driver has copied it (`CopyOf`). The relation is transitive, so it holds along any number of hops.
-/

namespace Emcs.Mesh

/-! ## The header of a frame -/

def AirFrame.srcId (a : AirFrame) : UInt8 := a.raw.getD 0 0

def AirFrame.dstId (a : AirFrame) : UInt8 := a.raw.getD 1 0

def AirFrame.ttl (a : AirFrame) : ℕ := (a.raw.getD 2 0).toNat

def AirFrame.seqNum (a : AirFrame) : UInt8 := a.raw.getD 3 0

def AirFrame.payload (a : AirFrame) : List UInt8 := a.raw.drop MESH_HEADER_SIZE

/-- What a turn of the receive loop depends on besides the node and the frame. -/
structure Circumstance where
  transport : Transport
  buf : List UInt8
  nonBlocking : Bool
  rssi : Int16
  fwdOk : Bool
  now : UInt32

/-- What a node sends in a turn of its receive loop in which the driver delivers the frame. -/
def reply {ι : Type*} (cfg : ι → NodeConfig) (x : Circumstance) (r : ι) (a : AirFrame) :
    Option AirFrame :=
  (receiveTurn (cfg r) x.transport x.buf x.nonBlocking
    ⟨true, some a.raw, x.rssi, x.fwdOk, x.now⟩).sent

/-- The node takes the frame for one to be forwarded: it is a relay, the frame is whole and new to
it, for another node, and has hops left. -/
structure Forwards (cfg : NodeConfig) (t : Transport) (a : AirFrame) : Prop where
  whole : MESH_HEADER_SIZE ≤ a.raw.length
  unseen : dedupSeen t a.srcId a.seqNum = false
  other : ¬(a.dstId = cfg.myNodeId ∨ a.dstId = MESH_ADDR_BROADCAST)
  relay : cfg.myNodeRole = .relay
  hops : a.ttl ≠ 0

/-- The copy that a relay sends: its own radio header, one hop less, and what the buffer holds. -/
def forwarded (cfg : NodeConfig) (a : AirFrame) : AirFrame where
  headerTo := radioTo cfg (relayNextHop cfg a.dstId)
  headerFrom := cfg.myNodeId
  raw := [a.srcId, a.dstId, a.raw.getD 2 0 - 1, a.seqNum] ++
    (a.raw.take LORA_BUF_SIZE).drop MESH_HEADER_SIZE

/-- A frame with a whole header, as far as the driver copies it. -/
theorem take_eq_header {raw : List UInt8} (h : MESH_HEADER_SIZE ≤ raw.length) :
    raw.take LORA_BUF_SIZE = [raw.getD 0 0, raw.getD 1 0, raw.getD 2 0, raw.getD 3 0] ++
      (raw.take LORA_BUF_SIZE).drop MESH_HEADER_SIZE := by
  match raw, h with
  | _ :: _ :: _ :: _ :: _, _ => rfl

theorem reply_of_short {ι : Type*} (cfg : ι → NodeConfig) (x : Circumstance) (r : ι) {a : AirFrame}
    (h : ¬MESH_HEADER_SIZE ≤ a.raw.length) : reply cfg x r a = none := by
  obtain ⟨headerTo, headerFrom, raw⟩ := a
  match raw, h with
  | [], _ => rfl
  | [_], _ => rfl
  | [_, _], _ => rfl
  | [_, _, _], _ => rfl
  | _ :: _ :: _ :: _ :: _, h => exact absurd (Nat.le_add_left 4 _) h

theorem sent_deliverFrame (t : Transport) (buf : List UInt8) (src ttl seq : UInt8)
    (payload : List UInt8) : (deliverFrame t buf src ttl seq payload).sent = none := by
  rw [deliverFrame]
  split
  · rfl
  · dsimp only
    split
    · rfl
    · rfl

/-- **What a node does with a frame**: it forwards it where the radio sends, or sends nothing. -/
theorem reply_iff {ι : Type*} (cfg : ι → NodeConfig) (x : Circumstance) (r : ι) (a b : AirFrame) :
    reply cfg x r a = some b ↔
      Forwards (cfg r) x.transport a ∧ x.fwdOk = true ∧ b = forwarded (cfg r) a := by
  by_cases hwhole : MESH_HEADER_SIZE ≤ a.raw.length
  swap
  · rw [reply_of_short cfg x r hwhole]
    exact iff_of_false (Option.some_ne_none b).symm fun h ↦ absurd h.1.whole hwhole
  have hframe : reply cfg x r a = (receiveFrame (cfg r) x.transport x.buf
      ([a.srcId, a.dstId, a.raw.getD 2 0, a.seqNum]
        ++ (a.raw.take LORA_BUF_SIZE).drop MESH_HEADER_SIZE)
      x.rssi x.fwdOk).sent := by
    rw [AirFrame.srcId, AirFrame.dstId, AirFrame.seqNum, ← take_eq_header hwhole]
    rfl
  rw [hframe]
  cases hseen : dedupSeen x.transport a.srcId a.seqNum with
  | true =>
    rw [receiveFrame_seen hseen]
    exact iff_of_false (Option.some_ne_none b).symm fun h ↦
      Bool.false_ne_true (h.1.unseen.symm.trans hseen)
  | false =>
    by_cases hdst : a.dstId = (cfg r).myNodeId ∨ a.dstId = MESH_ADDR_BROADCAST
    · rw [receiveFrame_for_me hseen hdst, sent_deliverFrame]
      exact iff_of_false (Option.some_ne_none b).symm fun h ↦ h.1.other hdst
    rw [receiveFrame_for_other hseen hdst, forwardFrame]
    cases hrole : (cfg r).myNodeRole with
    | endpoint =>
      refine iff_of_false (Option.some_ne_none b).symm fun h ↦ ?_
      cases hrole.symm.trans h.1.relay
    | relay =>
      dsimp only
      by_cases httl : a.raw.getD 2 0 = 0
      · rw [if_pos httl]
        exact iff_of_false (Option.some_ne_none b).symm fun h ↦ h.1.hops (congrArg UInt8.toNat httl)
      · rw [if_neg httl]
        have hhops : a.ttl ≠ 0 := fun h ↦ httl (UInt8.toNat_inj.mp h)
        cases hok : x.fwdOk with
        | false => exact iff_of_false (Option.some_ne_none b).symm fun h ↦ Bool.false_ne_true h.2.1
        | true =>
          constructor
          · intro h
            exact ⟨⟨hwhole, hseen, hdst, hrole, hhops⟩, rfl, (Option.some_inj.mp h).symm⟩
          · rintro ⟨-, -, rfl⟩
            rfl

/-- A call of `mqttsn_transport_recv` sends what its turns send, at most one copy for each frame
that the driver delivers. -/
theorem sent_receiveLoop (cfg : NodeConfig) (nonBlocking : Bool) (deadline : UInt32) (t : Transport)
    (buf : List UInt8) (ps : List Poll) : ∃ before : List (Transport × List UInt8),
      (receiveLoop cfg nonBlocking deadline t buf ps).sent = (before.zip ps).filterMap fun q ↦
        (receiveTurn cfg q.1.1 q.1.2 nonBlocking q.2).sent := by
  induction ps generalizing t buf with
  | nil => exact ⟨[], rfl⟩
  | cons p ps ih =>
    have hone : (receiveTurn cfg t buf nonBlocking p).sent.toList
        = ([(t, buf)].zip (p :: ps)).filterMap fun q ↦
          (receiveTurn cfg q.1.1 q.1.2 nonBlocking q.2).sent := by
      change _ = List.filterMap _ [((t, buf), p)]
      rw [List.filterMap_cons, List.filterMap_nil]
      cases (receiveTurn cfg t buf nonBlocking p).sent <;> rfl
    rw [receiveLoop]
    dsimp only
    split
    · exact ⟨[(t, buf)], hone⟩
    · exact ⟨[(t, buf)], hone⟩
    split
    · obtain ⟨before, hbefore⟩ := ih (receiveTurn cfg t buf nonBlocking p).transport
        (receiveTurn cfg t buf nonBlocking p).buf
      refine ⟨(t, buf) :: before, ?_⟩
      dsimp only
      rw [hbefore, List.zip_cons_cons, List.filterMap_cons]
      cases (receiveTurn cfg t buf nonBlocking p).sent <;> rfl
    · exact ⟨[(t, buf)], hone⟩

/-- A turn that sends something answers the frame that the driver delivered. -/
theorem reply_of_sent_receiveTurn {ι : Type*} (cfg : ι → NodeConfig) {r : ι} {t : Transport}
    {buf : List UInt8} {nonBlocking : Bool} {p : Poll} {b : AirFrame}
    (h : (receiveTurn (cfg r) t buf nonBlocking p).sent = some b) :
    ∃ raw, p.Delivers raw ∧ ∀ headerTo headerFrom,
      reply cfg
        ⟨t, buf, nonBlocking, p.rssi, p.fwdOk, p.now⟩ r ⟨headerTo, headerFrom, raw⟩ = some b := by
  rw [receiveTurn] at h
  split at h
  · contradiction
  rename_i havailable
  rw [Bool.not_eq_true', Bool.not_eq_false] at havailable
  split at h
  · contradiction
  · rename_i raw hraw
    exact ⟨raw, ⟨havailable, hraw⟩, fun _ _ ↦ h⟩

/-! ## What every copy keeps -/

/-- The copy has the addresses, the number and, where the driver copies all of it, the payload of
the frame. -/
structure CopyOf (a b : AirFrame) : Prop where
  srcId : b.srcId = a.srcId
  dstId : b.dstId = a.dstId
  seqNum : b.seqNum = a.seqNum
  length : a.raw.length ≤ LORA_BUF_SIZE → b.raw.length = a.raw.length
  payload : a.raw.length ≤ LORA_BUF_SIZE → b.payload = a.payload

theorem CopyOf.refl (a : AirFrame) : CopyOf a a := ⟨rfl, rfl, rfl, fun _ ↦ rfl, fun _ ↦ rfl⟩

theorem copyOf_forwarded (cfg : NodeConfig) {a : AirFrame} (h : MESH_HEADER_SIZE ≤ a.raw.length) :
    CopyOf a (forwarded cfg a) := by
  refine ⟨rfl, rfl, rfl, fun hlen ↦ ?_, fun hlen ↦ ?_⟩
  · rw [forwarded, List.take_of_length_le hlen, List.length_append, List.length_drop]
    exact Nat.add_sub_cancel' h
  · rw [AirFrame.payload, AirFrame.payload, forwarded, List.take_of_length_le hlen]
    rfl

theorem CopyOf.trans {a b c : AirFrame} (h : CopyOf a b) (h' : CopyOf b c) : CopyOf a c where
  srcId := h'.srcId.trans h.srcId
  dstId := h'.dstId.trans h.dstId
  seqNum := h'.seqNum.trans h.seqNum
  length hlen := (h'.length ((h.length hlen).le.trans hlen)).trans (h.length hlen)
  payload hlen := (h'.payload ((h.length hlen).le.trans hlen)).trans (h.payload hlen)

theorem ttl_forwarded (cfg : NodeConfig) {a : AirFrame} (h : a.ttl ≠ 0) :
    (forwarded cfg a).ttl + 1 = a.ttl := by
  have hle : (1 : UInt8) ≤ a.raw.getD 2 0 := Nat.one_le_iff_ne_zero.mpr h
  change (a.raw.getD 2 0 - 1).toNat + 1 = a.ttl
  rw [UInt8.toNat_sub_of_le _ _ hle]
  exact Nat.sub_add_cancel hle

theorem ttl_of_reply {ι : Type*} (cfg : ι → NodeConfig) (x : Circumstance) (r : ι) (a b : AirFrame)
    (h : reply cfg x r a = some b) : b.ttl + 1 = a.ttl := by
  obtain ⟨hforwards, -, rfl⟩ := (reply_iff cfg x r a b).mp h
  exact ttl_forwarded (cfg r) hforwards.hops

end Emcs.Mesh
