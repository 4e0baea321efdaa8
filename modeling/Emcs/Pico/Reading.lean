import Emcs.Lib.Access
import Emcs.Pico.Client

/-!
# What the Pico reads of a datagram

`udp_recv_callback` and its handlers once more, as computations that read the memory of the `pbuf`
one byte at a time, in the order of the source. They compute what the handlers of the client compute
(`val_udpRecvCallback`), so that the bytes read here are the bytes that those depend on.

A datagram is read beyond its length where a handler has no check of its own, or checks the length
that the packet claims (`reads_inside_iff`).

## The construction

A handler is a term that reads a byte and goes on with it, from the library on accesses: `val` runs
it on a memory, and `Inside` says that every byte read lies below the length. The order of the
checks and of the reads is that of the source, so that a handler that returns early reads nothing
behind its check. The condition for all reads to be inside is found handler by handler, and joined
along the dispatch.
-/

namespace Emcs.Pico.Reading

open Access Bytes Mqttsn

/-- The memory from the payload of the `pbuf` on. -/
def memory (data : List UInt8) : ℕ → UInt8 := fun i ↦ data.getD i 0

/-- `printf` with `%.*s`: at most `n` bytes, up to a NUL. -/
def scan : ℕ → ℕ → Access UInt8 (List UInt8)
  | _, 0 => pure []
  | i, n + 1 => do
    let b ← cell i
    if b = 0 then pure []
    else do
      let bs ← scan (i + 1) n
      pure (b :: bs)

/-- `memcmp(p, s, n) == 0` for the `n` bytes of the string `s`. -/
def equals (i : ℕ) (s : List UInt8) : Access UInt8 Bool := do
  let bs ← cells i s.length
  pure (bs == s)

/-! ## Handlers -/

def handleConnack (c : Client) : Access UInt8 Client := do
  let returnCode ← cell 2
  pure { c with
    pingAckReceived := true
    customTopics :=
      if returnCode = MQTTSN_RETURN_ACCEPTED then Vector.replicate _ TopicEntry.zero
      else c.customTopics }

def handleSuback (c : Client) (clock : ℕ → ℕ) : Access UInt8 Client := do
  let _flags ← cell 2
  let tidHigh ← cell 3
  let tidLow ← cell 4
  let _midHigh ← cell 5
  let _midLow ← cell 6
  let returnCode ← cell 7
  if returnCode ≠ MQTTSN_RETURN_ACCEPTED then pure c
  else
    let tid := be16 tidHigh tidLow
    pure { c with customTopics := completeTopic false clock tid c.customTopics }

def handleRegack (c : Client) (length : UInt8) (clock : ℕ → ℕ) : Access UInt8 Client :=
  if length < 7 then pure c
  else do
    let tidHigh ← cell 2
    let tidLow ← cell 3
    let _midHigh ← cell 4
    let _midLow ← cell 5
    let returnCode ← cell 6
    if returnCode ≠ MQTTSN_RETURN_ACCEPTED then pure c
    else
      let tid := be16 tidHigh tidLow
      pure { c with customTopics := completeTopic true clock tid c.customTopics }

/-- `payload_len == LED_ON_CMD_LEN && memcmp(payload, "led on", LED_ON_CMD_LEN) == 0`, for either
command. -/
def isCommand (payloadLen : ℕ) (s : List UInt8) : Access UInt8 Bool :=
  if payloadLen = s.length then equals 7 s else pure false

/-- The second comparison is made only if the first fails. -/
def ledCommand (payloadLen : ℕ) : Access UInt8 (List Action) := do
  let isOn ← isCommand payloadLen (cstr "led on")
  if isOn then pure [.led true]
  else do
    let isOff ← isCommand payloadLen (cstr "led off")
    pure (if isOff then [.led false] else [])

def handlePublishReceived (length : UInt8) (ok : Bool) : Access UInt8 (List Action) :=
  if length < 7 then pure []
  else do
    let flags ← cell 2
    let tidHigh ← cell 3
    let tidLow ← cell 4
    let midHigh ← cell 5
    let midLow ← cell 6
    let payloadLen := (length - 7).toNat
    let _printed ← scan 7 payloadLen
    let led ← ledCommand payloadLen
    let qos := (flags >>> MQTTSN_QOS_SHIFT) &&& MQTTSN_FLAG_QOS_MASK
    pure (led ++ sendQosAck qos (be16 tidHigh tidLow) (be16 midHigh midLow) ok)

/-- The message id at byte `i`. -/
def msgIdAt (i : ℕ) : Access UInt8 UInt16 := do
  let high ← cell i
  let low ← cell (i + 1)
  pure (be16 high low)

def handlePubackReceived (c : Client) : Access UInt8 Client := do
  let msgId ← msgIdAt 4
  pure (removePendingQosMsg c msgId)

def handlePubcompReceived (c : Client) : Access UInt8 Client := do
  let msgId ← msgIdAt 2
  pure (removePendingQosMsg c msgId)

def handlePubrecReceived (c : Client) (now : ℕ) (ok : Bool) :
    Access UInt8 (Client × List Action) := do
  let mid ← msgIdAt 2
  pure ({ c with pendingMsgs := markReceived mid now c.pendingMsgs }, [.send (pubrelPacket mid) ok])

def handlePubrelReceived (ok : Bool) : Access UInt8 (List Action) := do
  let mid ← msgIdAt 2
  pure [.send (pubcompPacket mid) ok]

/-- The part of `udp_recv_callback` after the first two bytes. -/
def dispatch (c : Client) (length mt : UInt8) (clock : ℕ → ℕ) (ok : Bool) :
    Access UInt8 (Client × List Action) :=
  if c.dropAcks && isQosAck mt then pure (c, [])
  else if mt = MQTTSN_MSG_TYPE_PINGRESP then pure (handlePingresp c (clock 0), [])
  else if mt = MQTTSN_MSG_TYPE_CONNACK then do
    let c ← handleConnack c
    pure (c, [])
  else if mt = MQTTSN_MSG_TYPE_SUBACK then do
    let c ← handleSuback c clock
    pure (c, [])
  else if mt = MQTTSN_MSG_TYPE_REGACK then do
    let c ← handleRegack c length clock
    pure (c, [])
  else if mt = MQTTSN_MSG_TYPE_PUBLISH then do
    let actions ← handlePublishReceived length ok
    pure (c, actions)
  else if mt = MQTTSN_MSG_TYPE_PUBACK then do
    let c ← handlePubackReceived c
    pure (c, [])
  else if mt = MQTTSN_MSG_TYPE_PUBCOMP then do
    let c ← handlePubcompReceived c
    pure (c, [])
  else if mt = MQTTSN_MSG_TYPE_PUBREC then handlePubrecReceived c (clock 0) ok
  else if mt = MQTTSN_MSG_TYPE_PUBREL then do
    let actions ← handlePubrelReceived ok
    pure (c, actions)
  else pure (c, [])

def udpRecvCallback (c : Client) (len : ℕ) (clock : ℕ → ℕ) (ok : Bool) :
    Access UInt8 (Client × List Action) :=
  if len < MQTTSN_HEADER_SIZE then pure (c, [])
  else do
    let length ← cell 0
    let mt ← cell 1
    dispatch c length mt clock ok

/-! ## The same handlers -/

section Val

variable (c : Client) (d : List UInt8) (length : UInt8) (clock : ℕ → ℕ) (ok : Bool)

theorem val_handleConnack : (handleConnack c).val (memory d) = Pico.handleConnack c d := by
  simp [handleConnack, Pico.handleConnack, memory]

theorem val_handleSuback : (handleSuback c clock).val (memory d) = Pico.handleSuback c d clock := by
  simp [handleSuback, Pico.handleSuback, memory]

theorem val_handleRegack :
    (handleRegack c length clock).val (memory d) = Pico.handleRegack c d length clock := by
  simp [handleRegack, Pico.handleRegack, memory]

theorem val_msgIdAt (i : ℕ) :
    (msgIdAt i).val (memory d) = be16 (d.getD i 0) (d.getD (i + 1) 0) := by
  simp [msgIdAt, memory]

theorem map_memory {i n : ℕ} (h : i + n ≤ d.length) :
    (List.range' i n).map (memory d) = (d.drop i).take n := by
  apply List.ext_getElem
  · simp
    omega
  · intro k hk hk'
    rw [List.length_map, List.length_range'] at hk
    simp [memory, List.getElem?_eq_getElem (by omega : i + k < d.length)]

/-- The payload of the client, as far as it lies within the list. -/
theorem val_isCommand {n : ℕ} (h : 7 + n ≤ d.length) (s : List UInt8) :
    (isCommand n s).val (memory d) = decide ((d.drop 7).take n = s) := by
  have hlen : ((d.drop 7).take n).length = n := by
    rw [List.length_take, List.length_drop]
    omega
  rw [isCommand, val_ite]
  by_cases hn : n = s.length
  · rw [if_pos hn, equals, val_bind, val_cells, map_memory d (hn ▸ h), val_pure, ← hn]
    exact Bool.beq_eq_decide_eq _ _
  · rw [if_neg hn, val_pure, eq_comm, decide_eq_false_iff_not]
    rintro rfl
    exact hn hlen.symm

theorem val_ledCommand {n : ℕ} (h : 7 + n ≤ d.length) : (ledCommand n).val (memory d) =
    if (d.drop 7).take n = cstr "led on" then [.led true]
      else if (d.drop 7).take n = cstr "led off" then [.led false]
      else [] := by
  simp only [ledCommand, val_bind, val_isCommand d h, val_ite, val_pure, decide_eq_true_iff]

theorem val_handlePublishReceived (h : length.toNat ≤ d.length) :
    (handlePublishReceived length ok).val (memory d) = Pico.handlePublishReceived d length ok := by
  rw [handlePublishReceived, Pico.handlePublishReceived]
  by_cases hshort : length < 7
  · rw [if_pos hshort, if_pos hshort, val_pure]
  · have hle : 7 ≤ length.toNat := UInt8.le_iff_toNat_le.mp (UInt8.not_lt.mp hshort)
    have hsub : (length - 7).toNat = length.toNat - 7 :=
      UInt8.toNat_sub_of_le length 7 (UInt8.not_lt.mp hshort)
    rw [if_neg hshort, if_neg hshort]
    simp only [val_bind, val_cell, val_pure,
      val_ledCommand d (by omega : 7 + (length - 7).toNat ≤ _)]
    rfl

/-- **The reading callback computes the callback**, where the memory goes as far as the packet
claims. -/
theorem val_udpRecvCallback (rx : Rx) (h : (rx.data.getD 0 0).toNat ≤ rx.data.length) :
    (udpRecvCallback c rx.len rx.clock rx.ok).val (memory rx.data) = Pico.udpRecvCallback c rx := by
  rw [udpRecvCallback, Pico.udpRecvCallback, val_ite]
  refine if_congr Iff.rfl rfl ?_
  rw [val_bind, val_bind, val_cell, val_cell]
  simp only [dispatch, val_ite, val_bind, val_pure, val_handleConnack, val_handleSuback,
    val_handleRegack, handlePubackReceived, handlePubcompReceived, handlePubrecReceived,
    handlePubrelReceived, val_msgIdAt]
  rw [show memory rx.data 0 = rx.data.getD 0 0 from rfl, val_handlePublishReceived _ _ _ h]
  rfl

end Val

/-! ## The bytes read -/

section Reads

variable (c : Client) (m : ℕ → UInt8) (n : ℕ)

/-- Every byte that the computation reads lies in the datagram of `n` bytes. -/
def Inside {α : Type} (x : Access UInt8 α) : Prop := ∀ i ∈ x.reads m, i < n

/-- The payload that the packet claims lies in the datagram, or only `printf` runs over it and a NUL
stops it in time. -/
def PayloadFits (length : UInt8) : Prop :=
  length.toNat ≤ n ∨ (length ≠ 13 ∧ length ≠ 14 ∧ ∃ j < n, 7 ≤ j ∧ m j = 0)

/-- The datagram of `n` bytes is long enough for the handler of its type. The lengths checked by
`handle_regack` and `handle_publish_received` are the ones that the packet claims. -/
def Fits : Prop :=
  (c.dropAcks && isQosAck (m 1)) = true ∨
    if m 1 = MQTTSN_MSG_TYPE_CONNACK then 3 ≤ n
    else if m 1 = MQTTSN_MSG_TYPE_SUBACK then 8 ≤ n
    else if m 1 = MQTTSN_MSG_TYPE_REGACK then m 0 < 7 ∨ 7 ≤ n
    else if m 1 = MQTTSN_MSG_TYPE_PUBLISH then m 0 < 7 ∨ (7 ≤ n ∧ PayloadFits m n (m 0))
    else if m 1 = MQTTSN_MSG_TYPE_PUBACK then 6 ≤ n
    else if m 1 = MQTTSN_MSG_TYPE_PUBCOMP ∨ m 1 = MQTTSN_MSG_TYPE_PUBREC
        ∨ m 1 = MQTTSN_MSG_TYPE_PUBREL then 4 ≤ n
    else True

variable {m n}

theorem inside_bind {α β : Type} {x : Access UInt8 α} {f : α → Access UInt8 β} :
    Inside m n (x >>= f) ↔ Inside m n x ∧ Inside m n (f (x.val m)) := by
  simp only [Inside, reads_bind, List.mem_append, or_imp, forall_and]

@[simp] theorem inside_pure {α : Type} (a : α) : Inside m n (pure a) := fun _ h ↦ by
  rw [reads_pure] at h
  exact absurd h List.not_mem_nil

@[simp] theorem inside_cell {i : ℕ} : Inside m n (cell i) ↔ i < n := by
  simp [Inside]

theorem inside_ite {α : Type} {p : Prop} [Decidable p] {x y : Access UInt8 α} :
    Inside m n (if p then x else y) ↔ if p then Inside m n x else Inside m n y := by
  split <;> rfl

/-- `printf` stays inside where its precision does, or a NUL comes first. -/
theorem inside_scan {i k : ℕ} :
    Inside m n (scan i k) ↔ k = 0 ∨ i + k ≤ n ∨ ∃ j < n, i ≤ j ∧ m j = 0 := by
  induction k generalizing i with
  | zero => exact iff_of_true (inside_pure _) (.inl rfl)
  | succ k ih =>
    rw [scan, inside_bind, inside_cell, val_cell, inside_ite]
    by_cases hi : m i = 0
    -- the NUL ends the string at the first byte
    · rw [if_pos hi]
      constructor
      · rintro ⟨hin, -⟩
        exact .inr (.inr ⟨i, hin, le_rfl, hi⟩)
      · rintro (h | h | ⟨j, hj, hij, -⟩)
        · omega
        · exact ⟨by omega, inside_pure _⟩
        · exact ⟨by omega, inside_pure _⟩
    · rw [if_neg hi, inside_bind, ih]
      constructor
      · rintro ⟨hin, h | h | ⟨j, hj, hij, hnul⟩, -⟩
        · exact .inr (.inl (by omega))
        · exact .inr (.inl (by omega))
        · exact .inr (.inr ⟨j, hj, by omega, hnul⟩)
      · rintro (h | h | ⟨j, hj, hij, hnul⟩)
        · omega
        · exact ⟨by omega, .inr (.inl (by omega)), inside_pure _⟩
        · have hne : i ≠ j := by
            rintro rfl
            exact hi hnul
          exact ⟨by omega, .inr (.inr ⟨j, hj, by omega, hnul⟩), inside_pure _⟩

/-- `memcmp` looks at every byte of the command, but only where the lengths agree. -/
theorem inside_isCommand {k : ℕ} {s : List UInt8} (hs : s ≠ []) :
    Inside m n (isCommand k s) ↔ (k = s.length → 7 + k ≤ n) := by
  have hpos : 0 < s.length := List.length_pos_iff.mpr hs
  rw [isCommand, inside_ite]
  by_cases hk : k = s.length
  · rw [if_pos hk, equals, inside_bind, and_iff_left (inside_pure _), Inside, reads_cells]
    simp only [List.mem_range'_1, hk, true_imp_iff]
    constructor
    · intro h
      have := h (7 + s.length - 1) (by omega)
      omega
    · intro h j hj
      omega
  · rw [if_neg hk]
    exact iff_of_true (inside_pure _) fun h ↦ absurd h hk

theorem inside_ledCommand {k : ℕ} :
    Inside m n (ledCommand k) ↔ (k = 6 ∨ k = 7 → 7 + k ≤ n) := by
  rw [ledCommand, inside_bind, inside_isCommand (by decide), inside_ite]
  have h6 : (cstr "led on").length = 6 := rfl
  have h7 : (cstr "led off").length = 7 := rfl
  rw [h6]
  by_cases hk : k = 7
  -- only a payload as long as the second command is compared twice
  · have hoff : (isCommand k (cstr "led on")).val m = false := by
      rw [isCommand, if_neg (by omega), val_pure]
    rw [hoff, if_neg Bool.false_ne_true, inside_bind, inside_isCommand (by decide), h7]
    simp [hk]
  · by_cases hon : (isCommand k (cstr "led on")).val m = true
    · rw [if_pos hon]
      simp [hk]
    · rw [if_neg hon, inside_bind, inside_isCommand (by decide), h7]
      simp [hk]

theorem inside_handlePublishReceived {length : UInt8} {ok : Bool} :
    Inside m n (handlePublishReceived length ok) ↔
      length < 7 ∨ (7 ≤ n ∧ PayloadFits m n length) := by
  rw [handlePublishReceived, inside_ite]
  by_cases hshort : length < 7
  · rw [if_pos hshort]
    exact iff_of_true (inside_pure _) (.inl hshort)
  · have hle : 7 ≤ length.toNat := UInt8.le_iff_toNat_le.mp (UInt8.not_lt.mp hshort)
    have hsub : (length - 7).toNat = length.toNat - 7 :=
      UInt8.toNat_sub_of_le length 7 (UInt8.not_lt.mp hshort)
    have h13 : length = 13 ↔ length.toNat = 13 := UInt8.toNat_inj.symm
    have h14 : length = 14 ↔ length.toNat = 14 := UInt8.toNat_inj.symm
    rw [if_neg hshort, or_iff_right hshort, PayloadFits, ne_eq, ne_eq, h13, h14]
    simp only [inside_bind, inside_cell, inside_scan, inside_ledCommand, inside_pure, hsub,
      and_true]
    grind

@[simp] theorem inside_msgIdAt {i : ℕ} : Inside m n (msgIdAt i) ↔ i + 1 < n := by
  rw [msgIdAt, inside_bind, inside_bind, inside_cell, inside_cell]
  simp only [inside_pure, and_true]
  omega

theorem inside_handleConnack : Inside m n (handleConnack c) ↔ 3 ≤ n := by
  rw [handleConnack, inside_bind, inside_cell, and_iff_left (inside_pure _)]
  rfl

theorem inside_handleSuback {clock : ℕ → ℕ} : Inside m n (handleSuback c clock) ↔ 8 ≤ n := by
  simp only [handleSuback, inside_bind, inside_cell, inside_ite, inside_pure, ite_self, and_true]
  omega

theorem inside_handleRegack {length : UInt8} {clock : ℕ → ℕ} :
    Inside m n (handleRegack c length clock) ↔ length < 7 ∨ 7 ≤ n := by
  simp only [handleRegack, inside_bind, inside_cell, inside_ite, inside_pure, ite_self, and_true]
  by_cases hshort : length < 7
  · rw [if_pos hshort]
    exact iff_of_true trivial (.inl hshort)
  · rw [if_neg hshort, or_iff_right hshort]
    omega

theorem inside_udpRecvCallback {clock : ℕ → ℕ} {ok : Bool} (hn : 2 ≤ n) :
    Inside m n (udpRecvCallback c n clock ok) ↔ Fits c m n := by
  have hheader : ¬ n < MQTTSN_HEADER_SIZE := by
    rw [MQTTSN_HEADER_SIZE]
    omega
  rw [udpRecvCallback, if_neg hheader, inside_bind, inside_bind, inside_cell, inside_cell,
    and_iff_right (by omega), and_iff_right (by omega), val_cell, val_cell, dispatch, inside_ite,
    Fits]
  by_cases hdrop : (c.dropAcks && isQosAck (m 1)) = true
  · rw [if_pos hdrop]
    exact iff_of_true (inside_pure _) (.inl hdrop)
  · rw [if_neg hdrop, or_iff_right hdrop]
    simp only [inside_ite, inside_bind, inside_pure, and_true, inside_handleConnack,
      inside_handleSuback, inside_handleRegack, inside_handlePublishReceived, handlePubackReceived,
      handlePubcompReceived, handlePubrecReceived, handlePubrelReceived, inside_msgIdAt]
    by_cases hping : m 1 = MQTTSN_MSG_TYPE_PINGRESP
    · simp [hping, MQTTSN_MSG_TYPE_PINGRESP, MQTTSN_MSG_TYPE_CONNACK, MQTTSN_MSG_TYPE_SUBACK,
        MQTTSN_MSG_TYPE_REGACK, MQTTSN_MSG_TYPE_PUBLISH, MQTTSN_MSG_TYPE_PUBACK,
        MQTTSN_MSG_TYPE_PUBCOMP, MQTTSN_MSG_TYPE_PUBREC, MQTTSN_MSG_TYPE_PUBREL]
    · rw [if_neg hping]
      grind

/-- The answer to a datagram that is long enough does not depend on what lies behind it. -/
theorem val_eq_of_fits {m' : ℕ → UInt8} {clock : ℕ → ℕ} {ok : Bool} (hn : 2 ≤ n)
    (hfits : Fits c m n) (h : ∀ i < n, m i = m' i) :
    (udpRecvCallback c n clock ok).val m' = (udpRecvCallback c n clock ok).val m := by
  have hinside : Inside m n (udpRecvCallback c n clock ok) :=
    (inside_udpRecvCallback c hn).mpr hfits
  exact (val_congr fun i hi ↦ h i (hinside i hi)).1

/-- A datagram of at least eight bytes that claims its own length is long enough. -/
theorem fits_of_claimed (hclaimed : (m 0).toNat = n) (h : 8 ≤ n) : Fits c m n := by
  have hpayload : PayloadFits m n (m 0) := .inl hclaimed.le
  refine .inr ?_
  split_ifs
  · omega
  · exact h
  · exact .inr (by omega)
  · exact .inr ⟨by omega, hpayload⟩
  · omega
  · omega

end Reads

/-- **What the callback reads lies in the datagram exactly if the datagram is long enough for its
type.** -/
theorem reads_inside_iff (c : Client) (m : ℕ → UInt8) (n : ℕ) (clock : ℕ → ℕ) (ok : Bool)
    (hn : 2 ≤ n) :
    (∀ i ∈ (udpRecvCallback c n clock ok).reads m, i < n) ↔ Fits c m n :=
  inside_udpRecvCallback c hn

/-- The gateway's answer to a subscription. -/
theorem reads_inside_iff_suback :
    let m := memory [8, 0x13, 0x20, 0, 1, 0, 1, 0]
    (∀ i ∈ (udpRecvCallback Client.boot 8 id true).reads m, i < 8) ∧ Fits Client.boot m 8 :=
  have hfits : Fits Client.boot (memory [8, 0x13, 0x20, 0, 1, 0, 1, 0]) 8 :=
    fits_of_claimed _ rfl le_rfl
  ⟨(reads_inside_iff Client.boot _ 8 id true (by decide)).mpr hfits, hfits⟩

/-- The header of one alone: the return code is read six bytes behind the datagram. -/
theorem lone_header_read_beyond :
    ¬ ∀ (c : Client) (m : ℕ → UInt8) (n : ℕ) (clock : ℕ → ℕ) (ok : Bool), 2 ≤ n →
      ∀ i ∈ (udpRecvCallback c n clock ok).reads m, i < n := by
  intro h
  have hread := h Client.boot (memory [2, 0x13]) 2 id true le_rfl 7 (by decide +kernel)
  exact absurd hread (by decide)

end Emcs.Pico.Reading
