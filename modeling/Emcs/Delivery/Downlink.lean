import Emcs.Delivery.Sealing

/-!
# Downlink delivery

From `lora_send` on the bridge to the buffer that `mqtt_sn_poll` passes to `mqttsn_transport_recv`.

The receive path compares the length of the *ciphertext* with the size of the *plaintext* buffer
before it decrypts. The buffer has 23 bytes, the ciphertext is a whole number of blocks, so only
one-block ciphertexts pass: messages of 16 to 23 bytes are dropped although they fit. The bound
`receiveLoop_ret_lt` says that this is final: no call with such a buffer returns more than 15.

## The proof

One direction follows the frame: it passes the header checks, its ciphertext fits the buffer, and
decryption leaves the message in front. The other direction is a bound on everything the call may
do: a turn keeps the size of the buffer and returns less than its whole blocks (`TurnBound`), and so
does the loop. So a message of 16 bytes or more is not returned by this call at all, whatever the
later turns bring.
-/

namespace Emcs.Delivery

open Aes BlockMode Bridge Mesh

/-- The size of the buffer of `mqtt_sn_poll`: a PUBLISH header and the retry payload. -/
def POLL_BUF_SIZE : ℕ := 7 + 16

/-! ## The frame of the bridge -/

/-- **The frame of `lora_send`**: the radio header, the mesh header and the sealed message. -/
theorem loraSend_eq (evp : Evp) (dst seq : UInt8) (m : List UInt8) (h : m.length ≤ 239) :
    loraSend evp dst seq m = some ([gwNextHop dst, MESH_ADDR_GATEWAY, seq, 0x00] ++
      ([MESH_ADDR_GATEWAY, dst, MESH_TTL_DEFAULT, seq] ++ sealed m)) := by
  have hpos := length_sealed_pos m
  have hle : ¬(sealed m).length + FRAME_HDR_TOTAL > GW_PAYLOAD_MAX := by
    rw [length_sealed]
    change ¬255 < 16 * (m.length / 16 + 1) + 8
    omega
  have hfit : MESH_HEADER_SIZE + (sealed m).length ≤ GW_PAYLOAD_MAX := by
    change ¬255 < (sealed m).length + 8 at hle
    change 4 + (sealed m).length ≤ 255
    omega
  simp only [loraSend, gwAesEncrypt_eq evp m h]
  rw [if_neg hpos.ne', dif_neg hle, meshEncode_eq]
  · exact if_neg (by simp)
  · exact hfit

theorem drop_loraSend {evp : Evp} {dst seq : UInt8} {m frame : List UInt8} (h : m.length ≤ 239)
    (hframe : loraSend evp dst seq m = some frame) :
    frame.drop RH_HDR = [MESH_ADDR_GATEWAY, dst, MESH_TTL_DEFAULT, seq] ++ sealed m := by
  rw [loraSend_eq evp dst seq m h, Option.some_inj] at hframe
  rw [← hframe]
  rfl

/-! ## The bound on what a call returns -/

theorem length_aesDecryptPayload (src dst : List UInt8) :
    (aesDecryptPayload src dst).1.length = dst.length := by
  rw [aesDecryptPayload]
  by_cases h : src.length = 0 ∨ src.length % 16 ≠ 0 ∨ src.length > dst.length
  · rw [if_pos h]
  · rw [if_neg h]
    have hdiv : 16 * (src.length / 16) ≤ src.length := Nat.mul_div_le _ _
    have hlen : (ecb (aesDecryptBlock AES_SHARED_KEY) (src.length / 16) src
        ++ dst.drop src.length).length = dst.length := by
      rw [List.length_append, length_ecb _ hdiv, List.length_drop]
      omega
    dsimp only
    split
    · exact hlen
    · exact hlen

/-- A returned length is below the length of the ciphertext, whole blocks that fit the buffer. -/
theorem aesDecryptPayload_lt (src dst : List UInt8) (h : (aesDecryptPayload src dst).2 ≠ 0) :
    src.length % 16 = 0 ∧ src.length ≤ dst.length ∧ (aesDecryptPayload src dst).2 < src.length := by
  rw [aesDecryptPayload] at h ⊢
  by_cases hg : src.length = 0 ∨ src.length % 16 ≠ 0 ∨ src.length > dst.length
  · rw [if_pos hg] at h
    exact absurd rfl h
  · rw [if_neg hg] at h ⊢
    dsimp only at h ⊢
    split at h
    · exact absurd rfl h
    · rename_i hpad
      rw [if_neg hpad]
      have hne : ((ecb (aesDecryptBlock AES_SHARED_KEY) (src.length / 16) src
          ++ dst.drop src.length).getD (src.length - 1) 0).toNat ≠ 0 := by
        intro hz
        exact hpad (Or.inl (UInt8.toNat_inj.mp hz))
      dsimp only
      omega

/-- What a turn of the receive loop does to the buffer of the caller: its size stays, and a returned
length is below the whole blocks of it. -/
structure TurnBound (buf : List UInt8) (r : TurnResult) : Prop where
  length_eq : r.buf.length = buf.length
  ret_lt : ∀ n, r.turn = .ret n → n < 16 * (buf.length / 16)

theorem turnBound_next (t : Transport) (buf : List UInt8) (sent : Option AirFrame) :
    TurnBound buf ⟨t, buf, sent, .next⟩ :=
  ⟨rfl, fun _ h ↦ nomatch h⟩

theorem deliverFrame_bound (t : Transport) (buf : List UInt8) (src ttl seq : UInt8)
    (payload : List UInt8) : TurnBound buf (deliverFrame t buf src ttl seq payload) := by
  rw [deliverFrame]
  by_cases h : payload.length = 0 ∨ payload.length > buf.length
  · rw [if_pos h]
    exact turnBound_next t buf none
  · rw [if_neg h]
    dsimp only
    by_cases hr : (aesDecryptPayload payload buf).2 = 0
    · rw [if_pos hr]
      refine ⟨length_aesDecryptPayload payload buf, ?_⟩
      rintro _ ⟨⟩
    · rw [if_neg hr]
      refine ⟨length_aesDecryptPayload payload buf, fun n hn ↦ ?_⟩
      obtain ⟨hmod, hle, hlt⟩ := aesDecryptPayload_lt payload buf hr
      rw [← Turn.ret.inj hn]
      omega

theorem forwardFrame_bound (cfg : NodeConfig) (t : Transport) (buf : List UInt8)
    (src dst ttl seq : UInt8) (payload : List UInt8) (fwdOk : Bool) :
    TurnBound buf (forwardFrame cfg t buf src dst ttl seq payload fwdOk) := by
  rw [forwardFrame]
  split
  · exact turnBound_next t buf none
  · split
    · exact turnBound_next t buf none
    · exact turnBound_next _ buf _

theorem receiveFrame_bound (cfg : NodeConfig) (t : Transport) (buf raw : List UInt8) (rssi : Int16)
    (fwdOk : Bool) : TurnBound buf (receiveFrame cfg t buf raw rssi fwdOk) := by
  rw [receiveFrame.eq_def]
  split
  · dsimp only
    split
    · exact turnBound_next _ buf none
    split
    · exact deliverFrame_bound _ buf _ _ _ _
    · exact forwardFrame_bound cfg _ buf _ _ _ _ _ fwdOk
  · exact turnBound_next t buf none

theorem receiveTurn_bound (cfg : NodeConfig) (t : Transport) (buf : List UInt8)
    (nonBlocking : Bool) (p : Poll) : TurnBound buf (receiveTurn cfg t buf nonBlocking p) := by
  rw [receiveTurn]
  split
  · refine ⟨rfl, fun n hn ↦ ?_⟩
    cases nonBlocking with
    | false => cases hn
    | true => cases hn
  split
  · exact turnBound_next t buf none
  · exact receiveFrame_bound cfg t buf _ _ _

/-- **No call returns more than the whole blocks of its buffer carry.** -/
theorem receiveLoop_ret_lt {cfg : NodeConfig} {nonBlocking : Bool} {deadline : UInt32}
    {t : Transport} {buf : List UInt8} {polls : List Poll} {n : ℕ} (hbuf : 16 ≤ buf.length)
    (h : (receiveLoop cfg nonBlocking deadline t buf polls).ret = some n) :
    n < 16 * (buf.length / 16) := by
  induction polls generalizing t buf with
  | nil => exact nomatch h
  | cons p ps ih =>
    have hturn := receiveTurn_bound cfg t buf nonBlocking p
    rw [receiveLoop] at h
    dsimp only at h
    split at h
    · rw [← Option.some_inj.mp h]
      omega
    · rename_i len heq
      rw [← Option.some_inj.mp h]
      exact hturn.ret_lt len heq
    · split at h
      · rw [← hturn.length_eq]
        exact ih (by rw [hturn.length_eq]; exact hbuf) h
      · rw [← Option.some_inj.mp h]
        omega

/-! ## The frame at the endpoint -/

theorem length_frame_le {src dst ttl seq : UInt8} {m : List UInt8} (h : m.length ≤ 47) :
    ([src, dst, ttl, seq] ++ sealed m).length ≤ LORA_BUF_SIZE := by
  rw [List.length_append, length_sealed]
  change 4 + 16 * (m.length / 16 + 1) ≤ 64
  omega

/-- A message whose ciphertext fits the buffer is returned, with the buffer starting with it. -/
theorem deliverFrame_sealed (t : Transport) (buf : List UInt8) (src ttl seq : UInt8)
    (m : List UInt8) (hpos : 0 < m.length) (hfit : (sealed m).length ≤ buf.length) :
    (deliverFrame t buf src ttl seq (sealed m)).turn = .ret m.length ∧
      (deliverFrame t buf src ttl seq (sealed m)).buf.take m.length = m := by
  have hguard : ¬((sealed m).length = 0 ∨ (sealed m).length > buf.length) := by
    have h := length_sealed_pos m
    omega
  rw [deliverFrame, if_neg hguard]
  simp only [aesDecryptPayload_sealed m buf hfit]
  rw [if_neg hpos.ne']
  exact ⟨rfl, take_pad m _⟩

/-- A message whose ciphertext does not fit is dropped before it is decrypted. -/
theorem deliverFrame_too_long (t : Transport) (buf : List UInt8) (src ttl seq : UInt8)
    (payload : List UInt8) (h : payload.length > buf.length) :
    deliverFrame t buf src ttl seq payload = ⟨t, buf, none, .next⟩ :=
  if_pos (Or.inr h)

/-- **Downlink delivery.** A message of 1 to 23 bytes that the bridge sends to an endpoint which has
not seen its number is returned to `mqtt_sn_poll` exactly when its ciphertext is one block long. -/
theorem mqttsnTransportRecv_loraSend_iff (evp : Evp) (cfg : NodeConfig) (t : Transport)
    (seq : UInt8) (m frame buf : List UInt8)
    (timeoutMs start : UInt32) (p : Poll) (rest : List Poll)
    (hpos : 1 ≤ m.length) (hle : m.length ≤ 23)
    (hframe : loraSend evp cfg.myNodeId seq m = some frame)
    (hseen : dedupSeen t MESH_ADDR_GATEWAY seq = false) (hbuf : buf.length = POLL_BUF_SIZE)
    (hp : p.Delivers (frame.drop RH_HDR)) :
    ((mqttsnTransportRecv cfg t buf timeoutMs start (p :: rest)).ret = some m.length ∧
      (mqttsnTransportRecv cfg t buf timeoutMs start (p :: rest)).buf.take m.length = m) ↔
    m.length ≤ 15 := by
  rw [drop_loraSend (by omega) hframe] at hp
  have hturn (nonBlocking : Bool) : receiveTurn cfg t buf nonBlocking p
      = deliverFrame { t with lastRssi := p.rssi } buf MESH_ADDR_GATEWAY MESH_TTL_DEFAULT seq
        (sealed m) := by
    rw [receiveTurn_of_delivers hp (length_frame_le (by omega)),
      receiveFrame_for_me hseen (Or.inl rfl)]
  have hbuf' : buf.length = 23 := hbuf
  constructor
  · rintro ⟨hret, -⟩
    have hlt := receiveLoop_ret_lt (by omega) hret
    rw [hbuf'] at hlt
    omega
  · intro hshort
    have hfit : (sealed m).length ≤ buf.length := by
      rw [length_sealed]
      omega
    obtain ⟨hret, htake⟩ := deliverFrame_sealed { t with lastRssi := p.rssi } buf
      MESH_ADDR_GATEWAY MESH_TTL_DEFAULT seq m hpos hfit
    rw [mqttsnTransportRecv, receiveLoop, hturn]
    simp only [hret]
    exact ⟨trivial, htake⟩

/-- The poll in which a node receives the frame of the bridge for `m` under number 0. -/
private def pollOf (dst : UInt8) (m : List UInt8) : Poll where
  available := true
  recv := some ([MESH_ADDR_GATEWAY, dst, MESH_TTL_DEFAULT, 0] ++ sealed m)
  rssi := -60
  fwdOk := true
  now := 200

/-- The command `on` reaches the node `0x24`. -/
theorem mqttsnTransportRecv_loraSend_on :
    (mqttsnTransportRecv arduino04 Transport.boot (List.replicate 23 0) 200 0
        [pollOf 0x24 [0x6f, 0x6e]]).ret = some 2 ∧
      (mqttsnTransportRecv arduino04 Transport.boot (List.replicate 23 0) 200 0
        [pollOf 0x24 [0x6f, 0x6e]]).buf.take 2 = [0x6f, 0x6e] :=
  (mqttsnTransportRecv_loraSend_iff Evp.software arduino04 Transport.boot 0 [0x6f, 0x6e] _
    (List.replicate 23 0) 200 0 (pollOf 0x24 [0x6f, 0x6e]) [] (by decide) (by decide)
    (loraSend_eq Evp.software 0x24 0 [0x6f, 0x6e] (by decide)) (dedupSeen_boot _ _) rfl
    ⟨rfl, rfl⟩).mpr
    (by decide)

/-- Sixteen bytes sent to the node `0x24`, which has received nothing yet, are dropped: the call
goes on waiting and returns 0 at its deadline. -/
theorem mqttsnTransportRecv_drops_sixteen :
    loraSend Evp.software 0x24 0 (List.replicate 16 0x61)
      = some ([0x23, 0, 0, 0] ++ ([0, 0x24, 3, 0] ++ sealed (List.replicate 16 0x61))) ∧
    dedupSeen Transport.boot MESH_ADDR_GATEWAY 0 = false ∧
    (mqttsnTransportRecv arduino04 Transport.boot (List.replicate 23 0) 200 0
      [pollOf 0x24 (List.replicate 16 0x61)]).ret = some 0 := by
  refine ⟨loraSend_eq Evp.software 0x24 0 (List.replicate 16 0x61) (by decide),
    dedupSeen_boot _ _, ?_⟩
  have hturn (nonBlocking : Bool) : receiveTurn arduino04 Transport.boot (List.replicate 23 0)
      nonBlocking (pollOf 0x24 (List.replicate 16 0x61))
      = ⟨{ Transport.boot with lastRssi := -60 }, List.replicate 23 0, none, .next⟩ := by
    rw [receiveTurn_of_delivers ⟨rfl, rfl⟩ (length_frame_le (by decide))]
    refine (receiveFrame_for_me (dedupSeen_boot _ _) (Or.inl rfl)).trans
      (deliverFrame_too_long _ _ _ _ _ _ ?_)
    rw [length_sealed, List.length_replicate, List.length_replicate]
    decide
  rw [mqttsnTransportRecv, receiveLoop, hturn]
  rfl

end Emcs.Delivery
