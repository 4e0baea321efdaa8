import Emcs.Delivery.Downlink

/-!
# What a relay makes of a frame of the bridge

A relay sends on what its receive buffer holds. `RH_RF95::recv` copies at most the 64 bytes that the
buffer has, and reports the number copied as the length of the frame, so a relay cannot tell a long
frame from a frame of 64 bytes. The bridge sends frames of up to 248 bytes behind the radio header.
The 60 bytes of ciphertext that pass are four bytes short of a fourth block: messages of up to 47
bytes go through unchanged, all others lose the end of their ciphertext and arrive with a length
that is not a whole number of blocks.

## The two directions

A message of at most 47 bytes has at most 48 bytes of ciphertext, which the receive buffer holds
together with the mesh header, so what the relay forwards is the frame with one hop less. A longer
one has at least 64 bytes of ciphertext, of which 60 are sent on. What is sent on then differs in
its length from the frame of the bridge.
-/

namespace Emcs.Delivery

open Bridge Mesh

def MESH_OFF_TTL : ℕ := 2

/-- A frame with one hop less. -/
def hopped (raw : List UInt8) : List UInt8 := raw.modify MESH_OFF_TTL fun ttl ↦ ttl - 1

/-- The frame that went out is the frame that came in with one hop less. -/
def Unchanged (raw : List UInt8) (a : AirFrame) : Prop :=
  a.raw.length = raw.length ∧ a.raw = hopped raw

/-- A longer message than 239 bytes is not sent. -/
theorem loraSend_eq_none (evp : Evp) (dst seq : UInt8) {m : List UInt8} (h : 240 ≤ m.length)
    (h' : m.length ≤ 255) : loraSend evp dst seq m = none := by
  have hlen : (m.length + (16 - m.length % 16)) % 256 = 0 := by omega
  have henc : gwAesEncrypt evp m GW_PAYLOAD_MAX = [] := by
    simp only [gwAesEncrypt, hlen, List.take_zero]
    rw [if_neg (Nat.not_lt_zero _)]
    exact evp.encryptUpdate_eq _ 0 [] rfl
  simp only [loraSend, henc]
  rfl

theorem length_le_of_loraSend {evp : Evp} {dst seq : UInt8} {m frame : List UInt8}
    (hm : m.length ≤ 255) (hframe : loraSend evp dst seq m = some frame) : m.length ≤ 239 := by
  by_contra h
  rw [loraSend_eq_none evp dst seq (by omega) hm] at hframe
  contradiction

/-- What the driver copies of a frame of the bridge. -/
theorem take_loraSend {evp : Evp} {dst seq : UInt8} {m frame : List UInt8} (h : m.length ≤ 239)
    (hframe : loraSend evp dst seq m = some frame) :
    (frame.drop RH_HDR).take LORA_BUF_SIZE =
      [MESH_ADDR_GATEWAY, dst, MESH_TTL_DEFAULT, seq] ++ (sealed m).take 60 := by
  rw [drop_loraSend h hframe]
  rfl

theorem hopped_loraSend {evp : Evp} {dst seq : UInt8} {m frame : List UInt8} (h : m.length ≤ 239)
    (hframe : loraSend evp dst seq m = some frame) :
    hopped (frame.drop RH_HDR) =
      [MESH_ADDR_GATEWAY, dst, MESH_TTL_DEFAULT - 1, seq] ++ sealed m := by
  rw [drop_loraSend h hframe]
  rfl

theorem receiveTurn_loraSend {evp : Evp} {cfg : NodeConfig} {t : Transport} {buf : List UInt8}
    {nonBlocking : Bool} {p : Poll} {dst seq : UInt8} {m frame : List UInt8} (h : m.length ≤ 239)
    (hframe : loraSend evp dst seq m = some frame) (hp : p.Delivers (frame.drop RH_HDR)) :
    receiveTurn cfg t buf nonBlocking p = receiveFrame cfg t buf
      ([MESH_ADDR_GATEWAY, dst, MESH_TTL_DEFAULT, seq] ++ (sealed m).take 60) p.rssi p.fwdOk := by
  rw [← take_loraSend h hframe, receiveTurn, hp.1, hp.2]
  rfl

/-- What a relay sends on is unchanged when its buffer holds the ciphertext. -/
theorem unchanged_iff {evp : Evp} {dst seq : UInt8} {m frame : List UInt8} {a : AirFrame}
    (h : m.length ≤ 239) (hframe : loraSend evp dst seq m = some frame)
    (ha : a.raw = [MESH_ADDR_GATEWAY, dst, MESH_TTL_DEFAULT - 1, seq] ++ (sealed m).take 60) :
    Unchanged (frame.drop RH_HDR) a ↔ m.length ≤ 47 := by
  have hlen := length_sealed m
  rw [Unchanged, hopped_loraSend h hframe, drop_loraSend h hframe, ha]
  constructor
  · rintro ⟨hlength, -⟩
    rw [List.length_append, List.length_append, List.length_take, hlen] at hlength
    simp only [List.length_cons, List.length_nil] at hlength
    omega
  · intro hle
    have htake : (sealed m).take 60 = sealed m := List.take_of_length_le (by omega)
    rw [htake]
    exact ⟨rfl, rfl⟩

/-- **When a relay is transparent**: what it sends on of a frame of the bridge is that frame with
one hop less exactly for messages of at most 47 bytes. -/
theorem relay_transparent_iff {evp : Evp} {cfg : NodeConfig} {t : Transport} {buf : List UInt8}
    {nonBlocking : Bool} {p : Poll} {dst seq : UInt8} {m frame : List UInt8} {a : AirFrame}
    (hm : m.length ≤ 255) (hframe : loraSend evp dst seq m = some frame)
    (hp : p.Delivers (frame.drop RH_HDR))
    (ha : (receiveTurn cfg t buf nonBlocking p).sent = some a) :
    Unchanged (frame.drop RH_HDR) a ↔ m.length ≤ 47 := by
  have h := length_le_of_loraSend hm hframe
  rw [receiveTurn_loraSend h hframe hp] at ha
  exact unchanged_iff h hframe (raw_of_sent_receiveFrame ha)

/-- What a relay that has not seen the frame sends on, when its radio sends. -/
theorem sent_relay_loraSend {evp : Evp} {cfg : NodeConfig} {t : Transport} {buf : List UInt8}
    {nonBlocking : Bool} {p : Poll} {dst seq : UInt8} {m frame : List UInt8} (h : m.length ≤ 239)
    (hframe : loraSend evp dst seq m = some frame) (hp : p.Delivers (frame.drop RH_HDR))
    (hrole : cfg.myNodeRole = .relay) (hseen : dedupSeen t MESH_ADDR_GATEWAY seq = false)
    (hdst : ¬(dst = cfg.myNodeId ∨ dst = MESH_ADDR_BROADCAST)) (hok : p.fwdOk = true) :
    (receiveTurn cfg t buf nonBlocking p).sent =
      some ⟨radioTo cfg (relayNextHop cfg dst), cfg.myNodeId,
        [MESH_ADDR_GATEWAY, dst, MESH_TTL_DEFAULT - 1, seq] ++ (sealed m).take 60⟩ := by
  rw [receiveTurn_loraSend h hframe hp, receiveFrame_for_other hseen hdst, hok,
    forwardFrame_relay hrole (by decide)]

/-- A turn of the relay 0x23 just after it was switched on, on the frame of the bridge for the node
0x22. -/
theorem relay_of_boot {m frame : List UInt8} (h : m.length ≤ 239)
    (hframe : loraSend Evp.software 0x22 0 m = some frame) :
    ∃ a, (receiveTurn arduino03 Transport.boot [] true
        ⟨true, some (frame.drop RH_HDR), 0, true, 0⟩).sent = some a ∧
      a.raw = [MESH_ADDR_GATEWAY, 0x22, MESH_TTL_DEFAULT - 1, 0] ++ (sealed m).take 60 :=
  ⟨_, sent_relay_loraSend h hframe ⟨rfl, rfl⟩ rfl (dedupSeen_boot _ _) (by decide) rfl, rfl⟩

/-- A PINGRESP leaves the relay as it came. -/
theorem relay_transparent_pingresp :
    ∃ frame a, loraSend Evp.software 0x22 0 [2, 0x17] = some frame ∧
      (receiveTurn arduino03 Transport.boot [] true
        ⟨true, some (frame.drop RH_HDR), 0, true, 0⟩).sent = some a ∧
      Unchanged (frame.drop RH_HDR) a := by
  have hframe := loraSend_eq Evp.software 0x22 0 [2, 0x17] (by decide)
  obtain ⟨a, ha, -⟩ := relay_of_boot (by decide) hframe
  exact ⟨_, a, hframe, ha, (relay_transparent_iff (by decide) hframe ⟨rfl, rfl⟩ ha).mpr (by decide)⟩

/-- A message of 48 bytes leaves the relay with the end of its ciphertext missing. -/
theorem relay_truncates : ∃ frame a,
    loraSend Evp.software 0x22 0 (List.replicate 48 0) = some frame ∧
    (receiveTurn arduino03 Transport.boot [] true
      ⟨true, some (frame.drop RH_HDR), 0, true, 0⟩).sent = some a ∧
    ¬Unchanged (frame.drop RH_HDR) a := by
  have hlen : (List.replicate 48 (0 : UInt8)).length ≤ 239 := by decide
  have hframe := loraSend_eq Evp.software 0x22 0 (List.replicate 48 0) hlen
  obtain ⟨a, ha, hraw⟩ := relay_of_boot hlen hframe
  refine ⟨_, a, hframe, ha, fun hunchanged ↦ ?_⟩
  exact absurd ((unchanged_iff hlen hframe hraw).mp hunchanged) (by decide)

end Emcs.Delivery
