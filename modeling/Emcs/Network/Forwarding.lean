import Emcs.Bridge.Registry
import Emcs.Lib.Relaying
import Emcs.Mesh.Forwarding

/-!
# Forwarding in the mesh

A frame is put into the air once, and the nodes that hear it run their receive loop on it: what they
send is another copy. Who hears whom, in which order, what the duplicate caches hold at that time
and whether the radio sends are all open.

The TTL bounds the copies. The address in the radio header does not: a relay in promiscuous mode
never looks at it, so a frame that is addressed to one relay is forwarded by every other one in
range.

## The proof

The copies of one frame are an instance of the library on relaying: a state is the list of the
copies sent so far, each with those who have not heard it yet. That the hops count down along every
chain of copies bounds its length, and that a node answers a copy once bounds the number of answers
to each. What the relays do enters only as `reply_iff`, so the bound holds whatever the caches hold
and whichever radios fail.
-/

namespace Emcs.Network

open Mesh Relaying

variable {ι : Type*} [Fintype ι] [DecidableEq ι] (cfg : ι → NodeConfig)

/-- **Forwarding stops**: at most `R + R² + ⋯ + Rᵗ` copies are sent for a frame with `t` hops. Along
every chain of copies the hops count down by one, and every copy keeps the rest. The frames of the
nodes and of the bridge start with the default. -/
theorem forwarding_stops (a : AirFrame) (es : List (Hearing ι Circumstance)) :
    (Trace.run (step (reply cfg)) (inject a) es).length - 1
        ≤ ∑ d ∈ Finset.Icc 1 a.ttl, Fintype.card ι ^ d ∧
      (∀ c ∈ Trace.run (step (reply cfg)) (inject a) es,
        (c.item :: c.trail).IsChain (fun b b' ↦ b.ttl + 1 = b'.ttl) ∧
          (c.item :: c.trail).getLast? = some a ∧ CopyOf a c.item) ∧
      (∀ node t m ok b, (mqttsnTransportSend node t m ok).2.1 = some b →
        b.ttl = MESH_TTL_DEFAULT.toNat) ∧
      ∀ evp dst seq data frame, Bridge.loraSend evp dst seq data = some frame →
        (AirFrame.mk (frame.getD 0 0) (frame.getD 1 0) (frame.drop Bridge.RH_HDR)).ttl
          = MESH_TTL_DEFAULT.toNat := by
  refine ⟨?_, fun c hc ↦ ?_, fun node t m ok b hb ↦ ?_, fun evp dst seq data frame hframe ↦ ?_⟩
  · have hle := length_run_le (ttl_of_reply cfg) a es
    have hsum : ∑ d ∈ Finset.range a.ttl, Fintype.card ι ^ (d + 1)
        = ∑ d ∈ Finset.Icc 1 a.ttl, Fintype.card ι ^ d := by
      rw [Finset.range_eq_Ico, Finset.sum_Ico_add' (fun d ↦ Fintype.card ι ^ d) 0 a.ttl 1]
      rfl
    rw [← hsum]
    omega
  · refine mem_run_rule (reply cfg) (P := fun b l ↦
      (b :: l).IsChain (fun b b' ↦ b.ttl + 1 = b'.ttl) ∧ (b :: l).getLast? = some a ∧ CopyOf a b)
      ⟨List.isChain_singleton _, rfl, CopyOf.refl a⟩ (fun x r b l b' hb hreply ↦ ?_) es hc
    obtain ⟨hchain, hlast, hcopy⟩ := hb
    obtain ⟨hforwards, -, rfl⟩ := (reply_iff cfg x r b b').mp hreply
    refine ⟨List.isChain_cons_cons.mpr ⟨ttl_forwarded (cfg r) hforwards.hops, hchain⟩, ?_,
      hcopy.trans (copyOf_forwarded (cfg r) hforwards.whole)⟩
    rw [List.getLast?_cons_cons]
    exact hlast
  · rcases mqttsnTransportSend_cases node t m ok with heq | ⟨-, hraw⟩
    · rw [heq] at hb
      exact nomatch hb
    · rw [AirFrame.ttl, hraw b hb]
      rfl
  · rw [AirFrame.ttl, Bridge.drop_of_loraSend hframe]
    rfl

/-- The relays of `config.h`. -/
def relays : Fin 2 → NodeConfig := ![arduino03, arduino05]

/-- What `radio_tx` of arduino-04 sends on its way to the gateway. -/
def uplink : AirFrame := ⟨0x23, 0x24, [0x24, MESH_ADDR_GATEWAY, MESH_TTL_DEFAULT, 1, 0xAA]⟩

/-- A relay that was just switched on hears the first copy. -/
def hears (r : Fin 2) : Hearing (Fin 2) Circumstance :=
  ⟨0, r, ⟨Transport.boot, [], true, 0, true, 0⟩⟩

theorem forwarding_stops_uplink :
    ∀ c ∈ Trace.run (step (reply relays)) (inject uplink) [hears 0, hears 1],
      c.item.payload = [0xAA] := fun c hc ↦
  ((forwarding_stops relays uplink [hears 0, hears 1]).2.1 c hc).2.2.payload (by decide)

end Emcs.Network
