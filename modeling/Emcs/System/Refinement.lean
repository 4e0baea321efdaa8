import Emcs.Lib.Refinement
import Emcs.System.Field
import Emcs.System.Runs

/-!
# From the sketches to the gateway, and back

What lies between a sketch and the gateway is forgotten: the transports, the relays, the air, the
bridge and its sockets. What remains of a run of all programs is a run of the Arduinos with the
gateway, in which the node that has a slot is the Arduino at the address of the slot. So everything
that holds of these runs holds of all programs together.

Which node has which slot is fixed in a run (`owner`). When a slot changes hands, the gateway takes
the new node for the old one, and nothing of this holds.

## The mapping

`Field.site` keeps the nodes that have a slot, under its address, and the gateway, and drops the
rest. `Field.view` takes a run step by step: a step of a node with a slot is one of the Arduino at
the address, a step of the gateway stays what it is, and all else disappears. That the mapping
commutes with the steps needs the invariant of the field, because the abstract machine lets nothing
arrive that was not sent.
-/

namespace Emcs.System

open Mqttsn Arduino Paho
open Bridge (MAX_CLIENTS leases)
open Network (Intact)

variable {ι B : Type}

/-- The Arduinos, as the gateway has them at its addresses. -/
def FieldSetup.site (F : FieldSetup ι) (B : Type) (owner : Fin MAX_CLIENTS ≃. ι) :
    Setup (Address B) where
  clientId
    | .inl i => (owner i).map F.clientId
    | .inr _ => none
  maxClients := F.maxClients
  maxInflightMsgs := F.maxInflightMsgs
  short := by
    intro addr id hid
    rcases addr with i | b
    · obtain ⟨x, -, rfl⟩ := Option.map_eq_some_iff.mp hid
      exact F.short x
    · exact absurd hid.symm (Option.some_ne_none _)
  apart := by
    intro addr addr' id id' hid hid' hmatch
    rcases addr with i | b
    · rcases addr' with i' | b'
      · obtain ⟨x, hx, rfl⟩ := Option.map_eq_some_iff.mp hid
        obtain ⟨y, hy, rfl⟩ := Option.map_eq_some_iff.mp hid'
        rw [F.apart hmatch] at hx
        rw [owner.inj hx hy]
      · exact absurd hid'.symm (Option.some_ne_none _)
    · exact absurd hid.symm (Option.some_ne_none _)

namespace Field

/-- What remains of the programs. -/
def site (owner : Fin MAX_CLIENTS ≃. ι) (s : Field ι B) : Site (Address B) where
  node
    | .inl i => (owner i).elim .boot s.node
    | .inr _ => .boot
  gateway := s.gateway

variable [DecidableEq ι] [DecidableEq B]

/-- The step of a sketch, if one takes a step. -/
def acts (F : FieldSetup ι) (s : Field ι B) : FieldStep ι B → Option (ι × NodeStep)
  | .iterate x inputs => some (x, .iterate inputs)
  | .timeout x => some (x, .reply none)
  | .receive x c buf rssi fwdOk beyond now =>
    (Network.returned F.cfg s.net (.deliver x c buf rssi fwdOk)).map fun r ↦
      (x, (s.node x).handle ⟨r.2 ++ beyond, UInt8.ofNat r.2.length, now⟩)
  | _ => none

/-- What remains of a step. -/
def seen (F : FieldSetup ι) (owner : Fin MAX_CLIENTS ≃. ι) (s : Field ι B) :
    FieldStep ι B → Option (SiteStep (Address B))
  | .gateway e => if s.admits e then some (.gateway e) else none
  | e => (s.acts F e).bind fun p ↦ (owner.symm p.1).map fun i ↦ .node (.inl i) p.2

/-- What remains of a run. -/
def view (F : FieldSetup ι) (owner : Fin MAX_CLIENTS ≃. ι) (s : Field ι B)
    (es : List (FieldStep ι B)) : List (SiteStep (Address B)) :=
  Trace.view (Field.step F) (seen F owner) s es

end Field

variable {F : FieldSetup ι} {owner : Fin MAX_CLIENTS ≃. ι} {s : Field ι B} {x : ι}
  {i : Fin MAX_CLIENTS}

theorem FieldSetup.clientId_site (hi : owner i = some x) :
    (F.site B owner).clientId (.inl i) = some (F.clientId x) := by
  change (owner i).map F.clientId = _
  rw [hi, Option.map_some]

theorem Field.node_site (hi : owner i = some x) : (s.site owner).node (.inl i) = s.node x := by
  change (owner i).elim Node.boot s.node = _
  rw [hi, Option.elim_some]

theorem Field.site_boot : (Field.boot : Field ι B).site owner = Site.boot := by
  rw [Field.site, Site.boot, Site.mk.injEq]
  refine ⟨funext fun addr ↦ ?_, rfl⟩
  rcases addr with i | b
  · change (owner i).elim Node.boot (fun _ ↦ Node.boot) = _
    rcases owner i with - | x
    · rfl
    · rfl
  · rfl

theorem Field.site_congr {s' : Field ι B} (hnode : s'.node = s.node)
    (hgateway : s'.gateway = s.gateway) : s'.site owner = s.site owner := by
  rw [Field.site, Field.site, hnode, hgateway]

/-! ## Steps of the sketches -/

section

variable [DecidableEq ι]

theorem Field.node_act_self (e : NodeStep) :
    (s.act F x e).node x = (s.node x).step (F.clientId x) e :=
  Function.update_self _ _ _

theorem Field.node_act_of_ne {y : ι} (hne : y ≠ x) (e : NodeStep) :
    (s.act F x e).node y = s.node y :=
  Function.update_of_ne hne _ _

/-- A node without a slot is not seen. -/
theorem Field.site_act_of_none (hx : owner.symm x = none) (e : NodeStep) :
    (s.act F x e).site owner = s.site owner := by
  rw [Field.site, Field.site, Site.mk.injEq]
  refine ⟨funext fun addr ↦ ?_, rfl⟩
  rcases addr with i | b
  · dsimp only
    cases hi : owner i with
    | none => rfl
    | some y =>
      -- every sketch of the abstract system has a slot
      have hne : y ≠ x := by
        rintro rfl
        rw [owner.eq_some_iff.mpr hi] at hx
        exact absurd hx (Option.some_ne_none _)
      rw [Option.elim_some, Option.elim_some, Field.node_act_of_ne hne]
  · rfl

variable [DecidableEq B]

/-- A node with a slot is the Arduino there. -/
theorem Field.site_act (hi : owner i = some x) (e : NodeStep) :
    (s.act F x e).site owner = { s.site owner with
      node := Function.update (s.site owner).node (.inl i)
        (((s.site owner).node (.inl i)).step (F.clientId x) e) } := by
  rw [Field.node_site hi, Field.site, Field.site, Site.mk.injEq]
  refine ⟨funext fun addr ↦ ?_, rfl⟩
  by_cases haddr : addr = .inl i
  · subst haddr
    rw [Function.update_self]
    dsimp only
    rw [hi, Option.elim_some, Field.node_act_self]
  · rw [Function.update_of_ne haddr]
    rcases addr with j | b
    · dsimp only
      cases hj : owner j with
      | none => rfl
      | some y =>
        -- no node has two slots
        have hne : y ≠ x := by
          rintro rfl
          exact haddr (congrArg _ (owner.inj hj hi))
        rw [Option.elim_some, Option.elim_some, Field.node_act_of_ne hne]
    · rfl

/-- The sketches change by the step of one of them. -/
theorem Field.node_step (s : Field ι B) (e : FieldStep ι B) :
    (s.step F e).node = (s.acts F e).elim s.node fun p ↦ (s.act F p.1 p.2).node := by
  cases e with
  | iterate => rfl
  | timeout => rfl
  | send x datagram ok =>
    rw [Field.step]
    split
    · rfl
    · rfl
  | receive x c buf rssi fwdOk beyond now =>
    rw [Field.step, Field.acts]
    cases hret : Network.returned F.cfg s.net (.deliver x c buf rssi fwdOk) with
    | none => rfl
    | some r => rfl
  | uplink => rfl
  | stage ready =>
    rw [Field.step]
    split
    · rfl
    · rfl
  | transmit => rfl
  | expire => rfl
  | gateway e =>
    rw [Field.step]
    split
    · rfl
    · rfl

/-- The gateway changes by its own steps. -/
theorem Field.gateway_step_of_ne (s : Field ι B) {e : FieldStep ι B} (he : ∀ g, e ≠ .gateway g) :
    (s.step F e).gateway = s.gateway := by
  cases e with
  | iterate => rfl
  | timeout => rfl
  | send x datagram ok =>
    rw [Field.step]
    split
    · rfl
    · rfl
  | receive x c buf rssi fwdOk beyond now =>
    rw [Field.step]
    split
    · rfl
    · rfl
  | uplink => rfl
  | stage ready =>
    rw [Field.step]
    split
    · rfl
    · rfl
  | transmit => rfl
  | expire => rfl
  | gateway e => exact absurd rfl (he e)

variable (F owner) in
/-- **What remains of a step**: a step of the gateway, one of a node that has a slot, or nothing. -/
theorem Field.step_cases (s : Field ι B) (e : FieldStep ι B) :
    (∃ g, e = .gateway g ∧ s.admits g = true ∧ s.seen F owner e = some (.gateway g) ∧
      (s.step F e).site owner = { s.site owner with
        gateway := s.gateway.step (F.site B owner).params g }) ∨
    (∃ x a i, s.acts F e = some (x, a) ∧ owner i = some x ∧
      s.seen F owner e = some (.node (.inl i) a) ∧
      (s.step F e).site owner = (s.act F x a).site owner) ∨
    s.seen F owner e = none ∧ (s.step F e).site owner = s.site owner := by
  by_cases hg : ∃ g, e = .gateway g
  · obtain ⟨g, rfl⟩ := hg
    by_cases hadmits : s.admits g = true
    · refine Or.inl ⟨g, rfl, hadmits, if_pos hadmits, ?_⟩
      rw [Field.step, if_pos hadmits]
      rfl
    · refine Or.inr (Or.inr ⟨if_neg hadmits, ?_⟩)
      rw [Field.step, if_neg hadmits]
  · have hseen : s.seen F owner e
        = (s.acts F e).bind fun p ↦ (owner.symm p.1).map fun i ↦ .node (.inl i) p.2 := by
      cases e with
      | gateway g => exact absurd ⟨g, rfl⟩ hg
      | _ => rfl
    have hgateway := s.gateway_step_of_ne (F := F) fun g heq ↦ hg ⟨g, heq⟩
    have hnode := s.node_step (F := F) e
    rw [hseen]
    rcases hacts : s.acts F e with - | ⟨x, a⟩
    · rw [hacts, Option.elim_none] at hnode
      exact Or.inr (Or.inr ⟨rfl, Field.site_congr hnode hgateway⟩)
    · rw [hacts, Option.elim_some] at hnode
      have hsite : (s.step F e).site owner = (s.act F x a).site owner :=
        Field.site_congr hnode hgateway
      rw [Option.bind_some]
      dsimp only
      rcases hx : owner.symm x with - | i
      · exact Or.inr (Or.inr ⟨rfl, hsite.trans (Field.site_act_of_none hx a)⟩)
      · exact Or.inr (Or.inl ⟨x, a, i, rfl, owner.eq_some_iff.mp hx, rfl, hsite⟩)

end

end Emcs.System
