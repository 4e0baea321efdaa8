import Emcs.System.Undisturbed

/-!
# From end to end

What holds in every run of all programs together. The sketches with the gateway are a machine of
their own (`Site`), and forgetting everything in between, a run of the field is a run of this
machine with the same state at its end (`seen_as_site`).

So what is proved of sketches and gateway holds over the mesh: what the gateway publishes for a slot
are the readings of the node that has it, and what a node shows was sent by the broker. The run in
which a lone Arduino connects, has its topics registered, publishes, and is sent a command shows
that these happen.
-/

namespace Emcs.System

open Mqttsn Arduino Paho
open Bridge (MAX_CLIENTS)

variable {ι B : Type} {F : FieldSetup ι} {owner : Fin MAX_CLIENTS ≃. ι} {s : Field ι B} {x : ι}
  {i : Fin MAX_CLIENTS} {e : FieldStep ι B}

/-! ## One Arduino over the mesh -/

namespace Lone

/-- The lone Arduino, one hop away from the bridge. -/
def field : FieldSetup Unit where
  cfg _ := Mesh.arduino03
  evp := Bridge.Evp.software
  clientId _ := [0x61]
  maxClients := 1
  maxInflightMsgs := 10
  short _ := by decide
  apart _ := rfl
  address _ := by decide
  unique _ := rfl

def slot : Fin MAX_CLIENTS := ⟨0, by decide⟩

/-- It has the first slot. -/
def holder : Fin MAX_CLIENTS ≃. Unit := PEquiv.single slot ()

/-- The `switch` runs while the network is there and nothing arrives. -/
def turn (now : UInt32) : Move Empty := .iterate ⟨now, none, [], now, none, now, true, now, true⟩

/-- A datagram of the sketch comes to the gateway and is handled. -/
def up (datagram : List UInt8) : List (Move Empty) :=
  [.up datagram ⟨0, 5, true⟩, .gateway (.clientRecv (.inl slot) datagram ⟨0, [], 0, 0⟩),
    .gateway .packetHandle, .gateway .updateStatus]

/-- The broker answers what the gateway sends to it. -/
def broker (packet : MqttPacket) : List (Move Empty) :=
  [.gateway (.brokerSend .sent), .gateway (.brokerRecv 0 packet), .gateway .packetHandle]

/-- A datagram of the gateway comes to the sketch and is handled. -/
def down (datagram : List UInt8) : List (Move Empty) :=
  [.gateway .clientSend, .down slot datagram 100]

/-- The messages of the run with the sketch alone, now over the mesh. -/
def moves : List (Move Empty) :=
  turn 0 :: up [7, 4, 4, 1, 0, 60, 0x61] ++ broker (.connack 0) ++ down [3, 5, 0] ++
  turn 1 :: up (registerPacket 1 TOPIC_DATA_1) ++ down [7, 11, 0, 1, 0, 1, 0] ++
  turn 6000 :: up (registerPacket 2 TOPIC_DATA_2) ++ down [7, 11, 0, 2, 0, 2, 0] ++
  turn 12000 :: up (subscribePacket 1 3 TOPIC_CMD_1) ++ broker (.suback 3 1) ++
    down [8, 19, 32, 0, 3, 0, 3, 0] ++
  turn 18000 :: up (subscribePacket 2 4 TOPIC_CMD_2) ++ broker (.suback 4 2) ++
    down [8, 19, 64, 0, 4, 0, 4, 0] ++
  turn 24000 :: turn 25000 :: turn 26000 :: up [10, 12, 0, 0, 2, 0, 0, 97, 32, 49] ++
    broker (.publish ⟨false, 0, false, 0, TOPIC_CMD_1, cstr "on"⟩) ++
    down [9, 12, 0, 0, 3, 0, 0, 111, 110]

def course : List (FieldStep Unit Empty) := Programs.steps field holder .boot moves

/-- The first reading. -/
def first : Publish := ⟨false, 0, false, 0, TOPIC_DATA_2, cstr "a 1"⟩

set_option maxRecDepth 20000 in
theorem moves_end : ((Programs.boot.run field holder moves).any fun l ↦
    l.node.shown == [cstr "on"] && l.node.draws == 4 &&
      l.gateway.clients.any fun c ↦
        decide (c.addr = .inl slot) && messages c.toBroker == [first]) = true := by
  decide +kernel

/-- **It publishes its first reading**, and shows the command. -/
theorem course_ends : ∃ l, Follows field holder .boot course l ∧ l.node.shown = [cstr "on"] ∧
    l.node.draws < 65534 ∧
    ∃ c ∈ l.gateway.clients, c.addr = .inl slot ∧ messages c.toBroker = [first] := by
  obtain ⟨l, hl, hends⟩ := (Option.any_eq_true _ _).mp moves_end
  rw [Bool.and_eq_true, Bool.and_eq_true, beq_iff_eq, beq_iff_eq, List.any_eq_true] at hends
  obtain ⟨⟨hshown, hdraws⟩, c, hc, hclient⟩ := hends
  rw [Bool.and_eq_true, decide_eq_true_iff, beq_iff_eq] at hclient
  have hfollows : Follows field holder .boot course l :=
    follows_run (s := (Field.boot : Field Unit Empty)) (by decide) rfl hl
  exact ⟨l, hfollows, hshown, hdraws ▸ by decide, c, hc, hclient⟩

theorem fair (e : FieldStep Unit Empty) : field.Fair e := by
  rcases e with _ | _ | _ | _ | _ | _ | _ | _ | g
  all_goals try trivial
  rcases g with ⟨sender, datagram, around⟩ | _ | _ | _ | _ | _ | _
  all_goals try trivial
  rcases sender with i | b
  · trivial
  · exact b.elim

theorem allows_course : field.Allows holder course := by
  obtain ⟨l, hfollows, -, hdraws, -⟩ := course_ends
  have hend (x : Unit) : ((Trace.run (Field.step field) .boot course).node x).draws < 65534 := by
    rw [hfollows.node x]
    exact hdraws
  exact allows_of Field.Ok.boot.accords (fun e _ ↦ fair e) hend hfollows.heard

theorem shown_course : ((field.run course).node ()).shown = [cstr "on"] := by
  obtain ⟨l, hfollows, hshown, -⟩ := course_ends
  rw [FieldSetup.run, hfollows.node]
  exact hshown

theorem published_course : ∃ c ∈ (field.run course).gateway.clients, c.addr = .inl slot ∧
    messages c.toBroker = [first] := by
  obtain ⟨l, hfollows, -, -, hpublished⟩ := course_ends
  rw [FieldSetup.run, hfollows.gateway]
  exact hpublished

end Lone

/-! ## Runs -/

variable [DecidableEq ι] [DecidableEq B]

variable (F owner) in
/-- All programs are in order, and no node has drawn all message ids. -/
structure Field.InOrder (s : Field ι B) : Prop where
  ok : ∃ books, s.Ok F owner books
  draws : ∀ x, (s.node x).draws < 65534

namespace Field.InOrder

omit [DecidableEq ι] [DecidableEq B] in
theorem boot : (Field.boot : Field ι B).InOrder F owner :=
  ⟨⟨_, .boot⟩, fun _ ↦ Nat.zero_lt_succ _⟩

theorem step (h : s.InOrder F owner) (hpermits : F.Permits owner s e) :
    (s.step F e).InOrder F owner := by
  obtain ⟨books, hok⟩ := h.ok
  exact ⟨hok.step h.draws hpermits, hpermits.draws⟩

theorem agrees (h : s.InOrder F owner) (e : FieldStep ι B) :
    Trace.Agrees (Field.step F) (Site.step (F.site B owner)) (Field.site owner) (seen F owner)
      s e := by
  obtain ⟨books, hok⟩ := h.ok
  exact hok.agrees e

end Field.InOrder

namespace FieldSetup.Allows

variable {es : List (FieldStep ι B)}

theorem inOrder (h : F.Allows owner es) : (F.run es).InOrder F owner :=
  Trace.run_invariant (fun _ _ hs hpermits ↦ hs.step hpermits) .boot h

theorem always (h : F.Allows owner es) :
    Trace.Always (Field.step F) (fun s e ↦ s.InOrder F owner ∧ F.Permits owner s e) .boot es :=
  Trace.always_of_invariant (fun _ _ hs hpermits ↦ hs.step hpermits)
    (fun _ _ hs hpermits ↦ ⟨hs, hpermits⟩) .boot h

theorem agrees (h : F.Allows owner es) :
    Trace.Always (Field.step F) (Trace.Agrees (Field.step F) (Site.step (F.site B owner))
      (Field.site owner) (Field.seen F owner)) .boot es :=
  h.always.mono fun _ e hs ↦ hs.1.agrees e

end FieldSetup.Allows

namespace FieldSetup.Allows

variable {es : List (FieldStep ι B)}

theorem site_run (h : F.Allows owner es) :
    (F.run es).site owner = (F.site B owner).run (Field.view F owner .boot es) := by
  have hrun := Trace.abs_run h.agrees
  rw [Field.site_boot] at hrun
  exact hrun

theorem site_allows (h : F.Allows owner es) :
    (F.site B owner).Allows (Field.view F owner .boot es) := by
  refine ⟨?_, fun {addr id} hid ↦ ?_⟩
  · refine Trace.forall_view (h.always.mono fun s e ⟨hs, hpermits⟩ ↦ ?_)
    obtain ⟨books, hok⟩ := hs.ok
    exact hok.fair hpermits.fair
  · rw [← h.site_run]
    rcases addr with i | b
    · obtain ⟨x, hi, -⟩ := Option.map_eq_some_iff.mp hid
      exact (Field.node_site (s := F.run es) hi).symm ▸ h.inOrder.draws x
    · exact absurd hid.symm (Option.some_ne_none _)

end FieldSetup.Allows

/-- **Every run of all programs is seen as a run of the Arduinos with the gateway**, with the same
state at its end, and one in which nothing happens that must not. -/
theorem seen_as_site {es : List (FieldStep ι B)} (h : F.Allows owner es) :
    (F.run es).site owner = (F.site B owner).run (Field.view F owner .boot es) ∧
      (F.site B owner).Allows (Field.view F owner .boot es) :=
  ⟨h.site_run, h.site_allows⟩

theorem seen_as_site_lone :
    (Lone.field.site Empty Lone.holder).Allows
        (Field.view Lone.field Lone.holder .boot Lone.course) ∧
      (((Lone.field.site Empty Lone.holder).run
        (Field.view Lone.field Lone.holder .boot Lone.course)).node (.inl Lone.slot)).shown
          = [cstr "on"] := by
  obtain ⟨heq, hallows⟩ := seen_as_site Lone.allows_course
  refine ⟨hallows, ?_⟩
  have hslot : Lone.holder Lone.slot = some () := PEquiv.single_apply _ _
  rw [← heq, Field.node_site hslot]
  exact Lone.shown_course

/-- The counter of topic ids that the gateway keeps for the port of a slot. -/
def Field.nextTopicId (s : Field ι B) (i : Fin MAX_CLIENTS) : UInt16 :=
  (s.gateway.clients.find? fun e ↦ e.addr = .inl i).elim 0 fun e ↦ e.client.topics.nextTopicId

/-- The topic ids that the gateway gives out for a slot, seen by its counter moving. -/
def FieldSetup.idsGiven (F : FieldSetup ι) (es : List (FieldStep ι B)) (i : Fin MAX_CLIENTS) : ℕ :=
  Trace.changes (Field.step F) (fun s ↦ s.nextTopicId i) .boot es

theorem idsGiven_view {es : List (FieldStep ι B)} (h : F.Allows owner es) (i : Fin MAX_CLIENTS) :
    (F.site B owner).idsGiven (Field.view F owner .boot es) (.inl i) = F.idsGiven es i := by
  have hchanges := Trace.changes_view (g := fun s : Site (Address B) ↦ s.nextTopicId (.inl i))
    h.agrees
  rw [Field.site_boot] at hchanges
  exact hchanges

/-- A node and the gateway agree on a book, whose names are those for which ids were given. -/
theorem FieldSetup.Allows.link {es : List (FieldStep ι B)} (h : F.Allows owner es)
    (hi : owner i = some x) : ∃ b : TopicBook, b.names.length ≤ F.idsGiven es i ∧
      ((F.run es).site owner).Link (.inl i) (F.clientId x) b := by
  rw [← idsGiven_view h i, h.site_run]
  exact h.site_allows.link (FieldSetup.clientId_site hi)

/-- **What the gateway publishes for a slot are the readings of the node that has it**, each under
its own topic. -/
theorem readings_of_field {es : List (FieldStep ι B)} (h : F.Allows owner es)
    (hi : owner i = some x) (hids : F.idsGiven es i ≤ 65534) :
    ∀ c ∈ (F.run es).gateway.clients, c.addr = .inl i → ∀ pub ∈ messages c.toBroker,
      IsReading (F.clientId x) pub := by
  obtain ⟨b, hlen, hlink⟩ := h.link hi
  exact hlink.isReading (hlen.trans hids)

theorem readings_of_field_lone :
    ∃ c ∈ (Lone.field.run Lone.course).gateway.clients, ∃ pub ∈ messages c.toBroker,
      pub.topic = TOPIC_DATA_2 ∧ IsReading [0x61] pub := by
  obtain ⟨c, hc, haddr, hmessages⟩ := Lone.published_course
  have hpub : Lone.first ∈ messages c.toBroker := hmessages ▸ List.mem_singleton_self _
  refine ⟨c, hc, _, hpub, rfl, ?_⟩
  exact readings_of_field Lone.allows_course (PEquiv.single_apply _ _)
    ((Trace.changes_le_length _ _ _).trans (by decide +kernel)) c hc haddr _ hpub

/-- **What a node shows was sent by the broker**, on the connection of its slot. -/
theorem commands_of_field {es : List (FieldStep ι B)} (h : F.Allows owner es) (x : ι) :
    ∀ msg ∈ ((F.run es).node x).shown, ∃ i, owner i = some x ∧
      ∃ c ∈ (F.run es).gateway.clients, c.addr = .inl i ∧
        ∃ pub, .publish pub ∈ c.fromBroker ∧ msg = command pub.payload := by
  intro msg hmsg
  rcases hx : owner.symm x with - | i
  · obtain ⟨books, hok⟩ := h.inOrder.ok
    rw [(hok.idle x hx).2] at hmsg
    exact absurd hmsg List.not_mem_nil
  · have hi : owner i = some x := owner.eq_some_iff.mp hx
    obtain ⟨b, -, hlink⟩ := h.link hi
    rw [← Field.node_site hi] at hmsg
    exact ⟨i, hi, hlink.shown msg hmsg⟩

theorem commands_of_field_lone :
    ∃ msg ∈ ((Lone.field.run Lone.course).node ()).shown, ∃ i, Lone.holder i = some () ∧
      ∃ c ∈ (Lone.field.run Lone.course).gateway.clients, c.addr = .inl i ∧
        ∃ pub, .publish pub ∈ c.fromBroker ∧ msg = command pub.payload := by
  have hshown : cstr "on" ∈ ((Lone.field.run Lone.course).node ()).shown := by
    rw [Lone.shown_course]
    exact List.mem_singleton_self _
  exact ⟨_, hshown, commands_of_field Lone.allows_course () _ hshown⟩

end Emcs.System
