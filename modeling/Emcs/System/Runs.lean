import Mathlib.Data.List.TakeWhile
import Emcs.System.Agreement

/-!
# Runs of the Arduinos with the gateway

In every run the Arduinos and the gateway agree: a message that the gateway publishes for an Arduino
is a reading of this Arduino under the topic it was meant for, the ids of its table are those that
the gateway has for its topics, and the commands that it shows are those that the broker sent on its
connection.

## The proof

The books of all Arduinos form one invariant, `Site.Ok`, and a step moves one of them at most. Along
a run the names in a book are counted by the changes of a counter that can be seen from outside, so
with at most 65534 ids given the book has one name for an id. Only then does an id speak of one
topic, and what the datagrams say under this id is true of the topic.
-/

namespace Emcs.System

open Mqttsn Arduino Paho

variable {A : Type*} {S : Setup A} {s : Site A} {books : A → TopicBook}

variable (S) in
/-- **The site in order**, with a book for every Arduino. -/
structure Site.Ok (s : Site A) (books : A → TopicBook) : Prop where
  ordered : s.gateway.Ordered S.params
  knows : ∀ key ∈ s.gateway.keys, S.Knows key
  link : ∀ {addr id}, S.clientId addr = some id → s.Link addr id (books addr)

theorem Site.Ok.boot : (Site.boot : Site A).Ok S fun _ ↦ Book.empty where
  ordered := .start S.params
  knows _ hkey := absurd hkey List.not_mem_nil
  link _ :=
    { node := .boot
      fresh := fun _ ↦ rfl
      good := fun _ _ hx ↦ absurd hx (by simp [Site.boot, Gateway.start])
      told := fun _ hx ↦ absurd hx List.not_mem_nil
      addressed := fun _ hreply ↦ absurd hreply List.not_mem_nil
      shown := fun _ hmsg ↦ absurd hmsg List.not_mem_nil }

section

variable [DecidableEq A]

/-- No Arduino has drawn all message ids. -/
def Setup.Draws (S : Setup A) (s : Site A) : Prop :=
  ∀ {addr id}, S.clientId addr = some id → (s.node addr).draws < 65534

theorem draws_le_step (S : Setup A) (s : Site A) (e : SiteStep A) (addr : A) :
    (s.node addr).draws ≤ ((s.step S e).node addr).draws := by
  cases e with
  | gateway e =>
    rw [Site.step]
    split
    · exact Nat.le_refl _
    · exact Nat.le_refl _
  | node addr' e =>
    rw [Site.step]
    split
    · split
      · by_cases haddr : addr = addr'
        · subst haddr
          rename_i id _ _
          have hself : Function.update s.node addr ((s.node addr).step id e) addr
              = (s.node addr).step id e := Function.update_self _ _ _
          change _ ≤ (Function.update s.node addr ((s.node addr).step id e) addr).draws
          rw [hself]
          exact ((s.node addr).notes_step id e).2
        · rename_i id _ _
          have hother : Function.update s.node addr' ((s.node addr').step id e) addr
              = s.node addr := Function.update_of_ne haddr _ _
          change _ ≤ (Function.update s.node addr' ((s.node addr').step id e) addr).draws
          rw [hother]
      · exact Nat.le_refl _
    · exact Nat.le_refl _

theorem draws_le_run (S : Setup A) (s : Site A) (es : List (SiteStep A)) (addr : A) :
    (s.node addr).draws ≤ ((Trace.run (Site.step S) s es).node addr).draws := by
  induction es generalizing s with
  | nil => exact Nat.le_refl _
  | cons e es ih => exact (draws_le_step S s e addr).trans (ih _)

namespace Site.Ok

open Site.Link in
/-- **Every step keeps the site in order**, and adds one name at most to a book. -/
theorem step (h : s.Ok S books) (hdraws : S.Draws s) {e : SiteStep A} (hfair : S.Fair e) :
    ∃ books' : A → TopicBook, (∀ {addr id}, S.clientId addr = some id →
      Follows s (s.step S e) addr (books addr) (books' addr)) ∧ (s.step S e).Ok S books' := by
  cases e with
  | node addr e =>
    rw [Site.step]
    split
    · rename_i id hid
      split
      · rename_i harrives
        refine ⟨books, fun _ ↦ .refl, h.ordered, h.knows, fun {addr' id'} hid' ↦ ?_⟩
        by_cases haddr : addr' = addr
        · subst haddr
          cases Option.some.inj (hid.symm.trans hid')
          exact (h.link hid).node_step (S.short hid) (hdraws hid) harrives
        · exact (h.link hid').other_step haddr _
      · exact ⟨books, fun _ ↦ .refl, h⟩
    · exact ⟨books, fun _ ↦ .refl, h⟩
  | gateway e =>
    rw [Site.step]
    split
    · rename_i hsends
      have hsent {addr : A} {id : List UInt8} (hid : S.clientId addr = some id)
          (datagram : List UInt8) (around : Around) (he : e = .clientRecv addr datagram around) :
          datagram ∈ (s.node addr).sent := by
        subst he
        rw [Site.sends, hid] at hsends
        exact List.contains_iff_mem.mp hsends
      have hknows' : ∀ key ∈ (s.gateway.step S.params e).keys, S.Knows key := by
        refine knows_step h.knows hfair fun {sender datagram around id} he hid {id'} hshown ↦ ?_
        have hmem := (h.link hid).node.station.sent datagram (hsent hid datagram around he)
        exact connectId_of_sends (S.short hid) hmem hshown
      have hlink (addr : A) : ∃ b' : TopicBook, ∀ id, S.clientId addr = some id →
          Follows s { s with gateway := s.gateway.step S.params e } addr (books addr) b' ∧
            Site.Link { s with gateway := s.gateway.step S.params e } addr id b' := by
        cases hclient : S.clientId addr with
        | none => exact ⟨.empty, nofun⟩
        | some id =>
          obtain ⟨b', hfollows, hlink⟩ := (h.link hclient).gateway_step hclient h.ordered h.knows
            hknows' (hsent hclient)
          exact ⟨b', fun _ hid ↦ Option.some.inj hid ▸ ⟨hfollows, hlink⟩⟩
      choose books' hbooks' using hlink
      exact ⟨books', fun hid ↦ (hbooks' _ _ hid).1, h.ordered.step e, hknows',
        fun hid ↦ (hbooks' _ _ hid).2⟩
    · exact ⟨books, fun _ ↦ .refl, h⟩

/-- **Every run keeps the site in order**, and the names of a book are counted by the ids that are
given out. -/
theorem run (h : s.Ok S books) (es : List (SiteStep A)) (hfair : ∀ e ∈ es, S.Fair e)
    (hdraws : S.Draws (Trace.run (Site.step S) s es)) :
    ∃ books' : A → TopicBook, (Trace.run (Site.step S) s es).Ok S books' ∧
      ∀ {addr id}, S.clientId addr = some id → (books' addr).names.length ≤
        (books addr).names.length +
          Trace.changes (Site.step S) (fun s ↦ s.nextTopicId addr) s es := by
  induction es generalizing s books with
  | nil => exact ⟨books, h, fun _ ↦ Nat.le_refl _⟩
  | cons e es ih =>
    have hbefore : S.Draws s := fun {addr _} hid ↦
      (draws_le_run S s (e :: es) addr).trans_lt (hdraws hid)
    obtain ⟨books₁, hfollows, h₁⟩ := h.step hbefore (hfair e List.mem_cons_self)
    obtain ⟨books₂, h₂, hlen⟩ := ih h₁ (fun x hx ↦ hfair x (List.mem_cons_of_mem _ hx)) hdraws
    refine ⟨books₂, h₂, fun hid ↦ ?_⟩
    have hfirst := (hfollows hid).length
    have hrest := hlen hid
    rw [Trace.changes]
    omega

end Site.Ok

/-! ## What holds in every run -/

namespace Setup

variable (S) (es : List (SiteStep A))

def run : Site A := Trace.run (Site.step S) .boot es

/-- The topic ids that the gateway gives out for an address, seen by its counter moving. -/
def idsGiven (addr : A) : ℕ := Trace.changes (Site.step S) (fun s ↦ s.nextTopicId addr) .boot es

/-- Other clients do not give themselves out as an Arduino, and no Arduino draws all message ids. -/
structure Allows : Prop where
  fair : ∀ e ∈ es, S.Fair e
  draws : S.Draws (S.run es)

end Setup

end

/-! ### One Arduino -/

namespace Lone

/-- One Arduino, which has the id `a`. -/
def setup : Setup Unit where
  clientId _ := some [0x61]
  maxClients := 1
  maxInflightMsgs := 10
  short h := Option.some.inj h ▸ by decide
  apart _ _ _ := rfl

/-- The `switch` runs while the network is there and nothing arrives. -/
def iterate (now : UInt32) : SiteStep Unit :=
  .node () (.iterate ⟨now, none, [], now, none, now, true, now, true⟩)

def rx (datagram : List UInt8) : Rx := ⟨datagram, UInt8.ofNat datagram.length, 0⟩

/-- The gateway handles a datagram of the Arduino. -/
def handle (datagram : List UInt8) : List (SiteStep Unit) :=
  [.gateway (.clientRecv () datagram ⟨0, [], 0, 0⟩), .gateway .packetHandle, .gateway .updateStatus]

/-- The broker answers what the gateway sends to it. -/
def answer (packet : MqttPacket) : List (SiteStep Unit) :=
  [.gateway (.brokerSend .sent), .gateway (.brokerRecv 0 packet), .gateway .packetHandle]

def receive (datagram : List UInt8) : List (SiteStep Unit) :=
  [.gateway .clientSend, .node () (.receive (rx datagram))]

def reply (datagram : List UInt8) : List (SiteStep Unit) :=
  [.gateway .clientSend, .node () (.reply (some (rx datagram)))]

/-- It connects, has its four topics registered, publishes its first reading, and is sent the
command `on`. -/
def steps : List (SiteStep Unit) :=
  iterate 0 :: handle [7, 4, 4, 1, 0, 60, 0x61] ++ answer (.connack 0) ++ receive [3, 5, 0] ++
  iterate 1 :: handle (registerPacket 1 TOPIC_DATA_1) ++ reply [7, 11, 0, 1, 0, 1, 0] ++
  iterate 6000 :: handle (registerPacket 2 TOPIC_DATA_2) ++ reply [7, 11, 0, 2, 0, 2, 0] ++
  iterate 12000 :: handle (subscribePacket 1 3 TOPIC_CMD_1) ++ answer (.suback 3 1) ++
    reply [8, 19, 32, 0, 3, 0, 3, 0] ++
  iterate 18000 :: handle (subscribePacket 2 4 TOPIC_CMD_2) ++ answer (.suback 4 2) ++
    reply [8, 19, 64, 0, 4, 0, 4, 0] ++
  iterate 24000 :: iterate 25000 :: iterate 26000 :: handle [10, 12, 0, 0, 2, 0, 0, 97, 32, 49] ++
    answer (.publish ⟨false, 0, false, 0, TOPIC_CMD_1, cstr "on"⟩) ++
    receive [9, 12, 0, 0, 3, 0, 0, 111, 110]

theorem clientId : setup.clientId () = some [0x61] := rfl

theorem allows : setup.Allows steps where
  fair e _ := by
    cases e with
    | node => trivial
    | gateway e =>
      cases e with
      | clientRecv sender => exact fun hnone ↦ absurd hnone (Option.some_ne_none _)
      | _ => trivial
  draws {addr _} _ := by
    cases addr
    decide +kernel

end Lone

section

variable [DecidableEq A]

variable {es : List (SiteStep A)} {addr : A} {id : List UInt8}

/-- The Arduino and its client agree on a book, whose names are those for which ids were given. -/
theorem Setup.Allows.link (h : S.Allows es) (hid : S.clientId addr = some id) :
    ∃ b : TopicBook, b.names.length ≤ S.idsGiven es addr ∧ (S.run es).Link addr id b := by
  obtain ⟨books, hok, hlen⟩ := Site.Ok.boot.run es h.fair h.draws
  refine ⟨books addr, ?_, hok.link hid⟩
  have hnames := hlen hid
  rw [show (Book.empty : TopicBook).names.length = 0 from rfl, Nat.zero_add] at hnames
  exact hnames

theorem cString_cString (name : List UInt8) : cString (cString name) = cString name :=
  List.takeWhile_idem

theorem eq_of_known {b : TopicBook} (hlen : b.names.length ≤ 65534) {n : ℕ} {name : List UInt8}
    (hn : b.At n name) {topicName : List UInt8} (h : Names (Known b) (idAt n) topicName) :
    name = topicName ∨ name = cString topicName := by
  have hsame {name' : List UInt8} (hid : IdOf .none b (idAt n) name') : name = name' := by
    rcases hid with ⟨m, hm, heq⟩ | ⟨p, hp, -⟩
    · have hplace := (idAt_eq_idAt_iff.mp heq).eq_of_lt_of_lt (hn.lt.trans_le hlen)
        (hm.lt.trans_le hlen)
      exact hn.unique (hplace ▸ hm)
    · exact absurd hp List.not_mem_nil
  exact (h.resolve_left (idAt_ne_zero n)).imp hsame hsame

/-- A message is a reading of the Arduino under the topic that it was meant for. At QoS 0 it may be
one without a topic. -/
structure IsReading (id : List UInt8) (pub : Publish) : Prop where
  dup : pub.dup = false
  retain : pub.retain = false
  payload : ∃ count, pub.payload = reading id count
  topic : pub.qos = 0 ∧ (pub.topic = TOPIC_DATA_2 ∨ pub.topic = []) ∨
    pub.qos = 1 ∧ pub.topic = TOPIC_DATA_1

omit [DecidableEq A] in
/-- If the Arduino and its client agree, what is published are readings. -/
theorem Site.Link.isReading {b : TopicBook} (hlink : s.Link addr id b)
    (hlen : b.names.length ≤ 65534) : ∀ x ∈ s.gateway.clients, x.addr = addr →
      ∀ pub ∈ messages x.toBroker, IsReading id pub := by
  intro x hx haddr pub hpub
  obtain ⟨k, hk⟩ := List.getElem?_of_mem hx
  have hgood := hlink.good k x hk haddr
  -- the message is a PUBLISH that the gateway was given
  obtain ⟨packet, htold, htranslates⟩ : ∃ packet, Told (Known b) id
      (s.node addr).station.session.requests packet ∧ Translates .none b packet pub := by
    obtain ⟨l, hl, hall⟩ := hgood.order
    have hmem : pub ∈ messages (x.toBroker ++ (s.gateway.session k x).brokerSendQue) := by
      rw [messages_append]
      exact List.mem_append_left _ hpub
    obtain ⟨i, hi, rfl⟩ := List.mem_iff_getElem.mp hmem
    have hpacket := hall.get (hall.length_eq ▸ hi) hi
    refine ⟨_, hlink.told x hx haddr _ ?_, hpacket⟩
    exact hgood.handled.mem (List.mem_append_left _ (hl.mem (List.getElem_mem _)))
  cases packet with
  | publish dup qos retain msgId topicid payload =>
    obtain ⟨hdup, hretain, htype, hpayload, htopic⟩ := htold
    obtain ⟨heqdup, heqqos, heqretain, -, heqpayload, hname⟩ := htranslates
    refine ⟨heqdup.trans hdup, heqretain.trans hretain, heqpayload ▸ hpayload, ?_⟩
    have hplain {topicName : List UInt8} (hc : cString topicName = topicName)
        (hnames : Names (Known b) topicid.id topicName) :
        pub.topic = topicName ∨ pub.topic = [] ∧ msgId = 0 := by
      rcases hname.normal htype with ⟨n, hn, heq⟩ | hnone
      · rw [heq] at hnames
        have hsame := eq_of_known hlen hn hnames
        rw [hc] at hsame
        exact Or.inl (hsame.elim (fun h ↦ h) fun h ↦ h)
      · exact Or.inr hnone
    rcases htopic with ⟨rfl, -, hnames⟩ | ⟨rfl, hne, hnames⟩
    · exact Or.inl ⟨heqqos, (hplain (by decide) hnames).imp_right And.left⟩
    · exact Or.inr ⟨heqqos, (hplain (by decide) hnames).resolve_right fun hnone ↦ hne hnone.2⟩
  | _ => exact htranslates.elim

/-- **What is published for an Arduino are its readings**, each under its own topic. -/
theorem readings_of_run (h : S.Allows es) (hid : S.clientId addr = some id)
    (hids : S.idsGiven es addr ≤ 65534) :
    ∀ x ∈ (S.run es).gateway.clients, x.addr = addr → ∀ pub ∈ messages x.toBroker,
      IsReading id pub := by
  obtain ⟨b, hlen, hlink⟩ := h.link hid
  exact hlink.isReading (hlen.trans hids)

theorem readings_of_run_lone :
    ∃ x ∈ (Lone.setup.run Lone.steps).gateway.clients, ∃ pub ∈ messages x.toBroker,
      pub.topic = TOPIC_DATA_2 ∧ IsReading [0x61] pub := by
  have hpublished : ∃ x ∈ (Lone.setup.run Lone.steps).gateway.clients,
      ∃ pub ∈ messages x.toBroker, pub.topic = TOPIC_DATA_2 := by decide +kernel
  obtain ⟨x, hx, pub, hpub, htopic⟩ := hpublished
  exact ⟨x, hx, pub, hpub, htopic,
    readings_of_run Lone.allows Lone.clientId (by decide +kernel) x hx rfl pub hpub⟩

/-- **The tables agree**: an id that an Arduino has for a topic is the id of this topic, or of
none. -/
theorem tables_agree (h : S.Allows es) (hid : S.clientId addr = some id)
    (hids : S.idsGiven es addr ≤ 65534) {i : Fin MAX_CUSTOM_TOPICS}
    (hcomplete : ((S.run es).node addr).client.customTopics[i].complete = true)
    {x : Entry A} (hx : x ∈ (S.run es).gateway.clients) (haddr : x.addr = addr) {t : Topic}
    (ht : x.client.topics.getTopicById MQTTSN_TOPIC_TYPE_NORMAL
      ((S.run es).node addr).client.customTopics[i].topicId = some t) :
    cString t.topicName
      = cString ((S.run es).node addr).client.customTopics[i].topicName.val := by
  obtain ⟨b, hlen, hlink⟩ := h.link hid
  obtain ⟨k, hk⟩ := List.getElem?_of_mem hx
  obtain ⟨n, hn, heq⟩ := (hlink.good k x hk haddr).client.topics.of_getTopicById ht
  have hnames := hlink.node.station.ids i hcomplete
  change Names _ ((S.run es).node addr).client.customTopics[i].topicId _ at hnames
  rw [heq] at hnames
  rcases eq_of_known (hlen.trans hids) (Book.mem_entries_iff.mp hn).2 hnames with hsame | hsame
  · exact congrArg cString hsame
  · rw [hsame]
    exact cString_cString _

theorem tables_agree_lone :
    ∃ i : Fin MAX_CUSTOM_TOPICS, ∃ x ∈ (Lone.setup.run Lone.steps).gateway.clients, ∃ t,
      x.client.topics.getTopicById MQTTSN_TOPIC_TYPE_NORMAL
        ((Lone.setup.run Lone.steps).node ()).client.customTopics[i].topicId = some t ∧
      cString t.topicName
        = cString ((Lone.setup.run Lone.steps).node ()).client.customTopics[i].topicName.val := by
  have hknown : ∃ i : Fin MAX_CUSTOM_TOPICS,
      ((Lone.setup.run Lone.steps).node ()).client.customTopics[i].complete = true ∧
      ∃ x ∈ (Lone.setup.run Lone.steps).gateway.clients, (x.client.topics.getTopicById
        MQTTSN_TOPIC_TYPE_NORMAL
        ((Lone.setup.run Lone.steps).node ()).client.customTopics[i].topicId).isSome := by
    decide +kernel
  obtain ⟨i, hcomplete, x, hx, hsome⟩ := hknown
  obtain ⟨t, ht⟩ := Option.isSome_iff_exists.mp hsome
  exact ⟨i, x, hx, t, ht,
    tables_agree Lone.allows Lone.clientId (by decide +kernel) hcomplete hx rfl ht⟩

/-- **A command that is shown was sent by the broker**, to this Arduino. -/
theorem commands_of_run (h : S.Allows es) (hid : S.clientId addr = some id) :
    ∀ msg ∈ ((S.run es).node addr).shown, ∃ x ∈ (S.run es).gateway.clients, x.addr = addr ∧
      ∃ pub, .publish pub ∈ x.fromBroker ∧ msg = command pub.payload := by
  obtain ⟨b, -, hlink⟩ := h.link hid
  exact hlink.shown

theorem commands_of_run_lone :
    ∃ msg ∈ ((Lone.setup.run Lone.steps).node ()).shown,
      ∃ x ∈ (Lone.setup.run Lone.steps).gateway.clients, x.addr = () ∧
        ∃ pub, .publish pub ∈ x.fromBroker ∧ msg = command pub.payload := by
  have hshown : cstr "on" ∈ ((Lone.setup.run Lone.steps).node ()).shown := by decide +kernel
  exact ⟨_, hshown, commands_of_run Lone.allows Lone.clientId _ hshown⟩

end

end Emcs.System
