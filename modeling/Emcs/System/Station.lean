import Emcs.Arduino.Moments
import Emcs.Arduino.Registration
import Emcs.Arduino.TopicTable

/-!
# What an Arduino sends

The client of an Arduino with all that it has sent. Whatever happens to it, its datagrams are those
of `Sends`: requests for its topics, acknowledgements, and readings under an id that it was told for
the topic of the reading, or under none.

What an id is known for (`known`) is up to the gateway. All that is asked of the gateway is that an
acknowledgement answers a request of this client and shows an id that is known for its topic
(`Answers`); what is known of an id may grow.

## The invariant

`Station.Ok` collects what the modules about the client have shown, for a client whose
acknowledgements are answers: requests and entries agree (`Agrees`), a message that waits for its
acknowledgement can be sent again (`Tracks`), and every datagram sent is one of `Sends`. It is
stated for any knowledge of ids that grows, so that the book of the gateway can be put in for it
later.
-/

namespace Emcs.System

open Bytes Mqttsn Arduino

/-- The bytes passed to the radio. -/
def datagrams (actions : List Action) : List (List UInt8) :=
  actions.filterMap fun
    | .send buf => some buf
    | .showCmd _ => none

/-- A client, what it has sent, and how many message ids it has drawn. -/
structure Station where
  client : Client
  sent : List (List UInt8)
  draws : ℕ

/-- A function of the client has run. -/
def Station.after (s : Station) (r : Client × List Action) : Station where
  client := r.1
  sent := s.sent ++ datagrams r.2
  draws := s.draws + if r.1.nextMsgId = s.client.nextMsgId then 0 else 1

/-- The client as it asks for topics. -/
def Station.session (s : Station) : Arduino.Session :=
  ⟨s.client, s.sent.filterMap Request.parse, s.draws⟩

theorem filterMap_datagrams (actions : List Action) :
    (datagrams actions).filterMap Request.parse = actions.filterMap Action.request := by
  rw [datagrams, List.filterMap_filterMap]
  refine List.filterMap_congr fun a _ ↦ ?_
  cases a <;> rfl

theorem session_after (s : Station) (r : Client × List Action) :
    (s.after r).session = s.session.after r := by
  rw [Session.after, ← filterMap_datagrams]
  exact congrArg (Session.mk r.1 · _) List.filterMap_append

theorem datagrams_append (actions actions' : List Action) :
    datagrams (actions ++ actions') = datagrams actions ++ datagrams actions' :=
  List.filterMap_append

theorem mem_datagrams {actions : List Action} {d : List UInt8} :
    d ∈ datagrams actions ↔ .send d ∈ actions := by
  constructor
  · intro h
    obtain ⟨a, ha, heq⟩ := List.mem_filterMap.mp h
    cases a <;> cases heq
    exact ha
  · exact fun h ↦ List.mem_filterMap.mpr ⟨_, h, rfl⟩

/-! ## The datagrams -/

variable (known : UInt16 → List UInt8 → Prop) (clientId : List UInt8)

/-- The id is the one of the topic, or none. -/
def Names (topicId : UInt16) (topicName : List UInt8) : Prop :=
  topicId = 0 ∨ known topicId topicName

/-- A reading that is published: at QoS 0 under `TOPIC_DATA_2`, at QoS 1 under `TOPIC_DATA_1`. -/
structure Publishes (topicId : UInt16) (payload : List UInt8) (qos : ℤ) (msgId : UInt16) :
    Prop where
  payload : ∃ count, payload = reading clientId count
  topic : qos = 0 ∧ Names known topicId TOPIC_DATA_2 ∨
    qos = 1 ∧ msgId ≠ 0 ∧ Names known topicId TOPIC_DATA_1

inductive Sends : List UInt8 → Prop where
  | connect : Sends (connectPacket clientId)
  | request (e : TopicEntry) (msgId : UInt16) : Sends (request e msgId)
  | publish {topicId : UInt16} {payload : List UInt8} {qos : ℤ} {msgId : UInt16}
    (h : Publishes known clientId topicId payload qos msgId) :
    Sends (publishPacket topicId payload qos msgId)
  | puback (topicId msgId : UInt16) : Sends (pubackPacket topicId msgId MQTTSN_RETURN_ACCEPTED)
  | pubrec (msgId : UInt16) : Sends (pubrecPacket msgId)
  | pubcomp (msgId : UInt16) : Sends (pubcompPacket msgId)
  | pubrel (msgId : UInt16) : Sends (pubrelPacket msgId)

/-- A message that waits for its acknowledgement can be sent again. -/
structure Tracks (m : QosMsg UInt32) : Prop where
  qos : m.qos = 1
  publishes : Publishes known clientId m.topicId m.payload 1 m.msgId

/-- The acknowledgement answers a request, with an id that is known for its topic. -/
def Answers (requests : List Request) (rx : Rx) : Prop :=
  ∀ sender mid tid, rx.topicAck = some (sender, mid, tid) → ∃ r ∈ requests,
    r.sender = sender ∧ r.mid = mid ∧ Names known tid r.topicName

variable {known clientId}

section Mono

variable {known' : UInt16 → List UInt8 → Prop} (hle : ∀ id name, known id name → known' id name)
include hle

theorem Names.mono {topicId : UInt16} {topicName : List UInt8} (h : Names known topicId topicName) :
    Names known' topicId topicName :=
  h.imp_right (hle _ _)

theorem Publishes.mono {topicId : UInt16} {payload : List UInt8} {qos : ℤ} {msgId : UInt16}
    (h : Publishes known clientId topicId payload qos msgId) :
    Publishes known' clientId topicId payload qos msgId where
  payload := h.payload
  topic := h.topic.imp (And.imp_right (Names.mono hle))
    (And.imp_right (And.imp_right (Names.mono hle)))

theorem Sends.mono {d : List UInt8} (h : Sends known clientId d) : Sends known' clientId d := by
  cases h with
  | connect => exact .connect
  | request e msgId => exact .request e msgId
  | publish h => exact .publish (h.mono hle)
  | puback topicId msgId => exact .puback topicId msgId
  | pubrec msgId => exact .pubrec msgId
  | pubcomp msgId => exact .pubcomp msgId
  | pubrel msgId => exact .pubrel msgId

end Mono

/-! ## The invariant -/

variable (known clientId)

/-- **A station in order**: its table agrees with what the gateway tells it, and it sends nothing
but what it should. -/
structure Station.Ok (s : Station) : Prop where
  agrees : ∃ assign, Agrees assign s.session
  names : NamesDistinct s.client
  ids : ∀ i : Fin MAX_CUSTOM_TOPICS, s.client.customTopics[i].complete = true →
    Names known s.client.customTopics[i].topicId s.client.customTopics[i].topicName.val
  pending : ∀ i : Fin MAX_PENDING_QOS_MSGS, s.client.pendingMsgs[i].inUse = true →
    Tracks known clientId s.client.pendingMsgs[i]
  sent : ∀ d ∈ s.sent, Sends known clientId d

variable {known clientId}

namespace Station.Ok

variable {s : Station}

theorem mono {known' : UInt16 → List UInt8 → Prop} (hle : ∀ id name, known id name → known' id name)
    (h : s.Ok known clientId) : s.Ok known' clientId where
  agrees := h.agrees
  names := h.names
  ids i hi := (h.ids i hi).mono hle
  pending i hi := ⟨(h.pending i hi).qos, (h.pending i hi).publishes.mono hle⟩
  sent d hd := (h.sent d hd).mono hle

theorem sent_after (h : s.Ok known clientId) {r : Client × List Action}
    (hr : ∀ d, .send d ∈ r.2 → Sends known clientId d) :
    ∀ d ∈ (s.after r).sent, Sends known clientId d := by
  intro d hd
  rcases List.mem_append.mp hd with hd | hd
  · exact h.sent d hd
  · exact hr d (mem_datagrams.mp hd)

/-- A function that leaves the tables and the counter alone, and asks for no topic. -/
theorem kept (h : s.Ok known clientId) {r : Client × List Action}
    (htopics : r.1.customTopics = s.client.customTopics)
    (hpending : r.1.pendingMsgs = s.client.pendingMsgs)
    (hnext : r.1.nextMsgId = s.client.nextMsgId) (hreq : r.2.filterMap Action.request = [])
    (hsent : ∀ d, .send d ∈ r.2 → Sends known clientId d) : (s.after r).Ok known clientId where
  agrees := by
    obtain ⟨assign, hagrees⟩ := h.agrees
    refine ⟨assign, session_after s r ▸ hagrees.table hnext hreq fun i ↦ ?_⟩
    rw [htopics]
    exact hagrees.entry i
  names := by
    change Slots.Distinct TopicEntry.name r.1.customTopics
    rw [htopics]
    exact h.names
  ids i hi := by
    change r.1.customTopics[i].complete = true at hi
    change Names known r.1.customTopics[i].topicId r.1.customTopics[i].topicName.val
    rw [htopics] at hi ⊢
    exact h.ids i hi
  pending i hi := by
    change r.1.pendingMsgs[i].inUse = true at hi
    change Tracks known clientId r.1.pendingMsgs[i]
    rw [hpending] at hi ⊢
    exact h.pending i hi
  sent := h.sent_after hsent

end Station.Ok

/-! ### Packets -/

/-- What an entry waits for, when other ids are given to names that no complete entry has. -/
theorem waits_update {assign : Assignment} {requests : List Request} {e : TopicEntry}
    (h : Waits assign requests e) {topicName : List UInt8} (tid : UInt16)
    (hne : e.complete = true → e.topicName.val ≠ topicName) :
    Waits (Function.update assign topicName tid) requests e where
  free := h.free
  asked := h.asked
  agrees huse hreg := by
    have hcomplete : e.complete = true := Bool.and_eq_true_iff.mpr ⟨huse, hreg⟩
    rw [Function.update_of_ne (hne hcomplete)]
    exact h.agrees huse hreg

/-- The entry that an answer completes is for the topic of the request. -/
theorem name_of_answer {assign : Assignment} {s : Arduino.Session} (h : Agrees assign s)
    {i : Fin MAX_CUSTOM_TOPICS} {r : Request} (hr : r ∈ s.requests)
    (hawaits : s.client.customTopics[i].awaits r.sender r.mid = true) :
    r.topicName = s.client.customTopics[i].topicName.val := by
  obtain ⟨-, -, -, hmid⟩ := awaits_iff.mp hawaits
  have hne : s.client.customTopics[i].pendingMsgId ≠ 0 := by
    rw [hmid]
    exact (h.drawn r hr).1
  exact (h.one_name r hr _ ((h.entry i).asked hne) hmid.symm).2

/-- **An answer keeps the agreement**, if ids are given anew. -/
theorem agrees_answer {assign : Assignment} {s : Arduino.Session} (h : Agrees assign s)
    (hnames : NamesDistinct s.client) {rx : Rx} (hans : Answers known s.requests rx) :
    ∃ assign', Agrees assign' (s.after (udpRecvCallbackArduino s.client rx)) := by
  have hnil := request_deliver s.client [rx]
  rw [deliver, deliver, List.append_nil] at hnil
  have hnext := nextMsgId_udpRecv s.client rx
  by_cases hex : ∃ sender mid tid, ∃ i : Fin MAX_CUSTOM_TOPICS,
      rx.topicAck = some (sender, mid, tid) ∧ s.client.customTopics[i].awaits sender mid = true
  · obtain ⟨_, _, tid, i, hack, hawaits⟩ := hex
    obtain ⟨r, hr, rfl, rfl, -⟩ := hans _ _ _ hack
    obtain ⟨huse, -, hreg, -⟩ := awaits_iff.mp hawaits
    have hname := name_of_answer h hr hawaits
    -- no other entry has the name, and this one is not complete
    have hwaits (j : Fin MAX_CUSTOM_TOPICS) :
        Waits (Function.update assign r.topicName tid) s.requests s.client.customTopics[j] := by
      refine waits_update (h.entry j) tid fun hcomplete heq ↦ ?_
      rw [TopicEntry.complete, Bool.and_eq_true] at hcomplete
      have hij : i = j := hnames i j _ (name_eq_some_iff.mpr ⟨huse, rfl⟩)
        (name_eq_some_iff.mpr ⟨hcomplete.1, heq.trans hname⟩)
      rw [← hij, hreg] at hcomplete
      exact Bool.false_ne_true hcomplete.2
    have hassign : Agrees (Function.update assign r.topicName tid) s :=
      ⟨h.counter, h.drawn, h.one_name, hwaits⟩
    refine ⟨_, hassign.table hnext hnil fun j ↦ ?_⟩
    rw [customTopics_udpRecv]
    rcases get_onTopics rx s.client.customTopics j with
      ⟨-, heq⟩ | ⟨-, heq | ⟨_, _, _, hack', hawaits', heq⟩⟩
    · rw [heq]
      exact waits_zero s.requests
    · rw [heq]
      exact hwaits j
    · rw [hack] at hack'
      cases hack'
      have hname' := name_of_answer h hr hawaits'
      rw [heq]
      refine ⟨fun _ ↦ rfl, fun hzero ↦ absurd rfl hzero, fun _ _ ↦ ?_⟩
      dsimp only
      rw [← hname', Function.update_self]
  · refine ⟨assign, h.table hnext hnil fun j ↦ ?_⟩
    rw [customTopics_udpRecv]
    rcases get_onTopics rx s.client.customTopics j with
      ⟨-, heq⟩ | ⟨-, heq | ⟨sender, mid, tid, hack, hawaits, -⟩⟩
    · rw [heq]
      exact waits_zero s.requests
    · rw [heq]
      exact h.entry j
    · exact absurd ⟨sender, mid, tid, j, hack, hawaits⟩ hex

namespace Station.Ok

variable {s : Station}

theorem sends_of_udpRecv {c : Client} {rx : Rx} {d : List UInt8}
    (hd : .send d ∈ (udpRecvCallbackArduino c rx).2) : Sends known clientId d := by
  rcases actions_udpRecv c rx _ hd with ⟨mid, heq⟩ | ⟨msg, heq⟩
  · cases heq
    exact .pubrel mid
  · cases heq

/-- **A packet keeps the order**, if it is an answer where it is an acknowledgement. -/
theorem receive (h : s.Ok known clientId) {rx : Rx} (hans : Answers known s.session.requests rx) :
    (s.after (udpRecvCallbackArduino s.client rx)).Ok known clientId where
  agrees := by
    obtain ⟨assign, hagrees⟩ := h.agrees
    rw [session_after]
    exact agrees_answer hagrees h.names hans
  names := namesDistinct_packet h.names rx
  ids i hi := by
    obtain ⟨assign, hagrees⟩ := h.agrees
    change (udpRecvCallbackArduino s.client rx).1.customTopics[i].complete = true at hi
    change Names known (udpRecvCallbackArduino s.client rx).1.customTopics[i].topicId
      (udpRecvCallbackArduino s.client rx).1.customTopics[i].topicName.val
    rw [customTopics_udpRecv] at hi ⊢
    rcases get_onTopics rx s.client.customTopics i with
      ⟨-, heq⟩ | ⟨-, heq | ⟨_, _, tid, hack, hawaits, heq⟩⟩
    · rw [heq] at hi
      exact absurd hi Bool.false_ne_true
    · rw [heq] at hi ⊢
      exact h.ids i hi
    · obtain ⟨r, hr, rfl, rfl, hname⟩ := hans _ _ _ hack
      have hsame : r.topicName = s.client.customTopics[i].topicName.val :=
        name_of_answer hagrees hr hawaits
      rw [heq]
      exact hsame ▸ hname
  pending i hi := by
    change (udpRecvCallbackArduino s.client rx).1.pendingMsgs[i].inUse = true at hi
    change Tracks known clientId (udpRecvCallbackArduino s.client rx).1.pendingMsgs[i]
    rw [pendingMsgs_udpRecv, Rx.onPending] at hi ⊢
    split at hi
    · rw [if_pos ‹_›]
      exact h.pending i hi
    rw [if_neg ‹_›]
    rcases get_onPacket rx.data rx.now s.client.pendingMsgs i with
      heq | ⟨-, -, heq⟩ | ⟨huse, -, -, heq⟩
    · rw [heq] at hi ⊢
      exact h.pending i hi
    · rw [heq] at hi
      exact absurd hi Bool.false_ne_true
    · rw [heq]
      have htracks := h.pending i huse
      exact ⟨htracks.qos, htracks.publishes⟩
  sent := h.sent_after fun _ ↦ sends_of_udpRecv

end Station.Ok

end Emcs.System
