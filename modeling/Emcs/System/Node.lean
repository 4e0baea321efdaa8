import Emcs.System.Readings

/-!
# An Arduino among others

The sketch in steps between which the world goes on: it handles a packet, its `switch` runs, and
where the `switch` asks for a topic it waits, and goes on when a reply has come or none. Beside the
sketch stands what it has sent and shown.

## The construction

The sketch of `Arduino.Loop` takes the reply of a registration as an input of the call, which is too
early for a world in which the reply depends on the request. Here the call is cut at the wait: a
node that waits keeps the inputs of its branch, and when the reply comes the whole call is made with
it. That the parts are the call is shown with the lemma on `awaitReply`.
-/

namespace Emcs.System

open Bytes Mqttsn Arduino

structure Node where
  sketch : Sketch
  /-- The inputs of the branch that has sent a request and waits. -/
  waiting : Option Inputs
  sent : List (List UInt8)
  shown : List (List UInt8)
  /-- How often the counter of message ids has moved. -/
  draws : ℕ

inductive NodeStep where
  | receive (rx : Rx)
  | iterate (x : Inputs)
  | reply (rx : Option Rx)

/-- The packet that is handled. -/
def NodeStep.packet : NodeStep → Option Rx
  | .receive rx => some rx
  | .iterate _ => none
  | .reply rx => rx

/-- The commands that are shown. -/
def commands (actions : List Action) : List (List UInt8) :=
  actions.filterMap fun
    | .send _ => none
    | .showCmd msg => some msg

namespace Node

def boot : Node := ⟨setup, none, [], [], 0⟩

/-- The client in memory. While a branch waits, its attempt has been made. -/
def client (n : Node) : Client :=
  match n.waiting, n.sketch.passes with
  | some x, some c => (mqttSnProcessTopicRegistrations c x.regNow none).1
  | _, _ => n.sketch.client

def station (n : Node) : Station := ⟨n.client, n.sent, n.draws⟩

/-- The node after some actions. -/
def after (n : Node) (sketch : Sketch) (waiting : Option Inputs) (actions : List Action) : Node :=
  let n' : Node := ⟨sketch, waiting, n.sent ++ datagrams actions, n.shown ++ commands actions,
    n.draws⟩
  { n' with draws := n.draws + if n'.client.nextMsgId = n.client.nextMsgId then 0 else 1 }

/-- A branch that asks for a topic stops at its wait. The request is not sent again when it goes
on. -/
def step (clientId : List UInt8) (n : Node) : NodeStep → Node
  | .receive rx =>
    match n.waiting with
    | some _ => n
    | none =>
      let r := n.sketch.exec clientId (.receive rx)
      n.after r.1 none r.2
  | .iterate x =>
    match n.waiting with
    | some _ => n
    | none =>
      match n.sketch.passes.filter (asksForTopic · x.regNow) with
      | some c => n.after n.sketch (some x) (mqttSnProcessTopicRegistrations c x.regNow none).2
      | none =>
        let r := loopSwitch clientId n.sketch x
        n.after r.1 none r.2
  | .reply rx =>
    match n.waiting with
    | none => n
    | some x =>
      let r := loopSwitch clientId n.sketch { x with reply := rx }
      n.after r.1 none (r.2.drop 1)

theorem station_after {n : Node} {sketch : Sketch} {waiting : Option Inputs}
    {actions : List Action} {c : Client}
    (hc : (⟨sketch, waiting, n.sent ++ datagrams actions, n.shown ++ commands actions,
      n.draws⟩ : Node).client = c) :
    (n.after sketch waiting actions).station = n.station.after (c, actions) := by
  subst hc
  rfl

end Node

/-! ## The wait -/

/-- **A pass that asks for a topic**: the attempt, the request, and what the reply does. -/
theorem awaitReply_of_asks {c : Client} {now : UInt32} (h : asksForTopic c now = true) :
    ∃ i : Fin MAX_CUSTOM_TOPICS, c.customTopics[i].due now = true ∧
      ∀ reply, mqttSnProcessTopicRegistrations c now reply = awaitReply (attempt c i now)
        (request c.customTopics[i] (attemptId c.customTopics[i] c.nextMsgId).1) reply := by
  rcases mqttSnProcessTopicRegistrations_cases c now with ⟨hnone, -⟩ | ⟨i, hfirst, heq⟩
  · rw [asksForTopic, hnone] at h
    exact absurd h Bool.false_ne_true
  · exact ⟨i, Slots.of_first_eq_some hfirst, heq⟩

variable {known : UInt16 → List UInt8 → Prop} {clientId : List UInt8}

variable (known clientId) in
/-- **A node in order**: its station is, and a branch that waits has asked for a topic. -/
structure Node.Ok (n : Node) : Prop where
  station : n.station.Ok known clientId
  waits : ∀ x ∈ n.waiting, ∃ c, n.sketch.passes = some c ∧ asksForTopic c x.regNow = true

theorem Station.Ok.boot : (Node.boot.station).Ok known clientId := by
  have h : Station.Ok known clientId ⟨Client.boot, [], 0⟩ := by
    refine ⟨⟨byLength, agrees_boot⟩, namesDistinct_boot, fun i hi ↦ ?_, fun i hi ↦ ?_,
      fun _ hd ↦ absurd hd List.not_mem_nil⟩
    · rw [Client.boot, Slots.getElem_fin, Vector.getElem_replicate] at hi
      exact absurd hi Bool.false_ne_true
    · rw [Client.boot, Slots.getElem_fin, Vector.getElem_replicate] at hi
      exact absurd hi Bool.false_ne_true
  have hadd := h.addAllTopics
  obtain ⟨v, hv⟩ := addAllTopics_eq Client.boot
  have hsame : (Station.mk Client.boot [] 0).after (Arduino.addAllTopics Client.boot, [])
      = Node.boot.station := by
    change _ = Station.mk (Arduino.addAllTopics Client.boot) [] 0
    rw [Station.after, hv]
    rfl
  exact hsame ▸ hadd

namespace Node.Ok

variable {n : Node}

theorem boot : Node.boot.Ok known clientId := ⟨.boot, nofun⟩

theorem mono {known' : UInt16 → List UInt8 → Prop} (hle : ∀ id name, known id name → known' id name)
    (h : n.Ok known clientId) : n.Ok known' clientId := ⟨h.station.mono hle, h.waits⟩

theorem station_deliver {s : Station} (h : s.Ok known clientId) {rx : Option Rx}
    (hans : ∀ x ∈ rx, Answers known s.session.requests x) :
    (s.after (deliver s.client rx.toList)).Ok known clientId := by
  cases rx with
  | none => exact h.kept rfl rfl rfl rfl fun _ hd ↦ absurd hd List.not_mem_nil
  | some x =>
    rw [Option.toList_some, deliver, deliver, List.append_nil]
    exact h.receive (hans x rfl)

/-- A branch stops at its wait. -/
theorem station_asks (h : n.Ok known clientId) (hdraws : n.draws < 65534)
    (hclient : n.client = n.sketch.client) {c : Client} {now : UInt32}
    (hpasses : n.sketch.passes = some c) (hasks : asksForTopic c now = true) :
    (n.station.after (mqttSnProcessTopicRegistrations c now none)).Ok known clientId := by
  have hadded : (n.station.after (c, [])).Ok known clientId ∧
      c.nextMsgId = n.station.client.nextMsgId := by
    rcases eq_of_passes hpasses with heq | heq
    · rw [heq, ← hclient]
      exact ⟨h.station.kept rfl rfl rfl rfl fun _ hd ↦ absurd hd List.not_mem_nil, rfl⟩
    · obtain ⟨v, hv⟩ := addAllTopics_eq n.sketch.client
      refine ⟨?_, ?_⟩
      · rw [heq, ← hclient]
        exact h.station.addAllTopics
      · have hnext : n.client.nextMsgId = n.sketch.client.nextMsgId := by rw [hclient]
        rw [heq, hv]
        exact hnext.symm
  obtain ⟨hc, hnext⟩ := hadded
  obtain ⟨i, hdue, heq⟩ := awaitReply_of_asks hasks
  have hdraws' : (n.station.after (c, [])).draws < 65534 := by
    rw [Station.after, if_pos hnext]
    exact hdraws
  have hattempt := hc.attempt hdue hdraws'
  rw [after_after n.station hnext] at hattempt
  rw [heq]
  exact hattempt

/-- A branch goes on after its wait. -/
theorem station_reply (h : n.Ok known clientId) {x : Inputs} (hwaiting : n.waiting = some x)
    {rx : Option Rx} (hans : ∀ y ∈ rx, Answers known n.station.session.requests y) :
    (n.station.after ((loopSwitch clientId n.sketch { x with reply := rx }).1.client,
      (loopSwitch clientId n.sketch { x with reply := rx }).2.drop 1)).Ok known clientId := by
  obtain ⟨c, hpasses, hasks⟩ := h.waits x hwaiting
  obtain ⟨i, -, heq⟩ := awaitReply_of_asks hasks
  have hclient : n.station.client = attempt c i x.regNow := by
    change n.client = _
    rw [Node.client, hwaiting, hpasses]
    dsimp only
    rw [heq]
    rfl
  have hdeliver := station_deliver h.station hans
  rw [hclient] at hdeliver
  obtain ⟨hactions, hafter⟩ := loopSwitch_of_passes clientId hpasses { x with reply := rx }
  dsimp only at hactions hafter
  rw [heq] at hactions hafter
  rw [hactions]
  rcases hafter with hafter | hafter
  · rw [hafter]
    exact hdeliver
  · have hinvalid := hdeliver.invalidate
    rw [after_after_of_kept n.station (by rfl), List.append_nil] at hinvalid
    rw [hafter]
    exact hinvalid

/-- **Every step keeps a node in order**, if the packets that it handles are answers. -/
theorem step (h : n.Ok known clientId) (hid : clientId.length ≤ 10) (hdraws : n.draws < 65534)
    (e : NodeStep) (hans : ∀ rx ∈ e.packet, Answers known n.station.session.requests rx) :
    (n.step clientId e).Ok known clientId := by
  cases e with
  | receive rx =>
    rw [Node.step]
    split
    · exact h
    rename_i hidle
    have hclient : n.station.client = n.sketch.client := by
      change n.client = _
      rw [Node.client, hidle]
    have hrecv := h.station.receive (hans rx rfl)
    rw [hclient] at hrecv
    refine ⟨?_, nofun⟩
    rw [Node.station_after rfl]
    exact hrecv
  | iterate x =>
    rw [Node.step]
    split
    · exact h
    rename_i hidle
    have hclient : n.client = n.sketch.client := by
      rw [Node.client, hidle]
    split
    · rename_i c hc
      obtain ⟨hpasses, hasks⟩ := Option.filter_eq_some_iff.mp hc
      refine ⟨?_, fun y hy ↦ ?_⟩
      · rw [Node.station_after (c := (mqttSnProcessTopicRegistrations c x.regNow none).1)
          (by rw [Node.client, hpasses])]
        exact h.station_asks hdraws hclient hpasses hasks
      · cases hy
        exact ⟨c, hpasses, hasks⟩
    · rename_i hnone
      refine ⟨?_, nofun⟩
      rw [Node.station_after rfl]
      refine h.station.loopSwitch hid hdraws hclient.symm x fun c hc ↦ ?_
      rw [hc, Option.filter_eq_none_iff] at hnone
      exact Bool.not_eq_true _ ▸ hnone c rfl
  | reply rx =>
    rw [Node.step]
    split
    · exact h
    · rename_i x hwaiting
      refine ⟨?_, nofun⟩
      rw [Node.station_after rfl]
      exact h.station_reply hwaiting hans

end Node.Ok

/-! ## What is noted of a node -/

section Notes

variable {n : Node}

/-- **What was sent stays sent**, and draws are counted up. -/
theorem Node.notes_step (clientId : List UInt8) (n : Node) (e : NodeStep) :
    n.sent <+: (n.step clientId e).sent ∧ n.draws ≤ (n.step clientId e).draws := by
  have hafter (sketch : Sketch) (waiting : Option Inputs) (actions : List Action) :
      n.sent <+: (n.after sketch waiting actions).sent ∧
        n.draws ≤ (n.after sketch waiting actions).draws :=
    ⟨List.prefix_append _ _, Nat.le_add_right _ _⟩
  have hsame : n.sent <+: n.sent ∧ n.draws ≤ n.draws := ⟨List.prefix_refl _, Nat.le_refl _⟩
  cases e with
  | receive rx =>
    rw [Node.step]
    split
    · exact hsame
    · exact hafter _ _ _
  | iterate x =>
    rw [Node.step]
    split
    · exact hsame
    · split
      · exact hafter _ _ _
      · exact hafter _ _ _
  | reply rx =>
    rw [Node.step]
    split
    · exact hsame
    · exact hafter _ _ _

theorem mem_commands {actions : List Action} {msg : List UInt8} :
    msg ∈ commands actions ↔ .showCmd msg ∈ actions := by
  constructor
  · intro h
    obtain ⟨a, ha, heq⟩ := List.mem_filterMap.mp h
    cases a <;> cases heq
    exact ha
  · exact fun h ↦ List.mem_filterMap.mpr ⟨_, h, rfl⟩

/-- The `switch` shows nothing where it asks for no topic. -/
theorem not_shown_of_loopSwitch (clientId : List UInt8) {s : Sketch} {x : Inputs}
    (h : ∀ c, s.passes = some c → asksForTopic c x.regNow = false) (msg : List UInt8) :
    .showCmd msg ∉ (loopSwitch clientId s x).2 := by
  have hnil : .showCmd msg ∉ ([] : List Action) := List.not_mem_nil
  have hsend {d : List UInt8} : .showCmd msg ∉ [Action.send d] := by simp
  have hpass {c : Client} (hpasses : s.passes = some c) :
      .showCmd msg ∉ (mqttSnProcessTopicRegistrations c x.regNow x.reply).2 := by
    rcases mqttSnProcessTopicRegistrations_eq c x.regNow x.reply with ⟨-, heq⟩ | ⟨_, _, hyes, -⟩
    · rw [heq]
      exact hnil
    · exact absurd ((h c hpasses).symm.trans hyes) Bool.false_ne_true
  have hpublish (c : Client) (topicId : UInt16) (payload : List UInt8) (qos : ℤ) (now : UInt32)
      (ok : Bool) : .showCmd msg ∉ (mqttSnPublishTopicIdAuto c topicId payload qos now ok).2 := by
    intro hmem
    cases actions_publish hmem
  refine loopSwitch_rule clientId (P := fun r ↦ .showCmd msg ∉ r.2) hnil (fun _ ↦ hsend)
    (fun hstate hping ↦ ?_) (fun hstate hfree hwaits ↦ ?_) (fun _ ↦ id) (fun _ ↦ hsend)
    (fun _ ↦ hsend) (fun _ ↦ hsend) (hpublish _ _ _ _ _ _) (fun _ ↦ hpublish _ _ _ _ _ _) ?_
  · refine hpass ?_
    rw [Sketch.passes, hstate]
    exact if_pos hping
  · refine hpass ?_
    rw [Sketch.passes, hstate]
    exact if_pos (by rw [hfree, hwaits]; rfl)
  · intro hmem
    obtain ⟨i, -, hmem⟩ := exists_of_mem_checkQosTimeouts hmem
    rw [resend] at hmem
    split at hmem
    · cases actions_publish hmem
    · cases List.mem_singleton.mp hmem

/-- **A command is shown when its packet is handled.** -/
theorem Node.Ok.shown_step (h : n.Ok known clientId) (e : NodeStep) {msg : List UInt8}
    (hmsg : msg ∈ (n.step clientId e).shown) :
    msg ∈ n.shown ∨ ∃ rx ∈ e.packet, ∃ c, .showCmd msg ∈ (udpRecvCallbackArduino c rx).2 := by
  have hafter {sketch : Sketch} {waiting : Option Inputs} {actions : List Action}
      (hmem : msg ∈ (n.after sketch waiting actions).shown) :
      msg ∈ n.shown ∨ .showCmd msg ∈ actions :=
    (List.mem_append.mp hmem).imp_right mem_commands.mp
  cases e with
  | receive rx =>
    rw [Node.step] at hmsg
    split at hmsg
    · exact Or.inl hmsg
    · exact (hafter hmsg).imp_right fun hmem ↦ ⟨rx, rfl, _, hmem⟩
  | iterate x =>
    rw [Node.step] at hmsg
    split at hmsg
    · exact Or.inl hmsg
    split at hmsg
    · rename_i c hc
      obtain ⟨i, -, heq⟩ := awaitReply_of_asks (Option.filter_eq_some_iff.mp hc).2
      rw [heq] at hmsg
      refine (hafter hmsg).imp_right fun hmem ↦ ?_
      cases List.mem_singleton.mp hmem
    · rename_i hnone
      refine (hafter hmsg).imp_right fun hmem ↦ absurd hmem ?_
      refine not_shown_of_loopSwitch clientId (fun c hc ↦ ?_) msg
      rw [hc, Option.filter_eq_none_iff] at hnone
      exact Bool.not_eq_true _ ▸ hnone c rfl
  | reply rx =>
    rw [Node.step] at hmsg
    split at hmsg
    · exact Or.inl hmsg
    · rename_i x hwaiting
      obtain ⟨c, hpasses, hasks⟩ := h.waits x hwaiting
      obtain ⟨i, -, heq⟩ := awaitReply_of_asks hasks
      obtain ⟨hactions, -⟩ := loopSwitch_of_passes clientId hpasses { x with reply := rx }
      dsimp only at hactions
      rw [heq] at hactions
      refine (hafter hmsg).imp_right fun hmem ↦ ?_
      rw [hactions] at hmem
      cases rx with
      | none => exact absurd hmem List.not_mem_nil
      | some y =>
        refine ⟨y, rfl, attempt c i x.regNow, ?_⟩
        rw [awaitReply, Option.toList_some, deliver, deliver, List.append_nil] at hmem
        exact hmem

end Notes

end Emcs.System
