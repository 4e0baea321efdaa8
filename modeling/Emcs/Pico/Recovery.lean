import Emcs.Pico.MqttTask

/-!
# Recovering a registration

The task asks for its topics in the set-up, once. Its main loop publishes, sends pings and checks
for timeouts, and none of that is a REGISTER or SUBSCRIBE, so a topic whose answer got lost is never
asked for again. The handler of CONNACK empties the table at any time, and the task does not fill it
again.

What is in the table is followed through a run of the set-up by the names of its entries: an
addition puts in a name, an accepted CONNACK takes all of them out, and nothing else matters.
-/

namespace Emcs.Pico

open Mqttsn Trace

/-! ## The names in the table -/

/-- The name of an entry in use. -/
def TopicEntry.name (e : TopicEntry) : Option (List UInt8) :=
  if e.inUse then some e.topicName.val else none

theorem name_eq_none_iff {e : TopicEntry} : e.name = none ↔ e.inUse = false := by
  rw [TopicEntry.name, ite_eq_right_iff, ← Bool.not_eq_true]
  exact forall_congr' fun _ ↦ iff_of_false (Option.some_ne_none _) id

theorem name_eq_some_iff {e : TopicEntry} {s : List UInt8} :
    e.name = some s ↔ e.inUse = true ∧ e.topicName.val = s := by
  rw [TopicEntry.name, Option.ite_none_right_eq_some, Option.some_inj]

/-- The topic is in the table. -/
def Client.Knows (c : Client) (name : List UInt8) : Prop :=
  ∃ i : Fin MAX_CUSTOM_TOPICS, c.customTopics[i].name = some name

/-- The name that the event adds. -/
def Event.adds : Event → Option (List UInt8)
  | .addForRegistration topicName => some topicName
  | .addForSubscription topicName qos => if qos > 2 then none else some topicName
  | _ => none

/-- The event is an accepted CONNACK. -/
def Event.wipes : Event → Bool
  | .receive rx => rx.acceptedConnack
  | _ => false

theorem name_invalidate (c : Client) (i : Fin MAX_CUSTOM_TOPICS) :
    (mqttSnInvalidateAllTopics c).customTopics[i].name = c.customTopics[i].name := by
  simp only [mqttSnInvalidateAllTopics, Slots.getElem_fin, Vector.getElem_map]
  split
  · rw [TopicEntry.name, TopicEntry.name]
  · rfl

theorem name_attempt (c : Client) (i j : Fin MAX_CUSTOM_TOPICS) (now : ℕ) :
    (attempt c j now).customTopics[i].name = c.customTopics[i].name := by
  by_cases hij : j = i
  · subst hij
    rw [attempt, Slots.get_set_self]
    rfl
  · rw [attempt, Slots.get_set_of_ne _ _ hij]

/-- **What an event does to the names**, if it adds none: all of them go, or all of them stay. -/
theorem name_exec (s : Control) {e : Event} (hadds : e.adds = none) (i : Fin MAX_CUSTOM_TOPICS) :
    (s.exec e).1.client.customTopics[i].name
      = if e.wipes then none else s.client.customTopics[i].name := by
  by_cases hrx : ∃ rx, e = .receive rx
  · obtain ⟨rx, rfl⟩ := hrx
    change (udpRecvCallback s.client rx).1.customTopics[i].name =
      if rx.acceptedConnack then _ else _
    rw [customTopics_udpRecv]
    rcases get_onTopics rx s.client.customTopics i with
        ⟨hconnack, heq⟩ | ⟨hconnack, heq | ⟨_, _, -, -, heq⟩⟩
    · rw [heq, hconnack, if_pos rfl]
      rfl
    · rw [heq, hconnack, if_neg Bool.false_ne_true]
    · rw [heq, hconnack, if_neg Bool.false_ne_true]
      rfl
  · have hwipes : e.wipes = false := by
      cases e with
      | receive rx => exact absurd ⟨rx, rfl⟩ hrx
      | _ => rfl
    rw [hwipes, if_neg Bool.false_ne_true]
    unfold Control.exec
    split
    · exact absurd ⟨_, rfl⟩ hrx
    · rfl
    · contradiction
    · rw [mqttSnAddTopicForSubscription]
      rw [Event.adds] at hadds
      split at hadds
      · rw [if_pos ‹_›]
      · contradiction
    · exact name_invalidate s.client i
    · rfl
    · rfl
    · rfl
    · rfl
    · rfl
    · rfl
    · rfl
    · split
      · exact name_attempt s.client i _ _
      · rfl
    · rfl
    · rfl

/-! ## Adding a name -/

/-- The names in the table are different from each other, and those of topics of the task. -/
structure NamesOk (c : Client) : Prop where
  distinct : Slots.Distinct TopicEntry.name c.customTopics
  topics : ∀ (i : Fin MAX_CUSTOM_TOPICS) (name : List UInt8),
    c.customTopics[i].name = some name → name ∈ TOPICS

/-- **What an addition does**: the name is there, or there is no room, or it takes a free entry. -/
theorem addTopic_cases (c : Client) (topicName : List UInt8) (fill : TopicEntry → TopicEntry) :
    (c.Knows topicName ∧ addTopic c topicName fill = (c, true)) ∨
    (¬c.Knows topicName ∧
      ((∀ i : Fin MAX_CUSTOM_TOPICS, c.customTopics[i].name ≠ none) ∨
      ∃ i : Fin MAX_CUSTOM_TOPICS, c.customTopics[i].name = none ∧ addTopic c topicName fill =
        ({ c with customTopics :=
            c.customTopics.set i (fill c.customTopics[i]) i.isLt }, true))) := by
  have hmatch : ∀ e : TopicEntry, (e.inUse && e.topicName.val == topicName) = true ↔
      e.name = some topicName := by
    intro e
    rw [Bool.and_eq_true, beq_iff_eq, name_eq_some_iff]
  rw [addTopic]
  split
  · rename_i hany
    obtain ⟨i, hi, h⟩ := Vector.any_eq_true.mp hany
    exact Or.inl ⟨⟨⟨i, hi⟩, (hmatch _).mp h⟩, rfl⟩
  · rename_i hany
    have hnot : ¬c.Knows topicName := by
      rintro ⟨i, h⟩
      exact hany (Vector.any_eq_true.mpr ⟨i, i.isLt, (hmatch _).mpr h⟩)
    refine Or.inr ⟨hnot, ?_⟩
    split
    · rename_i hfull
      refine Or.inl fun i hnone ↦ ?_
      have huse := Slots.first_eq_none_iff.mp hfull i
      rw [name_eq_none_iff.mp hnone] at huse
      contradiction
    · rename_i i hi
      have hfree := Slots.of_first_eq_some hi
      rw [Bool.not_eq_true'] at hfree
      exact Or.inr ⟨i, name_eq_none_iff.mpr hfree, rfl⟩

/-- **A topic of the task can be added**: there is room for it. -/
theorem NamesOk.add {c : Client} (h : NamesOk c) {topicName : List UInt8}
    (hname : topicName ∈ TOPICS) {fill : TopicEntry → TopicEntry}
    (hfill : ∀ e, (fill e).name = some topicName) :
    NamesOk (addTopic c topicName fill).1 ∧ ∀ name,
      (addTopic c topicName fill).1.Knows name ↔ topicName = name ∨ c.Knows name := by
  rcases addTopic_cases c topicName fill with ⟨hknows, heq⟩ | ⟨hnot, hfull | ⟨i, hfree, heq⟩⟩
  · rw [heq]
    refine ⟨h, fun name ↦ (or_iff_right_of_imp ?_).symm⟩
    rintro rfl
    exact hknows
  · obtain ⟨i, hnone⟩ := h.distinct.exists_none h.topics (by decide)
    exact absurd hnone (hfull i)
  · rw [heq]
    have hself :
        (c.customTopics.set i (fill c.customTopics[i]) i.isLt)[i].name = some topicName := by
      rw [Slots.get_set_self]
      exact hfill _
    have hother : ∀ j, i ≠ j → (c.customTopics.set i (fill c.customTopics[i]) i.isLt)[j].name
        = c.customTopics[j].name := by
      intro j hij
      rw [Slots.get_set_of_ne _ _ hij]
    refine ⟨⟨h.distinct.set (hfill _) fun j hj ↦ hnot ⟨j, hj⟩, fun j name hj ↦ ?_⟩,
      fun name ↦ ⟨?_, ?_⟩⟩
    · by_cases hij : i = j
      · subst hij
        rw [← Option.some_inj.mp (hself.symm.trans hj)]
        exact hname
      · exact h.topics j name ((hother j hij).symm.trans hj)
    · rintro ⟨j, hj⟩
      by_cases hij : i = j
      · subst hij
        exact Or.inl (Option.some_inj.mp (hself.symm.trans hj))
      · exact Or.inr ⟨j, (hother j hij).symm.trans hj⟩
    · rintro (rfl | ⟨j, hj⟩)
      · exact ⟨i, hself⟩
      · refine ⟨j, (hother j ?_).trans hj⟩
        rintro rfl
        rw [hfree] at hj
        contradiction

theorem valid_of_mem_topics {name : List UInt8} (h : name ∈ TOPICS) :
    ¬(name.length = 0 ∨ name.length ≥ TOPIC_NAME_LEN) ∧ (TopicName.copy name).val = name := by
  have hall : ∀ name ∈ TOPICS, ¬(name.length = 0 ∨ name.length ≥ TOPIC_NAME_LEN) := by
    decide +kernel
  refine ⟨hall name h, List.take_of_length_le ?_⟩
  have hlt := (not_or.mp (hall name h)).2
  omega

/-- An addition comes next when the task is idle, and does nothing otherwise. -/
theorem exec_of_adds {s : Control} {e : Event} {topicName : List UInt8}
    (hadds : e.adds = some topicName) (hname : topicName ∈ TOPICS) :
    e.wipes = false ∧ (s.task ≠ .idle → (s.exec e).1 = s) ∧
      ∃ fill : TopicEntry → TopicEntry, (∀ e, (fill e).name = some topicName) ∧
        (s.task = .idle → (s.exec e).1 = ⟨(addTopic s.client topicName fill).1, .idle⟩) := by
  obtain ⟨c, task⟩ := s
  obtain ⟨hvalid, hcopy⟩ := valid_of_mem_topics hname
  cases e with
  | addForRegistration topicName' =>
    obtain rfl := Option.some_inj.mp hadds
    refine ⟨rfl, fun hbusy ↦ ?_, fun e ↦ { e with
      topicName := TopicName.copy topicName', topicId := 0, qos := 0, isRegistered := false,
      isSender := true, lastAttempt := 0, inUse := true }, fun e ↦ congrArg some hcopy, ?_⟩
    · cases task with
      | idle => contradiction
      | _ => rfl
    · rintro rfl
      change (⟨(mqttSnAddTopicForRegistration c topicName').1, .idle⟩ : Control) = _
      rw [mqttSnAddTopicForRegistration, if_neg hvalid]
  | addForSubscription topicName' qos =>
    rw [Event.adds] at hadds
    split at hadds
    · contradiction
    rename_i hqos
    obtain rfl := Option.some_inj.mp hadds
    refine ⟨rfl, fun hbusy ↦ ?_, fun e ↦ { e with
      topicName := TopicName.copy topicName', topicId := 0, qos := qos, isRegistered := false,
      isSender := false, lastAttempt := 0, inUse := true }, fun e ↦ congrArg some hcopy, ?_⟩
    · cases task with
      | idle => contradiction
      | _ => rfl
    · rintro rfl
      change (⟨(mqttSnAddTopicForSubscription c topicName' qos).1, .idle⟩ : Control) = _
      rw [mqttSnAddTopicForSubscription, if_neg hqos, if_neg hvalid]
  | _ => contradiction

/-- **What an event does to the names in the table.** -/
theorem knows_exec {s : Control} (h : NamesOk s.client) {e : Event}
    (hadds : ∀ name ∈ e.adds, name ∈ TOPICS) :
    NamesOk (s.exec e).1.client ∧ ∀ name, (s.exec e).1.client.Knows name ↔
      (e.adds = some name ∧ s.task = .idle) ∨ (e.wipes = false ∧ s.client.Knows name) := by
  cases hadd : e.adds with
  | none =>
    have hname := name_exec s hadd
    cases hwipes : e.wipes with
    | true =>
      have hnone : ∀ i : Fin MAX_CUSTOM_TOPICS,
          (s.exec e).1.client.customTopics[i].name = none := by
        intro i
        rw [hname i, hwipes, if_pos rfl]
      refine ⟨⟨h.distinct.mono fun i ↦ Or.inr (hnone i), fun i name hi ↦ ?_⟩, fun name ↦ ?_⟩
      · rw [hnone i] at hi
        contradiction
      · refine iff_of_false ?_ (not_or.mpr ⟨nofun, nofun⟩)
        rintro ⟨i, hi⟩
        rw [hnone i] at hi
        contradiction
    | false =>
      have hsame : ∀ i : Fin MAX_CUSTOM_TOPICS,
          (s.exec e).1.client.customTopics[i].name = s.client.customTopics[i].name := by
        intro i
        rw [hname i, hwipes, if_neg Bool.false_ne_true]
      refine ⟨⟨h.distinct.mono fun i ↦ Or.inl (hsame i), fun i name hi ↦ ?_⟩, fun name ↦ ?_⟩
      · exact h.topics i name ((hsame i).symm.trans hi)
      · rw [Client.Knows, Client.Knows, or_iff_right (by nofun), and_iff_right rfl]
        exact exists_congr fun i ↦ by rw [hsame i]
  | some topicName =>
    have hmem : topicName ∈ TOPICS := hadds topicName hadd
    obtain ⟨hwipes, hbusy, fill, hfill, hidle⟩ := exec_of_adds (s := s) hadd hmem
    by_cases htask : s.task = .idle
    · obtain ⟨hok, hknows⟩ := h.add hmem hfill
      rw [hidle htask]
      refine ⟨hok, fun name ↦ (hknows name).trans ?_⟩
      rw [Option.some_inj, and_iff_left htask, hwipes, and_iff_right rfl]
    · rw [hbusy htask]
      refine ⟨h, fun name ↦ ?_⟩
      rw [or_iff_right fun h' ↦ htask h'.2, hwipes, and_iff_right rfl]

/-! ## The task -/

/-- The name that the part adds. -/
def Part.adds : Part → Option (List UInt8)
  | .client e => e.adds
  | _ => none

/-- The part is an accepted CONNACK. -/
def Part.wipes : Part → Bool
  | .client e => e.wipes
  | _ => false

theorem knows_step {s : Mqtt} (h : NamesOk s.client) {e : Part}
    (hadds : ∀ name ∈ e.adds, name ∈ TOPICS) :
    NamesOk (s.step e).client ∧ ∀ name, (s.step e).client.Knows name ↔
      (e.adds = some name ∧ s.task = .idle) ∨ (e.wipes = false ∧ s.client.Knows name) := by
  have hsame : NamesOk s.client ∧ ∀ name, s.client.Knows name ↔
      (none = some name ∧ s.task = .idle) ∨ (false = false ∧ s.client.Knows name) := by
    refine ⟨h, fun name ↦ ?_⟩
    rw [or_iff_right (by nofun), and_iff_right rfl]
  cases e with
  | client e => exact knows_exec h hadds
  | prepare topicIdx => exact hsame
  | publish qosLevel ok =>
    rw [Mqtt.step, Mqtt.exec]
    split
    · exact knows_exec (e := .publish s.topicId s.payload qosLevel.toNat ok) h nofun
    · exact hsame
  | pingreq ok => exact hsame

/-- What is added to the table by the parts is a topic of the task. -/
def AddsTopics (es : List Part) : Prop := ∀ e ∈ es, ∀ name ∈ e.adds, name ∈ TOPICS

theorem namesOk_run {s : Mqtt} (h : NamesOk s.client) {es : List Part} (hes : AddsTopics es) :
    NamesOk (Trace.run Mqtt.step s es).client := by
  induction es generalizing s with
  | nil => exact h
  | cons e es ih =>
    obtain ⟨he, hes⟩ := List.forall_mem_cons.mp hes
    exact ih (knows_step h he).1 hes

/-- **A topic stays in the table** as long as no accepted CONNACK comes. -/
theorem knows_run {s : Mqtt} (h : NamesOk s.client) {es : List Part} (hes : AddsTopics es)
    (hwipes : ∀ e ∈ es, e.wipes = false) {name : List UInt8} (hknows : s.client.Knows name) :
    (Trace.run Mqtt.step s es).client.Knows name := by
  induction es generalizing s with
  | nil => exact hknows
  | cons e es ih =>
    obtain ⟨he, hes⟩ := List.forall_mem_cons.mp hes
    obtain ⟨hw, hwipes⟩ := List.forall_mem_cons.mp hwipes
    obtain ⟨hok, hstep⟩ := knows_step h he
    exact ih hok hes hwipes ((hstep name).mpr (Or.inr ⟨hw, hknows⟩))

/-- **A topic that is not in the table stays out of it** as long as it is not added. -/
theorem not_knows_run {s : Mqtt} (h : NamesOk s.client) {es : List Part} (hes : AddsTopics es)
    {name : List UInt8} (hadds : ∀ e ∈ es, e.adds ≠ some name) (hnot : ¬s.client.Knows name) :
    ¬(Trace.run Mqtt.step s es).client.Knows name := by
  induction es generalizing s with
  | nil => exact hnot
  | cons e es ih =>
    obtain ⟨he, hes⟩ := List.forall_mem_cons.mp hes
    obtain ⟨ha, hadds⟩ := List.forall_mem_cons.mp hadds
    obtain ⟨hok, hstep⟩ := knows_step h he
    refine ih hok hes hadds fun hknows ↦ ?_
    rcases (hstep name).mp hknows with ⟨hadd, -⟩ | ⟨-, hold⟩
    · exact ha hadd
    · exact hnot hold

/-! ## The scripts -/

theorem of_fore_eq_false {e : Part} (h : e.fore = false) : ∃ rx, e = .client (.receive rx) := by
  cases e with
  | client e =>
    cases e with
    | receive rx => exact ⟨rx, rfl⟩
    | _ => contradiction
  | _ => contradiction

theorem stable_task (P : Task → Prop) : Stable Mqtt.step Part.fore fun s ↦ P s.task := by
  intro s e hback h
  obtain ⟨rx, rfl⟩ := of_fore_eq_false hback
  exact h

/-- The rounds of the pass, from the one for the first of these entries on. -/
theorem triple_rounds (now : ℕ) (ok : Fin MAX_CUSTOM_TOPICS → Bool)
    (is : List (Fin MAX_CUSTOM_TOPICS)) :
    Triple Mqtt.step Part.fore (fun s ↦ s.task = .registering now is)
      (is.flatMap (fun i ↦ [.client .attempt, .client (.request (ok i))]) ++ [.client .attempt])
      (fun s ↦ s.task = .idle) := by
  induction is with
  | nil =>
    refine Triple.cons (stable_task (· = .registering now [])) ?_
      (Triple.nil (stable_task (· = .idle)))
    rintro ⟨⟨c, task⟩, _, _, _⟩ rfl
    rfl
  | cons i is ih =>
    -- a round comes to the next one with or without its request
    refine Triple.cons (Q := fun s ↦ (∃ mid, s.task = .requesting now i mid is) ∨
      s.task = .registering now is) (stable_task (· = .registering now (i :: is))) ?_
      (Triple.cons (stable_task fun t ↦ (∃ mid, t = .requesting now i mid is) ∨
        t = .registering now is) ?_ ih)
    · rintro ⟨⟨c, task⟩, _, _, _⟩ rfl
      by_cases hdue : c.customTopics[i].due now = true
      · refine Or.inl ⟨(getNextMsgId c.nextMsgId).1, ?_⟩
        simp only [Mqtt.step, Mqtt.exec, Control.exec, if_pos hdue]
      · refine Or.inr ?_
        simp only [Mqtt.step, Mqtt.exec, Control.exec, if_neg hdue]
    · rintro ⟨⟨c, task⟩, _, _, _⟩ (⟨mid, rfl⟩ | rfl)
      · rfl
      · rfl

theorem triple_process (now : ℕ) (ok : Fin MAX_CUSTOM_TOPICS → Bool) :
    Triple Mqtt.step Part.fore (fun s ↦ s.task = .idle) (processScript now ok)
      (fun s ↦ s.task = .idle) := by
  refine Triple.cons (stable_task (· = .idle)) ?_ (triple_rounds now ok _)
  rintro ⟨⟨c, task⟩, _, _, _⟩ rfl
  rfl

theorem triple_add {e : Event} {topicName : List UInt8} (hadds : e.adds = some topicName)
    (hname : topicName ∈ TOPICS) {script : List Part} {R : Mqtt → Prop}
    (h : Triple Mqtt.step Part.fore (fun s ↦ s.task = .idle) script R) :
    Triple Mqtt.step Part.fore (fun s ↦ s.task = .idle) (.client e :: script) R := by
  refine Triple.cons (stable_task (· = .idle)) (fun s hidle ↦ ?_) h
  obtain ⟨-, -, fill, -, hexec⟩ := exec_of_adds (s := s.toControl) hadds hname
  change (s.toControl.exec e).1.task = .idle
  rw [hexec hidle]

theorem triple_idle : Triple Mqtt.step Part.fore (fun s ↦ s.task = .idle) []
    (fun s ↦ s.task = .idle) := Triple.nil (stable_task (· = .idle))

/-- **Each of the topics is added in the set-up**, with the task idle, if both blocks run. -/
theorem exists_script {u : SetUp} (hregisters : u.registers = true)
    (hsubscribes : u.subscribes = true) {name : List UInt8} (hname : name ∈ TOPICS) :
    ∃ pre e post, u.script = pre ++ .client e :: post ∧ e.adds = some name ∧
      Triple Mqtt.step Part.fore (fun s ↦ s.task = .idle) pre (fun s ↦ s.task = .idle) := by
  have hdata₁ : TOPIC_DATA_1 ∈ TOPICS := by simp [TOPICS]
  have hdata₂ : TOPIC_DATA_2 ∈ TOPICS := by simp [TOPICS]
  have hcmd₁ : TOPIC_CMD_1 ∈ TOPICS := by simp [TOPICS]
  have hregister := triple_add (e := .addForRegistration TOPIC_DATA_1) rfl hdata₁
    (triple_add (e := .addForRegistration TOPIC_DATA_2) rfl hdata₂
      (triple_process u.registerNow u.registerOk))
  rw [SetUp.script, if_pos hregisters, if_pos hsubscribes]
  rw [TOPICS] at hname
  simp only [List.mem_cons, List.not_mem_nil, or_false] at hname
  rcases hname with rfl | rfl | rfl | rfl
  · exact ⟨[], .addForRegistration TOPIC_DATA_1, _, rfl, rfl, triple_idle⟩
  · exact ⟨[_], .addForRegistration TOPIC_DATA_2, _, rfl, rfl, triple_add rfl hdata₁ triple_idle⟩
  · exact ⟨_, .addForSubscription TOPIC_CMD_1 1, _, rfl, rfl, hregister⟩
  · refine ⟨_ ++ [.client (.addForSubscription TOPIC_CMD_1 1)],
      .addForSubscription TOPIC_CMD_2 2, _,
      List.append_cons .., rfl, hregister.append (triple_add rfl hcmd₁ triple_idle)⟩

/-- The names that the set-up adds. -/
def SetUp.added (u : SetUp) : List (List UInt8) :=
  (if u.registers then [TOPIC_DATA_1, TOPIC_DATA_2] else []) ++
    if u.subscribes then [TOPIC_CMD_1, TOPIC_CMD_2] else []

theorem adds_processScript (now : ℕ) (ok : Fin MAX_CUSTOM_TOPICS → Bool) :
    (processScript now ok).filterMap Part.adds = [] := by
  rw [List.filterMap_eq_nil_iff]
  intro e he
  simp only [processScript, List.mem_cons, List.mem_append, List.mem_flatMap, List.not_mem_nil,
    or_false] at he
  rcases he with rfl | ⟨i, -, rfl | rfl⟩ | rfl
  · rfl
  · rfl
  · rfl
  · rfl

theorem adds_setUp (u : SetUp) : u.script.filterMap Part.adds = u.added := by
  rw [SetUp.script, SetUp.added, List.filterMap_append]
  congr 1
  · split
    · rw [List.filterMap_cons, List.filterMap_cons, adds_processScript]
      rfl
    · rfl
  · split
    · rw [List.filterMap_cons, List.filterMap_cons, adds_processScript]
      rfl
    · rfl

/-- A part of an iteration is neither an addition nor a request. -/
theorem of_mem_iteration {x : Iteration} {e : Part} (he : e ∈ x.script) :
    e.adds = none ∧ ∀ ok, e ≠ .client (.request ok) := by
  obtain ⟨now, event, ping, check⟩ := x
  simp only [Iteration.script, List.mem_append] at he
  rcases he with (he | he) | he
  · cases event with
    | none => contradiction
    | some p =>
      simp only [Option.elim_some, PublishEvent.script, List.mem_cons,
        List.not_mem_nil, or_false] at he
      rcases he with rfl | rfl | rfl
      · exact ⟨rfl, nofun⟩
      · exact ⟨rfl, nofun⟩
      · exact ⟨rfl, nofun⟩
  · cases ping with
    | none => contradiction
    | some ok =>
      obtain rfl := List.mem_singleton.mp he
      exact ⟨rfl, nofun⟩
  · cases check with
    | none => contradiction
    | some k =>
      simp only [Option.elim_some, Check.script, List.mem_cons, List.mem_map] at he
      rcases he with rfl | ⟨i, -, rfl⟩
      · exact ⟨rfl, nofun⟩
      · exact ⟨rfl, nofun⟩

theorem mem_of_mem_woven {script : List Part} (w : Woven script) {e : Part} (he : e ∈ w.parts) :
    e ∈ script ∨ ∃ rx, e = .client (.receive rx) := by
  cases hfore : e.fore with
  | true => exact Or.inl (w.woven ▸ List.mem_filter.mpr ⟨he, hfore⟩)
  | false => exact Or.inr (of_fore_eq_false hfore)

theorem adds_woven {script : List Part} (w : Woven script) :
    w.parts.filterMap Part.adds = script.filterMap Part.adds := by
  obtain ⟨es, rfl⟩ := w
  change es.filterMap Part.adds = (es.filter Part.fore).filterMap Part.adds
  induction es with
  | nil => rfl
  | cons e es ih =>
    cases hfore : e.fore with
    | true => rw [List.filter_cons_of_pos hfore, List.filterMap_cons, List.filterMap_cons, ih]
    | false =>
      obtain ⟨rx, rfl⟩ := of_fore_eq_false hfore
      rw [List.filter_cons_of_neg (Bool.not_eq_true _ ▸ hfore)]
      exact ih

/-- **What a run adds to the table.** -/
theorem adds_parts {u : SetUp} (w : Woven u.script) (rounds : List Round) :
    (parts w rounds).filterMap Part.adds = u.added := by
  have hrounds : (rounds.flatMap fun r ↦ r.2.parts).filterMap Part.adds = [] := by
    rw [List.filterMap_eq_nil_iff]
    intro e he
    obtain ⟨r, -, he⟩ := List.mem_flatMap.mp he
    rcases mem_of_mem_woven r.2 he with he | ⟨rx, rfl⟩
    · exact (of_mem_iteration he).1
    · rfl
  rw [parts, List.filterMap_append, hrounds, List.append_nil, adds_woven, adds_setUp]

/-! ## Topics stay in the table -/

/-- Both blocks of the set-up run, and no accepted CONNACK comes after the set-up began. -/
structure Undisturbed {u : SetUp} (w : Woven u.script) (rounds : List Round) : Prop where
  registers : u.registers = true
  subscribes : u.subscribes = true
  noConnack : ∀ e ∈ (parts w rounds).dropWhile (fun e ↦ !e.fore), e.wipes = false

theorem added_subset (u : SetUp) {name : List UInt8} (h : name ∈ u.added) : name ∈ TOPICS := by
  have hdata : [TOPIC_DATA_1, TOPIC_DATA_2] ⊆ TOPICS := List.subset_append_left _ _
  have hcmd : [TOPIC_CMD_1, TOPIC_CMD_2] ⊆ TOPICS :=
    List.subset_append_right [TOPIC_DATA_1, TOPIC_DATA_2] _
  rw [SetUp.added, List.mem_append] at h
  rcases h with h | h
  · split at h
    · exact hdata h
    · contradiction
  · split at h
    · exact hcmd h
    · contradiction

theorem addsTopics_parts {u : SetUp} (w : Woven u.script) (rounds : List Round) :
    AddsTopics (parts w rounds) := by
  intro e he name hname
  refine added_subset u ?_
  rw [← adds_parts w rounds]
  exact List.mem_filterMap.mpr ⟨e, he, hname⟩

theorem namesOk_boot : NamesOk Mqtt.boot.client := by
  refine ⟨Slots.distinct_replicate rfl, fun i name hi ↦ ?_⟩
  rw [Mqtt.boot, Client.boot, Slots.getElem_fin, Vector.getElem_replicate] at hi
  contradiction

theorem not_knows_boot (name : List UInt8) : ¬Mqtt.boot.client.Knows name := by
  rintro ⟨i, hi⟩
  rw [Mqtt.boot, Client.boot, Slots.getElem_fin, Vector.getElem_replicate] at hi
  contradiction

/-- **The topics are in the table** in an undisturbed run. -/
theorem Undisturbed.knows {u : SetUp} {w : Woven u.script} {rounds : List Round}
    (h : Undisturbed w rounds) {name : List UInt8} (hname : name ∈ TOPICS) :
    (atHead w rounds).client.Knows name := by
  obtain ⟨pre, e, post, hscript, hadds, htriple⟩ := exists_script h.registers h.subscribes hname
  obtain ⟨es₁, es₂, hparts, hpre, -, hfore⟩ := Trace.exists_of_filter_eq (w.woven.trans hscript)
  have hall : parts w rounds = es₁ ++ .client e :: (es₂ ++ rounds.flatMap fun r ↦ r.2.parts) := by
    rw [parts, hparts, List.append_assoc, List.cons_append]
  have hok : AddsTopics (es₁ ++ .client e :: (es₂ ++ rounds.flatMap fun r ↦ r.2.parts)) :=
    hall ▸ addsTopics_parts w rounds
  obtain ⟨hok₁, hok₂⟩ := List.forall_mem_append.mp hok
  obtain ⟨hoke, hok₂⟩ := List.forall_mem_cons.mp hok₂
  have hidle : (Trace.run Mqtt.step .boot es₁).task = .idle := htriple _ es₁ hpre rfl
  obtain ⟨hokstep, hstep⟩ := knows_step (namesOk_run namesOk_boot hok₁) hoke
  rw [atHead, hall, Trace.run_append, Trace.run_cons]
  refine knows_run hokstep hok₂ (fun e' he' ↦ ?_) ((hstep name).mpr (Or.inl ⟨hadds, hidle⟩))
  refine h.noConnack e' ?_
  rw [hall]
  exact Trace.mem_dropWhile (by rw [hfore]; rfl) (List.mem_cons_of_mem _ he')

theorem mem_added_of_knows {u : SetUp} {w : Woven u.script} {rounds : List Round}
    {name : List UInt8} (h : (atHead w rounds).client.Knows name) : name ∈ u.added := by
  by_contra hnot
  refine not_knows_run namesOk_boot (addsTopics_parts w rounds) (fun e he hadds ↦ hnot ?_)
    (not_knows_boot name) h
  rw [← adds_parts w rounds]
  exact List.mem_filterMap.mpr ⟨e, he, hadds⟩

theorem count_added (u : SetUp) : u.added.count TOPIC_DATA_1 ≤ 1 := by
  have hall : ∀ registers subscribes : Bool,
      ((if registers then [TOPIC_DATA_1, TOPIC_DATA_2] else []) ++
        if subscribes then [TOPIC_CMD_1, TOPIC_CMD_2] else []).count TOPIC_DATA_1 ≤ 1 := by
    decide +kernel
  exact hall u.registers u.subscribes

/-- **After an accepted CONNACK the first topic is not in the table**, unless it is added again. -/
theorem not_knows_of_wipes {s : Mqtt} (h : NamesOk s.client) {e : Part} (hwipes : e.wipes = true)
    {es : List Part} (hes : AddsTopics (e :: es)) {name : List UInt8}
    (hadds : ∀ e' ∈ e :: es, e'.adds ≠ some name) :
    ¬(Trace.run Mqtt.step s (e :: es)).client.Knows name := by
  obtain ⟨he, hes⟩ := List.forall_mem_cons.mp hes
  obtain ⟨hadd, hadds⟩ := List.forall_mem_cons.mp hadds
  obtain ⟨hok, hstep⟩ := knows_step h he
  refine not_knows_run hok hes hadds fun hknows ↦ ?_
  rcases (hstep name).mp hknows with ⟨heq, -⟩ | ⟨heq, -⟩
  · exact hadd heq
  · exact Bool.false_ne_true (heq.symm.trans hwipes)

/-- **The set-up begins with the only addition of the first topic.** -/
theorem exists_first_addition {u : SetUp} (hregisters : u.registers = true) (w : Woven u.script)
    (rounds : List Round) : ∃ es e rest, parts w rounds = es ++ e :: rest ∧ e.wipes = false ∧
      (parts w rounds).dropWhile (fun e ↦ !e.fore) = e :: rest ∧
      ∀ e' ∈ rest, e'.adds ≠ some TOPIC_DATA_1 := by
  have hscript : ∃ post, u.script = [] ++ .client (.addForRegistration TOPIC_DATA_1) :: post := by
    rw [SetUp.script, if_pos hregisters]
    exact ⟨_, rfl⟩
  obtain ⟨post, hscript⟩ := hscript
  obtain ⟨es, es', hparts, hback, -, hfore⟩ := Trace.exists_of_filter_eq (w.woven.trans hscript)
  have hall : parts w rounds = es ++ .client (.addForRegistration TOPIC_DATA_1) ::
      (es' ++ rounds.flatMap fun r ↦ r.2.parts) := by
    rw [parts, hparts, List.append_assoc, List.cons_append]
  refine ⟨es, _, _, hall, rfl, ?_, fun e' he' hadd ↦ ?_⟩
  · rw [hall, List.dropWhile_append_of_pos, List.dropWhile_cons_of_neg]
    · rw [hfore]
      exact Bool.false_ne_true
    · intro e he
      rw [Bool.not_eq_true']
      exact Bool.not_eq_true _ ▸ List.filter_eq_nil_iff.mp hback e he
  · have hcount := count_added u
    have hself : (Part.client (.addForRegistration TOPIC_DATA_1)).adds = some TOPIC_DATA_1 := rfl
    have hpos := List.count_pos_iff.mpr (List.mem_filterMap.mpr ⟨e', he', hadd⟩)
    rw [← adds_parts w rounds, hall, List.filterMap_append, List.filterMap_cons_some hself,
      List.count_append, List.count_cons_self] at hcount
    omega

/-- **Where the topics are in the table**, the run was undisturbed. -/
theorem Undisturbed.of_knows {u : SetUp} {w : Woven u.script} {rounds : List Round}
    (h : ∀ name ∈ TOPICS, (atHead w rounds).client.Knows name) : Undisturbed w rounds := by
  have hfirst : ∀ registers subscribes : Bool, TOPIC_DATA_1 ∈
      ((if registers then [TOPIC_DATA_1, TOPIC_DATA_2] else []) ++
        if subscribes then [TOPIC_CMD_1, TOPIC_CMD_2] else []) → registers = true := by
    decide +kernel
  have hthird : ∀ registers subscribes : Bool, TOPIC_CMD_1 ∈
      ((if registers then [TOPIC_DATA_1, TOPIC_DATA_2] else []) ++
        if subscribes then [TOPIC_CMD_1, TOPIC_CMD_2] else []) → subscribes = true := by
    decide +kernel
  have hdata₁ : TOPIC_DATA_1 ∈ TOPICS := by simp [TOPICS]
  have hcmd₁ : TOPIC_CMD_1 ∈ TOPICS := by simp [TOPICS]
  have hregisters := hfirst _ _ (mem_added_of_knows (h _ hdata₁))
  refine ⟨hregisters, hthird _ _ (mem_added_of_knows (h _ hcmd₁)), fun e he ↦ ?_⟩
  obtain ⟨es, e₁, rest, hall, hwipes₁, hdrop, hadds⟩ := exists_first_addition hregisters w rounds
  by_contra hnot
  rw [hdrop] at he
  rcases List.mem_cons.mp he with rfl | he
  · exact hnot hwipes₁
  -- the topic goes with the CONNACK, and does not come back
  obtain ⟨rest₁, rest₂, rfl⟩ := List.append_of_mem he
  have hsplit : parts w rounds = (es ++ e₁ :: rest₁) ++ e :: rest₂ := by
    rw [hall, List.append_assoc, List.cons_append]
  have hok := addsTopics_parts w rounds
  have hknows := h _ hdata₁
  rw [atHead, hsplit, Trace.run_append] at hknows
  rw [hsplit] at hok
  obtain ⟨hok₁, hok₂⟩ := List.forall_mem_append.mp hok
  exact not_knows_of_wipes (namesOk_run namesOk_boot hok₁) (Bool.not_eq_false _ ▸ hnot) hok₂
    (fun e' he' ↦ hadds e' (List.mem_append_right _ he')) hknows

/-! ## Nothing is asked for in the main loop -/

/-- None of the actions sends a REGISTER or SUBSCRIBE. -/
def SendNoRequest (as : List Action) : Prop :=
  ∀ buf ok, Action.send buf ok ∈ as → Request.parse buf = none

theorem sendNoRequest_nil : SendNoRequest [] := fun _ _ h ↦ absurd h List.not_mem_nil

theorem sendNoRequest_singleton {buf : List UInt8} {ok : Bool} (h : Request.parse buf = none) :
    SendNoRequest [.send buf ok] := by
  intro buf' ok' hmem
  obtain ⟨rfl, -⟩ := Action.send.inj (List.mem_singleton.mp hmem)
  exact h

theorem sendNoRequest_transmit (p : Publish) (ok : Bool) : SendNoRequest (p.transmit ok) := by
  rw [Publish.transmit]
  split
  · exact sendNoRequest_singleton (parse_publishPacket ..)
  · exact sendNoRequest_nil

theorem sendNoRequest_udpRecv (c : Client) (rx : Rx) : SendNoRequest (udpRecvCallback c rx).2 := by
  intro buf ok hmem
  have hack := sendAcks_udpRecv c rx buf ok hmem
  have hregister : MQTTSN_MSG_TYPE_REGISTER ∉ ACK_TYPES := by decide
  have hsubscribe : MQTTSN_MSG_TYPE_SUBSCRIBE ∉ ACK_TYPES := by decide
  rw [Request.parse, if_neg (ne_of_mem_of_not_mem hack hregister),
    if_neg (ne_of_mem_of_not_mem hack hsubscribe)]

/-- **No other part of a function asks for a topic.** -/
theorem sendNoRequest_exec (s : Control) {e : Event} (he : ∀ ok, e ≠ .request ok) :
    SendNoRequest (s.exec e).2 := by
  unfold Control.exec
  split
  · exact sendNoRequest_udpRecv s.client _
  · exact sendNoRequest_nil
  · exact sendNoRequest_nil
  · exact sendNoRequest_nil
  · exact sendNoRequest_nil
  · exact sendNoRequest_transmit _ _
  · exact sendNoRequest_nil
  · exact sendNoRequest_nil
  · exact sendNoRequest_nil
  · rename_i r _ ok _
    rw [RetryEntry.resend]
    dsimp only
    split
    · exact sendNoRequest_transmit _ _
    split
    · split
      · exact sendNoRequest_transmit _ _
      · exact sendNoRequest_singleton rfl
    · exact sendNoRequest_nil
  · exact sendNoRequest_nil
  · exact sendNoRequest_nil
  · split
    · exact sendNoRequest_nil
    · exact sendNoRequest_nil
  · exact absurd rfl (he _)
  · exact sendNoRequest_nil

theorem sendNoRequest_part (s : Mqtt) {e : Part} (he : ∀ ok, e ≠ .client (.request ok)) :
    SendNoRequest (s.exec e).2 := by
  cases e with
  | client e => exact sendNoRequest_exec s.toControl fun ok heq ↦ he ok (congrArg Part.client heq)
  | prepare topicIdx => exact sendNoRequest_nil
  | publish qosLevel ok =>
    rw [Mqtt.exec]
    split
    · exact sendNoRequest_exec s.toControl nofun
    · exact sendNoRequest_nil
  | pingreq ok => exact sendNoRequest_singleton rfl

/-- **An iteration asks for no topic.** -/
theorem sendNoRequest_round (s : Mqtt) (r : Round) : SendNoRequest (s.actions r) := by
  have hparts : ∀ e ∈ r.2.parts, ∀ ok, e ≠ .client (.request ok) := by
    intro e he
    rcases mem_of_mem_woven r.2 he with he | ⟨rx, rfl⟩
    · exact (of_mem_iteration he).2
    · exact nofun
  rw [Mqtt.actions]
  generalize r.2.parts = es at hparts
  induction es generalizing s with
  | nil => exact sendNoRequest_nil
  | cons e es ih =>
    obtain ⟨he, hes⟩ := List.forall_mem_cons.mp hparts
    intro buf ok hmem
    rcases List.mem_append.mp hmem with hmem | hmem
    · exact sendNoRequest_part s he buf ok hmem
    · exact ih (s.step e) hes buf ok hmem

/-! ## Recovery -/

/-- A REGISTER or SUBSCRIBE for the topic is sent. -/
def Requests (as : List Action) (name : List UInt8) : Prop :=
  ∃ buf ok q, Action.send buf ok ∈ as ∧ Request.parse buf = some q ∧ q.topicName = name

/-- **Registrations recover** in the iteration: every topic is in the table, and a topic that is not
registered and has not been asked for in the last `TOPIC_RETRY_INTERVAL_MS` is asked for. -/
def Recovers (s : Mqtt) (r : Round) : Prop :=
  ∀ name ∈ TOPICS, ∃ i : Fin MAX_CUSTOM_TOPICS, s.client.customTopics[i].name = some name ∧
    (s.client.customTopics[i].due r.1.now = true → Requests (s.actions r) name)

/-- **Registrations recover** in exactly those iterations in which there is nothing to recover: both
blocks of the set-up have run, no accepted CONNACK has come since the set-up began, and no topic is
due. -/
theorem recovers_iff {u : SetUp} (w : Woven u.script) (rounds : List Round) (r : Round) :
    Recovers (atHead w rounds) r ↔ Undisturbed w rounds ∧
      ∀ i : Fin MAX_CUSTOM_TOPICS,
        (atHead w rounds).client.customTopics[i].due r.1.now = false := by
  have hok : NamesOk (atHead w rounds).client :=
    namesOk_run namesOk_boot (addsTopics_parts w rounds)
  have hsilent : ∀ name, ¬Requests ((atHead w rounds).actions r) name := by
    rintro name ⟨buf, ok, q, hmem, hparse, -⟩
    rw [sendNoRequest_round _ r buf ok hmem] at hparse
    contradiction
  constructor
  · intro h
    refine ⟨.of_knows fun name hname ↦ (h name hname).imp fun _ ↦ And.left, fun i ↦ ?_⟩
    by_contra hdue
    rw [Bool.not_eq_false] at hdue
    have hname : (atHead w rounds).client.customTopics[i].name
        = some (atHead w rounds).client.customTopics[i].topicName.val := by
      rw [TopicEntry.due, Bool.and_eq_true, Bool.and_eq_true] at hdue
      exact if_pos hdue.1.1
    obtain ⟨j, hj, hrequests⟩ := h _ (hok.topics i _ hname)
    obtain rfl := hok.distinct j i _ hj hname
    exact hsilent _ (hrequests hdue)
  · rintro ⟨hundisturbed, hdue⟩ name hname
    obtain ⟨i, hi⟩ := hundisturbed.knows hname
    refine ⟨i, hi, fun hnow ↦ ?_⟩
    rw [hdue i] at hnow
    contradiction

/-- Both blocks of the set-up run, one second and six seconds after the start, and no packet comes
back. -/
def unanswered : SetUp where
  registers := true
  registerNow := 1000000
  registerOk := fun _ ↦ true
  subscribes := true
  subscribeNow := 6000000
  subscribeOk := fun _ ↦ true

/-- **No answer comes**, and six seconds later the main loop asks for nothing. -/
theorem not_recovers_unanswered :
    ¬Recovers (atHead (u := unanswered) ⟨unanswered.script, rfl⟩ [])
      ⟨⟨12000000, none, none, none⟩, ⟨[], rfl⟩⟩ := by
  intro h
  have hdata₁ : TOPIC_DATA_1 ∈ TOPICS := by simp [TOPICS]
  have hdue : ∀ i : Fin MAX_CUSTOM_TOPICS, (atHead (u := unanswered) ⟨unanswered.script, rfl⟩
      []).client.customTopics[i].name = some TOPIC_DATA_1 → (atHead (u := unanswered)
      ⟨unanswered.script, rfl⟩ []).client.customTopics[i].due 12000000 = true := by
    decide +kernel
  obtain ⟨i, hi, hrequests⟩ := h TOPIC_DATA_1 hdata₁
  obtain ⟨_, _, _, hmem, -, -⟩ := hrequests (hdue i hi)
  exact absurd hmem List.not_mem_nil

end Emcs.Pico
