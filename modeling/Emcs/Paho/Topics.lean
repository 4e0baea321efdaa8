import Emcs.Lib.Book
import Emcs.Mqttsn.MessageIds
import Emcs.Paho.Packet

/-!
# The topics of a client

`Topics` in `MQTTSNGWTopic.cpp`: the list in which the gateway keeps the topic names of a client
with their ids. The ids of normal topics are drawn from a counter that a new session does not set
back: `eraseNormal` lets the names go and keeps `_nextTopicId`.

Hence a table is a book of names (`Topics.Shows`), in which the id of a name is the one at its
place in the cycle of the ids. A table has room for 50 topics, far less than the cycle is long, so
its ids are different however often the counter came round.

## The proof

`Topics.Shows` relates the list of the source to a book of the library. Looking up, adding and
erasing on the one side are looking up, adding and renewing on the other, one lemma each. That an id
stands for one name for good is then a fact about books, and that ids of one table are different is
one about the cycle: among 50 consecutive places no id occurs twice.
-/

namespace Emcs.Paho

open Mqttsn

def MAX_TOPIC_PAR_CLIENT : ℕ := 50

structure Topic where
  type : UInt8
  topicId : UInt16
  topicName : List UInt8
  deriving DecidableEq

/-- The list from `_first` on, and what is counted beside it. -/
structure Topics where
  first : List Topic
  nextTopicId : UInt16
  cnt : UInt8
  deriving DecidableEq

/-- The C string at the beginning of the bytes. -/
def cString (s : List UInt8) : List UInt8 := s.takeWhile (· != 0)

namespace Topics

def empty : Topics := ⟨[], 0, 0⟩

def getTopicByName (t : Topics) (name : List UInt8) : Option Topic :=
  t.first.find? (·.topicName == name)

def getTopicById (t : Topics) (type : UInt8) (id : UInt16) : Option Topic :=
  t.first.find? fun p ↦ p.type == type && p.topicId == id

/-- `getNextTopicId`, from the value of `_nextTopicId` to the next. -/
def getNextTopicId (nextTopicId : UInt16) : UInt16 :=
  if nextTopicId + 1 = 0xFFFF then nextTopicId + 1 + 2 else nextTopicId + 1

/-- `add` with a C string: a topic of normal type, or a predefined one if it is given an id. -/
def addTopic (t : Topics) (topicName : List UInt8) (id : UInt16) : Topics × Option Topic :=
  if t.cnt.toNat ≥ MAX_TOPIC_PAR_CLIENT then (t, none)
  else match t.getTopicByName (cString topicName) with
    | some topic => (t, some topic)
    | none =>
      let nextTopicId := if id = 0 then getNextTopicId t.nextTopicId else t.nextTopicId
      let topic : Topic := if id = 0 then ⟨MQTTSN_TOPIC_TYPE_NORMAL, nextTopicId, cString topicName⟩
        else ⟨MQTTSN_TOPIC_TYPE_PREDEFINED, id, cString topicName⟩
      (⟨t.first ++ [topic], nextTopicId, t.cnt + 1⟩, some topic)

/-- `add` with the topic of a packet. -/
def add (t : Topics) (type : UInt8) (name : List UInt8) : Topics × Option Topic :=
  if type ≠ MQTTSN_TOPIC_TYPE_NORMAL then (t, none)
  else match t.getTopicByName name with
    | some topic => (t, some topic)
    | none => t.addTopic name 0

/-- `_cnt` goes down by one with every topic that is erased. -/
def eraseNormal (t : Topics) : Topics where
  first := t.first.filter (·.type != MQTTSN_TOPIC_TYPE_NORMAL)
  nextTopicId := t.nextTopicId
  cnt := t.cnt - UInt8.ofNat (t.first.countP (·.type == MQTTSN_TOPIC_TYPE_NORMAL))

end Topics

/-! ## The counter -/

/-- The value of `_nextTopicId` after `n` ids. -/
def lastId : ℕ → UInt16
  | 0 => 0
  | n + 1 => idAt n

theorem getNextTopicId_lastId (n : ℕ) : Topics.getNextTopicId (lastId n) = idAt n := by
  cases n with
  | zero => rfl
  | succ n =>
    rw [lastId, Topics.getNextTopicId, ← UInt16.toNat_inj]
    have hn := toNat_idAt n
    have hlt : n % 65534 < 65534 := Nat.mod_lt n (by decide)
    have hone : (idAt n + 1).toNat = n % 65534 + 2 := by
      rw [UInt16.toNat_add, hn]
      change (n % 65534 + 1 + 1) % 65536 = _
      omega
    have hmax : idAt n + 1 = 0xFFFF ↔ n % 65534 + 2 = 65535 := by
      rw [← UInt16.toNat_inj, hone]
      rfl
    rw [toNat_idAt (n + 1)]
    split
    · rename_i h
      rw [h]
      have := hmax.mp h
      change 1 = _
      omega
    · rename_i h
      rw [hone]
      have := mt hmax.mpr h
      omega

/-! ## A table is a book -/

def Topic.isNormal (p : Topic) : Bool := p.type == MQTTSN_TOPIC_TYPE_NORMAL

/-- The topic of a name at a place. -/
def Topic.ofEntry (e : List UInt8 × ℕ) : Topic := ⟨MQTTSN_TOPIC_TYPE_NORMAL, idAt e.2, e.1⟩

/-- **The table shows the book**: its normal topics are the names of the book with the ids at their
places, and what it counts is right. -/
structure Topics.Shows (t : Topics) (b : Book (List UInt8)) : Prop where
  normal : t.first.filter Topic.isNormal = b.entries.map Topic.ofEntry
  names : (t.first.map Topic.topicName).Nodup
  room : t.first.length ≤ MAX_TOPIC_PAR_CLIENT
  count : t.cnt.toNat = t.first.length
  counter : t.nextTopicId = lastId b.names.length

namespace Topics.Shows

variable {t : Topics} {b : Book (List UInt8)}

theorem empty : Topics.empty.Shows Book.empty :=
  ⟨rfl, List.nodup_nil, Nat.zero_le _, rfl, rfl⟩

theorem mem_first_iff (h : t.Shows b) {p : Topic} :
    p ∈ t.first ∧ p.isNormal = true ↔ ∃ e ∈ b.entries, Topic.ofEntry e = p := by
  rw [← List.mem_filter, h.normal, List.mem_map]

theorem live_sublist (h : t.Shows b) : b.live.Sublist (t.first.map Topic.topicName) := by
  have hmap : (b.entries.map Topic.ofEntry).map Topic.topicName = b.live := by
    rw [List.map_map]
    exact List.zipIdx_map_fst b.past.length b.live
  rw [← hmap, ← h.normal]
  exact List.filter_sublist.map _

theorem length_live_le (h : t.Shows b) : b.live.length ≤ MAX_TOPIC_PAR_CLIENT := by
  have hle := h.live_sublist.length_le
  rw [List.length_map] at hle
  exact hle.trans h.room

/-- The ids of one table lie within one round of the cycle. -/
theorem place_of_id (h : t.Shows b) {e e' : List UInt8 × ℕ} (he : e ∈ b.entries)
    (he' : e' ∈ b.entries) (hid : idAt e.2 = idAt e'.2) : e = e' := by
  obtain ⟨k, m⟩ := e
  obtain ⟨k', n⟩ := e'
  have hm := Book.mem_entries_iff.mp he
  have hn := Book.mem_entries_iff.mp he'
  have hlen := h.length_live_le
  have hmlt := hm.2.lt
  have hnlt := hn.2.lt
  rw [Book.names, List.length_append] at hmlt hnlt
  have hplace : m = n := by
    have hmod : m % 65534 = n % 65534 := idAt_eq_idAt_iff.mp hid
    rw [MAX_TOPIC_PAR_CLIENT] at hlen
    omega
  subst hplace
  rw [hm.2.unique hn.2]

/-! ### Looking up -/

/-- **A topic is found by the id at the place of its name.** -/
theorem getTopicById_eq (h : t.Shows b) {name : List UInt8} {n : ℕ} (he : (name, n) ∈ b.entries) :
    t.getTopicById MQTTSN_TOPIC_TYPE_NORMAL (idAt n) = some (.ofEntry (name, n)) := by
  have hmem := h.mem_first_iff.mpr ⟨_, he, rfl⟩
  obtain ⟨p, hp⟩ : ∃ p, t.getTopicById MQTTSN_TOPIC_TYPE_NORMAL (idAt n) = some p := by
    rw [← Option.isSome_iff_exists, getTopicById, List.find?_isSome]
    exact ⟨_, hmem.1, by simp [Topic.ofEntry]⟩
  have hfound := List.find?_some hp
  rw [Bool.and_eq_true, beq_iff_eq, beq_iff_eq] at hfound
  obtain ⟨e, he', rfl⟩ := h.mem_first_iff.mp
    ⟨List.mem_of_find?_eq_some hp, beq_iff_eq.mpr hfound.1⟩
  rw [hp, h.place_of_id he' he hfound.2]

theorem of_getTopicById (h : t.Shows b) {id : UInt16} {p : Topic}
    (hp : t.getTopicById MQTTSN_TOPIC_TYPE_NORMAL id = some p) :
    ∃ n, (p.topicName, n) ∈ b.entries ∧ id = idAt n := by
  have hfound := List.find?_some hp
  rw [Bool.and_eq_true, beq_iff_eq, beq_iff_eq] at hfound
  obtain ⟨⟨name, n⟩, he, rfl⟩ := h.mem_first_iff.mp
    ⟨List.mem_of_find?_eq_some hp, beq_iff_eq.mpr hfound.1⟩
  exact ⟨n, he, hfound.2.symm⟩

theorem mem_of_getTopicByName {name : List UInt8} {p : Topic}
    (hp : t.getTopicByName name = some p) : p ∈ t.first ∧ p.topicName = name := by
  rw [getTopicByName] at hp
  have hname := List.find?_some hp
  exact ⟨List.mem_of_find?_eq_some hp, beq_iff_eq.mp hname⟩

theorem ne_of_getTopicByName {name : List UInt8} (hnone : t.getTopicByName name = none) :
    name ∉ t.first.map Topic.topicName := by
  intro hmem
  obtain ⟨p, hp, rfl⟩ := List.mem_map.mp hmem
  exact absurd (beq_self_eq_true p.topicName) (List.find?_eq_none.mp hnone p hp)

/-- **A topic is found by its name.** -/
theorem getTopicByName_eq (h : t.Shows b) {p : Topic} (hp : p ∈ t.first) :
    t.getTopicByName p.topicName = some p := by
  cases hq : t.getTopicByName p.topicName with
  | none => exact absurd (List.mem_map_of_mem hp) (ne_of_getTopicByName hq)
  | some q =>
    obtain ⟨hmem, hname⟩ := mem_of_getTopicByName hq
    rw [List.inj_on_of_nodup_map h.names hmem hp hname]

/-! ### Adding and erasing -/

/-- What `add` can do: refuse, find the topic, or append it. -/
theorem addTopic_cases (h : t.Shows b) (topicName : List UInt8) (id : UInt16) :
    t.addTopic topicName id = (t, none) ∧ t.first.length = MAX_TOPIC_PAR_CLIENT ∨
    (∃ p ∈ t.first, p.topicName = cString topicName ∧ t.addTopic topicName id = (t, some p)) ∨
    t.first.length < MAX_TOPIC_PAR_CLIENT ∧ cString topicName ∉ t.first.map Topic.topicName ∧
      t.addTopic topicName id =
        if id = 0 then
          let topic := Topic.ofEntry (cString topicName, b.names.length)
          (⟨t.first ++ [topic], lastId (b.names.length + 1), t.cnt + 1⟩, some topic)
        else
          let topic : Topic := ⟨MQTTSN_TOPIC_TYPE_PREDEFINED, id, cString topicName⟩
          (⟨t.first ++ [topic], t.nextTopicId, t.cnt + 1⟩, some topic) := by
  rw [Topics.addTopic, h.count]
  split
  · rename_i hfull
    exact Or.inl ⟨rfl, Nat.le_antisymm h.room hfull⟩
  · rename_i hroom
    cases hfind : t.getTopicByName (cString topicName) with
    | some p =>
      obtain ⟨hmem, hname⟩ := mem_of_getTopicByName hfind
      exact Or.inr (Or.inl ⟨p, hmem, hname, rfl⟩)
    | none =>
      refine Or.inr (Or.inr ⟨Nat.lt_of_not_le hroom, ne_of_getTopicByName hfind, ?_⟩)
      rw [h.counter, getNextTopicId_lastId]
      by_cases hid : id = 0
      · simp only [if_pos hid]
        rfl
      · simp only [if_neg hid]

theorem succ_count (h : t.Shows b) (hlt : t.first.length < MAX_TOPIC_PAR_CLIENT) (p : Topic) :
    (t.cnt + 1).toNat = (t.first ++ [p]).length := by
  rw [UInt8.toNat_add, h.count, List.length_append, List.length_singleton]
  rw [MAX_TOPIC_PAR_CLIENT] at hlt
  exact Nat.mod_eq_of_lt (by change _ + 1 < 256; omega)

theorem nodup_names_append (h : t.Shows b) {p : Topic}
    (hnew : p.topicName ∉ t.first.map Topic.topicName) :
    ((t.first ++ [p]).map Topic.topicName).Nodup := by
  rw [List.map_append, List.map_singleton, ← List.concat_eq_append]
  exact h.names.concat hnew

/-- A new name takes the next id. -/
theorem append_normal (h : t.Shows b) {name : List UInt8}
    (hlt : t.first.length < MAX_TOPIC_PAR_CLIENT) (hnew : name ∉ t.first.map Topic.topicName) :
    Topics.Shows ⟨t.first ++ [.ofEntry (name, b.names.length)], lastId (b.names.length + 1),
      t.cnt + 1⟩ (b.intern MAX_TOPIC_PAR_CLIENT name) := by
  have hroom : b.live.length < MAX_TOPIC_PAR_CLIENT := by
    have hle := h.live_sublist.length_le
    rw [List.length_map] at hle
    exact hle.trans_lt hlt
  have hbook : b.intern MAX_TOPIC_PAR_CLIENT name = ⟨b.past, b.live ++ [name]⟩ := by
    rw [Book.intern, if_neg]
    rintro (hmem | hfull)
    · exact hnew (h.live_sublist.mem hmem)
    · exact absurd hroom (Nat.not_lt.mpr hfull)
  rw [hbook]
  refine ⟨?_, h.nodup_names_append hnew, ?_, h.succ_count hlt _, ?_⟩
  · rw [List.filter_append, h.normal, Book.entries, Book.entries, List.zipIdx_append,
      List.map_append, Book.names, List.length_append]
    rfl
  · rw [List.length_append]
    exact hlt
  · have hlen : (b.past ++ (b.live ++ [name])).length = b.names.length + 1 := by
      rw [← List.append_assoc, List.length_append]
      rfl
    exact congrArg lastId hlen.symm

theorem append_predefined (h : t.Shows b) {name : List UInt8}
    (hlt : t.first.length < MAX_TOPIC_PAR_CLIENT) (hnew : name ∉ t.first.map Topic.topicName)
    (id : UInt16) : Topics.Shows ⟨t.first ++ [⟨MQTTSN_TOPIC_TYPE_PREDEFINED, id, name⟩],
      t.nextTopicId, t.cnt + 1⟩ b := by
  refine ⟨?_, h.nodup_names_append hnew, ?_, h.succ_count hlt _, h.counter⟩
  · rw [List.filter_append, h.normal]
    exact List.append_nil _
  · rw [List.length_append]
    exact hlt

/-- A topic that is new in the table is normal, or a predefined one as it was asked for. -/
theorem mem_addTopic (h : t.Shows b) {topicName : List UInt8} {id : UInt16} {p : Topic}
    (hp : p ∈ (t.addTopic topicName id).1.first) : p ∈ t.first ∨ p.isNormal = true ∨
      id ≠ 0 ∧ p = ⟨MQTTSN_TOPIC_TYPE_PREDEFINED, id, cString topicName⟩ := by
  rcases h.addTopic_cases topicName id with ⟨heq, -⟩ | ⟨q, -, -, heq⟩ | ⟨-, -, heq⟩
  · rw [heq] at hp
    exact Or.inl hp
  · rw [heq] at hp
    exact Or.inl hp
  · by_cases hid : id = 0
    · rw [heq, if_pos hid] at hp
      refine (List.mem_append.mp hp).imp_right fun hnew ↦ Or.inl ?_
      rw [List.mem_singleton.mp hnew]
      rfl
    · rw [heq, if_neg hid] at hp
      exact (List.mem_append.mp hp).imp_right fun hnew ↦ Or.inr ⟨hid, List.mem_singleton.mp hnew⟩

/-- **Adding a topic** leaves the names and places that there are, and a topic that it returns is
in the table under the name asked for. -/
theorem addTopic (h : t.Shows b) (topicName : List UInt8) (id : UInt16) :
    ∃ b', (t.addTopic topicName id).1.Shows b' ∧
      (b' = b ∨ b' = b.intern MAX_TOPIC_PAR_CLIENT (cString topicName)) ∧
      ∀ p, (t.addTopic topicName id).2 = some p →
        p ∈ (t.addTopic topicName id).1.first ∧ p.topicName = cString topicName := by
  rcases h.addTopic_cases topicName id with ⟨heq, -⟩ | ⟨p, hp, hname, heq⟩ | ⟨hlt, hnew, heq⟩
  · rw [heq]
    exact ⟨b, h, Or.inl rfl, fun q hq ↦ absurd hq (by simp)⟩
  · rw [heq]
    refine ⟨b, h, Or.inl rfl, fun q hq ↦ ?_⟩
    rw [← Option.some.inj hq]
    exact ⟨hp, hname⟩
  · by_cases hid : id = 0
    · rw [heq, if_pos hid]
      refine ⟨_, h.append_normal hlt hnew, Or.inr rfl, fun q hq ↦ ?_⟩
      rw [← Option.some.inj hq]
      exact ⟨List.mem_append_right _ (List.mem_singleton_self _), rfl⟩
    · rw [heq, if_neg hid]
      refine ⟨b, h.append_predefined hlt hnew id, Or.inl rfl, fun q hq ↦ ?_⟩
      rw [← Option.some.inj hq]
      exact ⟨List.mem_append_right _ (List.mem_singleton_self _), rfl⟩

/-- The topic of a packet is found under its name, or added under the C string in it. -/
theorem add (h : t.Shows b) (type : UInt8) (name : List UInt8) :
    ∃ b', (t.add type name).1.Shows b' ∧
      (b' = b ∨ b' = b.intern MAX_TOPIC_PAR_CLIENT (cString name)) ∧
      ∀ p, (t.add type name).2 = some p →
        p ∈ (t.add type name).1.first ∧ (p.topicName = name ∨ p.topicName = cString name) := by
  rw [Topics.add]
  split
  · exact ⟨b, h, Or.inl rfl, fun p hp ↦ absurd hp (by simp)⟩
  · cases hfind : t.getTopicByName name with
    | some q =>
      refine ⟨b, h, Or.inl rfl, fun p hp ↦ ?_⟩
      obtain ⟨hmem, hname⟩ := mem_of_getTopicByName hfind
      rw [← Option.some.inj hp]
      exact ⟨hmem, Or.inl hname⟩
    | none =>
      obtain ⟨b', hb', hor, hres⟩ := h.addTopic name 0
      exact ⟨b', hb', hor, fun p hp ↦ ⟨(hres p hp).1, Or.inr (hres p hp).2⟩⟩

/-- **A new session** lets the names go, not their places. -/
theorem eraseNormal (h : t.Shows b) : t.eraseNormal.Shows b.renew := by
  have hsub : t.eraseNormal.first.Sublist t.first := List.filter_sublist
  refine ⟨?_, (hsub.map _).nodup h.names, hsub.length_le.trans h.room, ?_, ?_⟩
  · rw [Topics.eraseNormal, List.filter_filter, List.filter_eq_nil_iff.mpr]
    · rfl
    · intro p _
      rw [Topic.isNormal, bne, Bool.and_not_self]
      exact Bool.false_ne_true
  · have hsplit : t.first.length = t.first.countP (·.type == MQTTSN_TOPIC_TYPE_NORMAL)
        + t.eraseNormal.first.length := by
      rw [Topics.eraseNormal, ← List.countP_eq_length_filter]
      refine (List.length_eq_countP_add_countP (·.type == MQTTSN_TOPIC_TYPE_NORMAL)).trans ?_
      refine congrArg (_ + ·) (List.countP_congr fun p _ ↦ ?_)
      rw [bne, decide_eq_true_iff, Bool.not_eq_true, Bool.not_eq_true']
    have hroom := h.room
    rw [MAX_TOPIC_PAR_CLIENT] at hroom
    have hcount : t.eraseNormal.cnt.toNat = (256 - t.first.countP
        (·.type == MQTTSN_TOPIC_TYPE_NORMAL) % 256 + t.first.length) % 256 := by
      rw [Topics.eraseNormal, UInt8.toNat_sub, UInt8.toNat_ofNat', h.count]
    omega
  · rw [Book.names_renew]
    exact h.counter

end Topics.Shows

end Emcs.Paho
