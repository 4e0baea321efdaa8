import Emcs.Paho.Clients

/-!
# What is kept of a client

What a client has received and was sent only grows, and a service of the session keeps it in order:
what lies between two moments of the gateway is for the client at most one step of its own.

## The use

The end-to-end results follow one client through the steps of the gateway. `Session.Grows` is what
is true of any step of its session, and `serves` what becomes of the invariant, with a bound on the
ids that are given out. Both pass from a step of the session to a service of it, after which events
may be lost.
-/

namespace Emcs.Paho

variable {common : CommonTopics} {b : TopicBook} {packets : List SnPacket} {s s' s'' : Session}

/-- All that was received before is there, and what is new is one of the packets. -/
structure Session.Grows (packets : List SnPacket) (s s' : Session) : Prop where
  received : ∀ packet ∈ s'.received, packet ∈ s.received ∨ packet ∈ packets
  fromBroker : s.fromBroker ⊆ s'.fromBroker
  toClient : s.toClient ⊆ s'.toClient

namespace Session.Grows

theorem same (hreceived : s'.received = s.received) (hbroker : s'.fromBroker = s.fromBroker)
    (hclient : s'.toClient = s.toClient) : s.Grows packets s' where
  received _ hp := Or.inl (hreceived ▸ hp)
  fromBroker _ hm := hbroker.symm ▸ hm
  toClient _ hr := hclient.symm ▸ hr

theorem refl (packets : List SnPacket) (s : Session) : s.Grows packets s := same rfl rfl rfl

theorem trans (h : s.Grows packets s') (h' : s'.Grows packets s'') : s.Grows packets s'' where
  received packet hp := (h'.received packet hp).elim (h.received packet) Or.inr
  fromBroker := List.Subset.trans h.fromBroker h'.fromBroker
  toClient := List.Subset.trans h.toClient h'.toClient

/-- **A step of a task** adds to what is noted. -/
theorem step (common : CommonTopics) (s : Session) (e : TaskStep)
    (he : ∀ packet, e = .clientRecv packet → packet ∈ packets) :
    s.Grows packets (s.step common e) := by
  rw [Session.step.eq_def]
  split
  swap
  · exact .refl packets s
  cases e with
  | clientRecv packet =>
    dsimp only
    rw [Session.clientRecv]
    split
    · exact same rfl rfl rfl
    · refine ⟨fun x hx ↦ ?_, fun _ ↦ id, fun _ ↦ id⟩
      rcases List.mem_append.mp hx with hx | hx
      · exact Or.inl hx
      · rw [List.mem_singleton.mp hx]
        exact Or.inr (he packet rfl)
  | packetHandle =>
    dsimp only
    rw [Session.packetHandle]
    split
    · split <;> exact same rfl rfl rfl
    · split <;> exact same rfl rfl rfl
    · exact same rfl rfl rfl
  | updateStatus =>
    dsimp only
    rw [Session.updateStatus]
    split <;> exact same rfl rfl rfl
  | brokerSend result =>
    dsimp only
    rw [Session.brokerSend]
    split
    · exact same rfl rfl rfl
    cases result with
    | refused =>
      dsimp only
      split <;> exact same rfl rfl rfl
    | sent => exact same rfl rfl rfl
    | failed closed => exact same rfl rfl rfl
  | brokerRecv packet =>
    dsimp only
    rw [Session.brokerRecv]
    split
    · exact ⟨fun _ ↦ Or.inl, List.subset_append_left _ _, fun _ ↦ id⟩
    · exact same rfl rfl rfl
  | brokerLost disconnected =>
    dsimp only
    rw [Session.brokerLost]
    split <;> exact same rfl rfl rfl
  | clientSend =>
    dsimp only
    rw [Session.clientSend]
    split
    · exact same rfl rfl rfl
    · exact ⟨fun _ ↦ Or.inl, fun _ ↦ id, List.subset_append_left _ _⟩
  | discard i => exact same rfl rfl rfl

theorem run (common : CommonTopics) (s : Session) (es : List TaskStep)
    (hes : ∀ packet, .clientRecv packet ∈ es → packet ∈ packets) :
    s.Grows packets (Trace.run (Session.step common) s es) := by
  induction es generalizing s with
  | nil => exact .refl packets s
  | cons e es ih =>
    have hstep := step common s e fun packet heq ↦ hes packet (heq ▸ List.mem_cons_self)
    exact hstep.trans (ih _ fun packet hmem ↦ hes packet (List.mem_cons_of_mem _ hmem))

theorem of_serves (h : s.Serves common packets s') : s.Grows packets s' := by
  rcases h with rfl | ⟨e, m, i, he, rfl⟩
  · exact .refl packets s'
  · refine run common s _ fun packet hmem ↦ ?_
    rcases List.mem_cons.mp hmem with heq | hmem
    · exact he packet heq.symm
    · have hdiscard := List.eq_of_mem_replicate hmem
      contradiction

end Session.Grows

namespace Session.Good

theorem discards (hs : s.Good common b) (i m : ℕ) :
    (Trace.run (Session.step common) s (List.replicate m (.discard i))).Good common b := by
  induction m generalizing s with
  | zero => exact hs
  | succ m ih =>
    rw [List.replicate_succ, Trace.run_cons]
    apply ih
    rw [Session.step.eq_def]
    split
    · exact hs.discard i
    · exact hs

/-- **A service keeps the order**, and gives out one id at most. -/
theorem serves (hs : s.Good common b) (h : s.Serves common packets s') :
    ∃ b' : TopicBook, b.Step b' ∧ s'.Good common b' := by
  rcases h with rfl | ⟨e, m, i, -, rfl⟩
  · exact ⟨b, .refl b, hs⟩
  · obtain ⟨b', hstep, hs'⟩ := hs.step e
    exact ⟨b', hstep, hs'.discards i m⟩

end Session.Good

end Emcs.Paho
