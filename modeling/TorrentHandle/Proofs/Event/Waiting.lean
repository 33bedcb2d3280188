import TorrentHandle.Proofs.Event.Run

/-!
Waiting for an event and asking for one that is there already. After a lag the channel is asked
again, and it then stands at the oldest event that is held, so there is one: asking once more is
enough, and waiting ends with the event that asking gives. Where asking gives none, waiting goes on
as long as anyone is left who could publish.
-/

namespace TorrentHandle

variable {α : Type}

namespace Bus

variable {b : Bus α} {s s' : Subscription α} {answer : Option (Numbered α)} {d d' : ℕ}

/-! ### Asking until there is no lag -/

/-- What a stream gives that takes its backlog first and then asks the channel again after each
lag. -/
inductive Takes (b : Bus α) : Subscription α → Option (Numbered α) → Subscription α → Prop where
  | replay (e : Numbered α) (rest : List (Numbered α)) (d : ℕ) :
    b.Takes ⟨e :: rest, d⟩ (some e) ⟨rest, d⟩
  | item {d d' : ℕ} {e : Numbered α} (got : b.receive d = (.item e, d')) :
    b.Takes ⟨[], d⟩ (some e) ⟨[], d'⟩
  | again {d d' missed : ℕ} {answer : Option (Numbered α)} {s : Subscription α}
    (got : b.receive d = (.lagged missed, d')) (later : b.Takes ⟨[], d'⟩ answer s) :
    b.Takes ⟨[], d⟩ answer s
  | empty {d d' : ℕ} (got : b.receive d = (.empty, d')) : b.Takes ⟨[], d⟩ none ⟨[], d'⟩
  | closed {d d' : ℕ} (got : b.receive d = (.closed, d')) : b.Takes ⟨[], d⟩ none ⟨[], d'⟩

lemma receive_of_lt (lagging : d < b.lost) : b.receive d = (.lagged (b.lost - d), b.lost) :=
  if_pos lagging

lemma receive_of_le (held : b.lost ≤ d) : b.receive d =
    match b.events[d]? with
    | some event => (.item ⟨d + 1, event⟩, d + 1)
    | none => (if b.publishers = 0 then .closed else .empty, d) :=
  if_neg (Nat.not_lt.2 held)

lemma receive_lost (lagging : d < b.lost) : ∃ e, b.receive b.lost = (.item e, b.lost + 1) := by
  have size := b.channelSize_pos
  have inside : b.lost < b.events.size := by unfold lost published at *; omega
  refine ⟨⟨b.lost + 1, b.events[b.lost]⟩, ?_⟩
  rw [receive_of_le le_rfl, Array.getElem?_eq_getElem inside]

/-- A lag does nothing but set the stream to the oldest event that is held. -/
lemma tryNext_of_lagging (lagging : d < b.lost) : b.tryNext ⟨[], d⟩ = b.tryNext ⟨[], b.lost⟩ := by
  obtain ⟨e, got⟩ := receive_lost lagging
  simp only [tryNext, receive_of_lt lagging, got]

lemma next_of_lagging (lagging : d < b.lost) : b.next ⟨[], d⟩ = b.next ⟨[], b.lost⟩ := by
  obtain ⟨e, got⟩ := receive_lost lagging
  simp only [next, receive_of_lt lagging, got]

lemma takes_tryNext (b : Bus α) (s : Subscription α) :
    b.Takes s (b.tryNext s).1 (b.tryNext s).2 := by
  obtain ⟨_ | ⟨e, rest⟩, d⟩ := s
  · have held : ∀ {d}, b.lost ≤ d →
        b.Takes ⟨[], d⟩ (b.tryNext ⟨[], d⟩).1 (b.tryNext ⟨[], d⟩).2 := by
      intro d held
      cases there : b.events[d]? with
      | some event =>
        have got : b.receive d = (.item ⟨d + 1, event⟩, d + 1) := by
          rw [receive_of_le held, there]
        simp only [tryNext, got]
        exact .item got
      | none =>
        by_cases gone : b.publishers = 0
        · have got : b.receive d = (.closed, d) := by
            rw [receive_of_le held, there, if_pos gone]
          simp only [tryNext, got]
          exact .closed got
        · have got : b.receive d = (.empty, d) := by
            rw [receive_of_le held, there, if_neg gone]
          simp only [tryNext, got]
          exact .empty got
    by_cases lagging : d < b.lost
    · rw [tryNext_of_lagging lagging]
      exact .again (receive_of_lt lagging) (held le_rfl)
    · exact held (Nat.not_lt.1 lagging)
  · exact .replay e rest d

/-- **Asking once more after a lag is enough.** -/
theorem takes_iff : b.Takes s answer s' ↔ b.tryNext s = (answer, s') := by
  constructor
  · intro takes
    induction takes with
    | replay => rfl
    | @again d d' missed answer s got later ih =>
      by_cases lagging : d < b.lost
      · rw [receive_of_lt lagging] at got
        cases got
        rw [tryNext_of_lagging lagging, ih]
      · rw [receive_of_le (Nat.not_lt.1 lagging)] at got
        split at got
        · cases got
        · split at got <;> cases got
    | item got | empty got | closed got => simp only [tryNext, got]
  · intro given
    have takes := takes_tryNext b s
    rwa [given] at takes

/-! ### Waiting -/

/-- What waiting comes to when asking gives an answer. -/
def poll (b : Bus α) : Option (Numbered α) → Poll α
  | some e => .ready (some e)
  | none => if b.publishers = 0 then .ready none else .pending

theorem next_eq (b : Bus α) (s : Subscription α) :
    b.next s = (b.poll (b.tryNext s).1, (b.tryNext s).2) := by
  obtain ⟨_ | ⟨e, rest⟩, d⟩ := s
  · have held : ∀ {d}, b.lost ≤ d →
        b.next ⟨[], d⟩ = (b.poll (b.tryNext ⟨[], d⟩).1, (b.tryNext ⟨[], d⟩).2) := by
      intro d held
      have got := receive_of_le held
      cases there : b.events[d]? with
      | some event =>
        simp only [there] at got
        simp only [next, tryNext, got, poll]
      | none =>
        simp only [there] at got
        by_cases gone : b.publishers = 0 <;>
          simp only [next, tryNext, got, poll, gone, if_true, if_false]
    by_cases lagging : d < b.lost
    · rw [next_of_lagging lagging, tryNext_of_lagging lagging]
      exact held le_rfl
    · exact held (Nat.not_lt.1 lagging)
  · rfl

lemma poll_eq_ready {e : Numbered α} : b.poll answer = .ready (some e) ↔ answer = some e := by
  unfold poll
  split
  · simp
  · split <;> simp

lemma poll_eq_closed : b.poll answer = .ready none ↔ answer = none ∧ b.publishers = 0 := by
  unfold poll
  split
  · simp
  · split <;> simp_all

lemma poll_eq_pending : b.poll answer = .pending ↔ answer = none ∧ b.publishers ≠ 0 := by
  unfold poll
  split
  · simp
  · split <;> simp_all

end Bus

/-! ### Buses that are reached -/

namespace Hub

/-- The bus and its streams are reached by operations, and so many are left of the bus and its
clones. Who is left may publish, subscribe, clone and drop; streams are read all the same, by asking
or by waiting. -/
inductive Reached : ℕ → Hub α → Prop where
  | start {capacity : ℕ} {bus : Bus α} (made : Bus.ofCapacity? capacity = some bus) :
    Reached 1 { bus }
  | publish {left : ℕ} {h : Hub α} (reached : Reached (left + 1) h) (event : α) :
    Reached (left + 1) (h.step (.publish event)).2
  | subscribe {left : ℕ} {h : Hub α} (reached : Reached (left + 1) h) (since : Option ℕ) :
    Reached (left + 1) (h.step (.subscribe since)).2
  | clone {left : ℕ} {h : Hub α} (reached : Reached (left + 1) h) :
    Reached (left + 2) (h.step .clone).2
  | drop {left : ℕ} {h : Hub α} (reached : Reached (left + 1) h) :
    Reached left (h.step .drop).2
  | tryNext {left : ℕ} {h : Hub α} (reached : Reached left h) (stream : ℕ) :
    Reached left (h.step (.tryNext stream)).2
  | next {left stream : ℕ} {h : Hub α} {s : Subscription α} (reached : Reached left h)
    (there : h.streams[stream]? = some s) :
    Reached left { h with streams := h.streams.setIfInBounds stream (h.bus.next s).2 }

lemma Reached.publishers {left : ℕ} {h : Hub α} (reached : Reached left h) :
    h.bus.publishers = left := by
  induction reached with
  | start made =>
    unfold Bus.ofCapacity? at made
    split at made
    · cases made
      rfl
    · cases made
  | publish _ _ ih | subscribe _ _ ih | next _ _ ih => exact ih
  | clone _ ih => exact congrArg (· + 1) ih
  | drop _ ih => exact congrArg (· - 1) ih
  | tryNext _ stream ih =>
    simp only [step]
    split <;> exact ih

/-- **Waiting agrees with asking.** In every state that a bus and a stream of it can reach, asking
until there is no lag comes to an end. Waiting is done with an event exactly when asking gives it,
and leaves the stream as asking does. Where asking gives none, waiting goes on exactly as long as the
bus or a clone of it is left, and ends without an event exactly when none is. So a stream that lags
behind the channel is never told that the bus is gone. -/
theorem waiting_agrees {left : ℕ} {h : Hub α} (reached : Reached left h) {stream : ℕ}
    {s : Subscription α} (there : h.streams[stream]? = some s) :
    let asked := h.bus.tryNext s
    let waited := h.bus.next s
    (∀ answer s', h.bus.Takes s answer s' ↔ asked = (answer, s')) ∧
    waited.2 = asked.2 ∧
    (∀ e, waited.1 = .ready (some e) ↔ asked.1 = some e) ∧
    (waited.1 = .pending ↔ asked.1 = none ∧ 0 < left) ∧
    (waited.1 = .ready none ↔ asked.1 = none ∧ left = 0) ∧
    (s.passed < h.bus.lost → ∃ e, waited.1 = .ready (some e)) := by
  intro asked waited
  have same : waited = (h.bus.poll asked.1, asked.2) := Bus.next_eq h.bus s
  rw [same, ← reached.publishers, Nat.pos_iff_ne_zero]
  refine ⟨fun _ _ => Bus.takes_iff, rfl, fun e => Bus.poll_eq_ready, Bus.poll_eq_pending,
    Bus.poll_eq_closed, fun lagging => ?_⟩
  obtain ⟨_ | ⟨e, rest⟩, d⟩ := s
  · obtain ⟨e, -, given⟩ := Bus.tryNext_of_lt (Nat.lt_of_lt_of_le lagging (Nat.sub_le _ _))
    exact ⟨e, Bus.poll_eq_ready.2 (congrArg Prod.fst given)⟩
  · exact ⟨e, rfl⟩

theorem dropped_bus_waiting_agrees : ∃ (h : Hub ℕ) (s : Subscription ℕ),
    Reached 0 h ∧ h.streams[0]? = some s ∧ s.passed < h.bus.lost ∧
    h.bus.next s = (.ready (some ⟨2, 20⟩), ⟨[], 2⟩) ∧
    h.bus.next ⟨[], 3⟩ = (.ready none, ⟨[], 3⟩) ∧
    ∃ e, (h.bus.next s).1 = .ready (some e) := by
  have made : Bus.ofCapacity? 2 = some (⟨2, by decide, #[], 1⟩ : Bus ℕ) := rfl
  have cloned := ((Reached.start made).subscribe none).clone
  have told := ((cloned.publish 10).publish 20).publish 30
  have gone := told.drop.drop
  refine ⟨_, ⟨[], 0⟩, gone, rfl, by decide, rfl, rfl, ?_⟩
  exact (waiting_agrees gone (Array.getElem?_eq_getElem (by decide : 0 < 1))).2.2.2.2.2 (by decide)

end Hub

end TorrentHandle
