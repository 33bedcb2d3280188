import TorrentHandle.Proofs.Event.Ring

/-!
A bus with its streams as they are kept in cells. Besides the ring there is a channel with a fixed
number of slots, and numbers are words throughout: a stream is subscribed with a word, what it
replays is picked out of the queue by comparing words, and the channel passes on events with the
words that they were given. `EventCells.Mirrors` relates this to the hub that has all events. As
long as the words have not run out, a run in cells is answered as the hub answers it.
-/

namespace TorrentHandle

variable {α : Type}

/-- An event with its number in a word. -/
def Numbered.inWords (e : Numbered α) : UInt64 × α := (.ofNat e.id, e.event)

def Numbered.ofWords (e : UInt64 × α) : Numbered α := ⟨e.1.toNat, e.2⟩

namespace Hub

/-- Someone can do the operation: a publisher or the stream is there, and a number fits a word. -/
def allows (h : Hub α) : Op α → Bool
  | .publish _ | .clone | .drop => 0 < h.bus.publishers
  | .subscribe since => since.all (· < 2 ^ 64)
  | .tryNext stream => stream < h.streams.size

def allowsAll (h : Hub α) : List (Op α) → Bool
  | [] => true
  | op :: ops => h.allows op && (h.step op).2.allowsAll ops

end Hub

/-! ### Cells -/

structure EventCells.Stream (α : Type) where
  backlog : List (UInt64 × α)
  /-- How many events the channel had passed on when this stream was at its place in it. -/
  passed : ℕ

structure EventCells (α : Type) where
  ring : ReplayRing α
  /-- Number of slots. -/
  size : ℕ
  slots : List (UInt64 × α) := []
  /-- How many events have gone into the channel. -/
  sent : ℕ := 0
  streams : Array (EventCells.Stream α) := #[]

namespace EventCells

def ofCapacity (capacity : ℕ) : EventCells α :=
  { ring := { capacities := [capacity] }, size := roundedUp capacity }

def publish (c : EventCells α) (capacity : ℕ) (event : α) : EventCells α :=
  { c with
    ring := c.ring.publish capacity event
    slots := (if c.slots.length = c.size then c.slots.tail else c.slots) ++ [(c.ring.next, event)]
    sent := c.sent + 1 }

def subscribe (c : EventCells α) (since : Option UInt64) : Stream α where
  backlog := match since with
    | some id => c.ring.queue.filter fun e => id < e.1
    | none => []
  passed := c.sent

/-- The replay first, then the next event in the slots, or the oldest one if the next is gone. -/
def tryNext (c : EventCells α) (s : Stream α) : Option (UInt64 × α) × Stream α :=
  match s.backlog with
  | e :: rest => (some e, { s with backlog := rest })
  | [] =>
    let lost := c.sent - c.slots.length
    let passed := max s.passed lost
    match c.slots[passed - lost]? with
    | some e => (some e, ⟨[], passed + 1⟩)
    | none => (none, ⟨[], passed⟩)

/-- One operation through the bus or any of its clones, or on a stream, with its answer. -/
inductive Step (c : EventCells α) : Hub.Entry α → EventCells α → Prop where
  | publish {k : ℕ} (there : k ∈ c.ring.capacities) (event : α) :
    c.Step ⟨.publish event, c.ring.next.toNat⟩ (c.publish k event)
  | subscribe (since : Option UInt64) :
    c.Step ⟨.subscribe (since.map UInt64.toNat), c.streams.size⟩
      { c with streams := c.streams.push (c.subscribe since) }
  | tryNext {stream : ℕ} {s : Stream α} (there : c.streams[stream]? = some s) :
    c.Step ⟨.tryNext stream, (c.tryNext s).1.map Numbered.ofWords⟩
      { c with streams := c.streams.setIfInBounds stream (c.tryNext s).2 }
  | clone {k : ℕ} (there : k ∈ c.ring.capacities) :
    c.Step ⟨.clone, ()⟩ { c with ring.capacities := k :: c.ring.capacities }
  | drop {k : ℕ} (there : k ∈ c.ring.capacities) :
    c.Step ⟨.drop, ()⟩ { c with ring.capacities := c.ring.capacities.erase k }

/-- Operations in order with their answers. -/
inductive Run (start : EventCells α) : List (Hub.Entry α) → EventCells α → Prop where
  | nil : start.Run [] start
  | concat {past : List (Hub.Entry α)} {c c' : EventCells α} {entry : Hub.Entry α}
      (run : start.Run past c) (step : c.Step entry c') : start.Run (past ++ [entry]) c'

/-! ### The cells and the hub -/

/-- The cells are what a hub that has all events says. -/
structure Mirrors (c : EventCells α) (h : Hub α) : Prop where
  ring : ∃ ids, c.ring.Mirrors ids h.bus
  publishers : c.ring.capacities.length = h.bus.publishers
  size : c.size = h.bus.channelSize
  slots : c.slots = h.bus.held.map Numbered.inWords
  sent : c.sent = h.bus.published
  streams : c.streams = h.streams.map fun s => ⟨s.backlog.map Numbered.inWords, s.passed⟩
  /-- No stream replays what is yet to come. -/
  past : ∀ s ∈ h.streams, ∀ e ∈ s.backlog, e.id ≤ h.bus.published

namespace Mirrors

variable {c c' : EventCells α} {h : Hub α} {b : Bus α} {e : Numbered α} {n k : ℕ}

lemma toNat_ofNat_of_le (small : n ≤ b.published) (few : b.published < 2 ^ 64) :
    (UInt64.ofNat n).toNat = n :=
  UInt64.toNat_ofNat_of_lt' (by rw [UInt64.size]; omega)

lemma start {capacity : ℕ} (made : Bus.ofCapacity? capacity = some b) :
    (ofCapacity capacity).Mirrors { bus := b } := by
  obtain ⟨holds, fresh, one⟩ := Bus.of_ofCapacity? made
  have none : b.published = 0 := by rw [Bus.published, fresh, Array.size_empty]
  refine ⟨⟨[], .start made⟩, one.symm, ?_, ?_, none.symm, by simp [ofCapacity], by simp⟩
  · rw [Bus.channelSize, holds]
    rfl
  · rw [Bus.held, List.eq_nil_of_length_eq_zero (Bus.length_log.trans none), List.drop_nil]
    rfl

lemma publish (mirrors : c.Mirrors h) (there : k ∈ c.ring.capacities) (event : α) :
    (c.publish k event).Mirrors { h with bus := h.bus.publish event } := by
  obtain ⟨ids, ring⟩ := mirrors.ring
  refine ⟨⟨_, ring.publish there event⟩, mirrors.publishers, mirrors.size, ?_, ?_,
    mirrors.streams, ?_⟩
  · rw [EventCells.publish, Bus.held_publish, List.map_append, mirrors.slots, List.length_map,
      mirrors.size, ring.next]
    split <;> simp [Numbered.inWords]
  · rw [Bus.published_publish, ← mirrors.sent]
    rfl
  · intro s there e inside
    rw [Bus.published_publish]
    exact (mirrors.past s there e inside).trans (Nat.le_succ _)

lemma subscribe (mirrors : c.Mirrors h) (few : h.bus.published < 2 ^ 64) (since : Option UInt64) :
    c.subscribe since =
      ⟨(h.bus.subscribe (since.map UInt64.toNat)).backlog.map Numbered.inWords,
        (h.bus.subscribe (since.map UInt64.toNat)).passed⟩ := by
  obtain ⟨ids, ring⟩ := mirrors.ring
  cases since with
  | none => exact congrArg (Stream.mk []) mirrors.sent
  | some id =>
    rw [Option.map_some, Bus.backlog_subscribe_some, EventCells.subscribe.eq_def, mirrors.sent]
    congr 1
    simp only
    rw [ring.queue, List.filter_map]
    congr 1
    refine List.filter_congr fun e inside => ?_
    have newest := Bus.id_le_of_mem_recent inside
    simp only [Function.comp_apply, UInt64.lt_iff_toNat_lt, toNat_ofNat_of_le newest few]

/-- The slots have the event after the last one passed, or the oldest one that is held. -/
lemma tryNext (mirrors : c.Mirrors h) (s : Subscription α) :
    c.tryNext ⟨s.backlog.map Numbered.inWords, s.passed⟩ =
      ((h.bus.tryNext s).1.map Numbered.inWords,
        ⟨(h.bus.tryNext s).2.backlog.map Numbered.inWords, (h.bus.tryNext s).2.passed⟩) := by
  obtain ⟨_ | ⟨e, rest⟩, d⟩ := s
  · have held : c.sent - c.slots.length = h.bus.lost := by
      rw [mirrors.sent, mirrors.slots, List.length_map, Bus.held, List.length_drop, Bus.length_log,
        Bus.lost]
      omega
    have slot : c.slots[max d h.bus.lost - h.bus.lost]? =
        h.bus.log[max d h.bus.lost]?.map Numbered.inWords := by
      rw [mirrors.slots, List.getElem?_map, Bus.held, List.getElem?_drop]
      congr 2
      omega
    simp only [EventCells.tryNext, List.map_nil, held, slot]
    obtain below | above := Nat.lt_or_ge d h.bus.published
    · obtain ⟨e, there, got⟩ := Bus.tryNext_of_lt below
      rw [got, there, Bus.id_of_getElem?_log there]
      rfl
    · have here : max d h.bus.lost = d := max_eq_left ((Nat.sub_le _ _).trans above)
      rw [Bus.tryNext_of_le above, here,
        List.getElem?_eq_none (by rwa [Bus.length_log])]
      rfl
  · rfl

/-- What the bus gives a stream is in the past, and so is what the stream has left to replay. -/
lemma id_le_of_tryNext (s : Subscription α) (past : ∀ e ∈ s.backlog, e.id ≤ b.published) :
    (∀ e ∈ (b.tryNext s).1, e.id ≤ b.published) ∧
      ∀ e ∈ (b.tryNext s).2.backlog, e.id ≤ b.published := by
  obtain ⟨_ | ⟨e, rest⟩, d⟩ := s
  · obtain below | above := Nat.lt_or_ge d b.published
    · obtain ⟨e, there, got⟩ := Bus.tryNext_of_lt below
      rw [got]
      refine ⟨?_, nofun⟩
      rintro _ ⟨⟩
      exact (Bus.id_bounds (List.mem_of_getElem? there)).2
    · rw [Bus.tryNext_of_le above]
      exact ⟨nofun, nofun⟩
  · obtain ⟨first, others⟩ := List.forall_mem_cons.1 past
    exact ⟨by rintro _ ⟨⟩; exact first, others⟩

lemma id_le_of_subscribe {since : Option ℕ} : ∀ e ∈ (b.subscribe since).backlog,
    e.id ≤ b.published := by
  cases since with
  | none => exact nofun
  | some id =>
    intro e inside
    rw [Bus.backlog_subscribe_some] at inside
    exact Bus.id_le_of_mem_recent (List.mem_filter.1 inside).1

lemma map_ofWords_inWords {given : Option (Numbered α)}
    (past : ∀ e ∈ given, e.id ≤ b.published) (few : b.published < 2 ^ 64) :
    (given.map Numbered.inWords).map Numbered.ofWords = given := by
  cases given with
  | none => rfl
  | some e =>
    have id := toNat_ofNat_of_le (past e rfl) few
    simp only [Option.map_some, Numbered.ofWords, Numbered.inWords, id]

theorem step {entry : Hub.Entry α} (mirrors : c.Mirrors h) (step : c.Step entry c')
    (few : (h.step entry.op).2.bus.published < 2 ^ 64) :
    entry = ⟨entry.op, (h.step entry.op).1⟩ ∧ c'.Mirrors (h.step entry.op).2 := by
  obtain ⟨ids, ring⟩ := mirrors.ring
  cases step with
  | publish there event =>
    have id : c.ring.next.toNat = (h.bus.publish event).published := by
      rw [ring.next, toNat_ofNat_of_le (Bus.published_publish _ event).ge few,
        Bus.published_publish]
    exact ⟨congrArg (Hub.Entry.mk (.publish event)) id, mirrors.publish there event⟩
  | subscribe since =>
    refine ⟨?_, ⟨ids, ring⟩, mirrors.publishers, mirrors.size, mirrors.slots, mirrors.sent, ?_, ?_⟩
    · rw [mirrors.streams, Array.size_map]
      rfl
    · rw [mirrors.subscribe few, mirrors.streams]
      exact Array.map_push.symm
    · intro s there
      obtain before | rfl := Array.mem_push.1 there
      · exact mirrors.past s before
      · exact id_le_of_subscribe
  | @tryNext stream s there =>
    rw [mirrors.streams, Array.getElem?_map, Option.map_eq_some_iff] at there
    obtain ⟨s, there, rfl⟩ := there
    obtain ⟨given, left⟩ := id_le_of_tryNext s (mirrors.past s (Array.mem_of_getElem? there))
    simp only [Hub.step, there] at few ⊢
    rw [mirrors.tryNext s]
    refine ⟨?_, ⟨ids, ring⟩, mirrors.publishers, mirrors.size, mirrors.slots, mirrors.sent, ?_, ?_⟩
    · exact congrArg (Hub.Entry.mk (.tryNext stream)) (map_ofWords_inWords given few)
    · rw [mirrors.streams]
      exact Array.map_setIfInBounds.symm
    · intro s' there'
      obtain before | rfl := Array.mem_or_eq_of_mem_setIfInBounds there'
      · exact mirrors.past s' before
      · exact left
  | clone there =>
    exact ⟨rfl, ⟨_, ring.step (h := h) (.clone there)⟩, congrArg (· + 1) mirrors.publishers,
      mirrors.size, mirrors.slots, mirrors.sent, mirrors.streams, mirrors.past⟩
  | @drop k there =>
    have left : (c.ring.capacities.erase k).length = h.bus.publishers - 1 := by
      rw [List.length_erase_of_mem there, mirrors.publishers]
    exact ⟨rfl, ⟨_, ring.step (h := h) (.drop there)⟩, left, mirrors.size, mirrors.slots,
      mirrors.sent, mirrors.streams, mirrors.past⟩

theorem run {start : EventCells α} {past : List (Hub.Entry α)} (mirrors : start.Mirrors h)
    (run : start.Run past c) (few : (h.run (past.map (·.op))).bus.published < 2 ^ 64) :
    past = h.record (past.map (·.op)) ∧ c.Mirrors (h.run (past.map (·.op))) := by
  induction run with
  | nil => exact ⟨rfl, mirrors⟩
  | concat _ step ih =>
    rw [List.map_append, List.map_singleton, Hub.run_concat] at few ⊢
    obtain ⟨same, mirrors'⟩ := ih ((Hub.published_le_step _).trans_lt few)
    obtain ⟨answer, mirrors''⟩ := mirrors'.step step few
    refine ⟨?_, mirrors''⟩
    rw [Hub.record_concat, ← same, ← answer]

lemma exists_step {op : Hub.Op α} (mirrors : c.Mirrors h) (allowed : h.allows op = true) :
    ∃ entry c', c.Step entry c' ∧ entry.op = op := by
  have publisher (some : 0 < h.bus.publishers) : ∃ k, k ∈ c.ring.capacities :=
    List.exists_mem_of_length_pos (mirrors.publishers ▸ some)
  cases op with
  | publish event =>
    obtain ⟨k, there⟩ := publisher (of_decide_eq_true allowed)
    exact ⟨_, _, .publish there event, rfl⟩
  | subscribe since =>
    refine ⟨_, _, .subscribe (since.map .ofNat), congrArg Hub.Op.subscribe ?_⟩
    cases since with
    | none => rfl
    | some id =>
      have word : id < 2 ^ 64 := of_decide_eq_true allowed
      exact congrArg some (UInt64.toNat_ofNat_of_lt' word)
  | tryNext stream =>
    have there : stream < c.streams.size := by
      rw [mirrors.streams, Array.size_map]
      exact of_decide_eq_true allowed
    exact ⟨_, _, .tryNext (Array.getElem?_eq_getElem there), rfl⟩
  | clone =>
    obtain ⟨k, there⟩ := publisher (of_decide_eq_true allowed)
    exact ⟨_, _, .clone there, rfl⟩
  | drop =>
    obtain ⟨k, there⟩ := publisher (of_decide_eq_true allowed)
    exact ⟨_, _, .drop there, rfl⟩

lemma exists_run {start : EventCells α} {past : List (Hub.Entry α)} {ops : List (Hub.Op α)}
    (mirrors : c.Mirrors h) (run : start.Run past c) (allowed : h.allowsAll ops = true)
    (few : (h.run ops).bus.published < 2 ^ 64) :
    ∃ later c', start.Run (past ++ later) c' ∧ later.map (·.op) = ops := by
  induction ops generalizing past c h with
  | nil => exact ⟨[], c, by rwa [List.append_nil], rfl⟩
  | cons op ops ih =>
    obtain ⟨now, rest⟩ := (Bool.and_eq_true _ _).mp allowed
    obtain ⟨entry, c', step, rfl⟩ := mirrors.exists_step now
    obtain ⟨-, mirrors'⟩ := mirrors.step step ((Hub.published_le_run ops).trans_lt few)
    obtain ⟨later, c'', run', rfl⟩ := ih mirrors' (run.concat step) rest few
    exact ⟨entry :: later, c'', by rwa [List.append_assoc] at run', rfl⟩

end Mirrors

end EventCells

end TorrentHandle
