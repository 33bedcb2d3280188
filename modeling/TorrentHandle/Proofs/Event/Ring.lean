import TorrentHandle.Proofs.Event.Run

/-!
The replay as a bus and its clones keep it: in cells that all of them share there are the number
that comes next and a queue of events with their numbers, and each of them has the capacity. An
event goes in at one end of the queue, and one goes out at the other when the queue is as long as
the capacity. `ReplayRing.Mirrors` relates this to the bus that has all events; it is kept by every
operation through any clone, so the queue is always the end of what was published.
-/

namespace TorrentHandle

variable {α : Type}

/-! ### Shared cells -/

/-- A bus with its clones: the capacity that each has, and what they share. -/
structure ReplayRing (α : Type) where
  capacities : List ℕ
  next : UInt64 := 1
  queue : List (UInt64 × α) := []

namespace ReplayRing

/-- The events in the queue with their numbers, oldest first. -/
def recent (r : ReplayRing α) : List (Numbered α) :=
  r.queue.map fun (id, event) => ⟨id.toNat, event⟩

def lastId? (r : ReplayRing α) : Option ℕ := r.queue.getLast?.map fun (id, _) => id.toNat

/-- Publishes an event through one that has the given capacity. -/
def publish (r : ReplayRing α) (capacity : ℕ) (event : α) : ReplayRing α :=
  { r with
    next := r.next + 1
    queue := (if r.queue.length = capacity then r.queue.tail else r.queue) ++ [(r.next, event)] }

/-- One operation through the bus or any of its clones, with the number that it gives out. -/
inductive Step (r : ReplayRing α) : Hub.Op α → Option UInt64 → ReplayRing α → Prop where
  | publish {c : ℕ} (there : c ∈ r.capacities) (event : α) :
    r.Step (.publish event) (some r.next) (r.publish c event)
  | subscribe (since : Option ℕ) : r.Step (.subscribe since) none r
  | tryNext (stream : ℕ) : r.Step (.tryNext stream) none r
  | clone {c : ℕ} (there : c ∈ r.capacities) :
    r.Step .clone none { r with capacities := c :: r.capacities }
  | drop {c : ℕ} (there : c ∈ r.capacities) :
    r.Step .drop none { r with capacities := r.capacities.erase c }

/-- Operations in order, each through one that is there then, with the numbers given out. -/
inductive Run (start : ReplayRing α) :
    List (Hub.Op α) → List UInt64 → ReplayRing α → Prop where
  | nil : start.Run [] [] start
  | concat {ops : List (Hub.Op α)} {ids : List UInt64} {r r' : ReplayRing α} {op : Hub.Op α}
      {id : Option UInt64} (run : start.Run ops ids r) (step : r.Step op id r') :
      start.Run (ops ++ [op]) (ids ++ id.toList) r'

/-! ### The queue and the log -/

/-- The cells are what a bus that has all events says. -/
structure Mirrors (r : ReplayRing α) (ids : List UInt64) (b : Bus α) : Prop where
  capacities : ∀ c ∈ r.capacities, c = b.capacity
  next : r.next = .ofNat (b.published + 1)
  queue : r.queue = b.recent.map fun e => (.ofNat e.id, e.event)
  ids : ids = (List.range' 1 b.published).map .ofNat

namespace Mirrors

variable {r r' : ReplayRing α} {ids : List UInt64} {b : Bus α} {c n : ℕ}

lemma start {capacity : ℕ} (made : Bus.ofCapacity? capacity = some b) :
    Mirrors { capacities := [capacity] } [] b := by
  obtain ⟨holds, fresh, -⟩ := Bus.of_ofCapacity? made
  have none : b.published = 0 := by rw [Bus.published, fresh, Array.size_empty]
  refine ⟨?_, ?_, ?_, ?_⟩
  · intro c there
    rw [List.mem_singleton.1 there, holds]
  · rw [none]
    rfl
  · rw [Bus.recent_eq_drop, List.eq_nil_of_length_eq_zero (Bus.length_log.trans none)]
    simp
  · rw [none]
    rfl

lemma publish (mirrors : r.Mirrors ids b) (there : c ∈ r.capacities) (event : α) :
    (r.publish c event).Mirrors (ids ++ [r.next]) (b.publish event) where
  capacities := mirrors.capacities
  next := by
    simp only [ReplayRing.publish, mirrors.next, Bus.published_publish]
    exact (UInt64.ofNat_add _ 1).symm
  queue := by
    rw [Bus.recent_publish, List.map_append, ReplayRing.publish, mirrors.queue, List.length_map,
      mirrors.capacities c there, mirrors.next]
    split <;> simp
  ids := by
    rw [Bus.published_publish, List.range'_concat, List.map_append, mirrors.ids, mirrors.next]
    simp [Nat.add_comm]

theorem step {h : Hub α} {op : Hub.Op α} {id : Option UInt64}
    (mirrors : r.Mirrors ids h.bus) (step : r.Step op id r') :
    r'.Mirrors (ids ++ id.toList) (h.step op).2.bus := by
  cases step with
  | publish there event => exact mirrors.publish there event
  | subscribe since =>
    rw [Option.toList_none, List.append_nil]
    exact mirrors
  | tryNext stream =>
    rw [Option.toList_none, List.append_nil]
    simp only [Hub.step]
    split <;> exact mirrors
  | clone there =>
    rw [Option.toList_none, List.append_nil]
    refine ⟨?_, mirrors.next, mirrors.queue, mirrors.ids⟩
    rintro c (_ | ⟨_, before⟩)
    · exact mirrors.capacities _ there
    · exact mirrors.capacities c before
  | drop there =>
    rw [Option.toList_none, List.append_nil]
    exact ⟨fun c left => mirrors.capacities c (List.mem_of_mem_erase left), mirrors.next,
      mirrors.queue, mirrors.ids⟩

theorem run {h : Hub α} {start : ReplayRing α} {ops : List (Hub.Op α)}
    (mirrors : start.Mirrors [] h.bus) (run : start.Run ops ids r) :
    r.Mirrors ids (h.run ops).bus := by
  induction run with
  | nil => exact mirrors
  | concat _ step ih =>
    rw [Hub.run_concat]
    exact ih.step step

end Mirrors

lemma Mirrors.recent_eq {r : ReplayRing α} {ids : List UInt64} {b : Bus α}
    (mirrors : r.Mirrors ids b) (few : b.published < 2 ^ 64) : r.recent = b.recent := by
  rw [recent, mirrors.queue, List.map_map]
  conv_rhs => rw [← List.map_id b.recent]
  refine List.map_congr_left fun e inside => ?_
  have newest := Bus.id_le_of_mem_recent inside
  simp only [Function.comp_apply, id]
  rw [UInt64.toNat_ofNat_of_lt' (by rw [UInt64.size]; omega)]

lemma Mirrors.ids_eq {r : ReplayRing α} {ids : List UInt64} {b : Bus α}
    (mirrors : r.Mirrors ids b) (few : b.published < 2 ^ 64) :
    ids.map UInt64.toNat = List.range' 1 b.published := by
  rw [mirrors.ids, List.map_map]
  conv_rhs => rw [← List.map_id (List.range' 1 b.published)]
  refine List.map_congr_left fun n inside => ?_
  rw [List.mem_range'_1] at inside
  simp only [Function.comp_apply, id]
  rw [UInt64.toNat_ofNat_of_lt' (by rw [UInt64.size]; omega)]

lemma lastId?_eq (r : ReplayRing α) : r.lastId? = r.recent.getLast?.map Numbered.id := by
  rw [lastId?, recent, List.getLast?_map, Option.map_map]
  rfl

end ReplayRing

/-! ### Runs -/

namespace Hub

/-- The event that an operation publishes. -/
def Op.event? : Op α → Option α
  | publish event => some event
  | _ => none

/-- The events that operations publish, in order. -/
def events (ops : List (Op α)) : List α := ops.filterMap Op.event?

lemma map_event_published (h : Hub α) (ops : List (Op α)) :
    (published (h.record ops)).map Numbered.event = events ops := by
  induction ops generalizing h with
  | nil => rfl
  | cons op ops ih =>
    have rest := ih (h.step op).2
    unfold published at rest ⊢
    rw [record, events, List.filterMap_cons, List.filterMap_cons]
    cases op with
    | publish event => exact congrArg (event :: ·) rest
    | _ => exact rest

/-- The replay, by its events with their numbers and the number of the latest, is the end of what
was published. -/
structure IsRecentPast (capacity : ℕ) (past : List α) (recent : List (Numbered α))
    (last : Option ℕ) : Prop where
  events : recent.map Numbered.event = past.drop (past.length - min past.length capacity)
  ids : recent.map Numbered.id =
    List.range' (past.length - min past.length capacity + 1) (min past.length capacity)
  last : last = if past.length = 0 then none else some past.length

lemma isRecentPast (b : Bus α) :
    IsRecentPast b.capacity (b.log.map Numbered.event) b.recent b.lastId? := by
  have size : (b.log.map Numbered.event).length = b.published := by
    rw [List.length_map, Bus.length_log]
  have start : b.published - min b.published b.capacity = b.published - b.capacity := by omega
  refine ⟨?_, ?_, ?_⟩
  · rw [size, start, Bus.recent_eq_drop, List.map_drop]
  · rw [size, start, Bus.recent_eq_drop, List.map_drop, Bus.map_id_log, List.drop_range']
    congr 1 <;> omega
  · rw [size]
    rfl

/-- The latest number in the queue is the latest given out: the newest event is always there. -/
lemma getLast?_recent (b : Bus α) : b.recent.getLast?.map Numbered.id = b.lastId? := by
  have pos := b.capacity_pos
  rw [← List.getLast?_map, (isRecentPast b).ids, (isRecentPast b).last, List.length_map,
    Bus.length_log]
  by_cases none : b.published = 0
  · simp [none]
  · rw [List.getLast?_range']
    simp only [if_neg none]
    rw [if_neg (by omega)]
    congr 1
    omega

/-- **The replay is the recent past.** The n-th event of a run is answered by number n, and after
the run the replay is the latest events, as many as the capacity and with their numbers. Kept in
cells that the bus shares with its clones, it is the same through each of them. -/
theorem replay_is_recent_past {capacity : ℕ} {bus : Bus α}
    (made : Bus.ofCapacity? capacity = some bus) (ops : List (Op α))
    (few : (events ops).length < 2 ^ 64) :
    (published (record { bus } ops)).map Numbered.event = events ops ∧
    (published (record { bus } ops)).map Numbered.id = List.range' 1 (events ops).length ∧
    IsRecentPast capacity (events ops)
      (run { bus } ops).bus.recent (run { bus } ops).bus.lastId? ∧
    ∀ ids ring, ReplayRing.Run { capacities := [capacity] } ops ids ring →
      ids.map UInt64.toNat = List.range' 1 (events ops).length ∧
      (∀ c ∈ ring.capacities, c = capacity) ∧
      IsRecentPast capacity (events ops) ring.recent ring.lastId? := by
  obtain ⟨holds, fresh, -⟩ := Bus.of_ofCapacity? made
  have log : (run { bus } ops).bus.log = published (record { bus } ops) := by
    rw [log_run, Bus.log, fresh]
    rfl
  have past : (run { bus } ops).bus.log.map Numbered.event = events ops := by
    rw [log, map_event_published]
  have count : (run { bus } ops).bus.published = (events ops).length := by
    rw [← past, List.length_map, Bus.length_log]
  have size : (run { bus } ops).bus.capacity = capacity := (capacity_run ops).trans holds
  have recent := isRecentPast (run { bus } ops).bus
  rw [past, size] at recent
  refine ⟨map_event_published _ ops, ?_, recent, ?_⟩
  · rw [← log, Bus.map_id_log, count]
  · intro ids ring steps
    have mirrors := (ReplayRing.Mirrors.start made).run (h := { bus }) steps
    have same := mirrors.recent_eq (by omega)
    refine ⟨?_, fun c there => (mirrors.capacities c there).trans size, ?_⟩
    · rw [mirrors.ids_eq (by omega), count]
    · rw [ReplayRing.lastId?_eq, same, getLast?_recent]
      exact recent

theorem sample_replay_is_recent_past : ∃ (ops : List (Op ℕ)) (ring : ReplayRing ℕ),
    ReplayRing.Run { capacities := [2] } ops [1, 2, 3] ring ∧ ring.capacities = [2, 2] ∧
    IsRecentPast 2 [5, 7, 8] ring.recent ring.lastId? := by
  have none : ReplayRing.Run ({ capacities := [2] } : ReplayRing ℕ) [] [] { capacities := [2] } :=
    .nil
  have one := none.concat (.publish (List.mem_singleton_self 2) 5)
  have shared := one.concat (.clone (List.mem_singleton_self 2))
  have two := (shared.concat (.subscribe (some 0))).concat (.publish (List.mem_cons_self ..) 7)
  have three := (two.concat (.tryNext 0)).concat (.publish (List.mem_cons_self ..) 8)
  have replay := replay_is_recent_past (rfl : Bus.ofCapacity? 2 = some ⟨2, by decide, #[], 1⟩)
    [.publish 5, .clone, .subscribe (some 0), .publish 7, .tryNext 0, .publish 8] (by decide)
  exact ⟨_, _, three, rfl, (replay.2.2.2 _ _ three).2.2⟩

end Hub

end TorrentHandle
