/-!
An event bus. Events are numbered from one. The bus replays its latest `capacity` events to a new
subscriber, and its live channel holds as many events as the next power of two. A subscriber that
falls behind the channel goes on with the oldest event that is still held.

One row of events serves both: the replay and the channel are ends of it.
-/

namespace TorrentHandle

/-- An event with its number. -/
structure Numbered (α : Type) where
  id : Nat
  event : α
  deriving DecidableEq

/-- A bus and its events so far, oldest first. -/
structure Bus (α : Type) where
  /-- Events that are replayed. -/
  capacity : Nat
  capacity_pos : 0 < capacity
  events : Array α := #[]
  /-- Publishers that are left: the bus and its clones. -/
  publishers : Nat := 1

/-- A subscription: events to replay, and the number of the last event passed in the channel. -/
structure Subscription (α : Type) where
  backlog : List (Numbered α)
  passed : Nat
  deriving DecidableEq

/-- What the channel has for a subscriber. -/
inductive Received (α : Type) where
  | item (e : Numbered α)
  /-- Events were lost; the next one is still held. -/
  | lagged (missed : Nat)
  | empty
  | closed
  deriving DecidableEq

/-- What waiting for an event comes to at once. -/
inductive Poll (α : Type) where
  | pending
  | ready (e : Option (Numbered α))
  deriving DecidableEq

def defaultBusCapacity : Nat := 1024

/-- A number rounded up to a power of two. -/
def roundedUp (n : Nat) : Nat := if n ≤ 1 then 1 else 1 <<< ((n - 1).log2 + 1)

def noCapacityMessage : String := "event bus capacity must be positive"

namespace Bus

variable {α : Type}

/-- The bus of a given capacity, if it is positive. -/
def ofCapacity? (capacity : Nat) : Option (Bus α) :=
  if h : 0 < capacity then some { capacity, capacity_pos := h } else none

def standard : Bus α := { capacity := defaultBusCapacity, capacity_pos := by decide }

/-! ### Publishing -/

/-- Number of events so far. It is the number of the latest one. -/
def published (b : Bus α) : Nat := b.events.size

def publish (b : Bus α) (event : α) : Bus α := { b with events := b.events.push event }

/-- Publishes an event if there is one. -/
def publish? (b : Bus α) : Option α → Bus α
  | some event => b.publish event
  | none => b

@[simp] theorem published_publish (b : Bus α) (event : α) :
    (b.publish event).published = b.published + 1 := by
  simp [publish, published]

def clone (b : Bus α) : Bus α := { b with publishers := b.publishers + 1 }

def drop (b : Bus α) : Bus α := { b with publishers := b.publishers - 1 }

/-! ### Replay -/

/-- The events after a number, oldest first. -/
def after (b : Bus α) (id : Nat) : List (Numbered α) :=
  (b.events.extract id).toList.mapIdx fun i event => ⟨id + i + 1, event⟩

theorem getElem?_after (b : Bus α) (id i : Nat) :
    (b.after id)[i]? = b.events[id + i]?.map fun event => ⟨id + i + 1, event⟩ := by
  rw [after, List.getElem?_mapIdx, Array.getElem?_toList, Array.getElem?_extract]
  congr 1
  split
  · rfl
  · exact (Array.getElem?_eq_none (by omega)).symm

/-- The number of the latest event that is replayed no more. -/
def expired (b : Bus α) : Nat := b.published - b.capacity

/-- The events that are replayed, oldest first. -/
def recent (b : Bus α) : List (Numbered α) := b.after b.expired

/-- The number of the latest event in the replay. -/
def lastId? (b : Bus α) : Option Nat := if b.published = 0 then none else some b.published

/-- Subscribes. With a number given, the events after it are replayed first. -/
def subscribe (b : Bus α) (since : Option Nat) : Subscription α :=
  { backlog := match since with
      | some id => b.after (max id b.expired)
      | none => []
    passed := b.published }

/-! ### Channel -/

/-- Events that the live channel holds. -/
def channelSize (b : Bus α) : Nat := roundedUp b.capacity

/-- The number of the latest event that the channel holds no more. -/
def lost (b : Bus α) : Nat := b.published - b.channelSize

/-- Asks the channel for the event after number `passed`, and answers the number passed then. -/
def receive (b : Bus α) (passed : Nat) : Received α × Nat :=
  if passed < b.lost then (.lagged (b.lost - passed), b.lost)
  else
    match b.events[passed]? with
    | some event => (.item ⟨passed + 1, event⟩, passed + 1)
    | none => (if b.publishers = 0 then .closed else .empty, passed)

/-- The next event that is there already. -/
def tryNext (b : Bus α) (s : Subscription α) : Option (Numbered α) × Subscription α :=
  match s.backlog with
  | e :: rest => (some e, { s with backlog := rest })
  | [] =>
    match b.receive s.passed with
    | (.item e, passed) => (some e, { s with passed })
    | (.lagged _, passed) =>
      match b.receive passed with
      | (.item e, passed) => (some e, { s with passed })
      | (_, passed) => (none, { s with passed })
    | (_, passed) => (none, { s with passed })

/-- Waits for the next event; none comes once the bus is gone and nothing is held. -/
def next (b : Bus α) (s : Subscription α) : Poll α × Subscription α :=
  match s.backlog with
  | e :: rest => (.ready (some e), { s with backlog := rest })
  | [] =>
    match b.receive s.passed with
    | (.item e, passed) => (.ready (some e), { s with passed })
    | (.lagged _, passed) =>
      match b.receive passed with
      | (.item e, passed) => (.ready (some e), { s with passed })
      | (.empty, passed) => (.pending, { s with passed })
      | (_, passed) => (.ready none, { s with passed })
    | (.closed, passed) => (.ready none, { s with passed })
    | (.empty, passed) => (.pending, { s with passed })

/-- Takes events until none is there, within the given number of steps. Those taken before are
given, latest first. -/
def drainWithin (b : Bus α) :
    Nat → Subscription α → List (Numbered α) → List (Numbered α) × Subscription α
  | 0, s, taken => (taken.reverse, s)
  | steps + 1, s, taken =>
    match b.tryNext s with
    | (none, s) => (taken.reverse, s)
    | (some e, s) => drainWithin b steps s (e :: taken)

/-- Takes all events that are there. Each is in the backlog or has not been passed. -/
def drain (b : Bus α) (s : Subscription α) : List (Numbered α) × Subscription α :=
  drainWithin b (s.backlog.length + (b.published - s.passed)) s []

end Bus

end TorrentHandle
