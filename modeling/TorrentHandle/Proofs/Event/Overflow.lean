import TorrentHandle.Event.Basic
import TorrentHandle.Proofs.Event.Log

/-!
Overflow. The replay holds as many events as the capacity says and the channel as many as the next
power of two, so what they have lost is the same for a capacity that is a power of two, and for any
other as long as nothing has overflowed.
-/

namespace TorrentHandle.Bus

variable {α : Type} {b : Bus α} {e : Numbered α} {d steps : ℕ} {taken : List (Numbered α)}

/-! ### Draining -/

/-- Readings until nothing is there give what the channel holds beyond the number passed. -/
lemma drainWithin_eq (inside : d ≤ b.published) (enough : b.published - d ≤ steps) :
    b.drainWithin steps ⟨[], d⟩ taken =
      (taken.reverse ++ b.log.drop (max d b.lost), ⟨[], b.published⟩) := by
  have nothing : b.log.drop (max b.published b.lost) = [] :=
    List.drop_eq_nil_of_le (by rw [length_log]; exact le_max_left _ _)
  -- `enough` leaves one step for each event that has not been passed
  induction steps generalizing d taken with
  | zero =>
    obtain rfl : d = b.published := by omega
    rw [drainWithin, nothing, List.append_nil]
  | succ steps ih =>
    by_cases below : d < b.published
    · obtain ⟨e, there, got⟩ := tryNext_of_lt below
      have id := id_of_getElem?_log there
      obtain ⟨-, newest⟩ := id_bounds (List.mem_of_getElem? there)
      have first : b.log.drop (max d b.lost) = e :: b.log.drop (max e.id b.lost) := by
        have next : max e.id b.lost = max d b.lost + 1 := by omega
        rw [next, List.drop_eq_getElem?_toList_append, there]
        rfl
      rw [drainWithin, got]
      dsimp only
      rw [ih newest (by omega), first, List.reverse_cons, List.append_assoc,
        List.singleton_append]
    · obtain rfl : d = b.published := by omega
      rw [drainWithin, tryNext_of_le le_rfl, nothing, List.append_nil]

lemma drain_subscribed {bus : Bus α} (empty : bus.events = #[]) :
    b.drain (bus.subscribe none) = (b.held, ⟨[], b.published⟩) := by
  have fresh : bus.subscribe none = ⟨[], 0⟩ := by simp [subscribe, published, empty]
  rw [fresh, drain, drainWithin_eq (Nat.zero_le _) (by simp), Nat.zero_max]
  rfl

/-! ### Publishing -/

lemma capacity_foldl (events : List α) : (events.foldl publish b).capacity = b.capacity := by
  induction events generalizing b with
  | nil => rfl
  | cons x events ih => exact ih

lemma events_foldl (events : List α) :
    (events.foldl publish b).events = b.events ++ events.toArray := by
  induction events generalizing b with
  | nil => simp
  | cons x events ih => simp [ih, publish]

/-! ### What is lost -/

lemma clog_eq_iff {n : ℕ} : 2 ^ Nat.clog 2 n = n ↔ n.isPowerOfTwo := by
  constructor
  · intro same
    exact ⟨_, same.symm⟩
  · rintro ⟨k, rfl⟩
    rw [Nat.clog_pow 2 k Nat.one_lt_two]

/-- The latest `m` of a list are its latest `n` iff it has no more than `m`. -/
lemma drop_sub_eq_iff {l : List α} {m n : ℕ} (le : m ≤ n) :
    l.drop (l.length - n) = l.drop (l.length - m) ↔ l.length ≤ m ∨ n = m := by
  constructor
  · intro same
    have lengths := congrArg List.length same
    simp only [List.length_drop] at lengths
    omega
  · rintro (short | rfl)
    · have all : l.length - n = l.length - m := by omega
      rw [all]
    · rfl

/-- **Overflow drops the same events from the channel and from the replay iff the capacity is a power
of two or nothing has overflowed.** A stream that was subscribed before the first event, and read
only at the end, drains the latest events that fit into the capacity rounded up to a power of two;
the replay has those that fit into the capacity. -/
theorem drain_eq_recent_iff {capacity : ℕ} {bus : Bus α}
    (made : ofCapacity? capacity = some bus) (events : List α) :
    let b := events.foldl publish bus
    let drained := b.drain (bus.subscribe none)
    let log := events.mapIdx fun i event => (⟨i + 1, event⟩ : Numbered α)
    drained.1 = log.drop (events.length - 2 ^ Nat.clog 2 capacity) ∧
      (b.tryNext drained.2).1 = none ∧
      b.recent = log.drop (events.length - capacity) ∧
      (drained.1 = b.recent ↔ events.length ≤ capacity ∨ capacity.isPowerOfTwo) := by
  intro b drained log
  obtain ⟨capacity', empty, -⟩ := of_ofCapacity? made
  have kept : b.capacity = capacity := (capacity_foldl events).trans capacity'
  have log' : b.log = log := by
    unfold Bus.log
    rw [events_foldl, empty]
    simp [log]
  have count : b.published = events.length := by
    rw [← length_log, log']
    simp [log]
  have drained' : drained = (b.held, ⟨[], b.published⟩) := drain_subscribed empty
  have held : b.held = log.drop (events.length - 2 ^ Nat.clog 2 capacity) := by
    rw [Bus.held, lost, channelSize_eq, log', kept, count]
  have recent : b.recent = log.drop (events.length - capacity) := by
    rw [recent_eq_drop, log', kept, count]
  rw [drained']
  refine ⟨held, ?_, recent, ?_⟩
  · rw [tryNext_of_le le_rfl]
  · have length : events.length = log.length := by simp [log]
    rw [← clog_eq_iff]
    dsimp only
    rw [held, recent, length]
    exact drop_sub_eq_iff (Nat.le_pow_clog Nat.one_lt_two capacity)

theorem power_drains_recent :
    let bus : Bus ℕ := ⟨4, by decide, #[], 1⟩
    let b := [10, 20, 30, 40, 50, 60].foldl publish bus
    let drained := b.drain (bus.subscribe none)
    ofCapacity? 4 = some bus ∧ (drained.1 = b.recent ↔ 6 ≤ 4 ∨ Nat.isPowerOfTwo 4) ∧
      drained.1 = [⟨3, 30⟩, ⟨4, 40⟩, ⟨5, 50⟩, ⟨6, 60⟩] := by
  intro bus b drained
  have made : ofCapacity? 4 = some bus := rfl
  obtain ⟨-, -, -, same⟩ := drain_eq_recent_iff made [10, 20, 30, 40, 50, 60]
  exact ⟨made, same, by decide⟩

/-- Four events through a capacity of three: the channel still holds the one that the replay has
lost. -/
theorem overflow_drops_differently :
    let bus : Bus Event := ⟨3, by decide, #[], 1⟩
    let b := [0, 1, 2, 3].foldl (fun b handle => b.publish (.torrentRemoved handle)) bus
    ofCapacity? 3 = some bus ∧ (b.drain (bus.subscribe none)).1 ≠ b.recent ∧
      (b.drain (bus.subscribe none)).1.map Numbered.id = [1, 2, 3, 4] ∧
      b.recent.map Numbered.id = [2, 3, 4] := by
  refine ⟨rfl, ?_, ?_, ?_⟩ <;> decide

end TorrentHandle.Bus
