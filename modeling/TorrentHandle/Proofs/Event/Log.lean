import Mathlib.Algebra.Ring.Nat
import Mathlib.Data.Nat.Log
import TorrentHandle.Event.Bus

/-!
The log of a bus: all its events with their numbers. The replay and the channel are read off it:
what comes after a number is an end of the log, and a stream that has used up its replay gets the
event after the last one passed, or the oldest one that the channel still holds.
-/

namespace TorrentHandle.Bus

variable {α : Type} {b : Bus α} {e : Numbered α} {d i m : ℕ} {x : α}

/-! ### Numbers -/

lemma of_ofCapacity? {capacity : ℕ} (made : ofCapacity? capacity = some b) :
    b.capacity = capacity ∧ b.events = #[] ∧ b.publishers = 1 := by
  unfold ofCapacity? at made
  split at made
  · cases made
    exact ⟨rfl, rfl, rfl⟩
  · cases made

/-- All events so far with their numbers, oldest first. -/
def log (b : Bus α) : List (Numbered α) :=
  b.events.toList.mapIdx fun i event => ⟨i + 1, event⟩

@[simp] lemma length_log : b.log.length = b.published := by simp [log, published]

lemma getElem?_log : b.log[i]? = b.events[i]?.map fun event => ⟨i + 1, event⟩ := by
  rw [log, List.getElem?_mapIdx, Array.getElem?_toList]

lemma id_of_getElem?_log (here : b.log[i]? = some e) : e.id = i + 1 := by
  rw [getElem?_log, Option.map_eq_some_iff] at here
  obtain ⟨event, -, rfl⟩ := here
  rfl

lemma map_id_log : b.log.map Numbered.id = List.range' 1 b.published :=
  List.ext_getElem (by simp) fun i _ _ => by simp [log, Nat.add_comm]

lemma log_publish : (b.publish x).log = b.log ++ [⟨b.published + 1, x⟩] := by
  simp [log, publish, published, List.mapIdx_append]

lemma after_eq_drop : b.after m = b.log.drop m := by
  apply List.ext_getElem?
  intro i
  rw [getElem?_after, List.getElem?_drop, getElem?_log]

lemma recent_eq_drop : b.recent = b.log.drop (b.published - b.capacity) := after_eq_drop

lemma id_bounds (inside : e ∈ b.log) : 1 ≤ e.id ∧ e.id ≤ b.published := by
  have there := List.mem_map_of_mem (f := Numbered.id) inside
  rw [map_id_log, List.mem_range'_1] at there
  omega

lemma id_le_of_mem_recent (inside : e ∈ b.recent) : e.id ≤ b.published := by
  rw [recent_eq_drop] at inside
  exact (id_bounds (List.mem_of_mem_drop inside)).2

/-- The numbers ascend by one, so the events beyond a number are those after as many events. -/
lemma filter_log :
    (b.log.filter fun e => m < e.id ∧ e.id ≤ b.published) = b.log.drop m := by
  conv_lhs => rw [← List.take_append_drop m b.log]
  rw [List.filter_append, List.filter_eq_nil_iff.2, List.filter_eq_self.2, List.nil_append]
  · intro e inside
    have bounds := id_bounds (List.mem_of_mem_drop inside)
    obtain ⟨i, here⟩ := List.mem_iff_getElem?.1 inside
    rw [List.getElem?_drop] at here
    have id := id_of_getElem?_log here
    exact decide_eq_true (by omega)
  · intro e inside
    obtain ⟨i, here⟩ := List.mem_iff_getElem?.1 inside
    obtain ⟨below, here⟩ : i < m ∧ b.log[i]? = some e := by simpa [List.getElem?_take] using here
    have id := id_of_getElem?_log here
    simp only [decide_eq_true_eq]
    omega

/-- What a new stream replays is the part of the replay with numbers after the one it gives. -/
lemma backlog_subscribe_some :
    (b.subscribe (some i)).backlog = b.recent.filter fun e => i < e.id := by
  change b.after (max i b.expired) = (b.after b.expired).filter fun e => i < e.id
  rw [after_eq_drop, after_eq_drop, ← filter_log, ← filter_log, List.filter_filter]
  refine List.filter_congr fun e _ => ?_
  rw [← Bool.decide_and]
  exact decide_eq_decide.2 (by omega)

/-! ### The channel -/

lemma roundedUp_eq (n : ℕ) : roundedUp n = 2 ^ Nat.clog 2 n := by
  unfold roundedUp
  split
  · rename_i small
    rw [Nat.clog_of_right_le_one small, pow_zero]
  · rename_i large
    have below := Nat.log2_self_le (n := n - 1) (by omega)
    have above := Nat.lt_log2_self (n := n - 1)
    have least : Nat.clog 2 n = (n - 1).log2 + 1 := by
      apply le_antisymm
      · exact (Nat.clog_le_iff_le_pow Nat.one_lt_two).2 (by omega)
      · exact (Nat.lt_clog_iff_pow_lt Nat.one_lt_two).2 (by omega)
    rw [Nat.one_shiftLeft, least]

lemma channelSize_eq (b : Bus α) : b.channelSize = 2 ^ Nat.clog 2 b.capacity :=
  roundedUp_eq b.capacity

lemma channelSize_pos (b : Bus α) : 0 < b.channelSize := by
  rw [channelSize_eq]
  exact Nat.two_pow_pos _

/-- The events that the channel holds, oldest first. -/
def held (b : Bus α) : List (Numbered α) := b.log.drop b.lost

/-- The latest `size` of a list that grows: its first goes when there are `size` already. -/
lemma drop_concat {size : ℕ} (pos : 0 < size) (l : List α) (x : α) :
    (l ++ [x]).drop ((l ++ [x]).length - size) =
      (if (l.drop (l.length - size)).length = size then (l.drop (l.length - size)).tail
        else l.drop (l.length - size)) ++ [x] := by
  rw [List.drop_append_of_le_length (by simp; omega)]
  congr 1
  by_cases full : size ≤ l.length
  · rw [if_pos (by simp; omega), List.tail_drop]
    congr 1
    simp
    omega
  · rw [if_neg (by simp; omega)]
    congr 1
    simp
    omega

/-- **The replay is a ring**: an event goes in at one end, and the oldest goes when it is full. -/
theorem recent_publish : (b.publish x).recent =
    (if b.recent.length = b.capacity then b.recent.tail else b.recent) ++
      [⟨b.published + 1, x⟩] := by
  have ring := drop_concat b.capacity_pos b.log ⟨b.published + 1, x⟩
  rw [← log_publish, length_log, length_log, ← recent_eq_drop] at ring
  rw [recent_eq_drop]
  exact ring

/-- **The channel is one too**, of its own size. -/
theorem held_publish : (b.publish x).held =
    (if b.held.length = b.channelSize then b.held.tail else b.held) ++ [⟨b.published + 1, x⟩] := by
  have ring := drop_concat b.channelSize_pos b.log ⟨b.published + 1, x⟩
  rw [← log_publish, length_log, length_log] at ring
  exact ring

lemma tryNext_of_lt (below : d < b.published) :
    ∃ e, b.log[max d b.lost]? = some e ∧ b.tryNext ⟨[], d⟩ = (some e, ⟨[], e.id⟩) := by
  have size := b.channelSize_pos
  have inside : max d b.lost < b.events.size := by unfold lost published at *; omega
  obtain ⟨x, here⟩ : ∃ x, b.events[max d b.lost]? = some x :=
    ⟨_, Array.getElem?_eq_getElem inside⟩
  refine ⟨⟨max d b.lost + 1, x⟩, ?_, ?_⟩
  · rw [getElem?_log, here, Option.map_some]
  · have got : b.receive (max d b.lost) = (.item ⟨max d b.lost + 1, x⟩, max d b.lost + 1) := by
      rw [receive, if_neg (by omega), here]
    by_cases lagged : d < b.lost
    · have missed : b.receive d = (.lagged (b.lost - d), max d b.lost) := by
        rw [receive, if_pos lagged, max_eq_right lagged.le]
      simp only [tryNext, missed, got]
    · rw [max_eq_left (Nat.not_lt.1 lagged)] at got ⊢
      simp only [tryNext, got]

lemma tryNext_of_le (above : b.published ≤ d) : b.tryNext ⟨[], d⟩ = (none, ⟨[], d⟩) := by
  have held : ¬ d < b.lost := by unfold lost; omega
  have past : b.events[d]? = none := Array.getElem?_eq_none above
  have got : b.receive d = (if b.publishers = 0 then .closed else .empty, d) := by
    rw [receive, if_neg held, past]
  by_cases gone : b.publishers = 0 <;> simp [tryNext, got, gone]

end TorrentHandle.Bus
