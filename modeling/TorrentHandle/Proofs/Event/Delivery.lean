import TorrentHandle.Proofs.Event.Cells

/-!
What a stream delivers. A stream first replays the events that it was subscribed with, and then
follows the channel: each reading gives the event after the last one passed, unless the channel has
lost it, and then the oldest one that is held. So numbers ascend, over the hand-over too, and an
event is skipped only when as many newer ones as the channel holds were there at its turn.
-/

namespace TorrentHandle.Hub

variable {α : Type} {size start d i : ℕ} {log log' : List (Numbered α)} {live rs : List (Read α)}
  {r : Read α}

/-! ### Readings -/

/-- The number of the last event that was given; `start` before the first. -/
def passed (start : ℕ) (reads : List (Read α)) : ℕ :=
  reads.foldl (fun d r => (r.answer.map Numbered.id).getD d) start

def ids (reads : List (Read α)) : List ℕ := reads.filterMap fun r => r.answer.map Numbered.id

@[simp] lemma passed_concat : passed start (rs ++ [r]) =
    (r.answer.map Numbered.id).getD (passed start rs) := by
  simp [passed]

@[simp] lemma ids_concat : ids (rs ++ [r]) = ids rs ++ (r.answer.map Numbered.id).toList := by
  rw [ids, List.filterMap_append, List.filterMap_cons, List.filterMap_nil]
  cases r.answer <;> rfl

/-- What the channel gives when number `d` was passed last: the next event, or the oldest one of
those that it holds; nothing when there is no next event. -/
structure Read.IsNext (size : ℕ) (log : List (Numbered α)) (d : ℕ) (r : Read α) : Prop where
  le : d ≤ r.published
  none : d = r.published → r.answer = none
  some : d < r.published →
    ∃ e ∈ log, e.id = max (d + 1) (r.published + 1 - size) ∧ r.answer = some e

lemma Read.IsNext.mono (h : r.IsNext size log d) (sub : log ⊆ log') : r.IsNext size log' d where
  le := h.le
  none := h.none
  some below := by
    obtain ⟨e, inside, id, given⟩ := h.some below
    exact ⟨e, sub inside, id, given⟩

/-- What a reading gives lies ahead, and what it skips was lost. -/
lemma Read.IsNext.of_some (h : r.IsNext size log d) {e : Numbered α} (given : r.answer = .some e) :
    d < e.id ∧ ∀ i, d < i → i < e.id → i + size ≤ r.published := by
  obtain same | below := h.le.eq_or_lt
  · rw [h.none same] at given
    cases given
  · obtain ⟨e', -, id, given'⟩ := h.some below
    rw [given] at given'
    cases given'
    exact ⟨by omega, fun i _ _ => by omega⟩

/-- Readings that follow the channel. -/
def Follows (size : ℕ) (log : List (Numbered α)) (start : ℕ) (live : List (Read α)) : Prop :=
  ∀ earlier r, earlier ++ [r] <+: live → r.IsNext size log (passed start earlier)

lemma follows_nil : Follows size log start [] := by
  intro earlier r before
  simp at before

lemma follows_concat : Follows size log start (live ++ [r]) ↔
    Follows size log start live ∧ r.IsNext size log (passed start live) := by
  constructor
  · intro h
    exact ⟨fun earlier r' before => h earlier r' (before.trans (List.prefix_append _ _)),
      h live r (List.prefix_refl _)⟩
  · rintro ⟨h, next⟩ earlier r' before
    obtain same | before := List.prefix_concat_iff.1 before
    · obtain ⟨rfl, last⟩ := List.append_inj' same rfl
      cases last
      exact next
    · exact h earlier r' before

lemma Follows.mono (h : Follows size log start live) (sub : log ⊆ log') :
    Follows size log' start live := fun earlier r before => (h earlier r before).mono sub

lemma Follows.ascending (h : Follows size log start live) : (ids live).Pairwise (· < ·) ∧
    start ≤ passed start live ∧ ∀ i ∈ ids live, start < i ∧ i ≤ passed start live := by
  induction live using List.reverseRecOn with
  | nil => exact ⟨List.Pairwise.nil, le_rfl, by simp [ids]⟩
  | append_singleton live r ih =>
    obtain ⟨before, next⟩ := follows_concat.1 h
    obtain ⟨ascending, le, bounds⟩ := ih before
    cases given : r.answer with
    | none => simpa [given] using ⟨ascending, le, bounds⟩
    | some e =>
      obtain ⟨ahead, -⟩ := next.of_some given
      simp only [ids_concat, passed_concat, given, Option.map_some, Option.toList_some,
        Option.getD_some, List.pairwise_append, List.mem_append, List.mem_singleton]
      refine ⟨⟨ascending, List.pairwise_singleton _ _, ?_⟩, by omega, ?_⟩
      · rintro i inside _ rfl
        exact (bounds i inside).2.trans_lt ahead
      · rintro i (inside | rfl)
        · exact ⟨(bounds i inside).1, (bounds i inside).2.trans ahead.le⟩
        · exact ⟨le.trans_lt ahead, le_rfl⟩

/-- An event that was passed and not given was lost when its turn came. -/
lemma Follows.skipped (h : Follows size log start live) (later : start < i)
    (gone : i ≤ passed start live) (missing : i ∉ ids live) :
    ∃ earlier r e, earlier ++ [r] <+: live ∧ r.answer = some e ∧
      passed start earlier < i ∧ i < e.id ∧ i + size ≤ r.published := by
  induction live using List.reverseRecOn with
  | nil => exact absurd gone (Nat.not_le.2 later)
  | append_singleton live r ih =>
    obtain ⟨before, next⟩ := follows_concat.1 h
    rw [ids_concat, List.mem_append, not_or] at missing
    -- it was passed before the last reading, or the last reading skipped it
    by_cases reached : i ≤ passed start live
    · obtain ⟨earlier, r', e, first, rest⟩ := ih before reached missing.1
      exact ⟨earlier, r', e, first.trans (List.prefix_append _ _), rest⟩
    · cases given : r.answer with
      | none => simp [given, reached] at gone
      | some e =>
        obtain ⟨-, lost⟩ := next.of_some given
        simp only [given, passed_concat, Option.map_some, Option.getD_some, Option.toList_some,
          List.mem_singleton] at gone missing
        have ahead : passed start live < i := Nat.not_le.1 reached
        have short : i < e.id := lt_of_le_of_ne gone missing.2
        exact ⟨live, r, e, List.prefix_refl _, given, ahead, short, lost i ahead short⟩

/-! ### Where a stream stands -/

/-- What a new stream replays: of the events so far those after number `since`, as far as the
replay holds them. -/
def replay (capacity : ℕ) (past : List (Numbered α)) : Option ℕ → List (Numbered α)
  | some since => past.filter fun e =>
    max since (past.length - capacity) < e.id ∧ e.id ≤ past.length
  | none => []

lemma backlog_subscribe (b : Bus α) (since : Option ℕ) :
    (b.subscribe since).backlog = replay b.capacity b.log since := by
  cases since with
  | none => rfl
  | some since =>
    simp only [Bus.subscribe, replay, Bus.length_log]
    rw [Bus.after_eq_drop, Bus.filter_log, Bus.expired]

lemma id_le_of_mem_replay {capacity : ℕ} {past : List (Numbered α)} {since : Option ℕ}
    {e : Numbered α} (inside : e ∈ replay capacity past since) : e.id ≤ past.length := by
  cases since with
  | none => simp [replay] at inside
  | some since =>
    simp only [replay, List.mem_filter, decide_eq_true_eq] at inside
    exact inside.2.2

lemma replay_sublist (capacity : ℕ) (past : List (Numbered α)) (since : Option ℕ) :
    (replay capacity past since).Sublist past := by
  cases since with
  | none => exact List.nil_sublist _
  | some since => exact List.filter_sublist

/-- A stream after some readings. It was subscribed when there were `start` events, with some of
them to replay. -/
structure Tracks (b : Bus α) (start : ℕ) (replay : List (Numbered α)) (reads : List (Read α))
    (s : Subscription α) : Prop where
  backlog : s.backlog = replay.drop reads.length
  passed : s.passed = passed start (reads.drop replay.length)
  le : s.passed ≤ b.published
  replayed : (reads.take replay.length).map Read.answer = (replay.take reads.length).map some
  live : Follows b.channelSize b.log start (reads.drop replay.length)

section Tracks

variable {b b' : Bus α} {replay : List (Numbered α)} {s : Subscription α}

lemma Tracks.mono (h : Tracks b start replay rs s) (capacity : b'.capacity = b.capacity)
    (log : b.log <+: b'.log) : Tracks b' start replay rs s where
  backlog := h.backlog
  passed := h.passed
  le := h.le.trans (by simpa using log.length_le)
  replayed := h.replayed
  live := by
    rw [Bus.channelSize, capacity]
    exact h.live.mono log.subset

lemma Tracks.read_replay (h : Tracks b start replay rs s) (more : rs.length < replay.length) :
    Tracks b start replay (rs ++ [⟨b.published, (b.tryNext s).1⟩]) (b.tryNext s).2 := by
  obtain ⟨backlog, position⟩ := s
  obtain ⟨rfl, standing, le, replayed, live⟩ := h
  dsimp only at standing le
  have got : b.tryNext ⟨replay.drop rs.length, position⟩ =
      (some replay[rs.length], ⟨replay.drop (rs.length + 1), position⟩) := by
    rw [List.drop_eq_getElem_cons more]
    rfl
  have within : ∀ r : Read α, (rs ++ [r]).length ≤ replay.length :=
    fun r => by simpa using Nat.succ_le_of_lt more
  rw [List.drop_eq_nil_of_le more.le] at standing
  rw [List.take_of_length_le more.le] at replayed
  rw [got]
  refine ⟨by simp, ?_, le, ?_, ?_⟩
  · rwa [List.drop_eq_nil_of_le (within _)]
  · rw [List.take_of_length_le (within _), List.map_append, replayed, List.length_append,
      List.length_singleton, List.take_succ_eq_append_getElem more, List.map_append]
    rfl
  · rw [List.drop_eq_nil_of_le (within _)]
    exact follows_nil

lemma Tracks.read_live (h : Tracks b start replay rs s) (used : replay.length ≤ rs.length) :
    Tracks b start replay (rs ++ [⟨b.published, (b.tryNext s).1⟩]) (b.tryNext s).2 := by
  obtain ⟨backlog, position⟩ := s
  obtain ⟨rfl, standing, le, replayed, live⟩ := h
  dsimp only at standing le
  have rest : ∀ r : Read α, (rs ++ [r]).drop replay.length = rs.drop replay.length ++ [r] :=
    fun r => List.drop_append_of_le_length used
  have same : ∀ r : Read α, (((rs ++ [r]).take replay.length).map Read.answer =
      (replay.take (rs ++ [r]).length).map some) := by
    intro r
    rw [List.take_append_of_le_length used, replayed, List.take_of_length_le used,
      List.take_of_length_le (by simp; omega)]
  rw [List.drop_eq_nil_of_le used]
  by_cases below : position < b.published
  · obtain ⟨e, there, got⟩ := Bus.tryNext_of_lt below
    obtain ⟨-, newest⟩ := Bus.id_bounds (List.mem_of_getElem? there)
    have id : e.id = max (position + 1) (b.published + 1 - b.channelSize) := by
      rw [Bus.id_of_getElem?_log there, Bus.lost]
      omega
    rw [got]
    refine ⟨?_, ?_, ?_, same _, ?_⟩
    · exact (List.drop_eq_nil_of_le (by simp; omega)).symm
    · simp [rest]
    · exact newest
    · rw [rest, follows_concat, ← standing]
      exact ⟨live, le, fun same => absurd same below.ne,
        fun _ => ⟨e, List.mem_of_getElem? there, id, rfl⟩⟩
  · -- nothing is there, so the stream stays where it stands
    have here : position = b.published := le_antisymm le (Nat.not_lt.1 below)
    rw [Bus.tryNext_of_le here.ge]
    refine ⟨?_, ?_, le, same _, ?_⟩
    · exact (List.drop_eq_nil_of_le (by simp; omega)).symm
    · simp [rest, standing]
    · rw [rest, follows_concat, ← standing]
      exact ⟨live, le, fun _ => rfl, fun less => absurd less below⟩

theorem Tracks.read (h : Tracks b start replay rs s) :
    Tracks b start replay (rs ++ [⟨b.published, (b.tryNext s).1⟩]) (b.tryNext s).2 := by
  obtain more | used := Nat.lt_or_ge rs.length replay.length
  · exact h.read_replay more
  · exact h.read_live used

end Tracks

/-! ### Runs -/

section Runs

variable {h : Hub α} {replay : List (Numbered α)} {s : Subscription α} {stream : ℕ}

lemma Tracks.step (tracks : Tracks h.bus start replay rs s) (here : h.streams[stream]? = some s)
    (op : Op α) : ∃ s', (h.step op).2.streams[stream]? = some s' ∧
      Tracks (h.step op).2.bus start replay
        (rs ++ reads stream h.bus.published [⟨op, (h.step op).1⟩]) s' := by
  have inside : stream < h.streams.size := (Array.getElem?_eq_some_iff.1 here).1
  cases op with
  | publish event =>
    refine ⟨s, here, ?_⟩
    simp only [reads, List.append_nil]
    exact tracks.mono rfl ⟨_, Bus.log_publish.symm⟩
  | subscribe since =>
    refine ⟨s, ?_, ?_⟩
    · simp only [Hub.step, Array.getElem?_push, if_neg inside.ne, here]
    · simp only [reads, List.append_nil]
      exact tracks
  | tryNext k =>
    by_cases same : k = stream
    · subst same
      simp only [Hub.step, here, reads, if_true]
      exact ⟨_, by simp [inside], tracks.read⟩
    · have other : ∀ s', (h.streams.setIfInBounds k s')[stream]? = some s := fun s' => by
        rw [Array.getElem?_setIfInBounds_ne same, here]
      refine ⟨s, ?_, ?_⟩
      · simp only [Hub.step]
        cases h.streams[k]? with
        | none => exact here
        | some s' => exact other _
      · simp only [reads, same, if_false, List.append_nil, Hub.step]
        cases h.streams[k]? with
        | none => exact tracks
        | some s' => exact tracks
  | clone | drop =>
    refine ⟨s, here, ?_⟩
    simp only [reads, List.append_nil]
    exact tracks.mono rfl (List.prefix_refl _)

theorem Tracks.run (tracks : Tracks h.bus start replay [] s) (here : h.streams[stream]? = some s)
    (ops : List (Op α)) : ∃ s', (h.run ops).streams[stream]? = some s' ∧
      Tracks (h.run ops).bus start replay (reads stream h.bus.published (h.record ops)) s' := by
  induction ops using List.reverseRecOn with
  | nil => exact ⟨s, here, tracks⟩
  | append_singleton ops op ih =>
    obtain ⟨s', there, tracks'⟩ := ih
    have count : h.bus.published + (published (h.record ops)).length =
        (h.run ops).bus.published := by
      rw [← Bus.length_log, ← Bus.length_log, log_run, List.length_append]
    rw [run_concat, record_concat, reads_concat, count]
    exact tracks'.step there op

end Runs

/-! ### Delivery -/

/-- **What a stream delivers**, by its readings so far. The channel holds `size` events, `log` has
all that were published, and the stream was subscribed when there were `start` of them, with some to
replay. -/
structure Delivers (size : ℕ) (log : List (Numbered α)) (start : ℕ) (replay : List (Numbered α))
    (reads : List (Read α)) : Prop where
  numbered : log.map Numbered.id = List.range' 1 log.length
  /-- The first readings give the replay in order, whatever has been published since. -/
  replayed : (reads.take replay.length).map Read.answer = (replay.take reads.length).map some
  /-- The others give the next event, or the oldest one that is held. -/
  live : Follows size log start (reads.drop replay.length)
  ascending : (ids reads).Pairwise (· < ·)
  /-- An event that was passed and not given was lost when its turn came. -/
  skipped : ∀ i, start < i → i ≤ passed start (reads.drop replay.length) → i ∉ ids reads →
    ∃ earlier r e, earlier ++ [r] <+: reads.drop replay.length ∧ r.answer = some e ∧
      passed start earlier < i ∧ i < e.id ∧ i + size ≤ r.published

/-- Readings of the replay ascend up to where the channel takes over. -/
lemma Delivers.of_tracks {b : Bus α} {replay : List (Numbered α)} {s : Subscription α}
    (tracks : Tracks b start replay rs s) (sorted : (replay.map Numbered.id).Pairwise (· < ·))
    (old : ∀ e ∈ replay, e.id ≤ start) :
    Delivers b.channelSize b.log start replay rs := by
  have early : ids (rs.take replay.length) = (replay.take rs.length).map Numbered.id :=
    calc ids (rs.take replay.length)
      _ = ((rs.take replay.length).map Read.answer).filterMap (Option.map Numbered.id) := by
        rw [List.filterMap_map]
        rfl
      _ = ((replay.take rs.length).map some).filterMap (Option.map Numbered.id) := by
        rw [tracks.replayed]
      _ = (replay.take rs.length).map Numbered.id := by
        rw [List.filterMap_map]
        exact congrFun List.filterMap_eq_map _
  have split : ids rs =
      (replay.take rs.length).map Numbered.id ++ ids (rs.drop replay.length) := by
    conv_lhs => rw [← List.take_append_drop replay.length rs]
    rw [ids, List.filterMap_append, ← ids, ← ids, early]
  obtain ⟨ascending, -, bounds⟩ := tracks.live.ascending
  refine ⟨by rw [Bus.map_id_log, Bus.length_log], tracks.replayed, tracks.live, ?_, ?_⟩
  · rw [split, List.pairwise_append]
    refine ⟨?_, ascending, ?_⟩
    · rw [List.map_take]
      exact sorted.take
    · intro i early j late
      obtain ⟨e, inside, rfl⟩ := List.mem_map.1 early
      exact (old e (List.mem_of_mem_take inside)).trans_lt (bounds j late).1
  · intro i later gone missing
    rw [split, List.mem_append, not_or] at missing
    exact tracks.live.skipped later gone missing.2

lemma delivers_subscribe (h : Hub α) (since : Option ℕ) (after : List (Op α)) :
    let stream := h.step (.subscribe since)
    let later := stream.2.record after
    Delivers h.bus.channelSize (h.bus.log ++ published later) h.bus.log.length
      (replay h.bus.capacity h.bus.log since) (reads stream.1 h.bus.log.length later) := by
  intro stream later
  have fresh : Tracks stream.2.bus h.bus.log.length (replay h.bus.capacity h.bus.log since) []
      (h.bus.subscribe since) :=
    ⟨backlog_subscribe h.bus since, by simp [Bus.subscribe, passed], le_rfl, by simp,
      by simpa using follows_nil⟩
  obtain ⟨s, -, tracks⟩ := fresh.run Array.getElem?_push_size after
  have sorted : (h.bus.log.map Numbered.id).Pairwise (· < ·) := by
    rw [Bus.map_id_log]
    exact List.pairwise_lt_range'
  have delivers := Delivers.of_tracks tracks
    (sorted.sublist ((replay_sublist h.bus.capacity h.bus.log since).map _))
    fun e => id_le_of_mem_replay
  have size : (stream.2.run after).bus.channelSize = h.bus.channelSize := by
    rw [Bus.channelSize, capacity_run]
    rfl
  have count : stream.2.bus.published = h.bus.log.length := Bus.length_log.symm
  rwa [log_run, size, count] at delivers

/-- **Event delivery.** After any operations on a bus of a given capacity and its clones, a stream
that was subscribed with or without a number first gives the events after that number which the
replay held then; from then on each reading gives the event after the last one passed, or the oldest
one in a channel as large as the capacity rounded up to a power of two, and nothing if there is no
newer event. Numbers ascend throughout, and an event is skipped only if the channel had lost it. Kept
in cells with the numbers in words, all of it is answered so until the words run out. -/
theorem stream_delivers {capacity : ℕ} {bus : Bus α} (made : Bus.ofCapacity? capacity = some bus)
    (before after : List (Op α)) (since : Option ℕ) :
    let hub : Hub α := { bus }
    let past := published (hub.record before)
    let stream := (hub.run before).step (.subscribe since)
    let later := stream.2.record after
    Delivers (2 ^ Nat.clog 2 capacity) (past ++ published later) past.length
      (replay capacity past since) (reads stream.1 past.length later) ∧
    ∀ entries cells, EventCells.Run (.ofCapacity capacity) entries cells →
      entries.map Entry.op = before ++ .subscribe since :: after →
      past.length + (published later).length < 2 ^ 64 →
      entries = hub.record before ++ ⟨.subscribe since, stream.1⟩ :: later := by
  intro hub past stream later
  obtain ⟨capacity', empty, -⟩ := Bus.of_ofCapacity? made
  have log : (hub.run before).bus.log = past := by
    rw [log_run, Bus.log, empty]
    rfl
  constructor
  · have same : (hub.run before).bus.capacity = capacity := (capacity_run before).trans capacity'
    have delivers := delivers_subscribe (hub.run before) since after
    rwa [Bus.channelSize_eq, log, same] at delivers
  · intro entries cells run ops few
    have whole : hub.run (before ++ .subscribe since :: after) = stream.2.run after := by
      rw [Hub.run, List.foldl_append]
      rfl
    have count : (hub.run (entries.map Entry.op)).bus.published =
        past.length + (published later).length := by
      rw [ops, whole, ← Bus.length_log, log_run, List.length_append, ← log]
      rfl
    obtain ⟨same, -⟩ := (EventCells.Mirrors.start made).run run (count.trans_lt few)
    rw [same, ops, record_append]
    rfl

theorem lagging_stream_delivers :
    let bus : Bus ℕ := ⟨3, by decide, #[], 1⟩
    let hub : Hub ℕ := { bus }
    let before := [.publish 10, .publish 20, .clone, .publish 30, .publish 40, .publish 50]
    let after := [.tryNext 0, .publish 60, .publish 70, .subscribe none, .publish 80, .publish 90,
      .publish 100, .publish 110, .tryNext 0, .tryNext 0, .tryNext 0, .tryNext 1, .tryNext 0]
    let past := published (hub.record before)
    let stream := (hub.run before).step (.subscribe (some 1))
    let later := stream.2.record after
    Bus.ofCapacity? 3 = some bus ∧
      (reads stream.1 past.length later).map Read.answer =
        [some ⟨3, 30⟩, some ⟨4, 40⟩, some ⟨5, 50⟩, some ⟨8, 80⟩, some ⟨9, 90⟩] ∧
      Delivers (2 ^ Nat.clog 2 3) (past ++ published later) past.length
        (replay 3 past (some 1)) (reads stream.1 past.length later) ∧
      ∃ cells, EventCells.Run (.ofCapacity 3)
        (hub.record before ++ ⟨.subscribe (some 1), stream.1⟩ :: later) cells := by
  intro bus hub before after past stream later
  have made : Bus.ofCapacity? 3 = some bus := rfl
  obtain ⟨delivers, answers⟩ := stream_delivers made before after (some 1)
  have allowed : hub.allowsAll (before ++ .subscribe (some 1) :: after) = true := by decide
  obtain ⟨entries, cells, run, ops⟩ :=
    (EventCells.Mirrors.start made).exists_run .nil allowed (by decide)
  refine ⟨made, by decide, delivers, cells, ?_⟩
  rw [← answers _ _ run ops (by decide)]
  exact run

end TorrentHandle.Hub
