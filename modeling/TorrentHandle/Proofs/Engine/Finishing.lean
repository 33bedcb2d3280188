import TorrentHandle.Proofs.Engine.Progress
import TorrentHandle.Proofs.Torrent.Advance

/-!
Recording the pieces of a torrent as finished, one after another. Each step makes of the torrent
what all pieces so far make of it at once, so the order does not matter in the end; and since the
state only moves forward, it is announced at most once for each later state.
-/

namespace TorrentHandle

/-! ### States that climb -/

/-- States that lead from the first to the last, each with a higher code than those before. -/
structure TorrentState.Climb (first last : TorrentState) (states : List TorrentState) : Prop where
  rising : (first :: states).Pairwise fun s s' => s.code < s'.code
  last : (first :: states).getLast? = some last
  phases : first :: states ⊆ phases

namespace TorrentState.Climb

variable {first last later : TorrentState} {states : List TorrentState}

lemma stay (inside : first ∈ TorrentState.phases) : Climb first first [] :=
  ⟨List.pairwise_singleton _ _, rfl, List.cons_subset.2 ⟨inside, List.nil_subset _⟩⟩

lemma concat (climb : Climb first last states) (higher : last.code < later.code)
    (inside : later ∈ TorrentState.phases) : Climb first later (states ++ [later]) := by
  refine ⟨?_, ?_, ?_⟩
  · obtain ⟨before, split⟩ := List.getLast?_eq_some_iff.1 climb.last
    have rising := climb.rising
    rw [← List.cons_append, split, List.pairwise_append]
    refine ⟨split ▸ rising, List.pairwise_singleton _ _, fun s earlier s' here => ?_⟩
    obtain rfl := List.mem_singleton.1 here
    rw [split, List.pairwise_append] at rising
    rcases List.mem_append.1 earlier with below | top
    · exact Int32.lt_trans (rising.2.2 s below last (List.mem_singleton_self _)) higher
    · rwa [List.mem_singleton.1 top]
  · rw [← List.cons_append, List.getLast?_concat]
  · rw [← List.cons_append]
    exact List.append_subset.2 ⟨climb.phases, List.cons_subset.2 ⟨inside, List.nil_subset _⟩⟩

/-- There are three states to be in, so a climb has at most two steps. -/
lemma length_le (climb : Climb first last states) : states.length ≤ 2 := by
  have distinct : (first :: states).Nodup := by
    apply climb.rising.imp
    intro s s' lower same
    subst same
    exact Int32.lt_irrefl lower
  have all : states.length + 1 ≤ 3 := distinct.length_le_of_subset climb.phases
  omega

end TorrentState.Climb

namespace Engine

variable {e : Engine} {a : Address} {h : HandleObject} {t : Torrent} {m : Metadata}
  {order pieces : List UInt32} {piece : UInt32}

/-! ### One piece -/

lemma act_finish (found : e.objects.get? a = some h) (attached : h.torrent = some t)
    {t' : Torrent} (done : t.finishPiece piece = .ok t') :
    e.act (.session a (.recordPieceFinished piece)) = (.ok (), { e with
      objects := e.objects.set a { h with torrent := some t' }
      bus := e.bus.publish? (if t.state = t'.state then none
        else some (.stateChanged h.id t'.state.code t'.paused)) }) := by
  rw [act, session_eq_attempt]
  exact attempt_of_ok found (SessionCall.finish_eq_ok.2 ⟨t, t', attached, done, rfl⟩)

/-! ### Pieces in some order -/

/-- Records pieces of the torrent at an address as finished, one after another. -/
def finishAll (a : Address) (pieces : List UInt32) : List Op :=
  pieces.map fun piece => .session a (.recordPieceFinished piece)

lemma finishAll_concat : finishAll a (order ++ [piece]) =
    finishAll a order ++ [.session a (.recordPieceFinished piece)] := List.map_append

/-- What comes of recording pieces of a torrent as finished in some order: every call is accepted,
the object is left as it was but for the torrent, the state never goes back on the way, and what is
published is each new state. A torrent that has all its pieces seeds, and none is waited for. -/
structure Finishes (e : Engine) (a : Address) (h : HandleObject) (t : Torrent) (m : Metadata)
    (order : List UInt32) (t' : Torrent) : Prop where
  accepted : e.record (finishAll a order) =
    order.map fun piece => ⟨.session a (.recordPieceFinished piece), .ok ()⟩
  object : (e.run (finishAll a order)).objects.get? a = some { h with torrent := some t' }
  forward : ∀ before after, before <+: after → after <+: order → ∃ t₁ t₂,
    (e.run (finishAll a before)).objects.get? a = some { h with torrent := some t₁ } ∧
    (e.run (finishAll a after)).objects.get? a = some { h with torrent := some t₂ } ∧
    t₁.state ∈ TorrentState.phases ∧ t₂.state ∈ TorrentState.phases ∧
    t₁.state.code ≤ t₂.state.code
  told : ∃ states, t.state.Climb t'.state states ∧ states.length ≤ 2 ∧
    (e.run (finishAll a order)).bus.events.toList = e.bus.events.toList ++
      states.map fun s => .stateChanged h.id s.code t.paused
  complete : (∀ piece < m.pieceCount, piece ∈ order) → t'.state = .seeding ∧
    t'.bytesDownloaded = t'.bytesTotal ∧ ∀ piece ∈ t'.finished, piece ∉ t'.deadlines

section Order

variable (found : e.objects.get? a = some h) (attached : h.torrent = some t)
  (known : t.metadata = some m) (fits : t.Fits m) (current : t.state = t.derivedState)
include found attached known fits current

lemma finishAll_run (order : List UInt32) (inRange : ∀ piece ∈ order, piece < m.pieceCount) :
    e.record (finishAll a order) =
        order.map (fun piece => ⟨.session a (.recordPieceFinished piece), .ok ()⟩) ∧
      (e.run (finishAll a order)).objects.get? a =
        some { h with torrent := some (t.withFinished order) } ∧
      ∃ states, t.state.Climb (t.withFinished order).state states ∧
        (e.run (finishAll a order)).bus.events.toList = e.bus.events.toList ++
          states.map fun s => .stateChanged h.id s.code t.paused := by
  induction order using List.reverseRecOn with
  | nil =>
    have inside : t.state ∈ TorrentState.phases := current ▸ Torrent.derivedState_mem_phases known
    refine ⟨rfl, ?_, [], ?_, (List.append_nil _).symm⟩
    · rw [Torrent.withFinished_nil current, ← attached]
      exact found
    · rw [Torrent.withFinished_nil current]
      exact .stay inside
  | append_singleton order piece ih =>
    rw [List.forall_mem_append, List.forall_mem_singleton] at inRange
    obtain ⟨accepted, object, states, climb, told⟩ := ih inRange.1
    have done : (t.withFinished order).finishPiece piece = _ :=
      Torrent.finishPiece_withFinished known inRange.2
    have act := act_finish object rfl done
    have inRange' : ∀ piece' ∈ order ++ [piece], piece' < m.pieceCount := by
      rw [List.forall_mem_append, List.forall_mem_singleton]
      exact inRange
    have forward : (t.withFinished order).state.code ≤
        (t.withFinished (order ++ [piece])).state.code :=
      Torrent.code_withFinished_le fits inRange' known (List.subset_append_left _ _)
    rw [finishAll_concat, record_append, run_append]
    generalize e.run (finishAll a order) = e₁ at *
    have step : e₁.run [.session a (.recordPieceFinished piece)] =
        (e₁.act (.session a (.recordPieceFinished piece))).2 := rfl
    rw [step, act]
    refine ⟨?_, ?_, ?_⟩
    · rw [accepted, List.map_append]
      simp only [record, act, List.map_singleton]
    · rw [Arena.get?_set, if_pos rfl, object]
      rfl
    · -- a state that is another one is a later one, so the climb goes on where one is published
      by_cases same : (t.withFinished order).state = (t.withFinished (order ++ [piece])).state
      · rw [if_pos same]
        exact ⟨states, same ▸ climb, told⟩
      · have higher : (t.withFinished order).state.code <
            (t.withFinished (order ++ [piece])).state.code :=
          Int32.lt_of_le_of_ne forward (mt (TorrentState.code_injective ·) same)
        rw [if_neg same]
        refine ⟨states ++ [(t.withFinished (order ++ [piece])).state],
          climb.concat higher (Torrent.derivedState_mem_phases known), ?_⟩
        rw [Bus.publish?, Bus.publish, Array.toList_push, told, List.map_append, List.append_assoc]
        rfl

lemma finishes (inRange : ∀ piece ∈ order, piece < m.pieceCount) :
    e.Finishes a h t m order (t.withFinished order) := by
  have run := finishAll_run found attached known fits current
  obtain ⟨accepted, object, states, climb, told⟩ := run order inRange
  refine ⟨accepted, object, fun before after first second => ?_,
    ⟨states, climb, climb.length_le, told⟩, fun all => ?_⟩
  · have among : ∀ piece ∈ after, piece < m.pieceCount :=
      fun piece inside => inRange piece (second.subset inside)
    have earlier := run before fun piece inside => among piece (first.subset inside)
    exact ⟨_, _, earlier.2.1, (run after among).2.1, Torrent.derivedState_mem_phases known,
      Torrent.derivedState_mem_phases known,
      Torrent.code_withFinished_le fits among known first.subset⟩
  · obtain ⟨seeds, bytes⟩ := Torrent.withFinished_all fits inRange known all
    exact ⟨seeds, bytes, (fits.withFinished inRange).apart⟩

end Order

/-- **Pieces may finish in any order.** After any operations, recording pieces of a torrent with
metadata as finished leaves one torrent, whatever their order and however often each comes. The
state only moves forward on the way, each new one is published, and they are two at most; with all
pieces the torrent seeds, has all its bytes, and waits for none of them. -/
theorem pieces_finish_in_any_order (owner : ℕ) (settings : EngineSettings) (bus : Bus Event)
    (ops : List Op) {h : HandleObject} {t : Torrent} {m : Metadata}
    (found : ((create owner settings bus).run ops).objects.get? a = some h)
    (attached : h.torrent = some t) (known : t.metadata = some m) {pieces : List UInt32}
    (inRange : ∀ piece ∈ pieces, piece < m.pieceCount) : ∃ t', ∀ order : List UInt32,
      (∀ piece, piece ∈ order ↔ piece ∈ pieces) →
      ((create owner settings bus).run ops).Finishes a h t m order t' := by
  refine ⟨t.withFinished pieces, fun order same => ?_⟩
  have fits := (torrent_coherent_run owner settings bus ops found attached).fits m known
  have current := torrent_current_run owner settings bus ops found attached
  have inRange' : ∀ piece ∈ order, piece < m.pieceCount :=
    fun piece inside => inRange piece ((same piece).1 inside)
  rw [← Torrent.withFinished_congr same]
  exact finishes found attached known fits current inRange'

theorem sample_pieces_finish_in_any_order :
    let e := (create 1 {} ⟨1, by decide, #[], 1⟩).run [.addTorrent (.ofMetadata .sample),
      .call ⟨1, 0, 1⟩ (.setFilePriority 1 .dontDownload),
      .call ⟨1, 0, 1⟩ (.setPieceDeadline 2 500)]
    let t : Torrent := {
      infoHash := .sample, name := some "Sample Show", metadata := some .sample, paused := false
      state := .downloading, priorities := [.standard, .dontDownload]
      deadlines := (∅ : PieceMap UInt32).insert 2 500 }
    let news := fun order => (e.run (finishAll ⟨1, 0, 1⟩ order)).bus.events.toList.drop 1
    e.objects.get? ⟨1, 0, 1⟩ = some { torrent := some t } ∧
      news [0, 1, 1, 2] = [.stateChanged 0 4 false, .stateChanged 0 5 false] ∧
      news [2, 1, 1, 0] = [.stateChanged 0 5 false] ∧
      ∃ t', e.Finishes ⟨1, 0, 1⟩ { torrent := some t } t .sample [0, 1, 1, 2] t' ∧
        e.Finishes ⟨1, 0, 1⟩ { torrent := some t } t .sample [2, 1, 1, 0] t' := by
  intro e t news
  have found : e.objects.get? ⟨1, 0, 1⟩ = some { torrent := some t } := by decide +kernel
  have inRange : ∀ piece ∈ ([0, 1, 1, 2] : List UInt32), piece < Metadata.sample.pieceCount := by
    simp only [List.forall_mem_cons, List.not_mem_nil, false_implies, implies_true, and_true]
    decide
  obtain ⟨t', finishes⟩ := pieces_finish_in_any_order 1 {} ⟨1, by decide, #[], 1⟩ _ found rfl rfl
    inRange
  have same : ∀ piece : UInt32, piece ∈ [2, 1, 1, 0] ↔ piece ∈ [0, 1, 1, 2] := by
    intro piece
    show piece ∈ [0, 1, 1, 2].reverse ↔ piece ∈ [0, 1, 1, 2]
    exact List.mem_reverse
  exact ⟨found, by decide +kernel, by decide +kernel, t', finishes _ fun _ => .rfl,
    finishes _ same⟩

end Engine

end TorrentHandle
