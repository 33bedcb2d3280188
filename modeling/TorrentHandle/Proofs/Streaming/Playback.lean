import TorrentHandle.Proofs.Streaming.Plan
import TorrentHandle.Proofs.Streaming.Sink

/-!
Playbacks over runs. Three parts keep what is requested: the controller its plan, the sink the
pieces it has given a deadline, the engine the deadlines. Over every run they agree (`Agrees`): a
finished piece is the only one that a plan can lose before the next seek, and the engine has dropped
its deadline by then; a seek drops all others, since no footer is named any more.
-/

namespace TorrentHandle

/-! ### Controller and torrent -/

/-- The controller plays this torrent and knows which of its pieces are missing. -/
structure Controller.Tracks (c : Controller) (t : Torrent) (m : Metadata) : Prop where
  known : t.metadata = some m
  count : c.pieceCount = m.pieceCount.toNat
  ascending : c.unfinished.toList.Pairwise (· < ·)
  unfinished : ∀ piece, piece ∈ c.unfinished.toList ↔
    piece < m.pieceCount.toNat ∧ piece ∉ t.finished

namespace Controller.Tracks

variable {c c' : Controller} {t t' : Torrent} {m : Metadata} {piece : UInt32}

lemma congr (tracks : c.Tracks t m) (count : c'.pieceCount = c.pieceCount)
    (unfinished : c'.unfinished.toList = c.unfinished.toList) (metadata : t'.metadata = t.metadata)
    (finished : t'.finished = t.finished) : c'.Tracks t' m := by
  refine ⟨metadata.trans tracks.known, count.trans tracks.count, ?_, ?_⟩ <;> rw [unfinished]
  · exact tracks.ascending
  · rw [finished]
    exact tracks.unfinished

lemma ofMetadata (window : StreamingWindow) (known : t.metadata = some m) (none : t.finished = ∅) :
    (Controller.ofMetadata m window).Tracks t m := by
  have all : (Controller.ofMetadata m window).unfinished.toList = List.range m.pieceCount.toNat :=
    Runs.toList_below _
  refine ⟨known, rfl, ?_, fun piece => ?_⟩
  · rw [all]
    exact List.pairwise_lt_range
  · rw [all, List.mem_range, none]
    simp

lemma missing (tracks : c.Tracks t m) (piece : ℕ) (planned : piece ∈ c.plan.pieces) :
    piece < m.pieceCount.toNat ∧ piece ∉ t.finished :=
  (tracks.unfinished piece).1 (mem_unfinished_of_mem_plan planned)

lemma finish (tracks : c.Tracks t m) (done : t.finishPiece piece = .ok t') :
    (c.advance (.downloaded piece)).Tracks t' m := by
  obtain ⟨-, rfl⟩ := Torrent.finishPiece_eq_ok.1 done
  have left : (c.advance (.downloaded piece)).unfinished.toList =
      c.unfinished.toList.filter (· != piece.toNat) := Runs.toList_erase _ _
  refine ⟨tracks.known, tracks.count, ?_, fun other => ?_⟩
  · rw [left]
    exact tracks.ascending.filter _
  · rw [left, List.mem_filter, tracks.unfinished]
    simp only [Torrent.refresh, Std.ExtTreeSet.mem_insert, bne_iff_ne, Nat.compare_eq_eq]
    grind

/-- A piece that the torrent does not have makes no difference to the controller. -/
lemma unfinished_outside (tracks : c.Tracks t m) (outside : ¬ piece.toNat < c.pieceCount) :
    (c.advance (.downloaded piece)).unfinished.toList = c.unfinished.toList := by
  refine (Runs.toList_erase _ _).trans (List.filter_eq_self.2 fun other there => ?_)
  have inside := ((tracks.unfinished other).1 there).1
  rw [← tracks.count] at inside
  simp only [bne_iff_ne]
  omega

end Controller.Tracks

/-! ### Agreement -/

/-- Controller, sink and torrent agree: the sink knows of every deadline, and the deadlines are
those of the plan as soon as plans are applied. -/
structure DeadlineSink.Agrees (s : DeadlineSink) (c : Controller) (t : Torrent) (m : Metadata) :
    Prop where
  tracks : c.Tracks t m
  active : ∀ piece ∈ t.deadlines, piece ∈ s.active
  inside : ∀ piece ∈ s.active, piece < m.pieceCount.toNat
  idle : c.active = false → t.deadlines = ∅
  scheduled : c.active = true → t.Scheduled c.plan s.step

/-- The proxy with a number refers to the torrent at an address of an engine. -/
abbrev World.Holds (w : World) (proxy engine : ℕ) (a : Address) (t : Torrent) : Prop :=
  (w.proxy proxy).Holds w.host engine a t

lemma DeadlineSink.Agrees.planned {s : DeadlineSink} {c : Controller} {t : Torrent} {m : Metadata}
    {piece : ℕ} (agrees : s.Agrees c t m) (due : piece ∈ t.deadlines) : piece ∈ c.plan.pieces := by
  cases state : c.active with
  | false => simp [agrees.idle state] at due
  | true => exact (agrees.scheduled state).planned due

/-! ### Events -/

/-- Whether plans are applied from this event on. -/
def Progress.starts : Progress → Bool
  | .downloaded _ => false
  | .resumed | .seek _ => true

namespace World.Holds

variable {w : World} {proxy engine : ℕ} {a : Address} {t t' : Torrent} {piece : UInt32}

lemma pieceDeadlines (holds : w.Holds proxy engine a t) :
    (w.host.session engine a .pieceDeadlines).1 = .ok t.pieceDeadlines := by
  obtain ⟨e, o, here, found, attached⟩ := Host.torrent?_eq_some.1 holds.torrent
  simp only [Host.session, Host.onEngine, here, Engine.session_eq_attempt]
  exact Engine.attempt_query_eq_ok.2 ⟨o, t, found, attached, rfl⟩

lemma recordFinished (holds : w.Holds proxy engine a t) (done : t.finishPiece piece = .ok t') :
    (w.step (.session engine a (.recordPieceFinished piece))).1 = .ok () ∧
      (w.step (.session engine a (.recordPieceFinished piece))).2.Holds proxy engine a t' := by
  obtain ⟨e, o, here, found, attached⟩ := Host.torrent?_eq_some.1 holds.torrent
  have recorded : e.session a (.recordPieceFinished piece) = _ :=
    (Engine.session_eq_attempt _).trans
      (Engine.attempt_of_ok found (SessionCall.finish_eq_ok.2 ⟨t, t', attached, done, rfl⟩))
  simp only [World.step, World.withHost, Host.session, Host.onEngine, here, recorded, true_and]
  refine ⟨holds.address, holds.target, ?_⟩
  rw [Host.torrent?_set here rfl]
  simp [Arena.get?_set, found]

end World.Holds

namespace Playback

variable {p p' : Playback} {w w' : World} {proxy engine : ℕ} {a : Address} {events : List Progress}

/-- What the engine is told of an event before the playback is: a piece of the torrent that has been
downloaded is recorded as finished. -/
def tell (p : Playback) (engine : ℕ) (a : Address) (event : Progress) (w : World) :
    Except NativeError Unit × World :=
  match event with
  | .downloaded piece =>
    if piece.toNat < p.controller.pieceCount then
      w.step (.session engine a (.recordPieceFinished piece))
    else (.ok (), w)
  | .resumed | .seek _ => (.ok (), w)

/-- The engine and then the playback are told of an event, and neither fails. -/
structure Accepts (p : Playback) (engine : ℕ) (a : Address) (event : Progress) (w : World) :
    Prop where
  told : (p.tell engine a event w).1 = .ok ()
  handled : (p.handle event (p.tell engine a event w).2).1 = .ok ()

/-- Playback and world after an event that the engine and then the playback are told of. -/
def follow (p : Playback) (engine : ℕ) (a : Address) (event : Progress) (w : World) :
    Playback × World :=
  (p.handle event (p.tell engine a event w).2).2

/-- A playback goes through events, in any order. In between anything may be done in the world that
leaves the torrent and the way to it alone. -/
inductive Reaches (proxy engine : ℕ) (a : Address) (p : Playback) (w : World) :
    List Progress → Playback → World → Prop where
  | start : Reaches proxy engine a p w [] p w
  | event {events : List Progress} {p' : Playback} {w' : World}
      (before : Reaches proxy engine a p w events p' w') (event : Progress) :
      Reaches proxy engine a p w (events ++ [event])
        (p'.follow engine a event w').1 (p'.follow engine a event w').2
  | aside {events : List Progress} {p' : Playback} {w' w'' : World}
      (before : Reaches proxy engine a p w events p' w')
      (kept : ∀ t, w'.Holds proxy engine a t → w''.Holds proxy engine a t) :
      Reaches proxy engine a p w events p' w''

/-! ### One event -/

section Step

variable {s : DeadlineSink} {c : Controller} {t : Torrent} {m : Metadata} {w₁ : World}
  {event : Progress} {piece : UInt32}

/-- The event is accepted, and controller, sink and torrent agree again. -/
structure Keeps (s : DeadlineSink) (c : Controller) (m : Metadata) (proxy engine : ℕ) (a : Address)
    (event : Progress) (w : World) : Prop where
  accepts : Accepts ⟨c, .deadlines proxy s⟩ engine a event w
  agrees : ∃ (s' : DeadlineSink) (w' : World) (t' : Torrent),
    follow ⟨c, .deadlines proxy s⟩ engine a event w =
      (⟨c.advance event, .deadlines proxy s'⟩, w') ∧
    s'.step = s.step ∧ w'.Holds proxy engine a t' ∧ s'.Agrees (c.advance event) t' m

/-- The plan is applied: all agree again, provided that every other piece that has a deadline loses
it. -/
lemma keeps_of_applies (told : tell ⟨c, .deadlines proxy s⟩ engine a event w = (.ok (), w₁))
    (applies : c.applies event = true) (holds : w₁.Holds proxy engine a t)
    (tracks : (c.advance event).Tracks t m)
    (inside : ∀ piece ∈ s.active, piece < m.pieceCount.toNat)
    (covered : ∀ piece ∈ t.deadlines,
      piece ∈ (c.advance event).plan.pieces ∨ piece ∈ s.dropped (c.advance event).plan) :
    Keeps s c m proxy engine a event w := by
  obtain ⟨active, h', deadlines, applied, holds', planned, inside', scheduled⟩ :=
    DeadlineSink.downloadOnly_ok holds tracks.known (Controller.ascending_plan tracks.ascending)
      tracks.missing inside covered
  have handled : handle ⟨c, .deadlines proxy s⟩ event w₁ =
      (.ok (), ⟨c.advance event, .deadlines proxy { s with active }⟩,
        { w₁ with host := h' }) := by
    simp only [handle, if_pos applies, Sink.downloadOnly, applied]
  have started : (c.advance event).active = true := by
    cases event with
    | downloaded piece => exact (Bool.and_eq_true_iff.1 applies).1
    | resumed => rfl
    | seek piece => rfl
  refine ⟨⟨by rw [told], by rw [told, handled]⟩,
    { s with active }, { w₁ with host := h' }, { t with deadlines }, ?_, rfl, holds', ?_⟩
  · rw [follow, told, handled]
  · refine ⟨tracks.congr rfl rfl rfl rfl, ?_, inside', ?_, fun _ => scheduled⟩
    · exact fun piece due => planned piece (scheduled.planned due)
    · exact fun idle => absurd (started.symm.trans idle) nofun

/-- No plan is applied, and all agree already. -/
lemma keeps_of_not_applies (told : tell ⟨c, .deadlines proxy s⟩ engine a event w = (.ok (), w₁))
    (applies : c.applies event = false) (holds : w₁.Holds proxy engine a t)
    (agrees : s.Agrees (c.advance event) t m) : Keeps s c m proxy engine a event w := by
  have handled : handle ⟨c, .deadlines proxy s⟩ event w₁ =
      (.ok (), ⟨c.advance event, .deadlines proxy s⟩, w₁) := by
    simp [handle, applies]
  refine ⟨⟨by rw [told], by rw [told, handled]⟩, s, w₁, t, ?_, rfl, holds, agrees⟩
  rw [follow, told, handled]

/-- A piece of the torrent is finished: its own deadline goes with the record, and no other piece
leaves the plan. -/
lemma keeps_downloaded_inside (holds : w.Holds proxy engine a t) (agrees : s.Agrees c t m)
    (inside : piece.toNat < c.pieceCount) :
    Keeps s c m proxy engine a (.downloaded piece) w := by
  have below : piece < m.pieceCount := by
    rwa [UInt32.lt_iff_toNat_lt, ← agrees.tracks.count]
  have check := Torrent.checkPiece_eq_ok.2 ⟨m, agrees.tracks.known, below⟩
  obtain ⟨t₁, done, erased⟩ : ∃ t₁, t.finishPiece piece = .ok t₁ ∧
      t₁.deadlines = t.deadlines.erase piece.toNat :=
    ⟨_, Torrent.finishPiece_eq_ok.2 ⟨check, rfl⟩, rfl⟩
  obtain ⟨recorded, holds₁⟩ := holds.recordFinished done
  have told : tell ⟨c, .deadlines proxy s⟩ engine a (.downloaded piece) w =
      (.ok (), (w.step (.session engine a (.recordPieceFinished piece))).2) := by
    rw [tell, if_pos inside]
    exact Prod.ext recorded rfl
  have left : ∀ other ∈ t₁.deadlines, other ≠ piece.toNat ∧ other ∈ t.deadlines := by
    intro other due
    rw [erased, Std.ExtTreeMap.mem_erase, ne_eq, Nat.compare_eq_eq] at due
    exact ⟨Ne.symm due.1, due.2⟩
  have tracks := agrees.tracks.finish done
  cases state : c.active with
  | true =>
    have applies : c.applies (.downloaded piece) = true := by
      simp [Controller.applies, state, inside]
    exact keeps_of_applies told applies holds₁ tracks agrees.inside fun other due =>
      .inl (Controller.mem_plan_downloaded (left other due).1 (agrees.planned (left other due).2))
  | false =>
    have applies : c.applies (.downloaded piece) = false := by simp [Controller.applies, state]
    refine keeps_of_not_applies told applies holds₁
      ⟨tracks, fun other due => agrees.active other (left other due).2, agrees.inside, ?_, ?_⟩
    · intro _
      rw [erased, agrees.idle state]
      rfl
    · intro started
      exact absurd (state.symm.trans started) nofun

/-- The torrent has no such piece: nothing is recorded, and the plan stays as it is. -/
lemma keeps_downloaded_outside (holds : w.Holds proxy engine a t) (agrees : s.Agrees c t m)
    (outside : ¬ piece.toNat < c.pieceCount) :
    Keeps s c m proxy engine a (.downloaded piece) w := by
  have told : tell ⟨c, .deadlines proxy s⟩ engine a (.downloaded piece) w = (.ok (), w) := by
    rw [tell, if_neg outside]
  have applies : c.applies (.downloaded piece) = false := by simp [Controller.applies, outside]
  have same := agrees.tracks.unfinished_outside outside
  have tracks : (c.advance (.downloaded piece)).Tracks t m :=
    agrees.tracks.congr rfl same rfl rfl
  refine keeps_of_not_applies told applies holds
    ⟨tracks, agrees.active, agrees.inside, agrees.idle, ?_⟩
  rw [Controller.plan_downloaded same]
  exact agrees.scheduled

theorem keeps (holds : w.Holds proxy engine a t) (agrees : s.Agrees c t m) (event : Progress) :
    Keeps s c m proxy engine a event w := by
  cases event with
  | resumed =>
    have tracks : (c.advance .resumed).Tracks t m := agrees.tracks.congr rfl rfl rfl rfl
    exact keeps_of_applies rfl rfl holds tracks agrees.inside
      fun other due => .inl (agrees.planned due)
  | seek target =>
    have tracks : (c.advance (.seek target)).Tracks t m := agrees.tracks.congr rfl rfl rfl rfl
    refine keeps_of_applies rfl rfl holds tracks agrees.inside fun other due => ?_
    -- the plan names no footer, so whatever it does not hold is dropped
    by_cases planned : other ∈ (c.advance (.seek target)).plan.pieces
    · exact .inl planned
    · exact .inr (DeadlineSink.mem_dropped.2 ⟨agrees.active other due, planned, rfl⟩)
  | downloaded piece =>
    by_cases inside : piece.toNat < c.pieceCount
    · exact keeps_downloaded_inside holds agrees inside
    · exact keeps_downloaded_outside holds agrees inside

end Step

/-! ### Runs -/

section Runs

variable {t : Torrent} {m : Metadata} {window : StreamingWindow} {step : UInt32}

/-- A playback of a torrent from its start, with a sink that sets deadlines through a proxy. -/
def ofMetadata (m : Metadata) (window : StreamingWindow) (proxy : ℕ) (step : UInt32) : Playback :=
  { controller := .ofMetadata m window, sink := .deadlines proxy { step } }

theorem agrees_of_reaches (holds : w.Holds proxy engine a t) (known : t.metadata = some m)
    (none : t.deadlines = ∅) (nothing : t.finished = ∅)
    (run : Reaches proxy engine a (ofMetadata m window proxy step) w events p' w') :
    ∃ (s : DeadlineSink) (c : Controller) (t' : Torrent), p' = ⟨c, .deadlines proxy s⟩ ∧
      s.step = step ∧ c.active = events.any Progress.starts ∧ w'.Holds proxy engine a t' ∧
      s.Agrees c t' m := by
  induction run with
  | start =>
    refine ⟨{ step }, .ofMetadata m window, t, rfl, rfl, rfl, holds,
      Controller.Tracks.ofMetadata window known nothing, ?_, ?_, fun _ => none, nofun⟩
    · simp [none]
    · simp
  | event before event ih =>
    obtain ⟨s, c, t', rfl, steps, active, holds', agrees⟩ := ih
    obtain ⟨s', w'', t'', went, same, holds'', agrees''⟩ := (keeps holds' agrees event).agrees
    rw [went]
    refine ⟨s', c.advance event, t'', rfl, same.trans steps, ?_, holds'', agrees''⟩
    rw [List.any_append, ← active]
    cases event <;> simp [Controller.advance, Progress.starts]
  | aside before kept ih =>
    obtain ⟨s, c, t', rfl, steps, active, holds', agrees⟩ := ih
    exact ⟨s, c, t', rfl, steps, active, kept t' holds', agrees⟩

/-- **Deadlines follow the plan.** A playback of a torrent without deadlines and finished pieces
goes through any events, whatever else happens apart from it. Every event is accepted at any time,
and the engine reports the deadlines of the plan once the download was resumed or playback went on
elsewhere, and none before. -/
theorem deadlines_follow_plan (holds : w.Holds proxy engine a t) (known : t.metadata = some m)
    (none : t.deadlines = ∅) (nothing : t.finished = ∅)
    (run : Reaches proxy engine a (ofMetadata m window proxy step) w events p' w') :
    (∃ reported, (w'.host.session engine a .pieceDeadlines).1 = .ok reported ∧
      reported.map (fun d => (d.piece.toNat, d.milliseconds.toNat)) =
        if events.any Progress.starts then p'.controller.plan.schedule step else []) ∧
    ∀ event, p'.Accepts engine a event w' := by
  obtain ⟨s, c, t', rfl, rfl, active, holds', agrees⟩ :=
    agrees_of_reaches holds known none nothing run
  refine ⟨⟨t'.pieceDeadlines, holds'.pieceDeadlines, ?_⟩, fun event =>
    (keeps holds' agrees event).accepts⟩
  split
  · rename_i started
    exact (agrees.scheduled (active.trans started)).pieceDeadlines
      (Controller.ascending_plan agrees.tracks.ascending)
      fun piece planned => (agrees.tracks.missing piece planned).1
  · rename_i idle
    rw [Torrent.pieceDeadlines, agrees.idle (active.trans (Bool.eq_false_iff.2 idle))]
    rfl

theorem sample_deadlines_follow_plan :
    let w := (({ host := .ofEngines [({}, ⟨1, by decide, #[], 1⟩)] } : World).step
      (.start 0 (.ofMetadata .sample))).2
    let t : Torrent := {
      infoHash := .sample, name := some "Sample Show", metadata := some .sample, paused := false
      state := .downloading, priorities := [.standard, .standard] }
    w.Holds 0 0 ⟨1, 0, 1⟩ t ∧ ∃ p' w',
      Reaches 0 0 ⟨1, 0, 1⟩ (ofMetadata .sample ⟨1, 16, 16, 16⟩ 0 100) w
        [.resumed, .downloaded 0, .downloaded 9] p' w' ∧
      (∃ reported, (w'.host.session 0 ⟨1, 0, 1⟩ .pieceDeadlines).1 = .ok reported ∧
        reported.map (fun d => (d.piece.toNat, d.milliseconds.toNat)) = [(1, 0), (2, 100)]) ∧
      ∀ event, p'.Accepts 0 ⟨1, 0, 1⟩ event w' := by
  intro w t
  have holds : w.Holds 0 0 ⟨1, 0, 1⟩ t :=
    ⟨by decide +kernel, by decide +kernel, by decide +kernel⟩
  have kept : ∀ t, w.Holds 0 0 ⟨1, 0, 1⟩ t →
      (w.step (.allocate (.engine 0))).2.Holds 0 0 ⟨1, 0, 1⟩ t := by
    intro t held
    have same : (w.step (.allocate (.engine 0))).2.host.torrent? 0 ⟨1, 0, 1⟩ =
        w.host.torrent? 0 ⟨1, 0, 1⟩ := by
      decide +kernel
    exact ⟨by decide +kernel, by decide +kernel, same.trans held.torrent⟩
  have run := (((Reaches.start (p := ofMetadata .sample ⟨1, 16, 16, 16⟩ 0 100)).aside kept).event
    .resumed).event (.downloaded 0) |>.event (.downloaded 9)
  refine ⟨holds, _, _, run, ?_⟩
  obtain ⟨⟨reported, answer, deadlines⟩, accepts⟩ :=
    deadlines_follow_plan holds rfl rfl rfl run
  exact ⟨⟨reported, answer, deadlines.trans (by decide +kernel)⟩, accepts⟩

end Runs

end Playback

end TorrentHandle
