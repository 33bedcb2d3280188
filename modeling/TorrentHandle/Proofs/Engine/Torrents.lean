import TorrentHandle.Proofs.Engine.Run
import TorrentHandle.Proofs.Torrent.Coherence

/-!
Torrents over runs of an engine. What a call makes of a torrent is told by `Call.revise` and
`SessionCall.revise`, without the object around it; what they keep is kept by every run.
-/

namespace TorrentHandle

open TorrentHandle.Text

/-! ### Torrents through calls -/

/-- The torrent that an attempt to change one leaves. -/
def Torrent.orSame (t : Torrent) : Except NativeError Torrent → Torrent
  | .ok t' => t'
  | .error _ => t

/-- What a call of a handle makes of the torrent. -/
def Call.revise : Call → Torrent → Torrent
  | setPieceDeadline piece milliseconds, t => t.orSame (t.setDeadline piece milliseconds)
  | resetPieceDeadline piece, t => t.resetDeadline piece
  | clearPieceDeadlines, t => { t with deadlines := .empty }
  | setPeerEndgame endgame, t => { t with endgame }
  | addTracker tracker, t => if isBlankText tracker.url then t else t.withTracker tracker
  | resume, t => { t with paused := false }
  | ignoreAllFiles, t => t.orSame t.ignoreFiles
  | setFilePriority index priority, t => t.orSame (t.setPriority index priority)
  | _, t => t

/-- What a call of a session makes of the torrent, or of its absence. -/
def SessionCall.revise (defaults : List Tracker) :
    SessionCall → Option Torrent → Option Torrent
  | startDownload params, none =>
    (Torrent.ofParams params).toOption.map (defaults.foldl Torrent.withTracker)
  | removeTorrent, _ => none
  | setMetadata m, o => o.map fun t => t.orSame (t.setMetadata m)
  | pause, o => o.map fun t => { t with paused := true }
  | recordPieceFinished piece, o => o.map fun t => t.orSame (t.finishPiece piece)
  | _, o => o

/-- What a call of a handle makes of the identifier. -/
def Call.rename : Call → Int64 → Int64
  | setId number, _ => number
  | _, number => number

def HandleObject.metadata? (h : HandleObject) : Option Metadata := h.torrent.bind (·.metadata)

/-- What a call of a handle makes of the view. -/
def Call.look : Call → HandleObject → Option Metadata
  | reloadFile, h => h.metadata?.or h.view
  | _, h => h.view

section Leave

variable {h : HandleObject}

lemma leave_update (f : Torrent → Except NativeError Torrent) :
    leave (.ok (.update f)) h = { h with torrent := h.torrent.map fun t => t.orSame (f t) } := by
  obtain ⟨id, o, view⟩ := h
  unfold leave Transition.update HandleObject.requireTorrent
  cases o with
  | none => rfl
  | some t =>
    cases result : f t <;>
      simp [bind, Except.bind, pure, Except.pure, result, Torrent.orSame]

theorem leave_call (c : Call) : leave c.attempt h =
    { id := c.rename h.id, torrent := h.torrent.map c.revise, view := c.look h } := by
  cases c with
  | setPieceDeadline piece milliseconds => exact leave_update _
  | resetPieceDeadline piece => exact leave_update _
  | clearPieceDeadlines => exact leave_update _
  | setPeerEndgame endgame => exact leave_update _
  | ignoreAllFiles => exact leave_update _
  | setFilePriority index priority => exact leave_update _
  | addTracker tracker =>
    change _ = HandleObject.mk h.id (h.torrent.map fun t =>
      if isBlankText tracker.url then t else t.withTracker tracker) h.view
    by_cases blank : isBlankText tracker.url = true
    · simp [blank, leave, Call.attempt, Call.check, Except.map]
    · simp only [Call.attempt, Call.check, if_neg blank]
      exact leave_update _
  | reloadFile =>
    obtain ⟨id, o, view⟩ := h
    cases o with
    | none => rfl
    | some t =>
      change _ = HandleObject.mk id (some t) (t.metadata.or view)
      cases known : t.metadata <;>
        simp [leave, Call.attempt, Call.check, Except.map, Call.transition, Call.reload, known]
  | _ =>
    obtain ⟨id, o, view⟩ := h
    cases o <;> rfl

/-- The object after a call of a session. The view goes where a torrent comes that was not there. -/
theorem leave_session (defaults : List Tracker) (c : SessionCall) :
    leave (c.transition defaults) h = { h with
      torrent := c.revise defaults h.torrent
      view := if h.torrent.isNone ∧ (c.revise defaults h.torrent).isSome then none else h.view } := by
  obtain ⟨id, o, view⟩ := h
  cases c with
  | startDownload params =>
    cases made : Torrent.ofParams params <;> cases o <;>
      simp [leave, SessionCall.transition, SessionCall.attach, SessionCall.revise, bind,
        Except.bind, pure, Except.pure, Except.toOption, made]
  | setMetadata m =>
    cases o with
    | none => rfl
    | some t =>
      cases result : t.setMetadata m <;>
        simp [leave, SessionCall.transition, SessionCall.install, HandleObject.requireTorrent,
          SessionCall.revise, bind, Except.bind, pure, Except.pure, result, Torrent.orSame]
  | recordPieceFinished piece =>
    cases o with
    | none => rfl
    | some t =>
      cases result : t.finishPiece piece <;>
        simp [leave, SessionCall.transition, SessionCall.finish, HandleObject.requireTorrent,
          SessionCall.revise, bind, Except.bind, pure, Except.pure, result, Torrent.orSame]
  | _ => cases o <;> rfl

lemma torrent_leave_call (c : Call) : (leave c.attempt h).torrent = h.torrent.map c.revise := by
  rw [leave_call]

lemma torrent_leave_session (defaults : List Tracker) (c : SessionCall) :
    (leave (c.transition defaults) h).torrent = c.revise defaults h.torrent := by
  rw [leave_session]

lemma Engine.startDownload_eq_ok {e : Engine} {a : Address} {params : TorrentParams}
    (found : e.objects.get? a = some h) :
    (e.session a (.startDownload params)).1 = .ok () ↔ h.torrent = none ∧
      ((SessionCall.startDownload params).revise e.defaultTrackers none).isSome := by
  rw [session_eq_attempt]
  cases made : Torrent.ofParams params <;> cases attached : h.torrent <;>
    simp [attempt, apply, found, SessionCall.transition, SessionCall.attach, SessionCall.revise,
      attached, made, bind, Except.bind, pure, Except.pure, Except.toOption]

end Leave

/-! ### What calls change -/

/-- A change of a torrent that leaves its metadata alone. -/
inductive Torrent.Edits (t : Torrent) : Torrent → Prop where
  | nothing : t.Edits t
  | setPaused (paused : Bool) : t.Edits { t with paused }
  | setEndgame (endgame : Bool) : t.Edits { t with endgame }
  | withTracker (tracker : Tracker) : t.Edits (t.withTracker tracker)
  | setDeadline {piece milliseconds : UInt32} {t' : Torrent}
      (done : t.setDeadline piece milliseconds = .ok t') : t.Edits t'
  | resetDeadline (piece : UInt32) : t.Edits (t.resetDeadline piece)
  | clearDeadlines : t.Edits { t with deadlines := .empty }
  | setPriority {index : UInt32} {p : FilePriority} {t' : Torrent}
      (done : t.setPriority index p = .ok t') : t.Edits t'
  | ignoreFiles {t' : Torrent} (done : t.ignoreFiles = .ok t') : t.Edits t'
  | finishPiece {piece : UInt32} {t' : Torrent} (done : t.finishPiece piece = .ok t') : t.Edits t'

section Changes

variable {t t' : Torrent} {defaults : List Tracker}

lemma Torrent.orSame_keeps (P : Torrent → Prop) {result : Except NativeError Torrent} (h : P t)
    (done : ∀ t', result = .ok t' → P t') : P (t.orSame result) := by
  cases result with
  | error err => exact h
  | ok t' => exact done t' rfl

lemma Torrent.Edits.metadata_eq (edits : t.Edits t') : t'.metadata = t.metadata := by
  cases edits with
  | setDeadline done =>
    obtain ⟨-, rfl⟩ := setDeadline_eq_ok.1 done
    split <;> rfl
  | setPriority done =>
    obtain ⟨-, -, rfl⟩ := setPriority_eq_ok.1 done
    rfl
  | ignoreFiles done =>
    obtain ⟨-, rfl⟩ := ignoreFiles_eq_ok.1 done
    rfl
  | finishPiece done =>
    obtain ⟨-, rfl⟩ := finishPiece_eq_ok.1 done
    rfl
  | _ => rfl

lemma Call.edits_revise (c : Call) (t : Torrent) : t.Edits (c.revise t) := by
  cases c with
  | setPieceDeadline piece milliseconds =>
    exact Torrent.orSame_keeps t.Edits .nothing fun _ => .setDeadline
  | resetPieceDeadline piece => exact .resetDeadline piece
  | clearPieceDeadlines => exact .clearDeadlines
  | setPeerEndgame endgame => exact .setEndgame endgame
  | addTracker tracker =>
    change t.Edits (if isBlankText tracker.url then t else t.withTracker tracker)
    split
    · exact .nothing
    · exact .withTracker tracker
  | resume => exact .setPaused false
  | ignoreAllFiles => exact Torrent.orSame_keeps t.Edits .nothing fun _ => .ignoreFiles
  | setFilePriority index priority =>
    exact Torrent.orSame_keeps t.Edits .nothing fun _ => .setPriority
  | _ => exact .nothing

/-- A torrent after a call of a session is a new one, or one whose metadata was left alone or
installed. -/
lemma SessionCall.revise_cases {o : Option Torrent} {c : SessionCall}
    (after : c.revise defaults o = some t') :
    (∃ params t, Torrent.ofParams params = .ok t ∧
      t' = defaults.foldl Torrent.withTracker t) ∨
    ∃ t, o = some t ∧
      (t.Edits t' ∨ ∃ m, c = .setMetadata m ∧ t.setMetadata m = .ok t') := by
  cases c with
  | startDownload params =>
    cases o with
    | none =>
      obtain ⟨t, there, rfl⟩ := Option.map_eq_some_iff.1 after
      cases made : Torrent.ofParams params with
      | error err => simp [made, Except.toOption] at there
      | ok made' =>
        obtain rfl : made' = t := by simpa [made, Except.toOption] using there
        exact .inl ⟨params, made', made, rfl⟩
    | some t =>
      obtain rfl : t = t' := Option.some.inj after
      exact .inr ⟨t, rfl, .inl .nothing⟩
  | removeTorrent => cases after
  | setMetadata m =>
    obtain ⟨t, there, rfl⟩ := Option.map_eq_some_iff.1 after
    refine .inr ⟨t, there, ?_⟩
    cases done : t.setMetadata m with
    | error err => exact .inl .nothing
    | ok t' => exact .inr ⟨m, rfl, done⟩
  | pause =>
    obtain ⟨t, there, rfl⟩ := Option.map_eq_some_iff.1 after
    exact .inr ⟨t, there, .inl (.setPaused true)⟩
  | recordPieceFinished piece =>
    obtain ⟨t, there, rfl⟩ := Option.map_eq_some_iff.1 after
    exact .inr ⟨t, there, .inl (Torrent.orSame_keeps t.Edits .nothing fun _ => .finishPiece)⟩
  | _ => exact .inr ⟨t', after, .inl .nothing⟩

lemma SessionCall.metadata_revise {c : SessionCall} (kept : c ≠ .removeTorrent)
    (known : t.metadata.isSome) :
    ∃ t', c.revise defaults (some t) = some t' ∧ t'.metadata.isSome := by
  cases c with
  | removeTorrent => exact absurd rfl kept
  | setMetadata m =>
    refine ⟨_, rfl, Torrent.orSame_keeps (·.metadata.isSome) known fun t' done => ?_⟩
    obtain ⟨-, rfl⟩ := Torrent.setMetadata_eq_ok.1 done
    rfl
  | recordPieceFinished piece =>
    refine ⟨_, rfl, Torrent.orSame_keeps (·.metadata.isSome) known fun t' done => ?_⟩
    rwa [(Torrent.Edits.finishPiece done).metadata_eq]
  | _ => exact ⟨_, rfl, known⟩

lemma Torrent.Coherent.edits (h : t.Coherent) (edits : t.Edits t') : t'.Coherent := by
  cases edits with
  | nothing => exact h
  | setPaused paused => exact h.of_less rfl rfl rfl rfl rfl fun _ => id
  | setEndgame endgame => exact h.of_less rfl rfl rfl rfl rfl fun _ => id
  | withTracker tracker => exact h.withTracker tracker
  | setDeadline done => exact h.setDeadline done
  | resetDeadline piece => exact h.resetDeadline piece
  | clearDeadlines => exact h.clearDeadlines
  | setPriority done => exact h.setPriority done
  | ignoreFiles done => exact h.ignoreFiles done
  | finishPiece done => exact h.finishPiece done

end Changes

/-! ### Torrents over runs -/

/-- The object has a torrent whose metadata is known. -/
def HandleObject.HasMetadata (h : HandleObject) : Prop :=
  ∃ t, h.torrent = some t ∧ t.metadata.isSome

namespace Engine

variable {a : Address}

lemma Op.edit_hasMetadata {op : Op} {defaults : List Tracker} {h : HandleObject}
    (kept : op ≠ .session a .removeTorrent) (known : h.HasMetadata) :
    (op.edit defaults a h).HasMetadata := by
  obtain ⟨t, attached, known⟩ := known
  cases op with
  | call b c =>
    simp only [edit]
    split
    · refine ⟨c.revise t, ?_, by rwa [(c.edits_revise t).metadata_eq]⟩
      rw [torrent_leave_call, attached]
      rfl
    · exact ⟨t, attached, known⟩
  | session b c =>
    simp only [edit]
    split
    · rename_i here
      have other : c ≠ .removeTorrent := fun same => kept (by rw [here, same])
      obtain ⟨t', revised, known'⟩ := SessionCall.metadata_revise other known
      refine ⟨t', ?_, known'⟩
      rw [torrent_leave_session, attached, revised]
    · exact ⟨t, attached, known⟩
  | _ => exact ⟨t, attached, known⟩

section Invariant

variable {P : Torrent → Prop} {t : Torrent}

lemma withTrackers_keeps (track : ∀ t tracker, P t → P (t.withTracker tracker))
    (trackers : List Tracker) (before : P t) : P (trackers.foldl Torrent.withTracker t) :=
  List.foldlRecOn trackers _ before fun t h tracker _ => track t tracker h

lemma ofParams_keeps (fresh : ∀ infoHash name paused, P { infoHash, name, paused })
    (track : ∀ t tracker, P t → P (t.withTracker tracker))
    (install : ∀ t m t', P t → t.setMetadata m = .ok t' → P t') {params : TorrentParams}
    (made : Torrent.ofParams params = .ok t) : P t := by
  have bare := withTrackers_keeps track params.trackers
    (fresh params.infoHash params.name params.paused)
  unfold Torrent.ofParams at made
  cases given : params.metadata with
  | none =>
    simp only [given, Except.ok.injEq] at made
    exact made ▸ bare
  | some m =>
    simp only [given] at made
    exact install _ m t bare made

theorem torrents_run (fresh : ∀ infoHash name paused, P { infoHash, name, paused })
    (edits : ∀ t t', P t → t.Edits t' → P t')
    (install : ∀ t m t', P t → t.setMetadata m = .ok t' → P t')
    (owner : ℕ) (settings : EngineSettings) (bus : Bus Event) (ops : List Op)
    {h : HandleObject} (found : ((create owner settings bus).run ops).objects.get? a = some h)
    (attached : h.torrent = some t) : P t := by
  have track : ∀ t tracker, P t → P (t.withTracker tracker) :=
    fun t tracker h => edits t _ h (.withTracker tracker)
  revert t
  refine objects_run (P := fun h => ∀ {t}, h.torrent = some t → P t) nofun ?_ ?_
    owner settings bus ops found
  · intro c h before t after
    rw [torrent_leave_call] at after
    obtain ⟨t₀, there, rfl⟩ := Option.map_eq_some_iff.1 after
    exact edits t₀ _ (before there) (c.edits_revise t₀)
  · intro defaults c h before t after
    rw [torrent_leave_session] at after
    rcases SessionCall.revise_cases after with ⟨params, made, built, rfl⟩ | ⟨t₀, there, change⟩
    · exact withTrackers_keeps track defaults (ofParams_keeps fresh track install built)
    · rcases change with edited | ⟨m, -, done⟩
      · exact edits t₀ t (before there) edited
      · exact install t₀ m t (before there) done

end Invariant

/-- A torrent after an operation is a new one, or one that was there and whose metadata was left
alone or installed by this very operation. -/
lemma torrent_act_cases {e : Engine} {issued : List Address} (sound : e.objects.Sound issued)
    {op : Op} {h : HandleObject} {t : Torrent} (found : (e.act op).2.objects.get? a = some h)
    (attached : h.torrent = some t) :
    (∃ params t₀, Torrent.ofParams params = .ok t₀ ∧
      t = e.defaultTrackers.foldl Torrent.withTracker t₀) ∨
    ∃ h₀ t₀, e.objects.get? a = some h₀ ∧ h₀.torrent = some t₀ ∧
      (t₀.Edits t ∨ ∃ m, op = .session a (.setMetadata m) ∧ t₀.setMetadata m = .ok t) := by
  rcases get?_act_cases sound found with ⟨h₀, before, rfl⟩ | rfl | ⟨params, rfl⟩
  · cases op with
    | call b c =>
      simp only [Op.edit] at attached
      split at attached
      · rw [torrent_leave_call] at attached
        obtain ⟨t₀, there, rfl⟩ := Option.map_eq_some_iff.1 attached
        exact .inr ⟨h₀, t₀, before, there, .inl (c.edits_revise t₀)⟩
      · exact .inr ⟨h₀, t, before, attached, .inl .nothing⟩
    | session b c =>
      simp only [Op.edit] at attached
      split at attached
      · rename_i here
        subst here
        rw [torrent_leave_session] at attached
        rcases SessionCall.revise_cases attached with added | ⟨t₀, there, change⟩
        · exact .inl added
        · refine .inr ⟨h₀, t₀, before, there, ?_⟩
          rcases change with edited | ⟨m, rfl, done⟩
          · exact .inl edited
          · exact .inr ⟨m, rfl, done⟩
      · exact .inr ⟨h₀, t, before, attached, .inl .nothing⟩
    | _ => exact .inr ⟨h₀, t, before, attached, .inl .nothing⟩
  · cases attached
  · rw [torrent_leave_session] at attached
    rcases SessionCall.revise_cases attached with added | ⟨t₀, there, -⟩
    · exact .inl added
    · cases there

lemma torrent_coherent_run (owner : ℕ) (settings : EngineSettings) (bus : Bus Event)
    (ops : List Op) {h : HandleObject} {t : Torrent}
    (found : ((create owner settings bus).run ops).objects.get? a = some h)
    (attached : h.torrent = some t) : t.Coherent :=
  torrents_run Torrent.Coherent.ofFresh (fun _ _ h => h.edits) (fun _ _ _ h => h.setMetadata)
    owner settings bus ops found attached

/-- **Torrents are coherent.** After any operations, with any arguments and whether they succeed or
not, the parts of every torrent go together; once its metadata is known, it stays known through any
operations that neither remove the torrent nor destroy its object. -/
theorem torrents_coherent (owner : ℕ) (settings : EngineSettings) (bus : Bus Event)
    (ops : List Op) {h : HandleObject} {t : Torrent}
    (found : ((create owner settings bus).run ops).objects.get? a = some h)
    (attached : h.torrent = some t) :
    t.Coherent ∧ (t.metadata.isSome → ∀ later : List Op,
      (∀ op ∈ later, op ≠ .destroyHandle a ∧ op ≠ .session a .removeTorrent) →
      ∃ h', ((create owner settings bus).run (ops ++ later)).objects.get? a = some h' ∧
        h'.HasMetadata) := by
  refine ⟨torrent_coherent_run owner settings bus ops found attached, fun known later kept => ?_⟩
  obtain ⟨issued, told⟩ := told_run owner settings bus ops
  rw [run_append, get?_run_of_some told.sound found fun op inside => (kept op inside).1]
  refine ⟨_, rfl, List.foldlRecOn later _ ⟨t, attached, known⟩ fun h known op inside => ?_⟩
  exact Op.edit_hasMetadata (kept op inside).2 known

theorem sample_torrent_coherent :
    let e := create 1 {} ⟨1, by decide, #[], 1⟩
    let ops := [.addTorrent (.ofMetadata .sample), .session ⟨1, 0, 1⟩ (.recordPieceFinished 1)]
    let later := [.newHandle, .session ⟨1, 0, 1⟩ .pause]
    ∃ h t, (e.run ops).objects.get? ⟨1, 0, 1⟩ = some h ∧ h.torrent = some t ∧ t.Coherent ∧
      t.metadata.isSome ∧ ∃ h', (e.run (ops ++ later)).objects.get? ⟨1, 0, 1⟩ = some h' ∧
        h'.HasMetadata := by
  have kept : ∀ op ∈ [Op.newHandle, .session ⟨1, 0, 1⟩ .pause],
      op ≠ .destroyHandle ⟨1, 0, 1⟩ ∧ op ≠ .session ⟨1, 0, 1⟩ .removeTorrent := by
    simp
  obtain ⟨coherent, stays⟩ := torrents_coherent (a := ⟨1, 0, 1⟩) 1 {} ⟨1, by decide, #[], 1⟩
    [.addTorrent (.ofMetadata .sample), .session ⟨1, 0, 1⟩ (.recordPieceFinished 1)] rfl rfl
  exact ⟨_, _, rfl, rfl, coherent, rfl, stays rfl _ kept⟩

end Engine

end TorrentHandle
