import TorrentHandle.Proofs.Engine.Announcements
import TorrentHandle.Proofs.Torrent.Trackers

/-!
Where the parts of a torrent come from. It is attached with what it was added with and with the
trackers of the engine; from then on only accepted trackers and accepted metadata count, whatever
else is done. So its trackers, its metadata and, as long as there is none, its hash and name can be
read off the record of the run.
-/

namespace TorrentHandle

open TorrentHandle.Text

/-! ### Added torrents -/

namespace Torrent

variable {t t' : Torrent} {params : TorrentParams}

/-- What a torrent that has just been added has from its parameters. -/
structure OfParams (params : TorrentParams) (t : Torrent) : Prop where
  trackers : t.trackers = firstByUrl params.trackers
  metadata : t.metadata = params.metadata
  given : params.metadata = none → t.infoHash = params.infoHash ∧ t.name = params.name

lemma ofParams_tells (made : ofParams params = .ok t) : OfParams params t := by
  have trackers := foldl_addTracker [] params.trackers
  unfold ofParams at made
  rw [foldl_withTracker] at made
  cases given : params.metadata with
  | none =>
    simp only [given, Except.ok.injEq] at made
    subst made
    exact ⟨trackers, given.symm, fun _ => ⟨rfl, rfl⟩⟩
  | some m =>
    simp only [given] at made
    obtain ⟨-, rfl⟩ := setMetadata_eq_ok.1 made
    exact ⟨trackers, given.symm, fun none => by simp [given] at none⟩

/-- Hash and name are changed only with the metadata. -/
lemma Edits.given_eq (edits : t.Edits t') : t'.infoHash = t.infoHash ∧ t'.name = t.name := by
  cases edits with
  | setDeadline done =>
    obtain ⟨-, rfl⟩ := setDeadline_eq_ok.1 done
    split <;> exact ⟨rfl, rfl⟩
  | setPriority done =>
    obtain ⟨-, -, rfl⟩ := setPriority_eq_ok.1 done
    exact ⟨rfl, rfl⟩
  | ignoreFiles done =>
    obtain ⟨-, rfl⟩ := ignoreFiles_eq_ok.1 done
    exact ⟨rfl, rfl⟩
  | finishPiece done =>
    obtain ⟨-, rfl⟩ := finishPiece_eq_ok.1 done
    exact ⟨rfl, rfl⟩
  | _ => exact ⟨rfl, rfl⟩

lemma trackers_orSame {result : Except NativeError Torrent}
    (done : ∀ t', result = .ok t' → t'.trackers = t.trackers) :
    (t.orSame result).trackers = t.trackers :=
  orSame_keeps (fun t' => t'.trackers = t.trackers) rfl done

end Torrent

/-- Only accepted trackers are added by calls of a handle. -/
lemma Call.trackers_revise {c : Call} (other : ∀ tracker, c ≠ .addTracker tracker) (t : Torrent) :
    (c.revise t).trackers = t.trackers := by
  cases c with
  | addTracker tracker => exact absurd rfl (other tracker)
  | setPieceDeadline piece milliseconds =>
    refine Torrent.trackers_orSame fun t' done => ?_
    obtain ⟨-, rfl⟩ := Torrent.setDeadline_eq_ok.1 done
    split <;> rfl
  | ignoreAllFiles =>
    refine Torrent.trackers_orSame fun t' done => ?_
    obtain ⟨-, rfl⟩ := Torrent.ignoreFiles_eq_ok.1 done
    rfl
  | setFilePriority index priority =>
    refine Torrent.trackers_orSame fun t' done => ?_
    obtain ⟨-, -, rfl⟩ := Torrent.setPriority_eq_ok.1 done
    rfl
  | _ => rfl

/-- Only its removal takes a torrent out. -/
lemma SessionCall.exists_revise (defaults : List Tracker) {c : SessionCall}
    (other : c ≠ .removeTorrent) (t : Torrent) : ∃ t', c.revise defaults (some t) = some t' := by
  cases c with
  | removeTorrent => exact absurd rfl other
  | _ => exact ⟨_, rfl⟩

/-! ### What an operation makes of a torrent -/

namespace Engine

namespace Record

/-- The parameters of an operation that adds a torrent. -/
def params? : Record → Option TorrentParams
  | ⟨.session _ (.startDownload params), _⟩ | ⟨.addTorrent params, _⟩ => some params
  | _ => none

/-- The tracker that was accepted for the torrent at an address. -/
def tracked? (a : Address) : Record → Option Tracker
  | ⟨.call b (.addTracker tracker), .ok ()⟩ => if b = a then some tracker else none
  | _ => none

/-- The metadata that was accepted for the torrent at an address. -/
def installed? (a : Address) : Record → Option Metadata
  | ⟨.session b (.setMetadata m), .ok ()⟩ => if b = a then some m else none
  | _ => none

/-- What an operation with its answer makes of the torrent that stays at an address: an accepted
tracker is added and accepted metadata installed; hash and name are kept until there is some. -/
structure Turns (a : Address) (r : Record) (t t' : Torrent) : Prop where
  trackers : t'.trackers = (r.tracked? a).toList.foldl addTracker t.trackers
  metadata : t'.metadata = (r.installed? a).or t.metadata
  given : r.installed? a = none → t'.infoHash = t.infoHash ∧ t'.name = t.name

variable {a : Address} {r : Record} {t t' : Torrent}

lemma eq_of_tracked {tracker : Tracker} (tracked : r.tracked? a = some tracker) :
    r = ⟨.call a (.addTracker tracker), .ok ()⟩ := by
  unfold tracked? at tracked
  split at tracked
  · split at tracked
    · next here =>
      cases tracked
      rw [here]
    · cases tracked
  · cases tracked

lemma nothing_of_ne {b : Address} (other : b ≠ a) :
    (∀ c answer, tracked? a ⟨.call b c, answer⟩ = none) ∧
      ∀ c answer, installed? a ⟨.session b c, answer⟩ = none := by
  constructor
  · intro c answer
    cases c with
    | addTracker tracker =>
      cases answer with
      | error err => rfl
      | ok u => exact if_neg other
    | _ => rfl
  · intro c answer
    cases c with
    | setMetadata m =>
      cases answer with
      | error err => rfl
      | ok u => exact if_neg other
    | _ => rfl

lemma Turns.of_edits (edits : t.Edits t') (trackers : t'.trackers = t.trackers)
    (tracked : r.tracked? a = none) (installed : r.installed? a = none) : r.Turns a t t' where
  trackers := by rw [tracked, trackers]; rfl
  metadata := by rw [installed, edits.metadata_eq]; rfl
  given _ := edits.given_eq

end Record

variable {e : Engine} {a : Address} {issued : List Address} {op : Op} {h h' : HandleObject}
  {t t' : Torrent}

lemma addTracker_answer (found : e.objects.get? a = some h) (attached : h.torrent = some t)
    (tracker : Tracker) : (e.call a (.addTracker tracker)).1 =
      if isBlankText tracker.url then .error (.invalidInput "url" "tracker url must not be empty")
      else .ok () := by
  rw [call_eq_attempt]
  by_cases blank : isBlankText tracker.url = true
  · simp [Call.attempt, Call.check, blank, Except.map, attempt]
  · simp only [Call.attempt, Call.check, if_neg blank]
    exact congrArg Prod.fst (attempt_update (f := fun t => .ok (t.withTracker tracker)) found
      attached rfl)

lemma turns_call (found : e.objects.get? a = some h) (attached : h.torrent = some t) (c : Call) :
    Record.Turns a ⟨.call a c, (e.call a c).1⟩ t (c.revise t) := by
  have edits := c.edits_revise t
  by_cases tracks : ∃ tracker, c = .addTracker tracker
  · obtain ⟨tracker, rfl⟩ := tracks
    have revised : (Call.addTracker tracker).revise t =
      if isBlankText tracker.url then t else t.withTracker tracker := rfl
    rw [addTracker_answer found attached, revised]
    by_cases blank : isBlankText tracker.url = true
    · rw [if_pos blank, if_pos blank]
      exact .of_edits .nothing rfl rfl rfl
    · rw [if_neg blank, if_neg blank]
      have added : Record.tracked? a ⟨.call a (.addTracker tracker), .ok ()⟩ = some tracker :=
        if_pos rfl
      exact ⟨by rw [added]; rfl, rfl, fun _ => ⟨rfl, rfl⟩⟩
  · have other : ∀ tracker, c ≠ .addTracker tracker := fun tracker same => tracks ⟨tracker, same⟩
    refine .of_edits edits (Call.trackers_revise other t) ?_ rfl
    cases c with
    | addTracker tracker => exact absurd rfl (other tracker)
    | _ => rfl

lemma setMetadata_answer (found : e.objects.get? a = some h) (attached : h.torrent = some t)
    (m : Metadata) : (e.session a (.setMetadata m)).1 = (t.setMetadata m).map fun _ => () := by
  rw [session_eq_attempt]
  cases done : t.setMetadata m <;>
    simp [attempt, apply, found, SessionCall.transition, SessionCall.install,
      HandleObject.requireTorrent, attached, done, bind, Except.bind, pure, Except.pure, Except.map]

lemma turns_session (found : e.objects.get? a = some h) (attached : h.torrent = some t)
    {c : SessionCall} (after : c.revise e.defaultTrackers (some t) = some t') :
    Record.Turns a ⟨.session a c, (e.session a c).1⟩ t t' := by
  cases c with
  | removeTorrent => cases after
  | setMetadata m =>
    have revised : t.orSame (t.setMetadata m) = t' := Option.some.inj after
    rw [setMetadata_answer found attached, ← revised]
    cases done : t.setMetadata m with
    | error err => exact .of_edits .nothing rfl rfl rfl
    | ok t' =>
      have new : Record.installed? a ⟨.session a (.setMetadata m), .ok ()⟩ = some m := if_pos rfl
      obtain ⟨-, rfl⟩ := Torrent.setMetadata_eq_ok.1 done
      exact ⟨rfl, congrArg (·.or t.metadata) new.symm, fun none => by cases new.symm.trans none⟩
  | recordPieceFinished piece =>
    obtain rfl := Option.some.inj after
    refine .of_edits (Torrent.orSame_keeps t.Edits .nothing fun _ => .finishPiece) ?_ rfl rfl
    refine Torrent.trackers_orSame fun t' done => ?_
    obtain ⟨-, rfl⟩ := Torrent.finishPiece_eq_ok.1 done
    rfl
  | pause =>
    obtain rfl := Option.some.inj after
    exact .of_edits (.setPaused true) rfl rfl rfl
  | _ =>
    obtain rfl := Option.some.inj after
    exact .of_edits .nothing rfl rfl rfl

lemma turns_edit (found : e.objects.get? a = some h) (attached : h.torrent = some t)
    (stays : op ≠ .session a .removeTorrent) :
    ∃ t', (op.edit e.defaultTrackers a h).torrent = some t' ∧
      Record.Turns a ⟨op, (e.act op).1⟩ t t' := by
  cases op with
  | call b c =>
    by_cases here : a = b
    · subst here
      refine ⟨c.revise t, ?_, turns_call found attached c⟩
      rw [Op.edit, if_pos rfl, torrent_leave_call, attached, Option.map_some]
    · refine ⟨t, by rw [Op.edit, if_neg here, attached], ?_⟩
      exact .of_edits .nothing rfl ((Record.nothing_of_ne (Ne.symm here)).1 c _) rfl
  | session b c =>
    by_cases here : a = b
    · subst here
      have other : c ≠ .removeTorrent := fun same => stays (by rw [same])
      obtain ⟨t', revised⟩ := SessionCall.exists_revise e.defaultTrackers other t
      refine ⟨t', ?_, turns_session found attached revised⟩
      rw [Op.edit, if_pos rfl, torrent_leave_session, attached, revised]
    · refine ⟨t, by rw [Op.edit, if_neg here, attached], ?_⟩
      exact .of_edits .nothing rfl rfl ((Record.nothing_of_ne (Ne.symm here)).2 c _)
  | _ => exact ⟨t, attached, .of_edits .nothing rfl rfl rfl⟩

/-- A torrent stays unless it is removed or its object destroyed. -/
lemma turns_act (sound : e.objects.Sound issued) (found : e.objects.get? a = some h)
    (attached : h.torrent = some t) (kept : op ≠ .destroyHandle a)
    (stays : op ≠ .session a .removeTorrent) :
    ∃ h' t', (e.act op).2.objects.get? a = some h' ∧ h'.torrent = some t' ∧
      Record.Turns a ⟨op, (e.act op).1⟩ t t' := by
  obtain ⟨t', there, turns⟩ := turns_edit found attached stays
  exact ⟨_, t', get?_act_of_some sound found kept, there, turns⟩

lemma exists_of_not_attaches (sound : e.objects.Sound issued)
    (found : (e.act op).2.objects.get? a = some h') (attached : h'.torrent = some t')
    (old : ¬ Record.attaches a ⟨op, (e.act op).1⟩) :
    ∃ h t, e.objects.get? a = some h ∧ h.torrent = some t ∧
      Record.Turns a ⟨op, (e.act op).1⟩ t t' := by
  obtain ⟨h, t, before, there⟩ : ∃ h t, e.objects.get? a = some h ∧ h.torrent = some t := by
    by_cases on : Record.target? ⟨op, (e.act op).1⟩ = some a
    · have observed := act_observed sound found on
      generalize e.news op = events at observed
      cases observed with
      | told _ _ was =>
        obtain ⟨h, before, torrent⟩ := was.resolve_left old
        obtain ⟨t, there⟩ := Option.isSome_iff_exists.1 torrent
        exact ⟨h, t, before, there⟩
      | quiet _ _ alike =>
        obtain ⟨h, t, before, there, -⟩ := alike t' attached
        exact ⟨h, t, before, there⟩
    · exact ⟨h', t', get?_of_not_target sound found on, attached⟩
  have kept : op ≠ .destroyHandle a := by
    rintro rfl
    cases (get?_destroyHandle.trans (if_pos rfl)).symm.trans found
  have stays : op ≠ .session a .removeTorrent := by
    rintro rfl
    have gone := get?_act_of_some sound before kept
    rw [found, Option.some.injEq] at gone
    rw [gone, Op.edit, if_pos rfl, torrent_leave_session] at attached
    cases attached
  obtain ⟨h'', t'', found', attached', turns⟩ := turns_act sound before there kept stays
  obtain rfl : h' = h'' := Option.some.inj (found.symm.trans found')
  obtain rfl : t' = t'' := Option.some.inj (attached.symm.trans attached')
  exact ⟨h, t, before, there, turns⟩

lemma exists_of_attaches (sound : e.objects.Sound issued)
    (found : (e.act op).2.objects.get? a = some h') (attached : h'.torrent = some t')
    (new : Record.attaches a ⟨op, (e.act op).1⟩) :
    ∃ params t, Record.params? ⟨op, (e.act op).1⟩ = some params ∧ Torrent.OfParams params t ∧
      t' = e.defaultTrackers.foldl Torrent.withTracker t := by
  have acts := (acts_act sound op).get? a
  obtain ⟨params, h, isParams, detached, left⟩ : ∃ params h,
      Record.params? ⟨op, (e.act op).1⟩ = some params ∧ h.torrent = none ∧
        h' = leave ((SessionCall.startDownload params).transition e.defaultTrackers) h := by
    cases op with
    | session b c =>
      obtain ⟨rfl, starts, reply, answer⟩ := new
      cases c with
      | startDownload params =>
        have turn : Record.turn e.defaultTrackers b (e.objects.get? b)
            ⟨.session b (.startDownload params), (e.act (.session b (.startDownload params))).1⟩ =
          (e.objects.get? b).map
            (leave ((SessionCall.startDownload params).transition e.defaultTrackers)) := if_pos rfl
        rw [found, turn] at acts
        obtain ⟨h, before, left⟩ := Option.map_eq_some_iff.1 acts.symm
        exact ⟨params, h, rfl, ((startDownload_eq_ok before).1 answer).1, left.symm⟩
      | _ => cases starts
    | addTorrent params =>
      have answer : (e.act (.addTorrent params)).1 = .ok a := new
      rw [found, answer] at acts
      exact ⟨params, {}, rfl, rfl, Option.some.inj (acts.trans (if_pos rfl))⟩
    | _ => cases new
  rw [left, torrent_leave_session, detached] at attached
  obtain ⟨t, made, rfl⟩ := Option.map_eq_some_iff.1 attached
  refine ⟨params, t, isParams, ?_, rfl⟩
  cases built : Torrent.ofParams params with
  | error err => simp [built, Except.toOption] at made
  | ok t₀ =>
    obtain rfl : t₀ = t := by simpa [built, Except.toOption] using made
    exact Torrent.ofParams_tells built

/-! ### The history of a torrent -/

/-- The torrent at an address was added with the given parameters, and `since` is what was done
after that. -/
def Added (past : List Record) (a : Address) (params : TorrentParams) (since : List Record) : Prop :=
  ∃ start, Latest (fun r => r.attaches a) past start since ∧ start.params? = some params

/-- What the record tells of a torrent: its trackers are the first of each address among those it
was added with, the defaults, and those accepted since; its metadata is what was accepted last, or
what it was added with; and without metadata it still has the hash and the name it was added with. -/
structure History (defaults : List Tracker) (a : Address) (params : TorrentParams)
    (since : List Record) (t : Torrent) : Prop where
  trackers : t.trackers =
    firstByUrl (params.trackers ++ defaults ++ since.filterMap (Record.tracked? a))
  metadata : t.metadata = (since.filterMap (Record.installed? a)).getLast?.or params.metadata
  given : t.metadata = none → t.infoHash = params.infoHash ∧ t.name = params.name

section History

variable {defaults : List Tracker} {params : TorrentParams} {past since : List Record} {r : Record}

lemma Added.of_attaches (added : Added (past ++ [r]) a params since) (attaches : r.attaches a) :
    r.params? = some params ∧ since = [] := by
  obtain ⟨start, ⟨⟨earlier, split⟩, -, last⟩, isParams⟩ := added
  have found := (exists_split_concat (P := fun _ x after => x.params? = some params ∧
    since = after)).1 ⟨earlier, start, since, split, isParams, rfl⟩
  rcases found with here | ⟨_, _, after, -, -, rfl⟩
  · exact here
  · exact absurd attaches (last r (by simp))

lemma History.start (a : Address) (made : t.OfParams params) :
    History defaults a params [] (defaults.foldl Torrent.withTracker t) := by
  rw [Torrent.foldl_withTracker]
  refine ⟨?_, made.metadata, fun none => made.given (made.metadata ▸ none)⟩
  rw [List.filterMap_nil, List.append_nil, ← foldl_addTracker, made.trackers]

lemma History.turn (history : History defaults a params since t) (turns : r.Turns a t t') :
    History defaults a params (since ++ [r]) t' := by
  refine ⟨?_, ?_, fun none => ?_⟩
  · have more : (since ++ [r]).filterMap (Record.tracked? a) =
        since.filterMap (Record.tracked? a) ++ (r.tracked? a).toList := by
      rw [List.filterMap_append, List.filterMap_cons, List.filterMap_nil]
      cases r.tracked? a <;> rfl
    rw [turns.trackers, history.trackers, foldl_addTracker, more, List.append_assoc]
  · rw [turns.metadata, history.metadata, List.filterMap_append, List.filterMap_cons,
      List.filterMap_nil]
    cases r.installed? a <;> simp
  · have none' := none
    rw [turns.metadata, Option.or_eq_none_iff] at none'
    obtain ⟨hash, name⟩ := turns.given none'.1
    rw [hash, name]
    exact history.given none'.2

theorem history_run (owner : ℕ) (settings : EngineSettings) (bus : Bus Event) (ops : List Op)
    (found : ((create owner settings bus).run ops).objects.get? a = some h)
    (attached : h.torrent = some t) :
    ∃ params since, Added ((create owner settings bus).record ops) a params since ∧
      History (create owner settings bus).defaultTrackers a params since t := by
  refine object_induction (P := fun ops h => ∀ t, h.torrent = some t → ∃ params since,
    Added ((create owner settings bus).record ops) a params since ∧
      History (create owner settings bus).defaultTrackers a params since t) ?_ ops found t attached
  intro ops op h issued sound ih found t attached
  have defaults : ((create owner settings bus).run ops).defaultTrackers =
      (create owner settings bus).defaultTrackers := by
    rw [defaultTrackers, (frame_run owner settings bus ops).1]
    rfl
  rw [record_append]
  by_cases attaches :
      Record.attaches a ⟨op, (((create owner settings bus).run ops).act op).1⟩
  · obtain ⟨params, t₀, isParams, made, rfl⟩ := exists_of_attaches sound found attached attaches
    rw [defaults]
    exact ⟨params, [], ⟨_, .new _ attaches, isParams⟩, .start a made⟩
  · obtain ⟨h₀, t₀, before, there, turns⟩ :=
      exists_of_not_attaches sound found attached attaches
    obtain ⟨params, since, ⟨start, latest, isParams⟩, history⟩ := ih h₀ before t₀ there
    exact ⟨params, _, ⟨start, latest.concat attaches, isParams⟩, history.turn turns⟩

end History

end Engine

end TorrentHandle
