import TorrentHandle.Proofs.Engine.Refusals
import TorrentHandle.Proofs.Engine.Views

/-!
What is announced of a torrent. Only some operations tell that its state changed, and some of them
only if it did, so the latest announcement has to stand for all that was not announced: for the
pause it always does, and for the state unless metadata or priorities were set after it.
-/

namespace TorrentHandle

variable {α : Type} {h : HandleObject}

/-! ### What a call announces -/

/-- Whether the event is an announcement of a torrent's state. -/
def Event.isStateChange : Event → Bool
  | stateChanged .. => true
  | _ => false

def Torrent.announcement (id : Int64) (t : Torrent) : Event :=
  .stateChanged id t.state.code t.paused

/-- What an announcement tells is the same of both torrents, the state apart if `quietly` holds. -/
structure Torrent.Alike (t t' : Torrent) (quietly : Prop) : Prop where
  paused : t'.paused = t.paused
  state : quietly ∨ t'.state = t.state

namespace Transition

variable {f : Transition α} {starts quietly : Prop}

/-- The torrent is announced under the identifier of its handle, or nothing is and the torrent is
like the one that was there. One that comes, as it does if `starts` holds, is announced. -/
def Announces (f : Transition α) (starts quietly : Prop) : Prop :=
  ∀ ⦃h effect⦄, f h = .ok effect →
    (∃ t', effect.object.torrent = some t' ∧ effect.object.id = h.id ∧
        (starts ∨ h.torrent.isSome) ∧ effect.event = some (t'.announcement h.id)) ∨
      ¬ starts ∧ (∀ ev ∈ effect.event, ev.isStateChange = false) ∧
        ∀ t', effect.object.torrent = some t' → ∃ t, h.torrent = some t ∧ t.Alike t' quietly

lemma Keeps.announces (keeps : f.Keeps) (old : ¬ starts)
    (other : ∀ ⦃h effect⦄, f h = .ok effect → ∀ ev ∈ effect.event, ev.isStateChange = false) :
    f.Announces starts quietly := by
  intro h effect done
  refine .inr ⟨old, other done, fun t attached => ⟨t, ?_, rfl, .inr rfl⟩⟩
  rw [← keeps done, attached]

lemma announces_query (g : Torrent → α) (old : ¬ starts) :
    (query g).Announces starts quietly := by
  refine (keeps_query g).announces old fun h effect done ev published => ?_
  rw [silent_query g done] at published
  cases published

lemma announces_update {g : Torrent → Except NativeError Torrent} (old : ¬ starts)
    (alike : ∀ t t', g t = .ok t' → t.Alike t' quietly) : (update g).Announces starts quietly := by
  intro h effect done
  obtain ⟨t, t', attached, changed, rfl⟩ := update_eq_ok.1 done
  refine .inr ⟨old, nofun, ?_⟩
  rintro _ ⟨⟩
  exact ⟨t, attached, alike t t' changed⟩

lemma announces_post (report : Int64 → Torrent → Event) (old : ¬ starts)
    (other : ∀ id t, (report id t).isStateChange = false) :
    (post report).Announces starts quietly := by
  refine Keeps.announces ?_ old ?_
  · rintro h effect ⟨⟩
    rfl
  · rintro h effect ⟨⟩ ev published
    obtain ⟨t, -, rfl⟩ := Option.map_eq_some_iff.1 published
    exact other h.id t

end Transition

open Transition

/-- Calls of a handle that may change the state and announce nothing. -/
def Call.setsPriorities : Call → Bool
  | ignoreAllFiles | setFilePriority .. => true
  | _ => false

def SessionCall.startsDownload : SessionCall → Bool
  | startDownload _ => true
  | _ => false

/-- The call of a session that may change the state and announces nothing. -/
def SessionCall.setsMetadata : SessionCall → Bool
  | setMetadata _ => true
  | _ => false

lemma Call.reload_keeps (h : HandleObject) :
    (reload h).object.torrent = h.torrent ∧ (reload h).event = none := by
  obtain ⟨id, _ | t, view⟩ := h
  · exact ⟨rfl, rfl⟩
  · unfold reload
    cases known : t.metadata <;> simp [known]

lemma Call.announces (c : Call) : c.transition.Announces False c.setsPriorities := by
  cases c with
  | setPieceDeadline piece milliseconds =>
    refine announces_update not_false fun t t' done => ?_
    obtain ⟨-, rfl⟩ := Torrent.setDeadline_eq_ok.1 done
    constructor <;> split <;> simp
  | resetPieceDeadline _ | clearPieceDeadlines | setPeerEndgame _ | addTracker _ =>
    refine announces_update not_false ?_
    rintro t t' ⟨⟩
    exact ⟨rfl, .inr rfl⟩
  | ignoreAllFiles =>
    refine announces_update not_false fun t t' done => ?_
    obtain ⟨-, rfl⟩ := Torrent.ignoreFiles_eq_ok.1 done
    exact ⟨rfl, .inl rfl⟩
  | setFilePriority index priority =>
    refine announces_update not_false fun t t' done => ?_
    obtain ⟨-, -, rfl⟩ := Torrent.setPriority_eq_ok.1 done
    exact ⟨rfl, .inl rfl⟩
  | resume =>
    rintro ⟨id, _ | t, view⟩ effect ⟨⟩
    -- a torrent that was not paused is not announced, and ends up as it was
    by_cases was : t.paused
    · exact .inl ⟨_, rfl, rfl, .inr rfl, if_pos was⟩
    · refine .inr ⟨not_false, by simp [was], ?_⟩
      rintro _ ⟨⟩
      exact ⟨t, rfl, (Bool.eq_false_iff.2 was).symm, .inr rfl⟩
  | postStatusUpdates => exact announces_post statusReport not_false fun _ _ => rfl
  | postSaveResume =>
    exact announces_post (fun id t => .resumeDataSaved id t.resumePayload) not_false fun _ _ => rfl
  | postFileProgress =>
    exact announces_post (fun id t => .fileProgress id (t.fileProgress.map UInt64.ofNat))
      not_false fun _ _ => rfl
  | state | makeMagnetUri => exact announces_query _ not_false
  | id | infoView | isValid | setId _ =>
    rintro h effect ⟨⟩
    exact .inr ⟨not_false, nofun, fun t attached => ⟨t, attached, rfl, .inr rfl⟩⟩
  | reloadFile =>
    intro h effect done
    obtain rfl := Except.ok.inj done
    obtain ⟨torrent, event⟩ := reload_keeps h
    refine .inr ⟨not_false, by simp [event], ?_⟩
    intro t attached
    exact ⟨t, torrent ▸ attached, rfl, .inr rfl⟩

lemma SessionCall.announces {defaults : List Tracker} {c : SessionCall} {f : Transition c.Reply}
    (made : c.transition defaults = .ok f) :
    f.Announces c.startsDownload c.setsMetadata := by
  cases c with
  | startDownload params =>
    cases built : Torrent.ofParams params with
    | error err => simp [SessionCall.transition, built, bind, Except.bind] at made
    | ok t =>
      simp only [SessionCall.transition, built, bind, Except.bind, pure, Except.pure,
        Except.ok.injEq] at made
      subst made
      rintro ⟨id, _ | t', view⟩ effect ⟨⟩
      exact .inl ⟨_, rfl, rfl, .inl rfl, rfl⟩
  | setMetadata m =>
    obtain rfl := Except.ok.inj made
    intro h effect done
    obtain ⟨t, t', attached, result, rfl⟩ := install_eq_ok.1 done
    obtain ⟨-, rfl⟩ := Torrent.setMetadata_eq_ok.1 result
    refine .inr ⟨Bool.false_ne_true, ?_, ?_⟩
    · rintro ev ⟨⟩
      rfl
    · rintro _ ⟨⟩
      exact ⟨t, attached, rfl, .inl rfl⟩
  | removeTorrent =>
    obtain rfl := Except.ok.inj made
    rintro ⟨id, _ | t, view⟩ effect ⟨⟩
    refine .inr ⟨Bool.false_ne_true, ?_, ?_⟩
    · rintro ev ⟨⟩
      rfl
    · rintro _ ⟨⟩
  | pause =>
    obtain rfl := Except.ok.inj made
    rintro ⟨id, _ | t, view⟩ effect ⟨⟩
    exact .inl ⟨_, rfl, rfl, .inr rfl, rfl⟩
  | recordPieceFinished piece =>
    obtain rfl := Except.ok.inj made
    intro h effect done
    obtain ⟨t, t', attached, result, rfl⟩ := finish_eq_ok.1 done
    obtain ⟨-, rfl⟩ := Torrent.finishPiece_eq_ok.1 result
    -- the state is derived anew, and announced only if it is another one
    dsimp only
    split
    · rename_i same
      refine .inr ⟨Bool.false_ne_true, ?_, ?_⟩
      · rintro ev ⟨⟩
      · rintro _ ⟨⟩
        exact ⟨t, attached, rfl, .inr same.symm⟩
    · exact .inl ⟨_, rfl, rfl, .inr (by rw [attached]; rfl), rfl⟩
  | pieceDeadlines | trackers | filePriorities | peerEndgame | isPaused =>
    obtain rfl := Except.ok.inj made
    exact announces_query _ Bool.false_ne_true

/-! ### What an operation announces -/

namespace Engine

namespace Record

/-- The address that an operation was on: the one given, or that of the object it made. -/
def target? : Record → Option Address
  | ⟨.newHandle, .ok a⟩ | ⟨.addTorrent _, .ok a⟩ => some a
  | ⟨.destroyHandle a, _⟩ | ⟨.call a _, _⟩ | ⟨.session a _, _⟩ => some a
  | ⟨.newHandle, .error _⟩ | ⟨.addTorrent _, .error _⟩ => none

/-- A torrent was attached at the address, to an object there or with a new one. -/
def attaches (a : Address) : Record → Prop
  | ⟨.session b c, answer⟩ => b = a ∧ c.startsDownload ∧ ∃ reply, answer = .ok reply
  | ⟨.addTorrent _, answer⟩ => answer = .ok a
  | _ => False

/-- Metadata or priorities of the torrent at the address were set. -/
def revises (a : Address) : Record → Prop
  | ⟨.call b c, answer⟩ => b = a ∧ c.setsPriorities ∧ ∃ reply, answer = .ok reply
  | ⟨.session b c, answer⟩ => b = a ∧ c.setsMetadata ∧ ∃ reply, answer = .ok reply
  | _ => False

lemma attaches.target {a : Address} {r : Record} (attaches : r.attaches a) :
    r.target? = some a := by
  obtain ⟨op, answer⟩ := r
  cases op with
  | session b c => exact congrArg some attaches.1
  | addTorrent params =>
    obtain rfl : answer = .ok a := attaches
    rfl
  | _ => cases attaches

end Record

variable {e : Engine} {a : Address} {issued : List Address} {op : Op} {h' : HandleObject}

/-- The events that an operation publishes. -/
def news (e : Engine) (op : Op) : List Event :=
  (e.act op).2.bus.events.toList.drop e.bus.events.size

lemma news_eq (op : Op) {event : Option Event} (bus : (e.act op).2.bus = e.bus.publish? event) :
    e.news op = event.toList := by
  unfold news
  rw [bus]
  cases event with
  | none => simp [Bus.publish?]
  | some event => simp [Bus.publish?, Bus.publish]

/-- An object that the operation was not on was there before. -/
lemma get?_of_not_target (sound : e.objects.Sound issued)
    (found : (e.act op).2.objects.get? a = some h')
    (other : Record.target? ⟨op, (e.act op).1⟩ ≠ some a) : e.objects.get? a = some h' := by
  rw [(acts_act sound op).get?] at found
  generalize (e.act op).1 = answer at *
  cases op with
  | newHandle | addTorrent =>
    cases answer with
    | ok b =>
      have apart : a ≠ b := fun same => other (congrArg some same.symm)
      rwa [Record.turn, if_neg apart] at found
    | error err => exact found
  | destroyHandle b | call b c | session b c =>
    have apart : a ≠ b := fun same => other (congrArg some same.symm)
    rwa [Record.turn, if_neg apart] at found

/-- What is observed of the object that an operation leaves at an address: its torrent is announced
under the identifier that the object has and had, or nothing is announced and the torrent is like
the one that was there. One that comes, as it does if `starts` holds, is announced. -/
inductive Observed (e : Engine) (a : Address) (h' : HandleObject) (starts quietly : Prop) :
    List Event → Prop where
  | told {t' : Torrent} (attached : h'.torrent = some t')
      (id : ∀ h, e.objects.get? a = some h → h'.id = h.id)
      (was : starts ∨ ∃ h, e.objects.get? a = some h ∧ h.torrent.isSome) :
      e.Observed a h' starts quietly [t'.announcement h'.id]
  | quiet {events : List Event} (old : ¬ starts) (silent : ∀ ev ∈ events, ev.isStateChange = false)
      (alike : ∀ t', h'.torrent = some t' →
        ∃ h t, e.objects.get? a = some h ∧ h.torrent = some t ∧ t.Alike t' quietly) :
      e.Observed a h' starts quietly events

lemma Observed.same {starts quietly : Prop} (old : ¬ starts)
    (found : e.objects.get? a = some h') : e.Observed a h' starts quietly [] :=
  .quiet old nofun fun t attached => ⟨h', t, found, attached, rfl, .inr rfl⟩

/-- An attempt at an object lets observe what its transition announces. -/
lemma attempt_observed {missing : Except NativeError α} {f : Except NativeError (Transition α)}
    {starts quietly : Prop} (announces : ∀ g, f = .ok g → g.Announces starts quietly)
    (found : (e.attempt a missing f).2.objects.get? a = some h') :
    ∃ event, (e.attempt a missing f).2.bus = e.bus.publish? event ∧
      e.Observed a h' (starts ∧ ∃ reply, (e.attempt a missing f).1 = .ok reply)
        (quietly ∧ ∃ reply, (e.attempt a missing f).1 = .ok reply) event.toList := by
  have refused (err : NativeError) (failed : (e.attempt a missing f).1 = .error err) : ∃ event,
      (e.attempt a missing f).2.bus = e.bus.publish? event ∧
      e.Observed a h' (starts ∧ ∃ reply, (e.attempt a missing f).1 = .ok reply)
        (quietly ∧ ∃ reply, (e.attempt a missing f).1 = .ok reply) event.toList := by
    have same := attempt_of_refused failed
    rw [same] at found
    exact ⟨none, congrArg bus same, .same (by simp [failed]) found⟩
  cases f with
  | error err => exact refused err rfl
  | ok g =>
    cases before : e.objects.get? a with
    | none =>
      rw [attempt_of_none before] at found
      cases before.symm.trans found
    | some h =>
      cases result : g h with
      | error err => exact refused err (by simp only [attempt, apply, before, result])
      | ok effect =>
        rw [attempt_of_ok before result] at found ⊢
        dsimp only at found ⊢
        rw [Arena.get?_set, if_pos rfl, before] at found
        obtain rfl : effect.object = h' := Option.some.inj found
        refine ⟨effect.event, rfl, ?_⟩
        obtain ⟨t', attached, id, was, told⟩ | ⟨old, silent, alike⟩ :=
            announces g rfl result
        · rw [told, ← id]
          refine .told attached (fun h₀ before₀ => ?_) ?_
          · rw [id, Option.some.inj (before.symm.trans before₀)]
          · exact was.imp (fun starts => ⟨starts, effect.reply, rfl⟩) fun was => ⟨h, before, was⟩
        · refine .quiet (fun starts => old starts.1) (by simpa using silent) fun t' attached => ?_
          obtain ⟨t, there, paused, state⟩ := alike t' attached
          exact ⟨h, t, before, there, paused,
            state.imp_left fun quiet => ⟨quiet, effect.reply, rfl⟩⟩

lemma call_observed {c : Call} (found : (e.call a c).2.objects.get? a = some h') :
    e.Observed a h' (Record.attaches a ⟨.call a c, (e.call a c).1⟩)
      (Record.revises a ⟨.call a c, (e.call a c).1⟩) (e.news (.call a c)) := by
  have announces : ∀ g, c.attempt = .ok g → g.Announces False c.setsPriorities := by
    intro g passed
    have announces := c.announces
    unfold Call.attempt at passed
    cases checked : c.check with
    | error err => simp [checked, Except.map] at passed
    | ok u =>
      rw [checked] at passed
      exact Except.ok.inj passed ▸ announces
  rw [call_eq_attempt] at found
  obtain ⟨event, bus, observed⟩ := attempt_observed announces found
  rw [← call_eq_attempt] at bus observed
  rw [news_eq (.call a c) bus]
  simpa only [Record.attaches, Record.revises, true_and, false_and] using observed

lemma session_observed {c : SessionCall} (found : (e.session a c).2.objects.get? a = some h') :
    e.Observed a h' (Record.attaches a ⟨.session a c, (e.session a c).1⟩)
      (Record.revises a ⟨.session a c, (e.session a c).1⟩) (e.news (.session a c)) := by
  rw [session_eq_attempt] at found
  obtain ⟨event, bus, observed⟩ := attempt_observed (fun g => SessionCall.announces) found
  rw [← session_eq_attempt] at bus observed
  rw [news_eq (.session a c) bus]
  simpa only [Record.attaches, Record.revises, true_and] using observed

lemma addTorrent_observed {params : TorrentParams} (sound : e.objects.Sound issued)
    (added : (e.addTorrent params).1 = .ok a)
    (found : (e.addTorrent params).2.objects.get? a = some h') {quietly : Prop} :
    e.Observed a h' (Record.attaches a ⟨.addTorrent params, (e.addTorrent params).1⟩) quietly
      (e.news (.addTorrent params)) := by
  obtain ⟨err, -, eq⟩ | ⟨b, answer, ⟨attached, eq⟩ | ⟨err, -, eq⟩⟩ := e.addTorrent_cases params
  · simp [eq] at added
  · have same : b = a := by simpa [eq] using added
    subst same
    have made := acts_newHandle sound
    obtain ⟨_, -, -, fresh⟩ := made.sound
    have bare : e.newHandle.2.objects.get? b = some {} := by simp [made.get?, answer, Record.turn]
    have bus : e.newHandle.2.bus = e.bus := by
      obtain ⟨-, -, -, same⟩ | ⟨-, same⟩ := newHandle_cases sound <;> rw [same]
    rw [eq] at found
    have news : e.news (.addTorrent params) =
        e.newHandle.2.news (.session b (.startDownload params)) := by
      simp only [Engine.news, act, eq, bus]
    have observed := session_observed found
    rw [news]
    generalize e.newHandle.2.news _ = events at observed ⊢
    cases observed with
    | told there id was =>
      refine .told there (fun h before => absurd (sound.mem_issued before) ?_) (.inl added)
      exact (fresh b (by rw [answer]; rfl)).2
    | quiet old silent alike => exact absurd ⟨rfl, rfl, (), attached⟩ old
  · simp [eq] at added

theorem act_observed (sound : e.objects.Sound issued)
    (found : (e.act op).2.objects.get? a = some h')
    (on : Record.target? ⟨op, (e.act op).1⟩ = some a) :
    e.Observed a h' (Record.attaches a ⟨op, (e.act op).1⟩)
      (Record.revises a ⟨op, (e.act op).1⟩) (e.news op) := by
  cases op with
  | newHandle =>
    have acts := (acts_newHandle sound).get? a
    obtain ⟨b, answer, -, eq⟩ | ⟨⟨err, answer⟩, -⟩ := newHandle_cases sound
    · simp only [act, answer, Record.target?, Option.some.injEq] at on
      subst on
      obtain rfl : h' = {} := by simpa [act, acts, answer, Record.turn, eq_comm] using found
      have silent : (e.act .newHandle).2.bus = e.bus.publish? none := by rw [act, eq]; rfl
      rw [news_eq .newHandle silent]
      refine .quiet not_false ?_ ?_
      · rintro ev ⟨⟩
      · rintro _ ⟨⟩
    · simp [act, answer, Record.target?] at on
  | destroyHandle b =>
    obtain rfl : b = a := Option.some.inj on
    cases (get?_destroyHandle.trans (if_pos rfl)).symm.trans found
  | call b c =>
    obtain rfl : b = a := Option.some.inj on
    exact call_observed found
  | session b c =>
    obtain rfl : b = a := Option.some.inj on
    exact session_observed found
  | addTorrent params =>
    have added : (e.addTorrent params).1 = .ok a := by
      cases answer : (e.addTorrent params).1 with
      | ok b => simpa [act, answer, Record.target?] using on
      | error err => simp [act, answer, Record.target?] at on
    exact addTorrent_observed sound added found

/-! ### What is published -/

lemma bus_attempt {missing : Except NativeError α} {f : Except NativeError (Transition α)} :
    (e.attempt a missing f).2.bus = e.bus ∨
      ∃ h' event, (e.attempt a missing f).2.objects.get? a = some h' ∧
        (e.attempt a missing f).2.bus = e.bus.publish event := by
  cases f with
  | error err => exact .inl rfl
  | ok f =>
    obtain same | ⟨h, effect, found, -, eq⟩ := e.attempt_ok_cases a missing f
    · exact .inl (by rw [same])
    · rw [eq]
      cases effect.event with
      | none => exact .inl rfl
      | some event =>
        refine .inr ⟨effect.object, event, ?_, rfl⟩
        simp [Arena.get?_set, found]

lemma bus_act (sound : e.objects.Sound issued) (op : Op) : (e.act op).2.bus = e.bus ∨
    ∃ a h' event, Record.target? ⟨op, (e.act op).1⟩ = some a ∧
      (e.act op).2.objects.get? a = some h' ∧ (e.act op).2.bus = e.bus.publish event := by
  have bare : e.newHandle.2.bus = e.bus := by
    obtain ⟨-, -, -, same⟩ | ⟨-, same⟩ := newHandle_cases sound <;> rw [same]
  cases op with
  | newHandle => exact .inl bare
  | destroyHandle a =>
    refine .inl ?_
    obtain ⟨-, eq⟩ | ⟨-, eq⟩ := e.destroyHandle_cases a <;> rw [act, eq]
  | call a c =>
    rw [act, call_eq_attempt]
    refine bus_attempt.imp_right ?_
    rintro ⟨h', event, found, bus⟩
    exact ⟨a, h', event, rfl, found, bus⟩
  | session a c =>
    rw [act, session_eq_attempt]
    refine bus_attempt.imp_right ?_
    rintro ⟨h', event, found, bus⟩
    exact ⟨a, h', event, rfl, found, bus⟩
  | addTorrent params =>
    obtain ⟨err, -, eq⟩ | ⟨a, -, ⟨-, eq⟩ | ⟨err, refused, eq⟩⟩ := e.addTorrent_cases params
    · exact .inl (by rw [act, eq, bare])
    · rw [act, eq, session_eq_attempt, ← bare]
      refine bus_attempt.imp_right ?_
      rintro ⟨h', event, found, bus⟩
      exact ⟨a, h', event, rfl, found, bus⟩
    · have same : (e.newHandle.2.session a (.startDownload params)).2 = e.newHandle.2 := by
        rw [session_eq_attempt] at refused ⊢
        exact attempt_of_refused refused
      rw [act, eq, same]
      refine .inl ?_
      obtain ⟨-, eq⟩ | ⟨-, eq⟩ := e.newHandle.2.destroyHandle_cases a <;> rw [eq, ← bare]

/-- A bus only grows. -/
lemma events_act (sound : e.objects.Sound issued) (op : Op) :
    (e.act op).2.bus.events.toList = e.bus.events.toList ++ e.news op := by
  obtain same | ⟨a, h', event, -, -, bus⟩ := bus_act sound op
  · have silent : (e.act op).2.bus = e.bus.publish? none := same
    rw [news_eq op silent, same, Option.toList_none, List.append_nil]
  · have told : (e.act op).2.bus = e.bus.publish? (some event) := bus
    rw [news_eq op told, bus]
    simp [Bus.publish]

lemma announced_handle (sound : e.objects.Sound issued) {ev : Event} (published : ev ∈ e.news op)
    (change : ev.isStateChange) : ∃ a h', Record.target? ⟨op, (e.act op).1⟩ = some a ∧
      (e.act op).2.objects.get? a = some h' ∧ ev.handle = h'.id ∧
      ∀ h, e.objects.get? a = some h → h.id = ev.handle := by
  obtain same | ⟨a, h', event, on, found, -⟩ := bus_act sound op
  · have silent : (e.act op).2.bus = e.bus.publish? none := same
    rw [news_eq op silent] at published
    cases published
  · refine ⟨a, h', on, found, ?_⟩
    have observed := act_observed sound found on
    generalize e.news op = events at observed published
    cases observed with
    | told attached id was =>
      obtain rfl := List.mem_singleton.1 published
      exact ⟨rfl, fun h before => (id h before).symm⟩
    | quiet old silent alike =>
      rw [silent ev published] at change
      cases change

/-! ### Runs -/

/-- An operation with what it answered and the events that it published. -/
structure Notice extends Record where
  events : List Event

def notice (e : Engine) (op : Op) : Notice := ⟨⟨op, (e.act op).1⟩, e.news op⟩

/-- The operations of a run with what came of them, in order. -/
def notices (e : Engine) : List Op → List Notice
  | [] => []
  | op :: ops => e.notice op :: (e.act op).2.notices ops

/-- The state of the torrent at the address was announced. -/
def Notice.announces (a : Address) (n : Notice) : Prop :=
  n.target? = some a ∧ ∃ ev ∈ n.events, ev.isStateChange

lemma notices_append (ops ops' : List Op) :
    e.notices (ops ++ ops') = e.notices ops ++ (e.run ops).notices ops' := by
  induction ops generalizing e with
  | nil => rfl
  | cons op ops ih => exact congrArg _ ih

/-- The latest of a list that has a property, with those after it. -/
structure Latest {β : Type} (P : β → Prop) (past : List β) (b : β) (later : List β) : Prop where
  here : ∃ earlier, past = earlier ++ b :: later
  holds : P b
  last : ∀ b' ∈ later, ¬ P b'

section Latest

variable {β : Type} {P : β → Prop} {past later : List β} {b b' : β}

lemma Latest.new (past : List β) (holds : P b) : Latest P (past ++ [b]) b [] :=
  ⟨⟨past, rfl⟩, holds, nofun⟩

lemma Latest.concat (latest : Latest P past b later) (other : ¬ P b') :
    Latest P (past ++ [b']) b (later ++ [b']) := by
  obtain ⟨⟨earlier, rfl⟩, holds, last⟩ := latest
  refine ⟨⟨earlier, by simp⟩, holds, ?_⟩
  rw [List.forall_mem_append]
  exact ⟨last, List.forall_mem_singleton.2 other⟩

end Latest

/-- What the announcements tell of the torrent at an address. Since it was attached its state was
announced, with its pause as it is; the state too is as it was announced last, unless metadata or
priorities were set since. -/
def Knows (past : List Notice) (a : Address) (t : Torrent) : Prop :=
  ∃ start since, Latest (fun n => n.attaches a) past start since ∧
    ∃ told later id state, Latest (Notice.announces a) (start :: since) told later ∧
      told.events = [.stateChanged id state t.paused] ∧
      ((∀ n ∈ later, ¬ n.revises a) → state = t.state.code)

section Knows

variable {past : List Notice} {n : Notice} {t t' : Torrent}

lemma Knows.start (attaches : n.attaches a) (announces : n.announces a) {id : Int64}
    (told : n.events = [t.announcement id]) : Knows (past ++ [n]) a t :=
  ⟨n, [], .new past attaches, n, [], id, t.state.code, .new [] announces, told, fun _ => rfl⟩

/-- An announcement tells all that is to be known. -/
lemma Knows.announce (knows : Knows past a t) (old : ¬ n.attaches a) (announces : n.announces a)
    {id : Int64} (told : n.events = [t'.announcement id]) : Knows (past ++ [n]) a t' := by
  obtain ⟨start, since, attached, -⟩ := knows
  exact ⟨start, since ++ [n], attached.concat old, n, [], id, t'.state.code,
    .new (start :: since) announces, told, fun _ => rfl⟩

lemma Knows.concat (knows : Knows past a t) (old : ¬ n.attaches a) (silent : ¬ n.announces a)
    (alike : t.Alike t' (n.revises a)) : Knows (past ++ [n]) a t' := by
  obtain ⟨start, since, attached, told, later, id, state, latest, event, same⟩ := knows
  refine ⟨start, since ++ [n], attached.concat old, told, later ++ [n], id, state,
    latest.concat silent, by rw [event, alike.paused], fun kept => ?_⟩
  rw [List.forall_mem_append, List.forall_mem_singleton] at kept
  rw [same kept.1, alike.state.resolve_left kept.2]

lemma Knows.act (sound : e.objects.Sound issued)
    (knows : ∀ h t, e.objects.get? a = some h → h.torrent = some t → Knows past a t)
    (found : (e.act op).2.objects.get? a = some h') (attached : h'.torrent = some t') :
    Knows (past ++ [e.notice op]) a t' := by
  by_cases on : (e.notice op).target? = some a
  · have observed := act_observed sound found on
    generalize told : e.news op = events at observed
    cases observed with
    | @told t₀ there id was =>
      obtain rfl : t₀ = t' := Option.some.inj (there.symm.trans attached)
      have announces : (e.notice op).announces a :=
        ⟨on, t₀.announcement h'.id, by simp [notice, told], rfl⟩
      by_cases attaches : (e.notice op).attaches a
      · exact .start attaches announces told
      · obtain ⟨h, before, torrent⟩ := was.resolve_left attaches
        obtain ⟨t, there⟩ := Option.isSome_iff_exists.1 torrent
        exact (knows h t before there).announce attaches announces told
    | quiet old silent alike =>
      obtain ⟨h, t, before, there, alike⟩ := alike t' attached
      refine (knows h t before there).concat old ?_ alike
      rintro ⟨-, ev, inside, change⟩
      rw [notice, told] at inside
      rw [silent ev inside] at change
      cases change
  · have before := get?_of_not_target sound found on
    exact (knows h' t' before attached).concat (fun attaches => on attaches.target)
      (fun announces => on announces.1) ⟨rfl, .inr rfl⟩

end Knows

lemma knows_run (owner : ℕ) (settings : EngineSettings) (bus : Bus Event) (ops : List Op)
    {h : HandleObject} {t : Torrent}
    (found : ((create owner settings bus).run ops).objects.get? a = some h)
    (attached : h.torrent = some t) : Knows ((create owner settings bus).notices ops) a t := by
  refine object_induction (P := fun ops h => ∀ t, h.torrent = some t →
    Knows ((create owner settings bus).notices ops) a t) ?_ ops found t attached
  intro ops op h issued sound knows found t attached
  rw [notices_append]
  exact .act sound (fun h t before => knows h before t) found attached

lemma events_run (owner : ℕ) (settings : EngineSettings) (bus : Bus Event) (ops : List Op) :
    ((create owner settings bus).run ops).bus.events.toList =
      bus.events.toList ++ ((create owner settings bus).notices ops).flatMap (·.events) := by
  induction ops using List.reverseRecOn with
  | nil => simp [run, notices, create]
  | append_singleton ops op ih =>
    obtain ⟨issued, told⟩ := told_run owner settings bus ops
    have kept := events_act told.sound op
    rw [run_append, notices_append, List.flatMap_append, ← List.append_assoc, ← ih]
    simpa [run, notices, notice] using kept

/-- **Announcements tell the torrent.** After any operations, the latest announcement at an address
since its torrent was attached tells whether the torrent is paused, and its state unless metadata or
priorities were set since. What is published stays on the bus, and an announcement carries the
identifier that the handle had, and still has when it is published. -/
theorem announcements_tell (owner : ℕ) (settings : EngineSettings) (bus : Bus Event)
    (ops : List Op) :
    let start := create owner settings bus
    let past := start.notices ops
    (∀ a h t, (start.run ops).objects.get? a = some h → h.torrent = some t → Knows past a t) ∧
      (start.run ops).bus.events.toList = bus.events.toList ++ past.flatMap (·.events) ∧
      ∀ before op after, ops = before ++ op :: after →
        ∀ ev ∈ (start.run before).news op, ev.isStateChange → ∃ a h,
          Record.target? ⟨op, ((start.run before).act op).1⟩ = some a ∧
            ((start.run before).act op).2.objects.get? a = some h ∧ ev.handle = h.id ∧
            ∀ h₀, (start.run before).objects.get? a = some h₀ → h₀.id = ev.handle := by
  intro start past
  refine ⟨fun a h t => knows_run owner settings bus ops, events_run owner settings bus ops, ?_⟩
  intro before op after _ ev published change
  obtain ⟨issued, told⟩ := told_run owner settings bus before
  exact announced_handle told.sound published change

theorem sample_announcements_tell :
    let start := create 1 {} ⟨1, by decide, #[], 1⟩
    let ops : List Op := [.addTorrent (.ofMetadata .sample), .call ⟨1, 0, 1⟩ (.setId 7),
      .session ⟨1, 0, 1⟩ .pause, .session ⟨1, 0, 1⟩ (.recordPieceFinished 0),
      .session ⟨1, 0, 1⟩ (.recordPieceFinished 1), .call ⟨1, 0, 1⟩ .resume,
      .call ⟨1, 0, 1⟩ .resume, .call ⟨1, 0, 1⟩ (.setFilePriority 1 .dontDownload)]
    let t : Torrent := {
      infoHash := .sample, name := some "Sample Show", metadata := some .sample, paused := false
      state := .finished, priorities := [.standard, .dontDownload], finished := .ofList [0, 1] }
    (start.notices ops).map (·.events) = [[.stateChanged 0 3 false], [], [.stateChanged 7 3 true],
        [], [], [.stateChanged 7 3 false], [], []] ∧
      (start.run ops).objects.get? ⟨1, 0, 1⟩ = some { id := 7, torrent := some t } ∧
      Knows (start.notices ops) ⟨1, 0, 1⟩ t := by
  intro start ops t
  have found : (start.run ops).objects.get? ⟨1, 0, 1⟩ = some { id := 7, torrent := some t } := by
    decide +kernel
  exact ⟨by decide +kernel, found,
    (announcements_tell 1 {} ⟨1, by decide, #[], 1⟩ ops).1 ⟨1, 0, 1⟩ _ t found rfl⟩

end Engine

end TorrentHandle
