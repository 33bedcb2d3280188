import TorrentHandle.Proofs.Engine.Origins
import TorrentHandle.Proofs.Engine.Stale
import TorrentHandle.Proofs.Settings.Validate

/-!
Trackers over runs of an engine. They come from three sources into one list, where the first of each
address stays for as long as the torrent does. Two of the sources let no blank address through: the
settings, if they are valid, and the call that adds a tracker. The parameters of a torrent are not
looked at, so a blank address that they have is there, and no other one ever is.
-/

namespace TorrentHandle.Engine

open TorrentHandle.Text

variable {e : Engine} {a : Address} {issued : List Address} {op : Op} {h : HandleObject}
  {t : Torrent}

lemma trackers_eq_ok {trackers : List Tracker} : (e.session a .trackers).1 = .ok trackers ↔
    ∃ h t, e.objects.get? a = some h ∧ h.torrent = some t ∧ trackers = t.trackers := by
  rw [session_eq_attempt]
  exact attempt_query_eq_ok

/-! ### One list from three sources -/

lemma prefix_trackers_run {ops : List Op} (sound : e.objects.Sound issued)
    (found : e.objects.get? a = some h) (attached : h.torrent = some t)
    (kept : ∀ op ∈ ops, op ≠ .destroyHandle a ∧ op ≠ .session a .removeTorrent) :
    ∃ h' t', (e.run ops).objects.get? a = some h' ∧ h'.torrent = some t' ∧
      t.trackers <+: t'.trackers := by
  induction ops generalizing e h t issued with
  | nil => exact ⟨h, t, found, attached, List.prefix_rfl⟩
  | cons op ops ih =>
    obtain ⟨⟨stays, remains⟩, others⟩ := List.forall_mem_cons.1 kept
    obtain ⟨_, -, sound', -⟩ := (acts_act sound op).sound
    obtain ⟨h₁, t₁, found₁, attached₁, turns⟩ := turns_act sound found attached stays remains
    obtain ⟨h', t', found', attached', grown⟩ := ih sound' found₁ attached₁ others
    refine ⟨h', t', found', attached', List.IsPrefix.trans ?_ grown⟩
    rw [turns.trackers]
    exact prefix_foldl_addTracker t.trackers _

/-- **Trackers in the order they came.** After any operations, the trackers of a torrent are the
first of each address among those that it was added with, those of the engine's settings and those
accepted since, in this order. No two have one address; and whatever is done later, until the
torrent is removed or its object destroyed, each stays as it is, the only one of its address. -/
theorem trackers_first_of_each (owner : ℕ) (settings : EngineSettings) (bus : Bus Event)
    (ops : List Op)
    (found : ((create owner settings bus).run ops).objects.get? a = some h)
    (attached : h.torrent = some t) :
    let start := create owner settings bus
    ((start.run ops).session a .trackers).1 = .ok t.trackers ∧
      (∃ params since, Added (start.record ops) a params since ∧
        t.trackers = firstByUrl (params.trackers ++
          settings.defaultTrackers.map (⟨·, 0, settings.defaultTrackerFailLimit⟩) ++
          since.filterMap (Record.tracked? a))) ∧
      (t.trackers.map (·.url)).Nodup ∧
      ∀ later : List Op,
        (∀ op ∈ later, op ≠ .destroyHandle a ∧ op ≠ .session a .removeTorrent) →
        ∃ trackers, ((start.run (ops ++ later)).session a .trackers).1 = .ok trackers ∧
          t.trackers <+: trackers ∧
          ∀ tracker ∈ t.trackers, ∀ other ∈ trackers, other.url = tracker.url → other = tracker := by
  intro start
  obtain ⟨params, since, added, history⟩ := history_run owner settings bus ops found attached
  refine ⟨trackers_eq_ok.2 ⟨h, t, found, attached, rfl⟩, ⟨params, since, added, history.trackers⟩,
    history.trackers ▸ nodup_firstByUrl _, fun later kept => ?_⟩
  obtain ⟨issued, told⟩ := told_run owner settings bus ops
  obtain ⟨h', t', found', attached', grown⟩ :=
    prefix_trackers_run told.sound found attached kept
  rw [← run_append] at found'
  refine ⟨t'.trackers, trackers_eq_ok.2 ⟨h', t', found', attached', rfl⟩, grown, ?_⟩
  intro tracker inside other inside' same
  obtain ⟨_, _, -, history'⟩ := history_run owner settings bus _ found' attached'
  have distinct : (t'.trackers.map (·.url)).Nodup := history'.trackers ▸ nodup_firstByUrl _
  exact List.inj_on_of_nodup_map distinct inside' (grown.subset inside) same

theorem sample_trackers_first_of_each :
    let settings : EngineSettings :=
      { defaultTrackers := ["http://b/", "http://a/"], defaultTrackerFailLimit := 3 }
    let start := create 1 settings ⟨1, by decide, #[], 1⟩
    let params : TorrentParams := { TorrentParams.ofMetadata .sample with
      trackers := [⟨"http://a/", 1, 0⟩, ⟨"http://a/", 2, 5⟩] }
    let ops : List Op := [.addTorrent params, .call ⟨1, 0, 1⟩ (.addTracker ⟨"http://c/", 4, 2⟩),
      .session ⟨1, 0, 1⟩ (.setMetadata .sample), .call ⟨1, 0, 1⟩ (.addTracker ⟨" ", 0, 0⟩),
      .call ⟨1, 0, 1⟩ (.addTracker ⟨"http://b/", 9, 9⟩)]
    let later : List Op := [.call ⟨1, 0, 1⟩ (.addTracker ⟨"http://c/", 0, 0⟩)]
    let trackers : List Tracker := [⟨"http://a/", 1, 0⟩, ⟨"http://b/", 0, 3⟩, ⟨"http://c/", 4, 2⟩]
    let t : Torrent := {
      infoHash := .sample, name := some "Sample Show", metadata := some .sample, paused := false
      state := .downloading, priorities := [.standard, .standard], trackers }
    (start.run ops).objects.get? ⟨1, 0, 1⟩ = some { torrent := some t } ∧
      ((start.run ops).session ⟨1, 0, 1⟩ .trackers).1 = .ok trackers ∧
      (∃ params since, Added (start.record ops) ⟨1, 0, 1⟩ params since ∧
        trackers = firstByUrl (params.trackers ++ [⟨"http://b/", 0, 3⟩, ⟨"http://a/", 0, 3⟩] ++
          since.filterMap (Record.tracked? ⟨1, 0, 1⟩))) ∧
      ∃ trackers', ((start.run (ops ++ later)).session ⟨1, 0, 1⟩ .trackers).1 = .ok trackers' ∧
        trackers <+: trackers' := by
  intro settings start params ops later trackers t
  have found : (start.run ops).objects.get? ⟨1, 0, 1⟩ = some { torrent := some t } := by
    decide +kernel
  have kept : ∀ op ∈ later, op ≠ .destroyHandle ⟨1, 0, 1⟩ ∧
      op ≠ .session ⟨1, 0, 1⟩ .removeTorrent := by
    simp [later]
  obtain ⟨answer, sources, -, stays⟩ :=
    trackers_first_of_each 1 settings ⟨1, by decide, #[], 1⟩ ops found rfl
  obtain ⟨trackers', answer', grown, -⟩ := stays later kept
  exact ⟨found, answer, sources, trackers', answer', grown⟩

/-! ### Blank addresses -/

/-- No torrent has a tracker with a blank address. -/
def NoBlankTracker (e : Engine) : Prop :=
  ∀ a trackers, (e.session a .trackers).1 = .ok trackers →
    ∀ tracker ∈ trackers, isBlankText tracker.url = false

lemma not_blank_of_tracked {ops : List Op} {r : Record} {tracker : Tracker}
    (inside : r ∈ e.record ops) (tracked : r.tracked? a = some tracker) :
    isBlankText tracker.url = false := by
  obtain ⟨before, op, after, -, same⟩ := exists_of_mem_record inside
  obtain ⟨rfl, answered⟩ := Record.mk.inj ((Record.eq_of_tracked tracked).symm.trans same)
  have accepted : ((e.run before).call a (.addTracker tracker)).1 = .ok () :=
    (eq_of_heq answered).symm
  by_contra blank
  rw [Bool.not_eq_false] at blank
  simp [call, Call.check, blank] at accepted

lemma trackers_of_attaches (sound : e.objects.Sound issued)
    (attaches : Record.attaches a ⟨op, (e.act op).1⟩) :
    ∃ trackers, ((e.act op).2.session a .trackers).1 = .ok trackers := by
  have live : a ∈ (e.act op).2.objects.addresses := by
    rw [mem_addresses_act sound op]
    cases op with
    | session b c =>
      obtain ⟨rfl, -, reply, answer⟩ := attaches
      refine .inr ⟨fun dead => ?_, nofun⟩
      have refused := congrArg Prod.fst (session_of_none dead c)
      cases refused.symm.trans answer
    | addTorrent params =>
      have answer : (e.act (.addTorrent params)).1 = .ok a := attaches
      rw [answer]
      exact .inl rfl
    | _ => cases attaches
  obtain ⟨h, found⟩ := Arena.mem_addresses.1 live
  have observed := act_observed sound found attaches.target
  generalize e.news op = events at observed
  cases observed with
  | told attached _ _ => exact ⟨_, trackers_eq_ok.2 ⟨h, _, found, attached, rfl⟩⟩
  | quiet old _ _ => exact absurd attaches old

/-- A blank address of a torrent is one that it was added with. -/
lemma mem_blank_iff {start : Engine} (valid : start.settings.Valid) {ops : List Op}
    {params : TorrentParams} {since : List Record} (added : Added (start.record ops) a params since)
    (history : History start.defaultTrackers a params since t) {url : String}
    (blank : isBlankText url = true) :
    url ∈ t.trackers.map (·.url) ↔ url ∈ params.trackers.map (·.url) := by
  rw [history.trackers, mem_map_url_firstByUrl, List.map_append, List.map_append, List.mem_append,
    List.mem_append, or_assoc]
  refine or_iff_left ?_
  rintro (default | tracked)
  · obtain ⟨tracker, given, rfl⟩ := List.mem_map.1 default
    obtain ⟨url, listed, rfl⟩ := List.mem_map.1 given
    have shown := EngineSettings.not_blank_of_scheme (valid.trackers url listed)
    exact Bool.false_ne_true (shown.symm.trans blank)
  · obtain ⟨tracker, accepted, rfl⟩ := List.mem_map.1 tracked
    obtain ⟨r, later, accepted⟩ := List.mem_filterMap.1 accepted
    obtain ⟨_, ⟨⟨earlier, split⟩, -, -⟩, -⟩ := added
    have inside : r ∈ start.record ops := by
      rw [split]
      exact List.mem_append_right _ (List.mem_cons_of_mem _ later)
    exact Bool.false_ne_true ((not_blank_of_tracked inside accepted).symm.trans blank)

lemma not_blank_congr {trackers trackers' : List Tracker}
    (same : ∀ url, isBlankText url = true →
      (url ∈ trackers.map (·.url) ↔ url ∈ trackers'.map (·.url))) :
    (∀ tracker ∈ trackers, isBlankText tracker.url = false) ↔
      ∀ tracker ∈ trackers', isBlankText tracker.url = false := by
  have spelled : ∀ l : List Tracker, (∀ tracker ∈ l, isBlankText tracker.url = false) ↔
      ∀ url, isBlankText url = true → url ∉ l.map (·.url) := by
    intro l
    constructor
    · intro none url blank inside
      obtain ⟨tracker, there, rfl⟩ := List.mem_map.1 inside
      exact Bool.false_ne_true ((none tracker there).symm.trans blank)
    · intro none tracker there
      by_contra blank
      rw [Bool.not_eq_false] at blank
      exact none _ blank (List.mem_map_of_mem there)
  rw [spelled, spelled]
  exact forall₂_congr fun url blank => not_congr (same url blank)

/-- **Blank trackers come with the parameters.** In an engine with valid settings, a torrent has a
tracker with a blank address iff it was added with one; so none ever has one iff none of the
torrents that were attached was added with one. -/
theorem blank_trackers_from_params (owner : ℕ) {settings : EngineSettings} (bus : Bus Event)
    (ops : List Op) (valid : settings.validate = .ok ()) :
    let start := create owner settings bus
    (∀ a trackers, ((start.run ops).session a .trackers).1 = .ok trackers →
      ∃ params since, Added (start.record ops) a params since ∧ ∀ url, isBlankText url = true →
        (url ∈ trackers.map (·.url) ↔ url ∈ params.trackers.map (·.url))) ∧
    ((∀ before, before <+: ops → (start.run before).NoBlankTracker) ↔
      ∀ r ∈ start.record ops, ∀ a params, r.attaches a → r.params? = some params →
        ∀ tracker ∈ params.trackers, isBlankText tracker.url = false) := by
  intro start
  have valid : start.settings.Valid := EngineSettings.validate_eq_ok.1 valid
  have sources : ∀ {ops a trackers}, ((start.run ops).session a .trackers).1 = .ok trackers →
      ∃ params since, Added (start.record ops) a params since ∧ ∀ url, isBlankText url = true →
        (url ∈ trackers.map (·.url) ↔ url ∈ params.trackers.map (·.url)) := by
    intro ops a trackers answer
    obtain ⟨h, t, found, attached, rfl⟩ := trackers_eq_ok.1 answer
    obtain ⟨params, since, added, history⟩ := history_run owner settings bus ops found attached
    exact ⟨params, since, added, fun url => mem_blank_iff valid added history⟩
  refine ⟨fun a trackers => sources, ?_, ?_⟩
  · intro never r inside a params attaches isParams
    -- The torrent is looked at right after it was attached.
    obtain ⟨before, op, after, rfl, rfl⟩ := exists_of_mem_record inside
    obtain ⟨issued, told⟩ := told_run owner settings bus before
    obtain ⟨trackers, answer⟩ := trackers_of_attaches told.sound attaches
    have looked : start.run (before ++ [op]) = ((start.run before).act op).2 := run_append ..
    rw [← looked] at answer
    obtain ⟨params', since, added, same⟩ := sources answer
    rw [record_append] at added
    obtain rfl : params' = params :=
      Option.some.inj ((added.of_attaches attaches).1.symm.trans isParams)
    exact (not_blank_congr same).1 (never (before ++ [op]) ⟨after, by simp⟩ a trackers answer)
  · rintro none before ⟨after, rfl⟩ a trackers answer
    obtain ⟨params, since, ⟨r, ⟨⟨earlier, split⟩, attaches, -⟩, isParams⟩, same⟩ := sources answer
    have inside : r ∈ start.record (before ++ after) := by
      rw [record_append, split]
      simp
    exact (not_blank_congr same).2 (none r inside a params attaches isParams)

theorem sample_blank_trackers_from_params :
    let settings : EngineSettings := { defaultTrackers := ["http://a/"] }
    let start := create 1 settings ⟨1, by decide, #[], 1⟩
    let params : TorrentParams :=
      { TorrentParams.ofMetadata .sample with trackers := [⟨"", 0, 0⟩] }
    let ops : List Op := [.addTorrent params, .call ⟨1, 0, 1⟩ (.addTracker ⟨" ", 0, 0⟩)]
    settings.validate = .ok () ∧
      ((start.run ops).session ⟨1, 0, 1⟩ .trackers).1 =
        .ok [⟨"", 0, 0⟩, ⟨"http://a/", 0, settings.defaultTrackerFailLimit⟩] ∧
      ∃ params since, Added (start.record ops) ⟨1, 0, 1⟩ params since ∧
        ∀ url, isBlankText url = true →
          (url ∈ ["", "http://a/"] ↔ url ∈ params.trackers.map (·.url)) := by
  intro settings start params ops
  have valid : settings.validate = .ok () := by decide +kernel
  have answer : ((start.run ops).session ⟨1, 0, 1⟩ .trackers).1 =
      .ok [⟨"", 0, 0⟩, ⟨"http://a/", 0, settings.defaultTrackerFailLimit⟩] := by
    decide +kernel
  have sources := (blank_trackers_from_params 1 ⟨1, by decide, #[], 1⟩ ops valid).1
  exact ⟨valid, answer, sources _ _ answer⟩

/-- The settings are valid, and the call that adds a tracker refuses a blank address; a torrent that
is added with one has it all the same. -/
theorem blank_tracker_attached :
    let settings : EngineSettings := {}
    let params : TorrentParams :=
      { TorrentParams.ofMetadata .sample with trackers := [⟨"", 0, 0⟩] }
    let e := (create 1 settings ⟨1, by decide, #[], 1⟩).run
      [.newHandle, .session ⟨1, 0, 1⟩ (.startDownload params)]
    settings.validate = .ok () ∧
      (e.call ⟨1, 0, 1⟩ (.addTracker ⟨"", 0, 0⟩)).1 =
        .error (.invalidInput "url" "tracker url must not be empty") ∧
      (e.session ⟨1, 0, 1⟩ .trackers).1 = .ok [⟨"", 0, 0⟩] ∧ ¬ e.NoBlankTracker := by
  intro settings params e
  have valid : settings.validate = .ok () := by decide +kernel
  have refused : (e.call ⟨1, 0, 1⟩ (.addTracker ⟨"", 0, 0⟩)).1 =
      .error (.invalidInput "url" "tracker url must not be empty") := by
    decide +kernel
  have answer : (e.session ⟨1, 0, 1⟩ .trackers).1 = .ok [⟨"", 0, 0⟩] := by decide +kernel
  refine ⟨valid, refused, answer, fun none => ?_⟩
  have shown : isBlankText "" = false := none _ _ answer _ List.mem_cons_self
  cases shown

end TorrentHandle.Engine
