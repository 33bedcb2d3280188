import TorrentHandle.Proofs.Engine.Torrents

/-!
When metadata arrives. A torrent may be added with its metadata, or get it later; what is done to
its handle in between commutes with the arrival, as long as it does the same with metadata as
without, so that the two ways lead to one object.
-/

namespace TorrentHandle

open TorrentHandle.Text

variable {m : Metadata} {h : HandleObject}

/-! ### Arrival -/

/-- The torrent once metadata has arrived. -/
def Torrent.withMetadata (m : Metadata) (t : Torrent) : Torrent :=
  refresh { t with
    infoHash := m.infoHash
    name := some (t.name.getD m.name)
    metadata := some m
    priorities := m.files.map fun _ => .standard
    finished := t.finished.filter (· < m.pieceCount.toNat) }

/-- The object once metadata has arrived. -/
def HandleObject.withMetadata (m : Metadata) (h : HandleObject) : HandleObject :=
  { h with torrent := h.torrent.map (Torrent.withMetadata m) }

lemma Torrent.setMetadata_of_consistent {t : Torrent} (consistent : m.isConsistent = true) :
    t.setMetadata m = .ok (t.withMetadata m) :=
  if_pos consistent

lemma leave_setMetadata (consistent : m.isConsistent = true) (defaults : List Tracker) :
    leave ((SessionCall.setMetadata m).transition defaults) h = h.withMetadata m := by
  have revised : (SessionCall.setMetadata m).revise defaults h.torrent =
      h.torrent.map (Torrent.withMetadata m) := by
    simp only [SessionCall.revise, Torrent.setMetadata_of_consistent consistent, Torrent.orSame]
  rw [leave_session, revised, if_neg, HandleObject.withMetadata]
  cases h.torrent <;> simp

lemma HandleObject.metadata_of_withMetadata {t : Torrent}
    (attached : (h.withMetadata m).torrent = some t) : t.metadata = some m := by
  obtain ⟨t₀, -, rfl⟩ := Option.map_eq_some_iff.1 attached
  rfl

lemma Torrent.withMetadata_withTrackers (trackers : List Tracker) (t : Torrent) :
    (trackers.foldl withTracker t).withMetadata m =
      trackers.foldl withTracker (t.withMetadata m) := by
  induction trackers generalizing t with
  | nil => rfl
  | cons tracker trackers ih => exact ih (t.withTracker tracker)

/-- A torrent that is added with metadata is one that is added without, once it has arrived. -/
lemma Torrent.ofParams_eq_withMetadata {params : TorrentParams}
    (given : params.metadata = some m) (consistent : m.isConsistent = true) :
    ∃ t, ofParams { params with metadata := none } = .ok t ∧
      ofParams params = .ok (t.withMetadata m) := by
  refine ⟨_, rfl, ?_⟩
  unfold ofParams
  rw [given]
  exact setMetadata_of_consistent consistent

lemma leave_startDownload {params : TorrentParams} (given : params.metadata = some m)
    (consistent : m.isConsistent = true) (detached : h.torrent = none) (defaults : List Tracker) :
    leave ((SessionCall.startDownload params).transition defaults) h =
      (leave ((SessionCall.startDownload { params with metadata := none }).transition defaults)
        h).withMetadata m := by
  obtain ⟨t, bare, full⟩ := Torrent.ofParams_eq_withMetadata given consistent
  rw [leave_session, leave_session, detached]
  simp only [HandleObject.withMetadata, SessionCall.revise, bare, full, Except.toOption,
    Option.map_some, Torrent.withMetadata_withTrackers]
  rfl

/-! ### What commutes with it -/

/-- The call does the same to its object with metadata as without. -/
def Call.ignoresMetadata : Call → Bool
  | reloadFile | setPieceDeadline .. | ignoreAllFiles | setFilePriority .. => false
  | _ => true

/-- The call does the same to its object with metadata as without, and leaves the torrent there. -/
def SessionCall.ignoresMetadata : SessionCall → Bool
  | startDownload _ | setMetadata _ | removeTorrent | recordPieceFinished _ => false
  | _ => true

lemma Call.revise_withMetadata {c : Call} (free : c.ignoresMetadata) (t : Torrent) :
    c.revise (t.withMetadata m) = (c.revise t).withMetadata m := by
  cases c with
  | addTracker tracker =>
    change (if isBlankText tracker.url then _ else _) = Torrent.withMetadata m (if _ then _ else _)
    split <;> rfl
  | reloadFile | setPieceDeadline | ignoreAllFiles | setFilePriority => cases free
  | _ => rfl

lemma leave_call_withMetadata {c : Call} (free : c.ignoresMetadata) :
    leave c.attempt (h.withMetadata m) = (leave c.attempt h).withMetadata m := by
  have torrent : (h.torrent.map (Torrent.withMetadata m)).map c.revise =
      (h.torrent.map c.revise).map (Torrent.withMetadata m) := by
    rw [Option.map_map, Option.map_map]
    exact congrArg (Option.map · h.torrent) (funext (Call.revise_withMetadata free))
  rw [leave_call, leave_call]
  simp only [HandleObject.withMetadata, torrent]
  cases c with
  | reloadFile => cases free
  | _ => rfl

lemma leave_session_withMetadata {c : SessionCall} (free : c.ignoresMetadata)
    (defaults : List Tracker) : leave (c.transition defaults) (h.withMetadata m) =
      (leave (c.transition defaults) h).withMetadata m := by
  obtain ⟨id, o, view⟩ := h
  cases c with
  | startDownload | setMetadata | removeTorrent | recordPieceFinished => cases free
  | _ => cases o <;> rfl

namespace Engine

variable {a : Address} {params : TorrentParams}

/-- The operation does the same to the object at the address with metadata as without. -/
def Op.ignoresMetadata (a : Address) : Op → Bool
  | destroyHandle b => b != a
  | call b c => b != a || c.ignoresMetadata
  | session b c => b != a || c.ignoresMetadata
  | _ => true

lemma Op.edit_withMetadata {op : Op} (free : op.ignoresMetadata a) (defaults : List Tracker) :
    op.edit defaults a (h.withMetadata m) = (op.edit defaults a h).withMetadata m := by
  cases op with
  | call b c =>
    simp only [edit]
    split
    · rename_i here
      exact leave_call_withMetadata (by simpa [ignoresMetadata, here] using free)
    · rfl
  | session b c =>
    simp only [edit]
    split
    · rename_i here
      exact leave_session_withMetadata (by simpa [ignoresMetadata, here] using free) defaults
    · rfl
  | _ => rfl

/-- The arrival may as well come after operations that it commutes with. -/
lemma foldl_edit_withMetadata {ops : List Op} (free : ∀ op ∈ ops, op.ignoresMetadata a)
    (defaults : List Tracker) :
    ops.foldl (fun h op => op.edit defaults a h) (h.withMetadata m) =
      (ops.foldl (fun h op => op.edit defaults a h) h).withMetadata m := by
  induction ops generalizing h with
  | nil => rfl
  | cons op ops ih =>
    obtain ⟨first, rest⟩ := List.forall_mem_cons.1 free
    rw [List.foldl_cons, List.foldl_cons, Op.edit_withMetadata first, ih rest]

/-- **Early and late metadata agree.** A detached handle gets a torrent, and then come operations
that do the same with metadata as without, with any others elsewhere. Whether the metadata is there
from the start or is installed in the end, the same object is left, and it has the metadata. -/
theorem metadata_early_or_late (owner : ℕ) (settings : EngineSettings) (bus : Bus Event)
    (ops later : List Op) (found : ((create owner settings bus).run ops).objects.get? a = some h)
    (detached : h.torrent = none) (given : params.metadata = some m)
    (consistent : m.isConsistent = true) (free : ∀ op ∈ later, op.ignoresMetadata a) :
    let e := (create owner settings bus).run ops
    let early := .session a (.startDownload params) :: later
    let late := .session a (.startDownload { params with metadata := none }) :: later ++
      [.session a (.setMetadata m)]
    ∃ h' t, (e.run early).objects.get? a = some h' ∧ (e.run late).objects.get? a = some h' ∧
      h'.torrent = some t ∧ t.metadata = some m := by
  intro e early late
  obtain ⟨issued, told⟩ := told_run owner settings bus ops
  have stays : ∀ op ∈ later, op ≠ .destroyHandle a := by
    rintro _ inside rfl
    simpa [Op.ignoresMetadata] using free _ inside
  have keptEarly : ∀ op ∈ early, op ≠ .destroyHandle a := by
    simpa [early] using stays
  have keptLate : ∀ op ∈ late, op ≠ .destroyHandle a := by
    simpa [late, or_imp, forall_and] using stays
  -- the object before the metadata arrives, and what the operations make of it
  let bare := (SessionCall.startDownload { params with metadata := none }).transition
    e.defaultTrackers
  let h₀ := later.foldl (fun h op => op.edit e.defaultTrackers a h) (leave bare h)
  have early_eq : (e.run early).objects.get? a = some (h₀.withMetadata m) := by
    rw [get?_run_of_some told.sound found keptEarly, List.foldl_cons, Op.edit, if_pos rfl,
      leave_startDownload given consistent detached, foldl_edit_withMetadata free]
  have late_eq : (e.run late).objects.get? a = some (h₀.withMetadata m) := by
    rw [get?_run_of_some told.sound found keptLate, List.foldl_append, List.foldl_cons, Op.edit,
      if_pos rfl, List.foldl_cons, List.foldl_nil, Op.edit, if_pos rfl,
      leave_setMetadata consistent]
  have known : (h₀.withMetadata m).HasMetadata := by
    rw [← foldl_edit_withMetadata free]
    refine List.foldlRecOn later _ ?_ fun h known op inside => Op.edit_hasMetadata ?_ known
    · have attached := torrent_leave_session (h := h) e.defaultTrackers
        (.startDownload { params with metadata := none })
      rw [detached] at attached
      exact ⟨_, congrArg (Option.map (Torrent.withMetadata m)) attached, rfl⟩
    · rintro rfl
      simpa [Op.ignoresMetadata, SessionCall.ignoresMetadata] using free _ inside
  obtain ⟨t, attached, -⟩ := known
  exact ⟨_, t, early_eq, late_eq, attached, HandleObject.metadata_of_withMetadata attached⟩

theorem sample_metadata_early_or_late :
    let a : Address := ⟨1, 0, 1⟩
    let params := { TorrentParams.ofMetadata .sample with
      name := some "Show", trackers := [⟨"udp://a", 0, 0⟩], paused := true }
    let later := [.call a (.addTracker ⟨"udp://b", 1, 0⟩), .call a .resume, .call a (.setId 7),
      .session a .pause, .call a (.setPeerEndgame true), .call a (.resetPieceDeadline 1),
      .call a .clearPieceDeadlines, .newHandle, .call a .makeMagnetUri]
    let e := (create 1 {} ⟨1, by decide, #[], 1⟩).run [.newHandle, .call a .reloadFile]
    let early := .session a (.startDownload params) :: later
    let late := .session a (.startDownload { params with metadata := none }) :: later ++
      [.session a (.setMetadata .sample)]
    e.objects.get? a = some {} ∧ params.metadata = some .sample ∧
      Metadata.sample.isConsistent = true ∧ (∀ op ∈ later, op.ignoresMetadata a) ∧
      ∃ h' t, (e.run early).objects.get? a = some h' ∧ (e.run late).objects.get? a = some h' ∧
        h'.torrent = some t ∧ t.metadata = some .sample := by
  intro a params later e early late
  have found : e.objects.get? a = some {} := by decide +kernel
  have consistent : Metadata.sample.isConsistent = true := by decide +kernel
  have free : ∀ op ∈ later, op.ignoresMetadata a := by decide
  exact ⟨found, rfl, consistent, free, metadata_early_or_late 1 {} ⟨1, by decide, #[], 1⟩
    [.newHandle, .call a .reloadFile] later found rfl rfl consistent free⟩

end Engine

end TorrentHandle
