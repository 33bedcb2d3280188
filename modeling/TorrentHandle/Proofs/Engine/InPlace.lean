import TorrentHandle.Proofs.Engine.Run
import TorrentHandle.Proofs.Torrent.Coherence

/-!
Operations with their writes one by one. A program changes an object where it is, and what it has
written stays when it fails. `InPlace.Performs` says that a program comes to what a function of the
whole object says, and that it leaves the object as it was if the function fails: its checks come
before its first write, or undo nothing. Every mutator has such a program, so an engine that keeps
the writes of calls that fail does the same as one that drops them.
-/

namespace TorrentHandle

variable {σ α : Type}

/-- A program on a value that it changes in place. -/
abbrev InPlace (σ α : Type) := EStateM NativeError σ α

namespace InPlace

def look (f : σ → Except NativeError α) : InPlace σ α := fun s =>
  match f s with
  | .ok a => .ok a s
  | .error err => .error err s

/-- The program comes to what the function says, and where that fails it has written nothing. -/
def Performs (p : InPlace σ α) (f : σ → Except NativeError (α × σ)) : Prop :=
  ∀ s, p s = match f s with
    | .ok (a, s') => .ok a s'
    | .error err => .error err s

lemma get_run (s : σ) : (get : InPlace σ σ) s = .ok s s := rfl

/-! ### Torrents -/

section Torrents

def setMetadata (m : Metadata) : InPlace Torrent Unit := do
  unless m.isConsistent do
    throw (.invalidInput "metadata" "file table does not match piece geometry")
  modify ({ · with infoHash := m.infoHash })
  if (← get).name.isNone then
    modify ({ · with name := some m.name })
  modify ({ · with priorities := m.files.map fun _ => .standard })
  modify fun t => { t with finished := t.finished.filter (· < m.pieceCount.toNat) }
  modify ({ · with metadata := some m })
  modify Torrent.refresh

def finishPiece (piece : UInt32) : InPlace Torrent Unit := do
  look (·.checkPiece piece)
  modify fun t => { t with finished := t.finished.insert piece.toNat }
  modify fun t => { t with deadlines := t.deadlines.erase piece.toNat }
  modify Torrent.refresh

def setDeadline (piece milliseconds : UInt32) : InPlace Torrent Unit := do
  look (·.checkPiece piece)
  unless (← get).finished.contains piece.toNat do
    modify fun t => { t with deadlines := t.deadlines.insert piece.toNat milliseconds }

def setPriority (index : UInt32) (p : FilePriority) : InPlace Torrent Unit := do
  let _ ← look Torrent.requireMetadata
  let limit := (← get).priorities.length
  unless index.toNat < limit do
    throw (.outOfRange "file_index" index.toNat limit)
  modify fun t => { t with priorities := t.priorities.set index.toNat p }
  modify Torrent.refresh

def ignoreFiles : InPlace Torrent Unit := do
  let _ ← look Torrent.requireMetadata
  modify fun t => { t with priorities := t.priorities.map fun _ => .dontDownload }
  modify Torrent.refresh

/-- Builds a torrent in a place of its own, which goes if the metadata is rejected. -/
def ofParams (p : TorrentParams) : Except NativeError Torrent :=
  let build : InPlace Torrent Unit := do
    p.trackers.forM fun tracker => modify (·.withTracker tracker)
    match p.metadata with
    | some m => setMetadata m
    | none => return
  match build { infoHash := p.infoHash, name := p.name, paused := p.paused } with
  | .ok () t => .ok t
  | .error err _ => .error err

/-- The program changes a torrent as the function says. -/
def Changes (p : InPlace Torrent Unit) (f : Torrent → Except NativeError Torrent) : Prop :=
  Performs p fun t => (f t).map fun t' => ((), t')

lemma changes_modify (g : Torrent → Torrent) : Changes (modify g) fun t => .ok (g t) := fun _ => rfl

lemma changes_setMetadata (m : Metadata) : Changes (setMetadata m) (·.setMetadata m) := by
  intro t
  unfold setMetadata Torrent.setMetadata
  cases m.isConsistent with
  | false => rfl
  | true => obtain ⟨_, _ | _, _⟩ := t <;> rfl

lemma changes_finishPiece (piece : UInt32) : Changes (finishPiece piece) (·.finishPiece piece) := by
  intro t
  simp only [finishPiece, Torrent.finishPiece, bind, EStateM.bind, Except.bind, look]
  cases t.checkPiece piece <;> rfl

lemma changes_setDeadline (piece milliseconds : UInt32) :
    Changes (setDeadline piece milliseconds) (·.setDeadline piece milliseconds) := by
  intro t
  simp only [setDeadline, Torrent.setDeadline, bind, EStateM.bind, Except.bind, look]
  cases t.checkPiece piece with
  | error err => rfl
  | ok u =>
    simp only [get_run]
    split <;> rfl

lemma changes_setPriority (index : UInt32) (q : FilePriority) :
    Changes (setPriority index q) (·.setPriority index q) := by
  intro t
  simp only [setPriority, Torrent.setPriority, bind, EStateM.bind, Except.bind, look]
  cases t.requireMetadata with
  | error err => rfl
  | ok m =>
    simp only [get_run]
    split <;> rfl

lemma changes_ignoreFiles : Changes ignoreFiles (·.ignoreFiles) := by
  intro t
  simp only [ignoreFiles, Torrent.ignoreFiles, bind, EStateM.bind, Except.bind, look]
  cases t.requireMetadata <;> rfl

lemma forM_withTracker (trackers : List Tracker) (t : Torrent) :
    (trackers.forM fun tracker => modify (·.withTracker tracker) : InPlace Torrent Unit) t =
      .ok () (trackers.foldl Torrent.withTracker t) := by
  induction trackers generalizing t with
  | nil => rfl
  | cons tracker trackers ih => exact ih (t.withTracker tracker)

lemma ofParams_eq (p : TorrentParams) : ofParams p = Torrent.ofParams p := by
  unfold ofParams Torrent.ofParams
  simp only [bind, EStateM.bind, forM_withTracker]
  cases p.metadata with
  | none => rfl
  | some m =>
    simp only [changes_setMetadata m _]
    cases Torrent.setMetadata _ m <;> rfl

end Torrents

/-! ### Handle objects -/

section Objects

/-- Runs a program on the torrent, which must be there. -/
def onTorrent (p : InPlace Torrent α) : InPlace HandleObject α := fun h =>
  match h.torrent with
  | none => .error .notAttached h
  | some t =>
    match p t with
    | .ok a t' => .ok a { h with torrent := some t' }
    | .error err t' => .error err { h with torrent := some t' }

/-- The program comes to what the transition says. -/
def Makes (p : InPlace HandleObject (α × Option Event)) (f : Transition α) : Prop :=
  Performs p fun h => (f h).map fun effect => ((effect.reply, effect.event), effect.object)

def query (f : Torrent → α) : InPlace HandleObject (α × Option Event) :=
  look fun h => do return (f (← h.requireTorrent), none)

def post (report : Int64 → Torrent → Event) : InPlace HandleObject (Unit × Option Event) :=
  look fun h => .ok ((), h.torrent.map (report h.id))

def update (p : InPlace Torrent Unit) : InPlace HandleObject (Unit × Option Event) := do
  onTorrent p
  return ((), none)

def reload : InPlace HandleObject (Int32 × Option Event) := do
  match (← get).torrent with
  | none => return (ReloadOutcome.nullHandle.code, none)
  | some t =>
    match t.metadata with
    | none => return (ReloadOutcome.nullFile.code, none)
    | some m =>
      modify ({ · with view := some m })
      return (ReloadOutcome.success.code, none)

def endPause : InPlace HandleObject (Unit × Option Event) := do
  let id := (← get).id
  let (state, paused) ← onTorrent do
    let paused := (← get).paused
    modify ({ · with paused := false })
    return ((← get).state, paused)
  return ((), if paused then some (.stateChanged id state.code false) else none)

def beginPause : InPlace HandleObject (Unit × Option Event) := do
  let id := (← get).id
  let state ← onTorrent do
    modify ({ · with paused := true })
    return (← get).state
  return ((), some (.stateChanged id state.code true))

def attach (t : Torrent) : InPlace HandleObject (Unit × Option Event) := do
  let h ← get
  if h.torrent.isSome then
    throw (.invalidInput "address" "handle already attached")
  let event := .stateChanged h.id t.state.code t.paused
  modify ({ · with torrent := some t })
  modify ({ · with view := none })
  return ((), some event)

def install (m : Metadata) : InPlace HandleObject (Unit × Option Event) := do
  let id := (← get).id
  onTorrent (setMetadata m)
  return ((), some (.metadataReceived id m.name))

/-- The torrent is taken before anyone asks whether it was there. -/
def detach : InPlace HandleObject (Unit × Option Event) := do
  let h ← get
  set { h with torrent := none }
  if h.torrent.isNone then
    throw .notAttached
  return ((), some (.torrentRemoved h.id))

def finish (piece : UInt32) : InPlace HandleObject (Unit × Option Event) := do
  let id := (← get).id
  let (before, after, paused) ← onTorrent do
    let before := (← get).state
    finishPiece piece
    let t ← get
    return (before, t.state, t.paused)
  return ((), if before = after then none else some (.stateChanged id after.code paused))

lemma makes_query (f : Torrent → α) : Makes (query f) (.query f) := by
  rintro ⟨_, _ | _, _⟩ <;> rfl

lemma makes_reload : Makes reload fun h => .ok (Call.reload h) := by
  rintro ⟨_, _ | ⟨_, _, _ | _, _⟩, _⟩ <;> rfl

lemma makes_endPause : Makes endPause Call.endPause := by
  rintro ⟨_, _ | _, _⟩ <;> rfl

lemma makes_beginPause : Makes beginPause SessionCall.beginPause := by
  rintro ⟨_, _ | _, _⟩ <;> rfl

lemma makes_attach (t : Torrent) : Makes (attach t) (SessionCall.attach t) := by
  rintro ⟨_, _ | _, _⟩ <;> rfl

lemma makes_detach : Makes detach SessionCall.detach := by
  rintro ⟨_, _ | _, _⟩ <;> rfl

lemma onTorrent_of_changes {p : InPlace Torrent Unit} {f : Torrent → Except NativeError Torrent}
    (changes : Changes p f) (h : HandleObject) {t : Torrent} (attached : h.torrent = some t) :
    onTorrent p h = match f t with
      | .ok t' => .ok () { h with torrent := some t' }
      | .error err => .error err h := by
  obtain ⟨_, _, _⟩ := h
  subst attached
  simp only [onTorrent, changes t]
  cases f t <;> rfl

lemma makes_update {p : InPlace Torrent Unit} {f : Torrent → Except NativeError Torrent}
    (changes : Changes p f) : Makes (update p) (.update f) := by
  rintro ⟨id, _ | t, view⟩
  · rfl
  · simp only [update, bind, EStateM.bind, onTorrent_of_changes changes ⟨id, some t, view⟩ rfl]
    simp only [Transition.update, HandleObject.requireTorrent, bind, Except.bind]
    cases f t <;> rfl

lemma makes_install (m : Metadata) : Makes (install m) (SessionCall.install m) := by
  rintro ⟨id, _ | t, view⟩
  · rfl
  · simp only [install, bind, EStateM.bind, get_run,
      onTorrent_of_changes (changes_setMetadata m) ⟨id, some t, view⟩ rfl]
    simp only [SessionCall.install, HandleObject.requireTorrent, bind, Except.bind]
    cases t.setMetadata m <;> rfl

lemma makes_finish (piece : UInt32) : Makes (finish piece) (SessionCall.finish piece) := by
  rintro ⟨id, _ | t, view⟩
  · rfl
  · simp only [finish, onTorrent, bind, EStateM.bind, get_run, changes_finishPiece piece t]
    simp only [SessionCall.finish, HandleObject.requireTorrent, bind, Except.bind]
    cases t.finishPiece piece <;> rfl

end Objects

end InPlace

/-! ### Calls -/

/-- What a call of a handle does, write by write. -/
def Call.inPlace : (c : Call) → InPlace HandleObject (c.Reply × Option Event)
  | id => .look fun h => .ok (h.id, none)
  | setId n => do
    modify ({ · with id := n })
    return ((), none)
  | infoView => .look fun h => .ok (h.view, none)
  | reloadFile => .reload
  | isValid => .look fun h => .ok (h.torrent.isSome, none)
  | state => .query fun t => t.state.code
  | postStatusUpdates => .post statusReport
  | postSaveResume => .post fun id t => .resumeDataSaved id t.resumePayload
  | postFileProgress => .post fun id t => .fileProgress id (t.fileProgress.map UInt64.ofNat)
  | setPieceDeadline piece milliseconds => .update (.setDeadline piece milliseconds)
  | resetPieceDeadline piece => .update (modify (·.resetDeadline piece))
  | clearPieceDeadlines => .update (modify ({ · with deadlines := .empty }))
  | setPeerEndgame endgame => .update (modify ({ · with endgame }))
  | addTracker tracker => .update (modify (·.withTracker tracker))
  | resume => .endPause
  | ignoreAllFiles => .update .ignoreFiles
  | setFilePriority index priority => .update (.setPriority index priority)
  | makeMagnetUri => .query fun t => t.magnetLink.render

/-- What a call of a session does, write by write, once its torrent has been built. -/
def SessionCall.inPlace (defaults : List Tracker) :
    (c : SessionCall) → Except NativeError (InPlace HandleObject (c.Reply × Option Event))
  | startDownload params => do
    let t ← InPlace.ofParams params
    return .attach (defaults.foldl Torrent.withTracker t)
  | setMetadata m => .ok (.install m)
  | removeTorrent => .ok .detach
  | pause => .ok .beginPause
  | recordPieceFinished piece => .ok (.finish piece)
  | pieceDeadlines => .ok (.query Torrent.pieceDeadlines)
  | trackers => .ok (.query Torrent.trackers)
  | filePriorities => .ok (.query Torrent.priorities)
  | peerEndgame => .ok (.query Torrent.endgame)
  | isPaused => .ok (.query Torrent.paused)

theorem Call.makes_inPlace (c : Call) : c.inPlace.Makes c.transition := by
  cases c with
  | id | infoView | isValid | setId => exact fun _ => rfl
  | reloadFile => exact InPlace.makes_reload
  | state | makeMagnetUri => exact InPlace.makes_query _
  | postStatusUpdates | postSaveResume | postFileProgress => exact fun _ => rfl
  | setPieceDeadline piece milliseconds =>
    exact InPlace.makes_update (InPlace.changes_setDeadline piece milliseconds)
  | resetPieceDeadline | clearPieceDeadlines | setPeerEndgame | addTracker =>
    exact InPlace.makes_update (InPlace.changes_modify _)
  | resume => exact InPlace.makes_endPause
  | ignoreAllFiles => exact InPlace.makes_update InPlace.changes_ignoreFiles
  | setFilePriority index priority =>
    exact InPlace.makes_update (InPlace.changes_setPriority index priority)

theorem SessionCall.makes_inPlace (defaults : List Tracker) (c : SessionCall) :
    match c.inPlace defaults, c.transition defaults with
    | .ok p, .ok f => p.Makes f
    | .error err, .error err' => err = err'
    | _, _ => False := by
  cases c with
  | startDownload params =>
    simp only [inPlace, transition, InPlace.ofParams_eq]
    cases Torrent.ofParams params with
    | error err => rfl
    | ok t => exact InPlace.makes_attach _
  | setMetadata m => exact InPlace.makes_install m
  | removeTorrent => exact InPlace.makes_detach
  | pause => exact InPlace.makes_beginPause
  | recordPieceFinished piece => exact InPlace.makes_finish piece
  | pieceDeadlines | trackers | filePriorities | peerEndgame | isPaused =>
    exact InPlace.makes_query _

/-! ### Engines -/

namespace Engine

variable {e : Engine} {a : Address}

/-- Runs a program on the object at an address. What it has written is kept when it fails. -/
def applyInPlace (e : Engine) (a : Address) (missing : Except NativeError α)
    (p : InPlace HandleObject (α × Option Event)) : Except NativeError α × Engine :=
  match e.objects.get? a with
  | none => (missing, e)
  | some h =>
    match p h with
    | .ok (reply, event) h' =>
      (.ok reply, { e with objects := e.objects.set a h', bus := e.bus.publish? event })
    | .error err h' => (.error err, { e with objects := e.objects.set a h' })

def callInPlace (e : Engine) (a : Address) (c : Call) : Except NativeError c.Reply × Engine :=
  match c.check with
  | .error err => (.error err, e)
  | .ok () => e.applyInPlace a c.missing c.inPlace

def sessionInPlace (e : Engine) (a : Address) (c : SessionCall) :
    Except NativeError c.Reply × Engine :=
  match c.inPlace e.defaultTrackers with
  | .error err => (.error err, e)
  | .ok p => e.applyInPlace a (.error .staleAddress) p

def destroyInPlace (e : Engine) (a : Address) : Except NativeError Unit × Engine :=
  match e.objects.remove a with
  | (some _, objects) => (.ok (), { e with objects })
  | (none, objects) => (.error .staleAddress, { e with objects })

def addTorrentInPlace (e : Engine) (params : TorrentParams) : Except NativeError Address × Engine :=
  match e.newHandle with
  | (.error err, e) => (.error err, e)
  | (.ok a, e) =>
    match e.sessionInPlace a (.startDownload params) with
    | (.ok (), e) => (.ok a, e)
    | (.error err, e) => (.error err, (e.destroyInPlace a).2)

def actInPlace (e : Engine) : (op : Op) → op.Answer × Engine
  | .newHandle => e.newHandle
  | .destroyHandle a => e.destroyInPlace a
  | .call a c => e.callInPlace a c
  | .session a c => e.sessionInPlace a c
  | .addTorrent params => e.addTorrentInPlace params

lemma applyInPlace_eq {missing : Except NativeError α}
    {p : InPlace HandleObject (α × Option Event)} {f : Transition α} (makes : p.Makes f) :
    e.applyInPlace a missing p = e.apply a missing f := by
  unfold applyInPlace apply
  cases found : e.objects.get? a with
  | none => rfl
  | some h =>
    simp only [makes h]
    cases result : f h with
    | ok effect => rfl
    | error err =>
      -- the object is written back as it was
      simp only [Except.map, Arena.set_self found]

lemma callInPlace_eq (c : Call) : e.callInPlace a c = e.call a c := by
  unfold callInPlace call
  cases c.check with
  | error err => rfl
  | ok => exact applyInPlace_eq c.makes_inPlace

lemma sessionInPlace_eq (c : SessionCall) : e.sessionInPlace a c = e.session a c := by
  have makes := c.makes_inPlace e.defaultTrackers
  unfold sessionInPlace session
  cases built : c.inPlace e.defaultTrackers <;> cases given : c.transition e.defaultTrackers <;>
    rw [built, given] at makes
  · rw [makes]
  · cases makes
  · cases makes
  · exact applyInPlace_eq makes

lemma destroyInPlace_eq : e.destroyInPlace a = e.destroyHandle a := by
  have answer : (e.objects.remove a).1 = e.objects.get? a := Arena.remove_fst
  unfold destroyInPlace destroyHandle
  cases taken : e.objects.remove a with
  | mk old objects =>
    rw [taken] at answer
    cases old with
    | some h => rfl
    | none =>
      have same := Arena.remove_of_none answer.symm
      rw [taken] at same
      obtain rfl : objects = e.objects := same
      rfl

/-- **An engine that keeps the writes of operations that fail does what one does that drops
them.** -/
theorem actInPlace_eq (op : Op) : e.actInPlace op = e.act op := by
  cases op with
  | newHandle => rfl
  | destroyHandle a => exact destroyInPlace_eq
  | call a c => exact callInPlace_eq c
  | session a c => exact sessionInPlace_eq c
  | addTorrent params =>
    unfold actInPlace act addTorrentInPlace addTorrent
    obtain ⟨answer, e⟩ := e.newHandle
    cases answer with
    | error err => rfl
    | ok a =>
      dsimp only
      rw [sessionInPlace_eq]
      obtain ⟨answer, e⟩ := e.session a (.startDownload params)
      cases answer with
      | ok => rfl
      | error err =>
        dsimp only
        rw [destroyInPlace_eq]

end Engine

end TorrentHandle
