import TorrentHandle.Event.Basic
import TorrentHandle.Text.Blank
import TorrentHandle.Torrent.Basic

/-!
Calls to an engine at an address. `Call` is what a handle may ask for, `SessionCall` what only the
owner of the engine may. A call says what it answers, what it checks before it looks for its object,
and what it does to the object, with at most one event.
-/

namespace TorrentHandle

open TorrentHandle.Text

/-- What lives at an address. -/
structure HandleObject where
  /-- Identifier that the caller gave. -/
  id : Int64 := 0
  torrent : Option Torrent := none
  /-- Metadata as of the latest reload. -/
  view : Option Metadata := none
  deriving DecidableEq

/-- The torrent, which must be there. -/
def HandleObject.requireTorrent (h : HandleObject) : Except NativeError Torrent :=
  match h.torrent with
  | some t => .ok t
  | none => .error .notAttached

/-- What a call comes to: an answer, the object afterwards, and an event to publish. -/
structure Effect (α : Type) where
  reply : α
  object : HandleObject
  event : Option Event := none

/-- What a call does to its object. -/
abbrev Transition (α : Type) := HandleObject → Except NativeError (Effect α)

namespace Transition

/-- Only looks at the torrent. -/
def query {α : Type} (f : Torrent → α) : Transition α := fun h => do
  let t ← h.requireTorrent
  return { reply := f t, object := h }

/-- Changes the torrent and publishes nothing. -/
def update (f : Torrent → Except NativeError Torrent) : Transition Unit := fun h => do
  let t ← f (← h.requireTorrent)
  return { reply := (), object := { h with torrent := some t } }

/-- Publishes a report on the torrent; nothing without one. -/
def post (report : Int64 → Torrent → Event) : Transition Unit := fun h =>
  .ok { reply := (), object := h, event := h.torrent.map (report h.id) }

end Transition

/-! ### Calls of a handle -/

/-- What a handle may ask for at its address. -/
inductive Call where
  | id
  | setId (id : Int64)
  | infoView
  | reloadFile
  | isValid
  | state
  | postStatusUpdates
  | postSaveResume
  | postFileProgress
  | setPieceDeadline (piece milliseconds : UInt32)
  | resetPieceDeadline (piece : UInt32)
  | clearPieceDeadlines
  | setPeerEndgame (endgame : Bool)
  | addTracker (tracker : Tracker)
  | resume
  | ignoreAllFiles
  | setFilePriority (index : UInt32) (priority : FilePriority)
  | makeMagnetUri
  deriving DecidableEq

namespace Call

abbrev Reply : Call → Type
  | id => Int64
  | infoView => Option Metadata
  | reloadFile | state => Int32
  | isValid => Bool
  | makeMagnetUri => String
  | setId _ | postStatusUpdates | postSaveResume | postFileProgress | setPieceDeadline ..
  | resetPieceDeadline _ | clearPieceDeadlines | setPeerEndgame _ | addTracker _ | resume
  | ignoreAllFiles | setFilePriority .. => Unit

def operation : Call → String
  | id => "id"
  | setId _ => "set_id"
  | infoView => "info_view"
  | reloadFile => "reload_file"
  | isValid => "is_valid"
  | state => "state"
  | postStatusUpdates => "post_status_updates"
  | postSaveResume => "post_save_resume"
  | postFileProgress => "post_file_progress"
  | setPieceDeadline .. => "set_piece_deadline"
  | resetPieceDeadline _ => "reset_piece_deadline"
  | clearPieceDeadlines => "clear_piece_deadlines"
  | setPeerEndgame _ => "set_peer_endgame"
  | addTracker _ => "add_tracker"
  | resume => "resume"
  | ignoreAllFiles => "ignore_all_files"
  | setFilePriority .. => "set_file_priority"
  | makeMagnetUri => "make_magnet_uri"

/-- What is checked before the object is looked for: a tracker has an address. -/
def check : Call → Except NativeError Unit
  | addTracker tracker =>
    if isBlankText tracker.url then
      .error (.invalidInput "url" "tracker url must not be empty")
    else .ok ()
  | _ => .ok ()

/-- The answer where no object lives. -/
def missing : (c : Call) → Except NativeError c.Reply
  | isValid => .ok false
  | _ => .error .staleAddress

/-- Copies the metadata into the handle and answers what was found. -/
def reload (h : HandleObject) : Effect Int32 :=
  match h.torrent with
  | none => { reply := ReloadOutcome.nullHandle.code, object := h }
  | some t =>
    match t.metadata with
    | none => { reply := ReloadOutcome.nullFile.code, object := h }
    | some m => { reply := ReloadOutcome.success.code, object := { h with view := some m } }

/-- Bytes there and in all. -/
def statusReport (id : Int64) (t : Torrent) : Event :=
  .statusUpdated id t.state.code t.paused (UInt64.ofNat t.bytesDownloaded)
    (UInt64.ofNat t.bytesTotal)

/-- Ends a pause; tells so if there was one. -/
def endPause : Transition Unit := fun h => do
  let t ← h.requireTorrent
  return {
    reply := ()
    object := { h with torrent := some { t with paused := false } }
    event := if t.paused then some (.stateChanged h.id t.state.code false) else none }

def transition : (c : Call) → Transition c.Reply
  | id => fun h => .ok { reply := h.id, object := h }
  | setId n => fun h => .ok { reply := (), object := { h with id := n } }
  | infoView => fun h => .ok { reply := h.view, object := h }
  | reloadFile => fun h => .ok (reload h)
  | isValid => fun h => .ok { reply := h.torrent.isSome, object := h }
  | state => .query fun t => t.state.code
  | postStatusUpdates => .post statusReport
  | postSaveResume => .post fun id t => .resumeDataSaved id t.resumePayload
  | postFileProgress => .post fun id t => .fileProgress id (t.fileProgress.map UInt64.ofNat)
  | setPieceDeadline piece milliseconds => .update (·.setDeadline piece milliseconds)
  | resetPieceDeadline piece => .update fun t => .ok (t.resetDeadline piece)
  | clearPieceDeadlines => .update fun t => .ok { t with deadlines := .empty }
  | setPeerEndgame endgame => .update fun t => .ok { t with endgame }
  | addTracker tracker => .update fun t => .ok (t.withTracker tracker)
  | resume => endPause
  | ignoreAllFiles => .update Torrent.ignoreFiles
  | setFilePriority index priority => .update (·.setPriority index priority)
  | makeMagnetUri => .query fun t => t.magnetLink.render

end Call

/-! ### Calls of a session -/

/-- What the owner of an engine may ask for at an address. -/
inductive SessionCall where
  | startDownload (params : TorrentParams)
  | setMetadata (m : Metadata)
  | removeTorrent
  | pause
  | recordPieceFinished (piece : UInt32)
  | pieceDeadlines
  | trackers
  | filePriorities
  | peerEndgame
  | isPaused
  deriving DecidableEq

namespace SessionCall

abbrev Reply : SessionCall → Type
  | pieceDeadlines => List PieceDeadline
  | trackers => List Tracker
  | filePriorities => List FilePriority
  | peerEndgame | isPaused => Bool
  | startDownload _ | setMetadata _ | removeTorrent | pause | recordPieceFinished _ => Unit

/-- Puts a torrent into a handle that has none. The view is of an earlier torrent, so it goes. -/
def attach (t : Torrent) : Transition Unit := fun h =>
  match h.torrent with
  | some _ => .error (.invalidInput "address" "handle already attached")
  | none => .ok {
      reply := ()
      object := { h with torrent := some t, view := none }
      event := some (.stateChanged h.id t.state.code t.paused) }

def install (m : Metadata) : Transition Unit := fun h => do
  let t ← (← h.requireTorrent).setMetadata m
  return {
    reply := ()
    object := { h with torrent := some t }
    event := some (.metadataReceived h.id m.name) }

def detach : Transition Unit := fun h => do
  let _ ← h.requireTorrent
  return {
    reply := ()
    object := { h with torrent := none }
    event := some (.torrentRemoved h.id) }

/-- Pauses the torrent; tells so also when it was paused already. -/
def beginPause : Transition Unit := fun h => do
  let t ← h.requireTorrent
  return {
    reply := ()
    object := { h with torrent := some { t with paused := true } }
    event := some (.stateChanged h.id t.state.code true) }

/-- Records a finished piece; tells so if the state changes. -/
def finish (piece : UInt32) : Transition Unit := fun h => do
  let t ← h.requireTorrent
  let t' ← t.finishPiece piece
  return {
    reply := ()
    object := { h with torrent := some t' }
    event := if t.state = t'.state then none
      else some (.stateChanged h.id t'.state.code t'.paused) }

/-- What the call does to its object. Trackers that every torrent has are given. -/
def transition (defaults : List Tracker) :
    (c : SessionCall) → Except NativeError (Transition c.Reply)
  | startDownload params => do
    let t ← Torrent.ofParams params
    return attach (defaults.foldl Torrent.withTracker t)
  | setMetadata m => .ok (install m)
  | removeTorrent => .ok detach
  | pause => .ok beginPause
  | recordPieceFinished piece => .ok (finish piece)
  | pieceDeadlines => .ok (.query Torrent.pieceDeadlines)
  | trackers => .ok (.query Torrent.trackers)
  | filePriorities => .ok (.query Torrent.priorities)
  | peerEndgame => .ok (.query Torrent.endgame)
  | isPaused => .ok (.query Torrent.paused)

end SessionCall

end TorrentHandle
