import TorrentHandle.MagnetLink
import TorrentHandle.Torrent.Forms
import TorrentHandle.Torrent.PieceMap

/-!
A torrent of an engine: what was given when it was added, the metadata once it is known, and the
progress of the download. The state code is never set by itself; it is derived from the metadata,
the wanted files and the finished pieces whenever one of these changes.
-/

namespace TorrentHandle

/-- A torrent that is attached to a handle. -/
structure Torrent where
  infoHash : InfoHash
  name : Option String
  metadata : Option Metadata := none
  paused : Bool
  state : TorrentState := .downloadingMetadata
  endgame : Bool := false
  trackers : List Tracker := []
  /-- Milliseconds by piece. -/
  deadlines : PieceMap UInt32 := ∅
  /-- One per file of the metadata. -/
  priorities : List FilePriority := []
  finished : PieceSet := ∅
  deriving DecidableEq

namespace Torrent

/-! ### State -/

def priority (t : Torrent) (index : Nat) : FilePriority := t.priorities.getD index .standard

/-- Whether every piece with bytes of a file is finished. -/
def hasFile (t : Torrent) (m : Metadata) (index : Nat) : Bool :=
  match m.filePieces? index with
  | some (first, last) => t.finished.covers first (last + 1 - first)
  | none => true

/-- The state that follows from metadata, priorities and finished pieces. -/
def derivedState (t : Torrent) : TorrentState :=
  match t.metadata with
  | none => .downloadingMetadata
  | some m =>
    if t.finished.size = m.pieceCount.toNat then .seeding
    else if m.files.all fun f =>
      !(t.priority f.index.toNat).isWanted || t.hasFile m f.index.toNat
    then .finished
    else .downloading

/-- The torrent with its state derived anew. -/
def refresh (t : Torrent) : Torrent := { t with state := t.derivedState }

/-! ### Adding -/

/-- Installs metadata whose parts fit together. -/
def setMetadata (t : Torrent) (m : Metadata) : Except NativeError Torrent :=
  if m.isConsistent then
    .ok <| refresh { t with
      infoHash := m.infoHash
      name := some (t.name.getD m.name)
      metadata := some m
      priorities := m.files.map fun _ => .standard
      finished := t.finished.filter (· < m.pieceCount.toNat) }
  else .error (.invalidInput "metadata" "file table does not match piece geometry")

/-- With one more tracker unless its address is there. -/
def withTracker (t : Torrent) (tracker : Tracker) : Torrent :=
  { t with trackers := addTracker t.trackers tracker }

/-- A torrent as it is when it has just been added. -/
def ofParams (p : TorrentParams) : Except NativeError Torrent :=
  let t := p.trackers.foldl withTracker
    { infoHash := p.infoHash, name := p.name, paused := p.paused }
  match p.metadata with
  | some m => t.setMetadata m
  | none => .ok t

/-! ### Pieces and files -/

/-- The metadata, which must be there. -/
def requireMetadata (t : Torrent) : Except NativeError Metadata :=
  match t.metadata with
  | some m => .ok m
  | none => .error .missingMetadata

/-- The piece must be one of the torrent's. -/
def checkPiece (t : Torrent) (piece : UInt32) : Except NativeError Unit := do
  let m ← t.requireMetadata
  if piece < m.pieceCount then .ok ()
  else .error (.outOfRange "piece" piece.toNat m.pieceCount.toNat)

/-- A piece has been downloaded; its deadline is met. -/
def finishPiece (t : Torrent) (piece : UInt32) : Except NativeError Torrent := do
  t.checkPiece piece
  return refresh { t with
    finished := t.finished.insert piece.toNat
    deadlines := t.deadlines.erase piece.toNat }

/-- Asks for a piece by a deadline. A finished piece needs none. -/
def setDeadline (t : Torrent) (piece milliseconds : UInt32) : Except NativeError Torrent := do
  t.checkPiece piece
  if t.finished.contains piece.toNat then return t
  else return { t with deadlines := t.deadlines.insert piece.toNat milliseconds }

def resetDeadline (t : Torrent) (piece : UInt32) : Torrent :=
  { t with deadlines := t.deadlines.erase piece.toNat }

def setPriority (t : Torrent) (index : UInt32) (p : FilePriority) :
    Except NativeError Torrent := do
  let _ ← t.requireMetadata
  if index.toNat < t.priorities.length then
    return refresh { t with priorities := t.priorities.set index.toNat p }
  else .error (.outOfRange "file_index" index.toNat t.priorities.length)

def ignoreFiles (t : Torrent) : Except NativeError Torrent := do
  let _ ← t.requireMetadata
  return refresh { t with priorities := t.priorities.map fun _ => .dontDownload }

/-! ### Reports -/

/-- The deadlines in the order of the pieces. -/
def pieceDeadlines (t : Torrent) : List PieceDeadline :=
  t.deadlines.toList.map fun (piece, milliseconds) => ⟨UInt32.ofNat piece, milliseconds⟩

def bytesDownloaded (t : Torrent) : Nat :=
  match t.metadata with
  | none => 0
  | some m => (t.finished.toList.filterMap m.pieceSize?).foldr (· + ·) 0

def bytesTotal (t : Torrent) : Nat :=
  match t.metadata with
  | none => 0
  | some m => m.totalSize.toNat

/-- Bytes of a file in one piece. -/
def overlap (m : Metadata) (f : FileEntry) (piece : Nat) : Nat :=
  let start := min (piece * m.pieceLength.toNat) maxSize
  let stop := min (start + (m.pieceSize? piece).getD 0) maxSize
  let fileStop := min (f.offset.toNat + f.size.toNat) maxSize
  min stop fileStop - max start f.offset.toNat

/-- Bytes of each file in the finished pieces. -/
def fileProgress (t : Torrent) : List Nat :=
  match t.metadata with
  | none => []
  | some m => m.files.map fun f => (t.finished.toList.map (overlap m f)).foldr (· + ·) 0

/-- The name that the torrent goes by; empty without one. -/
def displayName (t : Torrent) : String :=
  match t.metadata with
  | some m => m.name
  | none => t.name.getD ""

def magnetLink (t : Torrent) : MagnetLink :=
  (MagnetLink.withName { infoHash := t.infoHash } t.displayName).withTrackers t.trackers

/-- The members of a tracker in the order of their names. -/
def trackerResume (t : Tracker) : Json.Value :=
  .record [
    ("fail_limit", Json.Form.toValue t.failLimit),
    ("tier", Json.Form.toValue t.tier),
    ("url", Json.Form.toValue t.url)]

/-- The members of a deadline in the order of their names. -/
def deadlineResume (d : PieceDeadline) : Json.Value :=
  .record [
    ("deadline_ms", Json.Form.toValue d.milliseconds),
    ("piece", Json.Form.toValue d.piece)]

/-- What is saved of the torrent, with all members in the order of their names. -/
def resumeValue (t : Torrent) : Json.Value :=
  .record [
    ("endgame", Json.Form.toValue t.endgame),
    ("file_priorities", Json.Form.toValue t.priorities),
    ("finished_pieces", .list (t.finished.toList.map fun (piece : Nat) => .integer piece)),
    ("info_hash", Json.Form.toValue t.infoHash),
    ("name", Json.Form.toValue t.name),
    ("paused", Json.Form.toValue t.paused),
    ("piece_deadlines", .list (t.pieceDeadlines.map deadlineResume)),
    ("trackers", .list (t.trackers.map trackerResume))]

def resumePayload (t : Torrent) : String := t.resumeValue.render

end Torrent

end TorrentHandle
