import TorrentHandle.Streaming.Runs
import TorrentHandle.Torrent.Metadata
import TorrentHandle.Torrent.PieceMap

/-!
Which pieces to download while a torrent is played. Playback needs the pieces after the playhead
first: the window is the first `windowSize` unfinished pieces from there on, so it moves on as
pieces finish. Until the first seek a player also reads the header and the footer of the payload,
which are requested too; beyond the footer a range is named that may hold the index of the
container.
-/

namespace TorrentHandle

/-- How much to request ahead; sizes are in bytes. -/
structure StreamingWindow where
  /-- Unfinished pieces after the playhead. -/
  windowSize : UInt32
  headerSize : UInt64
  footerSize : UInt64
  /-- What may hold the index of the container, at the end. -/
  possibleFooterSize : UInt64
  deriving DecidableEq

/-- Pieces to download, in ascending order. -/
structure PiecePlan where
  pieces : List Nat
  /-- First and last piece that may hold the index of the container. -/
  possibleFooter : Option (Nat × Nat)
  deriving DecidableEq

/-- Progress of a playback. -/
structure Controller where
  pieceCount : Nat
  /-- The pieces that are not finished. -/
  unfinished : Runs
  headerPieces : Nat
  footerPieces : Nat
  possibleFooterPieces : Nat
  windowSize : Nat
  playhead : Nat := 0
  /-- Whether header and footer are requested. -/
  edges : Bool := true
  /-- Whether plans are applied. -/
  active : Bool := false

/-- What happens during a playback. -/
inductive Progress where
  /-- The torrent is downloaded from now on. -/
  | resumed
  /-- A piece has been downloaded. -/
  | downloaded (piece : UInt32)
  /-- Playback goes on at another piece. -/
  | seek (piece : UInt32)
  deriving DecidableEq

namespace Controller

/-- Pieces that hold a number of bytes, at most all. -/
def piecesFor (m : Metadata) (bytes : UInt64) : Nat :=
  if m.pieceLength = 0 then 0
  else min ((bytes.toNat + m.pieceLength.toNat - 1) / m.pieceLength.toNat) m.pieceCount.toNat

/-- A playback from the start, with no piece finished. -/
def ofMetadata (m : Metadata) (window : StreamingWindow) : Controller :=
  { pieceCount := m.pieceCount.toNat
    unfinished := .below m.pieceCount.toNat
    headerPieces := piecesFor m window.headerSize
    footerPieces := piecesFor m window.footerSize
    possibleFooterPieces := piecesFor m window.possibleFooterSize
    windowSize := window.windowSize.toNat }

/-- The pieces after the playhead. -/
def window (c : Controller) : List Nat :=
  c.unfinished.takeBetween c.playhead c.pieceCount c.windowSize

def header (c : Controller) : List Nat :=
  c.unfinished.takeBetween 0 c.headerPieces c.headerPieces

def footer (c : Controller) : List Nat :=
  c.unfinished.takeBetween (c.pieceCount - c.footerPieces) c.pieceCount c.footerPieces

/-- What is to be downloaded now. -/
def plan (c : Controller) : PiecePlan :=
  if c.edges then
    { pieces := (PieceSet.ofList (c.window ++ c.header ++ c.footer)).toList
      possibleFooter :=
        if 0 < c.possibleFooterPieces then
          some (c.pieceCount - c.possibleFooterPieces, c.pieceCount - 1)
        else none }
  else { pieces := c.window, possibleFooter := none }

/-- The playback after something has happened. -/
def advance (c : Controller) : Progress → Controller
  | .resumed => { c with active := true }
  | .downloaded piece => { c with unfinished := c.unfinished.erase piece.toNat }
  | .seek piece => { c with playhead := piece.toNat, edges := false, active := true }

/-- Whether the plan is applied after something has happened. A piece that the torrent does not have
changes nothing. -/
def applies (c : Controller) : Progress → Bool
  | .resumed | .seek _ => true
  | .downloaded piece => c.active && piece.toNat < c.pieceCount

end Controller

end TorrentHandle
