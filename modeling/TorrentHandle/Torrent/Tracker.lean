import TorrentHandle.Torrent.Metadata

/-!
Trackers of a torrent, deadlines of its pieces, and what is given when a torrent is added.
-/

namespace TorrentHandle

structure Tracker where
  url : String
  /-- Lower tiers are asked first. -/
  tier : UInt8
  /-- Failures in a row before it is skipped; zero for no limit. -/
  failLimit : UInt8
  deriving DecidableEq

/-- Adds a tracker at the end unless its address is there. -/
def addTracker (trackers : List Tracker) (t : Tracker) : List Tracker :=
  if trackers.any (·.url == t.url) then trackers else trackers ++ [t]

/-- When a piece is to be there, in milliseconds from now. -/
structure PieceDeadline where
  piece : UInt32
  milliseconds : UInt32
  deriving DecidableEq

/-- What is given when a torrent is added. -/
structure TorrentParams where
  infoHash : InfoHash
  /-- Name until the metadata is known. -/
  name : Option String := none
  metadata : Option Metadata := none
  trackers : List Tracker := []
  paused : Bool := false
  deriving DecidableEq

/-- A torrent whose metadata is at hand. -/
def TorrentParams.ofMetadata (m : Metadata) : TorrentParams :=
  { infoHash := m.infoHash, name := some m.name, metadata := some m }

/-- With one more tracker, without a limit of failures. -/
def TorrentParams.withTracker (p : TorrentParams) (url : String) (tier : UInt8) : TorrentParams :=
  { p with trackers := p.trackers ++ [⟨url, tier, 0⟩] }

end TorrentHandle
