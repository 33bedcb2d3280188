import TorrentHandle.Text.Percent
import TorrentHandle.Torrent.Tracker

/-!
Magnet links: the info hash of a torrent, its name and its trackers, in one line of text.
-/

namespace TorrentHandle

open TorrentHandle.Text

/-- A link to a torrent. -/
structure MagnetLink where
  infoHash : InfoHash
  name : Option String := none
  /-- Addresses in the order they are to be tried. -/
  trackers : List String := []
  deriving DecidableEq

namespace MagnetLink

/-- The link with a name; an empty name is none. -/
def withName (link : MagnetLink) (name : String) : MagnetLink :=
  { link with name := if name.isEmpty then none else some name }

/-- The link with these trackers in place of its own, by tier and in a tier as given. -/
def withTrackers (link : MagnetLink) (trackers : List Tracker) : MagnetLink :=
  { link with trackers := (trackers.mergeSort fun a b => a.tier ≤ b.tier).map (·.url) }

def parameter (key value : String) : List Char := '&' :: key.toList ++ '=' :: Percent.encode value

def chars (link : MagnetLink) : List Char :=
  "magnet:?xt=urn:btih:".toList ++ link.infoHash.toHex.toList ++
    (match link.name with
      | some name => parameter "dn" name
      | none => []) ++
    link.trackers.flatMap (parameter "tr")

def render (link : MagnetLink) : String := String.ofList link.chars

end MagnetLink

end TorrentHandle
