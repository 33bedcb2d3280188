import TorrentHandle.Text.Hex

/-!
Info hashes: twenty bytes that identify a torrent, written as forty hexadecimal digits.
-/

namespace TorrentHandle

open TorrentHandle.Text

/-- The hash that identifies a torrent. -/
structure InfoHash where
  bytes : Vector UInt8 20
  deriving DecidableEq

/-- A text that is no info hash. -/
structure InfoHashError where
  input : String
  deriving DecidableEq

def InfoHashError.message : String := "invalid info hash"

namespace InfoHash

/-- The hash of a list of twenty bytes. -/
def ofBytes? (bytes : List UInt8) : Option InfoHash :=
  if h : bytes.length = 20 then some ⟨⟨bytes.toArray, h⟩⟩ else none

/-- Forty digits in lower case. -/
def toHex (hash : InfoHash) : String := String.ofList (Hex.encode hash.bytes.toList)

/-- Reads forty digits of either case. -/
def ofHex? (s : String) : Option InfoHash := (Hex.decode? s.toList).bind ofBytes?

/-- Reads forty digits, with an error that keeps the text. -/
def parse (s : String) : Except InfoHashError InfoHash :=
  match ofHex? s with
  | some hash => .ok hash
  | none => .error ⟨s⟩

/-- The order of two byte lists, the first difference deciding. -/
def compareBytes : List UInt8 → List UInt8 → Ordering
  | [], [] => .eq
  | [], _ :: _ => .lt
  | _ :: _, [] => .gt
  | a :: as, b :: bs => (compare a.toNat b.toNat).then (compareBytes as bs)

/-- Hashes are ordered as their bytes. -/
def order (a b : InfoHash) : Ordering := compareBytes a.bytes.toList b.bytes.toList

/-- Text that names the type and the digits. -/
def debugText (hash : InfoHash) : String := "InfoHash(" ++ hash.toHex ++ ")"

end InfoHash

end TorrentHandle
