import TorrentHandle.Json.Forms
import TorrentHandle.Torrent.Codes
import TorrentHandle.Torrent.Tracker

/-!
JSON forms of a torrent's data. Hashes are texts of hexadecimal digits, enumerations that are
passed as numbers are numbers.
-/

namespace TorrentHandle

open TorrentHandle.Json

/-! ### Hashes and codes -/

def InfoHash.ofValue? : Value → Option InfoHash
  | .text s => InfoHash.ofHex? s
  | _ => none

instance : Form InfoHash where
  reader := Reader.accepting .text fun v => (InfoHash.ofValue? v).isSome
  toValue hash := .text hash.toHex
  ofValue? := InfoHash.ofValue?

def ReloadOutcome.ofValue? : Value → Option ReloadOutcome
  | .integer i => ofCode? (Int32.ofInt i)
  | _ => none

instance : Form ReloadOutcome where
  reader := Reader.accepting (.signed 32) fun v => (ReloadOutcome.ofValue? v).isSome
  toValue r := .integer r.code.toInt
  ofValue? := ReloadOutcome.ofValue?

instance : Form TorrentState where
  reader := .oneOf (TorrentState.all.map (·.name))
  toValue s := .text s.name
  ofValue?
    | .text s => TorrentState.ofName? s
    | _ => none

def FilePriority.ofJson? : Value → Option FilePriority
  | .integer i => ofValue? (UInt8.ofNat i.toNat)
  | _ => none

instance : Form FilePriority where
  reader := Reader.accepting (.unsigned 8) fun v => (FilePriority.ofJson? v).isSome
  toValue p := .integer p.value.toNat
  ofValue? := FilePriority.ofJson?

/-! ### Records -/

instance : Form Tracker where
  reader := .record [.of String "url", .of UInt8 "tier", .of UInt8 "fail_limit"]
  toValue t := .record [
    ("url", Form.toValue t.url),
    ("tier", Form.toValue t.tier),
    ("fail_limit", Form.toValue t.failLimit)]
  ofValue?
    | .record [(_, url), (_, tier), (_, failLimit)] => do
      some {
        url := ← Form.ofValue? url
        tier := ← Form.ofValue? tier
        failLimit := ← Form.ofValue? failLimit }
    | _ => none

instance : Form PieceDeadline where
  reader := .record [.of UInt32 "piece", .of UInt32 "deadline_ms"]
  toValue d := .record [
    ("piece", Form.toValue d.piece),
    ("deadline_ms", Form.toValue d.milliseconds)]
  ofValue?
    | .record [(_, piece), (_, milliseconds)] => do
      some {
        piece := ← Form.ofValue? piece
        milliseconds := ← Form.ofValue? milliseconds }
    | _ => none

instance : Form FileEntry where
  reader := .record [.of UInt32 "index", .of String "name", .of String "path_in_torrent",
    .of UInt64 "offset", .of UInt64 "size"]
  toValue f := .record [
    ("index", Form.toValue f.index),
    ("name", Form.toValue f.name),
    ("path_in_torrent", Form.toValue f.path),
    ("offset", Form.toValue f.offset),
    ("size", Form.toValue f.size)]
  ofValue?
    | .record [(_, index), (_, name), (_, path), (_, offset), (_, size)] => do
      some {
        index := ← Form.ofValue? index
        name := ← Form.ofValue? name
        path := ← Form.ofValue? path
        offset := ← Form.ofValue? offset
        size := ← Form.ofValue? size }
    | _ => none

instance : Form Metadata where
  reader := .record [.of String "name", .of InfoHash "info_hash", .of UInt64 "total_size",
    .of UInt32 "piece_length", .of UInt32 "num_pieces", .of (List FileEntry) "files"]
  toValue m := .record [
    ("name", Form.toValue m.name),
    ("info_hash", Form.toValue m.infoHash),
    ("total_size", Form.toValue m.totalSize),
    ("piece_length", Form.toValue m.pieceLength),
    ("num_pieces", Form.toValue m.pieceCount),
    ("files", Form.toValue m.files)]
  ofValue?
    | .record [(_, name), (_, infoHash), (_, totalSize), (_, pieceLength), (_, pieceCount),
        (_, files)] => do
      some {
        name := ← Form.ofValue? name
        infoHash := ← Form.ofValue? infoHash
        totalSize := ← Form.ofValue? totalSize
        pieceLength := ← Form.ofValue? pieceLength
        pieceCount := ← Form.ofValue? pieceCount
        files := ← Form.ofValue? files }
    | _ => none

end TorrentHandle
