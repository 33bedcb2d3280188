import TorrentHandle.Event.Basic
import TorrentHandle.Event.Instant
import TorrentHandle.Json.Forms

/-!
JSON forms of events. The member `type` names the kind of an event and says which members it has.
-/

namespace TorrentHandle

open TorrentHandle.Json

/-- The members of each kind of event. -/
def Event.variants : List (String × List Reader.Field) := [
  ("status_updated", [.of Int64 "handle_id", .of Int32 "state", .of Bool "paused",
    .of UInt64 "bytes_downloaded", .of UInt64 "bytes_total"]),
  ("resume_data_saved", [.of Int64 "handle_id", .of String "payload"]),
  ("file_progress", [.of Int64 "handle_id", .of (List UInt64) "bytes_per_file"]),
  ("state_changed", [.of Int64 "handle_id", .of Int32 "state", .of Bool "paused"]),
  ("metadata_received", [.of Int64 "handle_id", .of String "name"]),
  ("torrent_removed", [.of Int64 "handle_id"])]

/-- The members of an event after its type. -/
def Event.members : Event → List (String × Value)
  | .statusUpdated handle state paused bytesDownloaded bytesTotal => [
    ("handle_id", Form.toValue handle), ("state", Form.toValue state),
    ("paused", Form.toValue paused), ("bytes_downloaded", Form.toValue bytesDownloaded),
    ("bytes_total", Form.toValue bytesTotal)]
  | .resumeDataSaved handle payload => [
    ("handle_id", Form.toValue handle), ("payload", Form.toValue payload)]
  | .fileProgress handle bytesPerFile => [
    ("handle_id", Form.toValue handle), ("bytes_per_file", Form.toValue bytesPerFile)]
  | .stateChanged handle state paused => [
    ("handle_id", Form.toValue handle), ("state", Form.toValue state),
    ("paused", Form.toValue paused)]
  | .metadataReceived handle name => [
    ("handle_id", Form.toValue handle), ("name", Form.toValue name)]
  | .torrentRemoved handle => [("handle_id", Form.toValue handle)]

/-- The event of a kind with given members. -/
def Event.ofMembers? (kind : String) (values : List Value) : Option Event :=
  match kind, values with
  | "status_updated", [handle, state, paused, bytesDownloaded, bytesTotal] => do
    some (.statusUpdated (← Form.ofValue? handle) (← Form.ofValue? state) (← Form.ofValue? paused)
      (← Form.ofValue? bytesDownloaded) (← Form.ofValue? bytesTotal))
  | "resume_data_saved", [handle, payload] => do
    some (.resumeDataSaved (← Form.ofValue? handle) (← Form.ofValue? payload))
  | "file_progress", [handle, bytesPerFile] => do
    some (.fileProgress (← Form.ofValue? handle) (← Form.ofValue? bytesPerFile))
  | "state_changed", [handle, state, paused] => do
    some (.stateChanged (← Form.ofValue? handle) (← Form.ofValue? state) (← Form.ofValue? paused))
  | "metadata_received", [handle, name] => do
    some (.metadataReceived (← Form.ofValue? handle) (← Form.ofValue? name))
  | "torrent_removed", [handle] => do
    some (.torrentRemoved (← Form.ofValue? handle))
  | _, _ => none

instance : Form Event where
  reader := .tagged "type" Event.variants
  toValue e := .record (("type", .text e.kind) :: e.members)
  ofValue?
    | .record ((_, .text kind) :: members) => Event.ofMembers? kind (members.map (·.2))
    | _ => none

def Instant.ofValue? : Value → Option Instant
  | .text s => Instant.ofText? s
  | _ => none

instance : Form Instant where
  reader := Reader.accepting .text fun v => (Instant.ofValue? v).isSome
  toValue t := .text t.render
  ofValue? := Instant.ofValue?

/-- An event with its number and its time. -/
structure Envelope where
  id : UInt64
  timestamp : Instant
  event : Event
  deriving DecidableEq

instance : Form Envelope where
  reader := .record [.of UInt64 "id", .of Instant "timestamp", .of Event "event"]
  toValue e := .record [
    ("id", Form.toValue e.id),
    ("timestamp", Form.toValue e.timestamp),
    ("event", Form.toValue e.event)]
  ofValue?
    | .record [(_, id), (_, timestamp), (_, event)] => do
      some {
        id := ← Form.ofValue? id
        timestamp := ← Form.ofValue? timestamp
        event := ← Form.ofValue? event }
    | _ => none

end TorrentHandle
