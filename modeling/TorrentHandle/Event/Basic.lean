/-!
Notifications of an engine. Each names its handle by the identifier that its caller gave it.
-/

namespace TorrentHandle

/-- What happened to a torrent. -/
inductive Event where
  | statusUpdated (handle : Int64) (state : Int32) (paused : Bool)
      (bytesDownloaded bytesTotal : UInt64)
  | resumeDataSaved (handle : Int64) (payload : String)
  | fileProgress (handle : Int64) (bytesPerFile : List UInt64)
  | stateChanged (handle : Int64) (state : Int32) (paused : Bool)
  | metadataReceived (handle : Int64) (name : String)
  | torrentRemoved (handle : Int64)
  deriving DecidableEq

namespace Event

def kind : Event → String
  | statusUpdated .. => "status_updated"
  | resumeDataSaved .. => "resume_data_saved"
  | fileProgress .. => "file_progress"
  | stateChanged .. => "state_changed"
  | metadataReceived .. => "metadata_received"
  | torrentRemoved .. => "torrent_removed"

def handle : Event → Int64
  | statusUpdated h .. | resumeDataSaved h _ | fileProgress h _ | stateChanged h .. |
    metadataReceived h _ | torrentRemoved h => h

end Event

end TorrentHandle
