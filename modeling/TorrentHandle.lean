import TorrentHandle.Event.Forms
import TorrentHandle.Logging.Setup
import TorrentHandle.Settings.Load
import TorrentHandle.Streaming.Sink
import TorrentHandle.Proofs.Arena.History
import TorrentHandle.Proofs.Engine.Run
import TorrentHandle.Proofs.Engine.Stale
import TorrentHandle.Proofs.Torrent.Coherence
import TorrentHandle.Proofs.Torrent.Geometry
import TorrentHandle.Proofs.Torrent.Pieces
import TorrentHandle.Proofs.Torrent.Safety
import TorrentHandle.Proofs.Engine.Torrents
import TorrentHandle.Proofs.Engine.Layout
import TorrentHandle.Proofs.Engine.Hosts
import TorrentHandle.Proofs.Ownership.Owners
import TorrentHandle.Proofs.Torrent.Progress
import TorrentHandle.Proofs.Torrent.State
import TorrentHandle.Proofs.Engine.Progress
import TorrentHandle.Proofs.Engine.Deadlines
import TorrentHandle.Proofs.Streaming.Plan
import TorrentHandle.Proofs.Streaming.Playback
import TorrentHandle.Proofs.Streaming.Selection
import TorrentHandle.Proofs.Streaming.Edges
import TorrentHandle.Proofs.Streaming.Refill
import TorrentHandle.Proofs.Streaming.Recovery
import TorrentHandle.Proofs.Engine.Refusals
import TorrentHandle.Proofs.Engine.Separation
import TorrentHandle.Proofs.Engine.Views
import TorrentHandle.Proofs.Engine.Arrival
import TorrentHandle.Proofs.Engine.Calls
import TorrentHandle.Proofs.Engine.Issuing
import TorrentHandle.Proofs.Ownership.Traces
import TorrentHandle.Proofs.Ownership.Destruction
import TorrentHandle.Proofs.Ownership.Inert
import TorrentHandle.Proofs.Ownership.Deadlines
import TorrentHandle.Proofs.Event.Log
import TorrentHandle.Proofs.Event.Run
import TorrentHandle.Proofs.Event.Delivery
import TorrentHandle.Proofs.Event.Overflow
import TorrentHandle.Proofs.Event.Ring
import TorrentHandle.Proofs.Engine.Announcements
import TorrentHandle.Proofs.Engine.Finishing
import TorrentHandle.Proofs.Engine.Priorities
import TorrentHandle.Proofs.MagnetLink
import TorrentHandle.Proofs.Json.RoundTrip
import TorrentHandle.Proofs.Engine.Trackers
import TorrentHandle.Proofs.Engine.Links
import TorrentHandle.Proofs.Engine.Saving
import TorrentHandle.Proofs.Torrent.HashText
import TorrentHandle.Proofs.Event.Waiting
import TorrentHandle.Proofs.Settings.Load
import TorrentHandle.Proofs.Json.Objects
import TorrentHandle.Proofs.Settings.Limits
import TorrentHandle.Proofs.Arena.FreeList
import TorrentHandle.Proofs.Engine.Recording
import TorrentHandle.Proofs.Text.Ranges
import TorrentHandle.Proofs.Logging.Setup
import TorrentHandle.Proofs.Logging.FieldValue
