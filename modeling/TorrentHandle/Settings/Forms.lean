import TorrentHandle.Json.Forms
import TorrentHandle.Settings.Basic

/-!
JSON forms of the settings. Every member may be missing and has its default then.
-/

namespace TorrentHandle

open TorrentHandle.Json

instance : Form LogFormatSetting where
  reader := .oneOf (LogFormatSetting.all.map (·.name))
  toValue f := .text f.name
  ofValue?
    | .text s => LogFormatSetting.ofName? s
    | _ => none

/-- A field of a document with a default. -/
def Json.Reader.Field.withDefault {α : Type} [Form α] (name : String) (a : α) : Reader.Field :=
  { name, reader := Form.reader α, fallback := some (Form.toValue a) }

instance : Form LoggingSettings where
  reader :=
    let defaults : LoggingSettings := {}
    .record [.withDefault "level" defaults.level, .withDefault "format" defaults.format]
  toValue s := .record [
    ("level", Form.toValue s.level),
    ("format", Form.toValue s.format)]
  ofValue?
    | .record [(_, level), (_, format)] => do
      some {
        level := ← Form.ofValue? level
        format := ← Form.ofValue? format }
    | _ => none

instance : Form EngineSettings where
  reader :=
    let defaults : EngineSettings := {}
    .record [
      .withDefault "peer_fingerprint" defaults.peerFingerprint,
      .withDefault "user_agent" defaults.userAgent,
      .withDefault "handshake_client_version" defaults.handshakeClientVersion,
      .withDefault "download_rate_limit_bytes" defaults.downloadRateLimit,
      .withDefault "upload_rate_limit_bytes" defaults.uploadRateLimit,
      .withDefault "share_ratio_limit" defaults.shareRatioLimit,
      .withDefault "default_trackers" defaults.defaultTrackers,
      .withDefault "default_tracker_fail_limit" defaults.defaultTrackerFailLimit,
      .withDefault "logging" defaults.logging]
  toValue s := .record [
    ("peer_fingerprint", Form.toValue s.peerFingerprint),
    ("user_agent", Form.toValue s.userAgent),
    ("handshake_client_version", Form.toValue s.handshakeClientVersion),
    ("download_rate_limit_bytes", Form.toValue s.downloadRateLimit),
    ("upload_rate_limit_bytes", Form.toValue s.uploadRateLimit),
    ("share_ratio_limit", Form.toValue s.shareRatioLimit),
    ("default_trackers", Form.toValue s.defaultTrackers),
    ("default_tracker_fail_limit", Form.toValue s.defaultTrackerFailLimit),
    ("logging", Form.toValue s.logging)]
  ofValue?
    | .record [(_, peerFingerprint), (_, userAgent), (_, handshakeClientVersion),
        (_, downloadRateLimit), (_, uploadRateLimit), (_, shareRatioLimit), (_, defaultTrackers),
        (_, defaultTrackerFailLimit), (_, logging)] => do
      some {
        peerFingerprint := ← Form.ofValue? peerFingerprint
        userAgent := ← Form.ofValue? userAgent
        handshakeClientVersion := ← Form.ofValue? handshakeClientVersion
        downloadRateLimit := ← Form.ofValue? downloadRateLimit
        uploadRateLimit := ← Form.ofValue? uploadRateLimit
        shareRatioLimit := ← Form.ofValue? shareRatioLimit
        defaultTrackers := ← Form.ofValue? defaultTrackers
        defaultTrackerFailLimit := ← Form.ofValue? defaultTrackerFailLimit
        logging := ← Form.ofValue? logging }
    | _ => none

end TorrentHandle
