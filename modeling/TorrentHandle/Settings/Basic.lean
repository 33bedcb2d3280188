import TorrentHandle.Json.Fault

/-!
The settings document of an engine, with its defaults, and what can be wrong with one.
-/

namespace TorrentHandle

/-- How log lines are to be written. -/
inductive LogFormatSetting where
  /-- As suits the build. -/
  | auto
  | json
  | pretty
  deriving DecidableEq, Repr

def LogFormatSetting.all : List LogFormatSetting := [.auto, .json, .pretty]

def LogFormatSetting.name : LogFormatSetting → String
  | .auto => "auto"
  | .json => "json"
  | .pretty => "pretty"

def LogFormatSetting.ofName? (s : String) : Option LogFormatSetting := all.find? (·.name == s)

/-- The logging part of the settings. -/
structure LoggingSettings where
  /-- Filter directives. -/
  level : String := "info"
  format : LogFormatSetting := .auto
  deriving DecidableEq

/-- Settings of one engine. Limits are in bytes per second; zero is no limit. -/
structure EngineSettings where
  /-- Begins the peer id. -/
  peerFingerprint : String := "-AL4000-"
  /-- Sent to trackers. -/
  userAgent : String := "ani_libtorrent/3.0.0"
  /-- Sent in the extension handshake. -/
  handshakeClientVersion : Option String := some "3.0.0"
  downloadRateLimit : UInt64 := 0
  uploadRateLimit : UInt64 := 0
  /-- Hundred for as much up as down. -/
  shareRatioLimit : UInt32 := 200
  /-- Trackers of every torrent that is added. -/
  defaultTrackers : List String := []
  /-- Failures in a row that those trackers may have. -/
  defaultTrackerFailLimit : UInt8 := 0
  logging : LoggingSettings := {}
  deriving DecidableEq

/-- A limit as it is meant: none for zero. -/
def meantLimit (limit : UInt64) : Option UInt64 := if limit = 0 then none else some limit

/-- Why a file gave no text. -/
inductive FileFault where
  | notFound
  | isDirectory
  /-- The bytes are not UTF-8. -/
  | invalidData
  deriving DecidableEq, Repr

/-- Why settings were not loaded. -/
inductive ConfigError where
  /-- A field has a value that is not allowed. -/
  | invalidField (part field : String) (value : Option String) (reason : String)
  /-- A value from outside that replaces a field is not allowed. -/
  | invalidOverride (name value : String)
  /-- There is no text at the path. -/
  | unreadable {path : String} (fault : FileFault)
  /-- The text at the path is no document of settings. -/
  | unparsable {path : String} (fault : Json.Fault)
  deriving DecidableEq, Repr

/-- The message of the error; details are in its fields. -/
def ConfigError.message : ConfigError → String
  | .invalidField .. => "invalid configuration field"
  | .invalidOverride .. => "invalid environment override"
  | .unreadable _ => "failed to read configuration file"
  | .unparsable _ => "failed to parse configuration file"

end TorrentHandle
