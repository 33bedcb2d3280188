import TorrentHandle.Json.Value
import TorrentHandle.Logging.Filter
import TorrentHandle.Settings.Basic
import TorrentHandle.Text.Quoted

/-!
Setting up the log of a process. It can be set up once. The first attempt fixes the build
identifier that is reported from then on, and the first success writes one line.
-/

namespace TorrentHandle.Logging

open TorrentHandle.Text

/-- How log lines are written. -/
inductive LineFormat where
  | json
  | pretty
  deriving DecidableEq, Repr

def LineFormat.name : LineFormat → String
  | .json => "Json"
  | .pretty => "Pretty"

/-- The format that suits the build. -/
def LineFormat.infer : LineFormat := .pretty

/-- The format that a setting asks for. -/
def LineFormat.ofSetting : LogFormatSetting → LineFormat
  | .json => .json
  | .pretty => .pretty
  | .auto => .infer

/-- What a log is to be like. -/
structure Config where
  /-- Filter directives. -/
  level : String
  format : LineFormat
  /-- Identifier of the build. -/
  buildSha : String
  deriving DecidableEq

def Config.ofSettings (s : LoggingSettings) (buildSha : String) : Config :=
  { level := s.level, format := .ofSetting s.format, buildSha }

/-- A line of the log, without its time. -/
inductive Line where
  | json (v : Json.Value)
  | pretty (s : String)

/-- The log of a process. -/
structure State where
  /-- Build identifier of the first attempt. -/
  recorded : Option String := none
  installed : Bool := false
  deriving DecidableEq

namespace State

/-- Where the log line comes from. -/
def target : String := "anitorrent_telemetry"

def lineFields : List String := ["message", "build_sha", "format"]

def lineMessage : String := "logging initialised"

/-- Why a log is not set up twice. -/
def installError : String :=
  "failed to install tracing subscriber: a global default trace dispatcher has already been set"

def buildSha (s : State) : String := s.recorded.getD "dev"

def defaultConfig (s : State) : Config :=
  { level := "info", format := .infer, buildSha := s.buildSha }

/-- The filter: that of the process if it has one without mistakes, else that of the
configuration. -/
def filter (environment : Option String) (level : String) : Filter :=
  match environment.bind Filter.ofText? with
  | some f => f
  | none => .ofTextLossy level

/-- The line that tells of the set-up. -/
def line (format : LineFormat) (buildSha : String) : Line :=
  match format with
  | .json => .json (.record [
      ("fields", .record [
        ("build_sha", .text buildSha),
        ("format", .text format.name),
        ("message", .text lineMessage)]),
      ("level", .text "INFO")])
  | .pretty => .pretty (" INFO " ++ lineMessage ++ " build_sha=" ++ Quoted.encode buildSha ++
      " format=" ++ format.name)

/-- Sets the log up. Answers whether that was done, and the lines that were written. -/
def init (s : State) (environment : Option String) (config : Config) :
    Except String Unit × List Line × State :=
  let s := { s with recorded := some (s.recorded.getD config.buildSha) }
  if s.installed then (.error installError, [], s)
  else
    let passes := (filter environment config.level).enables .info target.toList
      (lineFields.map String.toList)
    (.ok (), if passes then [line config.format s.buildSha] else [],
      { s with installed := true })

end State

end TorrentHandle.Logging
