import TorrentHandle.Settings.Forms
import TorrentHandle.Settings.Validate

/-!
Loading the settings of an engine: a file over the defaults, then single fields replaced from the
environment, then the rules. The first thing that goes wrong is reported.
-/

namespace TorrentHandle

open TorrentHandle.Text

/-- What is found at the path of a settings file. -/
inductive SettingsFile where
  | missing (path : String := "")
  | directory (path : String := "")
  | bytes (content : ByteArray) (path : String := "")

def levelVariable : String := "ANITORRENT_LOG_LEVEL"

def formatVariable : String := "ANITORRENT_LOG_FORMAT"

def downloadLimitVariable : String := "ANITORRENT_DOWNLOAD_RATE_LIMIT"

def uploadLimitVariable : String := "ANITORRENT_UPLOAD_RATE_LIMIT"

/-- Where the file was looked for. -/
def SettingsFile.path : SettingsFile → String
  | .missing path | .directory path | .bytes _ path => path

def SettingsFile.text : SettingsFile → Except FileFault String
  | .missing _ => .error .notFound
  | .directory _ => .error .isDirectory
  | .bytes content _ =>
    match String.fromUTF8? content with
    | some s => .ok s
    | none => .error .invalidData

namespace EngineSettings

/-- The settings of a file. Fields that it lacks have their defaults. What goes wrong is told with
the path. -/
def ofFile (file : SettingsFile) : Except ConfigError EngineSettings :=
  match file.text with
  | .error fault => .error (@ConfigError.unreadable file.path fault)
  | .ok s =>
    match Json.decode s with
    | .error fault => .error (@ConfigError.unparsable file.path fault)
    | .ok settings => .ok settings

/-- A rate limit from outside: an unsigned 64-bit integer in decimal, blanks around it allowed. -/
def limitOverride (name value : String) : Except ConfigError UInt64 :=
  match Decimal.parse? Json.maxUnsigned (trimChars value.toList) with
  | some n => .ok (UInt64.ofNat n)
  | none => .error (.invalidOverride name value)

/-- A format from outside: its name in any case, blanks around it allowed. -/
def formatOverride (name value : String) : Except ConfigError LogFormatSetting :=
  match LogFormatSetting.ofName? (String.ofList ((trimChars value.toList).map Char.toLower)) with
  | some format => .ok format
  | none => .error (.invalidOverride name value)

/-- The value from outside where there is one, the present value otherwise. -/
def override {α : Type} (lookup : String → Option String) (name : String)
    (parse : String → String → Except ConfigError α) (present : α) : Except ConfigError α :=
  match lookup name with
  | some value => parse name value
  | none => .ok present

/-- The settings with the fields replaced that the environment names. -/
def applyOverrides (s : EngineSettings) (lookup : String → Option String) :
    Except ConfigError EngineSettings := do
  let level ← override lookup levelVariable (fun _ value => .ok value) s.logging.level
  let format ← override lookup formatVariable formatOverride s.logging.format
  let download ← override lookup downloadLimitVariable limitOverride s.downloadRateLimit
  let upload ← override lookup uploadLimitVariable limitOverride s.uploadRateLimit
  return { s with
    logging := { level, format }
    downloadRateLimit := download
    uploadRateLimit := upload }

/-- The settings of a file, or the defaults without one, with the environment over them, if they
keep the rules. -/
def load (file : Option SettingsFile) (lookup : String → Option String) :
    Except ConfigError EngineSettings := do
  let settings ← match file with
    | some file => ofFile file
    | none => .ok {}
  let settings ← settings.applyOverrides lookup
  settings.validate
  return settings

end EngineSettings

end TorrentHandle
