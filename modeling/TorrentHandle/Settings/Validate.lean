import TorrentHandle.Settings.Basic
import TorrentHandle.Text.Blank
import TorrentHandle.Text.Decimal

/-!
Rules for the settings of an engine. The first rule that is broken, in the order of the document,
is the one that is reported.
-/

namespace TorrentHandle

open TorrentHandle.Text

def maxRateLimit : Nat := 0x7fffffff

/-- How the address of a tracker begins. -/
def trackerSchemes : List String := ["http://", "https://", "udp://"]

/-- Eight ASCII characters, the first and the last a dash. -/
def isFingerprint (s : String) : Bool :=
  let cs := s.toList
  cs.length == 8 && cs.all (·.toNat < 128) && cs.head? == some '-' && cs.getLast? == some '-'

def hasTrackerScheme (url : String) : Bool :=
  trackerSchemes.any fun scheme => scheme.toList.isPrefixOf url.toList

namespace EngineSettings

def checkFingerprint (s : EngineSettings) : Except ConfigError Unit :=
  if isFingerprint s.peerFingerprint then .ok ()
  else .error (.invalidField "engine" "peer_fingerprint" (some s.peerFingerprint)
    "must be 8 ASCII characters wrapped in '-'")

def checkUserAgent (s : EngineSettings) : Except ConfigError Unit :=
  if isBlankText s.userAgent then
    .error (.invalidField "engine" "user_agent" none "must not be empty")
  else .ok ()

def checkRateLimit (field : String) (limit : UInt64) : Except ConfigError Unit :=
  if limit.toNat ≤ maxRateLimit then .ok ()
  else .error (.invalidField "engine" field (some (Decimal.render limit.toNat))
    "exceeds maximum rate limit")

def checkTrackers (s : EngineSettings) : Except ConfigError Unit :=
  match s.defaultTrackers.find? (!hasTrackerScheme ·) with
  | none => .ok ()
  | some url => .error (.invalidField "engine" "default_trackers" (some url)
    "unsupported tracker scheme")

def checkLevel (s : EngineSettings) : Except ConfigError Unit :=
  if isBlankText s.logging.level then
    .error (.invalidField "logging" "level" none "must not be empty")
  else .ok ()

/-- The first rule that the settings break. -/
def validate (s : EngineSettings) : Except ConfigError Unit := do
  s.checkFingerprint
  s.checkUserAgent
  checkRateLimit "download_rate_limit_bytes" s.downloadRateLimit
  checkRateLimit "upload_rate_limit_bytes" s.uploadRateLimit
  s.checkTrackers
  s.checkLevel

end EngineSettings

end TorrentHandle
