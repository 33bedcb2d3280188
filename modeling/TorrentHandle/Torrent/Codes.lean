import TorrentHandle.Error

/-!
Enumerations that are passed as numbers: what a reload found, the state of a torrent, and the
priority of a file. A number that names no member is an error, never a guess.
-/

namespace TorrentHandle

/-! ### Reload outcomes -/

/-- What reloading the metadata into a handle found. -/
inductive ReloadOutcome where
  /-- The metadata is in the handle now. -/
  | success
  /-- The handle has no torrent. -/
  | nullHandle
  /-- The torrent has no metadata. -/
  | nullFile
  deriving DecidableEq, Repr

namespace ReloadOutcome

def all : List ReloadOutcome := [success, nullHandle, nullFile]

def code : ReloadOutcome → Int32
  | success => 0
  | nullHandle => 1
  | nullFile => 2

def name : ReloadOutcome → String
  | success => "kReloadFileSuccess"
  | nullHandle => "kReloadFileNullHandle"
  | nullFile => "kReloadFileNullFile"

def ofCode? (n : Int32) : Option ReloadOutcome := all.find? (·.code == n)

/-- The outcome with a given number, or an error that keeps the number. -/
def ofCode (n : Int32) : Except HandleError ReloadOutcome :=
  match ofCode? n with
  | some r => .ok r
  | none => .error (.unknownDiscriminant "reload_file_result" n.toInt)

/-- An outcome as success or failure. -/
def toExcept : ReloadOutcome → Except HandleError Unit
  | success => .ok ()
  | nullHandle => .error .invalidHandleOnReload
  | nullFile => .error .invalidFileOnReload

end ReloadOutcome

/-! ### Torrent states -/

/-- What a torrent is doing. -/
inductive TorrentState where
  | checkingFiles
  | downloadingMetadata
  | downloading
  /-- All wanted pieces are there. -/
  | finished
  /-- All pieces are there. -/
  | seeding
  | checkingResumeData
  deriving DecidableEq, Repr

namespace TorrentState

def all : List TorrentState :=
  [checkingFiles, downloadingMetadata, downloading, finished, seeding, checkingResumeData]

/-- Number of a state; six stands for none. -/
def code : TorrentState → Int32
  | checkingFiles => 1
  | downloadingMetadata => 2
  | downloading => 3
  | finished => 4
  | seeding => 5
  | checkingResumeData => 7

def name : TorrentState → String
  | checkingFiles => "checking_files"
  | downloadingMetadata => "downloading_metadata"
  | downloading => "downloading"
  | finished => "finished"
  | seeding => "seeding"
  | checkingResumeData => "checking_resume_data"

def ofCode? (n : Int32) : Option TorrentState := all.find? (·.code == n)

def ofName? (s : String) : Option TorrentState := all.find? (·.name == s)

end TorrentState

/-! ### File priorities -/

/-- How much a file is wanted. -/
inductive FilePriority where
  | dontDownload
  | low
  | standard
  | top
  deriving DecidableEq, Repr

namespace FilePriority

def all : List FilePriority := [dontDownload, low, standard, top]

def value : FilePriority → UInt8
  | dontDownload => 0
  | low => 1
  | standard => 4
  | top => 7

def name : FilePriority → String
  | dontDownload => "DontDownload"
  | low => "Low"
  | standard => "Default"
  | top => "Top"

/-- Whether the file is to be downloaded at all. -/
def isWanted (p : FilePriority) : Bool := p != dontDownload

def ofValue? (n : UInt8) : Option FilePriority := all.find? (·.value == n)

/-- The priority with a given number, or an error that keeps the number. -/
def ofValue (n : UInt8) : Except HandleError FilePriority :=
  match ofValue? n with
  | some p => .ok p
  | none => .error (.unknownDiscriminant "file_priority" n.toNat)

/-- Priorities are ordered as their numbers. -/
def order (a b : FilePriority) : Ordering := compare a.value.toNat b.value.toNat

end FilePriority

end TorrentHandle
