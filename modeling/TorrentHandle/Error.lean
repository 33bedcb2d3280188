import TorrentHandle.Text.Decimal
import TorrentHandle.Text.Quoted

/-!
What can go wrong in an engine, and what a handle makes of it.
-/

namespace TorrentHandle

/-- Why an engine rejected a call. -/
inductive NativeError where
  /-- No object lives at the address. -/
  | staleAddress
  /-- The object has no torrent. -/
  | notAttached
  /-- The torrent has no metadata yet. -/
  | missingMetadata
  /-- An argument is not below its limit. -/
  | outOfRange (field : String) (value limit : Nat)
  /-- An argument is not acceptable. -/
  | invalidInput (field reason : String)
  deriving DecidableEq, Repr

/-- The message of the error; details are in its fields. -/
def NativeError.message : NativeError → String
  | .staleAddress => "stale native address"
  | .notAttached => "handle not attached to a torrent"
  | .missingMetadata => "torrent metadata unavailable"
  | .outOfRange .. => "argument out of range"
  | .invalidInput .. => "invalid argument"

/-- Text that names the cause and its details. -/
def NativeError.debugText : NativeError → String
  | .staleAddress => "StaleAddress"
  | .notAttached => "NotAttached"
  | .missingMetadata => "MissingMetadata"
  | .outOfRange field value limit =>
    "OutOfRange \x7b field: " ++ Text.Quoted.encode field ++ ", value: " ++
      Text.Decimal.render value ++ ", limit: " ++ Text.Decimal.render limit ++ " \x7d"
  | .invalidInput field reason =>
    "InvalidInput \x7b field: " ++ Text.Quoted.encode field ++ ", reason: " ++
      Text.Quoted.encode reason ++ " \x7d"

/-- The message when a torrent that must be accepted is rejected. -/
def NativeError.attachMessage (e : NativeError) : String := "attach torrent: " ++ e.debugText

/-- Why an operation on a handle failed. -/
inductive HandleError where
  /-- The handle was used for a reload without a torrent. -/
  | invalidHandleOnReload
  /-- The handle was used for a reload without metadata. -/
  | invalidFileOnReload
  /-- The handle has given up its address. -/
  | useAfterRelease (operation : String)
  /-- The handle does not own its address. -/
  | notOwner (operation : String)
  /-- A code stands for no member of its enumeration. -/
  | unknownDiscriminant (kind : String) (value : Int)
  /-- No object lives at the handle's address. -/
  | staleAddress (operation : String)
  /-- The engine rejected the call for another reason. -/
  | nativeFailure (operation : String) (source : NativeError)
  deriving DecidableEq, Repr

/-- The message of the error; details are in its fields. -/
def HandleError.message : HandleError → String
  | .invalidHandleOnReload => "reload attempted on invalid handle"
  | .invalidFileOnReload => "reload attempted on invalid file"
  | .useAfterRelease _ => "handle used after release"
  | .notOwner _ => "handle does not own its native address"
  | .unknownDiscriminant .. => "unknown enumeration discriminant"
  | .staleAddress _ => "stale native address"
  | .nativeFailure .. => "native operation failed"

def HandleError.operation? : HandleError → Option String
  | .useAfterRelease op | .notOwner op | .staleAddress op | .nativeFailure op _ => some op
  | _ => none

/-- What a handle reports when an engine rejects one of its operations. -/
def NativeError.during (operation : String) : NativeError → HandleError
  | .staleAddress => .staleAddress operation
  | e => .nativeFailure operation e

end TorrentHandle
