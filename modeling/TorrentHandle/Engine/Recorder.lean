import TorrentHandle.Engine.Basic

/-!
A recorder in front of an engine. It passes every call on and writes it down first: the operation,
the address, and whether the object there had been destroyed through this recorder before. A handle
that could not be made leaves no entry, since it has no address.
-/

namespace TorrentHandle

/-- One call that was passed on. -/
structure RecordedCall where
  operation : String
  address : Address
  /-- Whether the address had been given to `destroy_handle` before. -/
  afterDestroy : Bool
  deriving DecidableEq

/-- The calls so far, in order, and the addresses given to `destroy_handle`. -/
structure Journal where
  calls : Array RecordedCall := #[]
  destroyed : List Address := []
  deriving DecidableEq

namespace Journal

/-- Writes a call down. -/
def record (j : Journal) (operation : String) (a : Address) : Journal :=
  { j with calls := j.calls.push ⟨operation, a, j.destroyed.contains a⟩ }

def count (j : Journal) (operation : String) : Nat :=
  j.calls.toList.countP (·.operation == operation)

/-- The calls to objects that had been destroyed. -/
def late (j : Journal) : List RecordedCall := j.calls.toList.filter (·.afterDestroy)

def newHandle (j : Journal) (e : Engine) : Except NativeError Address × Journal × Engine :=
  match e.newHandle with
  | (.ok a, e) => (.ok a, j.record "new_handle" a, e)
  | (.error err, e) => (.error err, j, e)

def destroyHandle (j : Journal) (e : Engine) (a : Address) :
    Except NativeError Unit × Journal × Engine :=
  let j := j.record "destroy_handle" a
  let (result, e) := e.destroyHandle a
  (result, { j with destroyed := a :: j.destroyed }, e)

def call (j : Journal) (e : Engine) (a : Address) (c : Call) :
    Except NativeError c.Reply × Journal × Engine :=
  let j := j.record c.operation a
  let (result, e) := e.call a c
  (result, j, e)

end Journal

end TorrentHandle
