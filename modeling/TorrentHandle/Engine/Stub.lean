import TorrentHandle.Engine.Basic

/-!
A stub in front of an engine, for trying out failures. It passes every call on unless a failure is
set, and it can answer another number than the engine's for a successful reload.
-/

namespace TorrentHandle

/-- What a stub does instead of the engine. -/
structure Stub where
  /-- Answer of every call but the one whether the handle is valid. -/
  failure : Option NativeError := none
  /-- Answer of a reload that succeeds. -/
  reloadCode : Option Int32 := none
  deriving DecidableEq

namespace Stub

/-- Does something with the engine unless a failure is set. -/
def guard {α : Type} (s : Stub) (e : Engine) (f : Engine → Except NativeError α × Engine) :
    Except NativeError α × Engine :=
  match s.failure with
  | some err => (.error err, e)
  | none => f e

/-- The answer to a call that has succeeded. -/
def substitute (s : Stub) : (c : Call) → c.Reply → c.Reply
  | .reloadFile, n => s.reloadCode.getD n
  | _, r => r

def call (s : Stub) (e : Engine) (a : Address) (c : Call) : Except NativeError c.Reply × Engine :=
  if c = .isValid then e.call a c
  else
    let (result, e) := s.guard e (·.call a c)
    (result.map (s.substitute c), e)

end Stub

end TorrentHandle
