import TorrentHandle.Engine.Recorder
import TorrentHandle.Engine.Stub

/-!
All engines of a process, with the recorders and stubs in front of them. What a handle talks to is
an endpoint: one of these three. An endpoint that does not exist knows no address.
-/

namespace TorrentHandle

/-- What a handle talks to. -/
inductive Endpoint where
  | engine (index : Nat)
  | recorder (index : Nat)
  | stub (index : Nat)
  deriving DecidableEq

/-- The engines of a process. A recorder or stub names its engine by number. -/
structure Host where
  engines : Array Engine := #[]
  recorders : Array (Nat × Journal) := #[]
  stubs : Array (Nat × Stub) := #[]

namespace Host

/-- Adds an engine; the first has owner one. -/
def addEngine (h : Host) (settings : EngineSettings) (bus : Bus Event) : Host :=
  { h with engines := h.engines.push (.create (h.engines.size + 1) settings bus) }

/-- Adds a recorder in front of an engine. -/
def addRecorder (h : Host) (engine : Nat) : Host :=
  { h with recorders := h.recorders.push (engine, {}) }

def addStub (h : Host) (engine : Nat) : Host := { h with stubs := h.stubs.push (engine, {}) }

def modifyStub (h : Host) (stub : Nat) (f : Stub → Stub) : Host :=
  { h with stubs := h.stubs.modify stub fun (engine, s) => (engine, f s) }

def journal (h : Host) (recorder : Nat) : Journal :=
  match h.recorders[recorder]? with
  | some (_, j) => j
  | none => {}

/-- Does something with an engine. -/
def onEngine {α : Type} (h : Host) (engine : Nat) (missing : α) (f : Engine → α × Engine) :
    α × Host :=
  match h.engines[engine]? with
  | none => (missing, h)
  | some e =>
    let (a, e) := f e
    (a, { h with engines := h.engines.setIfInBounds engine e })

/-- Does something with a recorder and its engine. -/
def onRecorder {α : Type} (h : Host) (recorder : Nat) (missing : α)
    (f : Journal → Engine → α × Journal × Engine) : α × Host :=
  match h.recorders[recorder]? with
  | none => (missing, h)
  | some (engine, j) =>
    match h.engines[engine]? with
    | none => (missing, h)
    | some e =>
      let (a, j, e) := f j e
      (a, { h with
        engines := h.engines.setIfInBounds engine e
        recorders := h.recorders.setIfInBounds recorder (engine, j) })

def onStub {α : Type} (h : Host) (stub : Nat) (missing : α) (f : Stub → Engine → α × Engine) :
    α × Host :=
  match h.stubs[stub]? with
  | none => (missing, h)
  | some (engine, s) => h.onEngine engine missing (f s)

def newHandle (h : Host) : Endpoint → Except NativeError Address × Host
  | .engine i => h.onEngine i (.error .staleAddress) (·.newHandle)
  | .recorder i => h.onRecorder i (.error .staleAddress) fun j e => j.newHandle e
  | .stub i => h.onStub i (.error .staleAddress) fun s e => s.guard e (·.newHandle)

def destroyHandle (h : Host) (a : Address) : Endpoint → Except NativeError Unit × Host
  | .engine i => h.onEngine i (.error .staleAddress) (·.destroyHandle a)
  | .recorder i => h.onRecorder i (.error .staleAddress) fun j e => j.destroyHandle e a
  | .stub i => h.onStub i (.error .staleAddress) fun s e => s.guard e (·.destroyHandle a)

def call (h : Host) (a : Address) (c : Call) : Endpoint → Except NativeError c.Reply × Host
  | .engine i => h.onEngine i c.missing (·.call a c)
  | .recorder i => h.onRecorder i c.missing fun j e => j.call e a c
  | .stub i => h.onStub i c.missing fun s e => s.call e a c

def session (h : Host) (engine : Nat) (a : Address) (c : SessionCall) :
    Except NativeError c.Reply × Host :=
  h.onEngine engine (.error .staleAddress) (·.session a c)

def addTorrent (h : Host) (engine : Nat) (params : TorrentParams) :
    Except NativeError Address × Host :=
  h.onEngine engine (.error .staleAddress) (·.addTorrent params)

end Host

end TorrentHandle
