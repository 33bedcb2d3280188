import TorrentHandle.Engine.Call
import TorrentHandle.Event.Bus
import TorrentHandle.Handle.Arena
import TorrentHandle.Settings.Basic

/-!
A torrent engine: handle objects in an arena, and a bus for its events. Every call at an address
goes the same way: the call is checked by itself, the object is looked for, and only a call that
succeeds changes the object and publishes.
-/

namespace TorrentHandle

/-- An engine. -/
structure Engine where
  settings : EngineSettings
  objects : Arena HandleObject
  bus : Bus Event

namespace Engine

/-- An engine without objects. Its addresses carry `owner`. -/
def create (owner : Nat) (settings : EngineSettings) (bus : Bus Event) : Engine :=
  { settings, objects := { owner }, bus }

def handleCount (e : Engine) : Nat := e.objects.live

def defaultTrackers (e : Engine) : List Tracker :=
  e.settings.defaultTrackers.map fun url => ⟨url, 0, e.settings.defaultTrackerFailLimit⟩

def newHandle (e : Engine) : Except NativeError Address × Engine :=
  match e.objects.insert {} with
  | (some a, objects) => (.ok a, { e with objects })
  | (none, objects) =>
    (.error (.invalidInput "address" "handle arena exhausted"), { e with objects })

def destroyHandle (e : Engine) (a : Address) : Except NativeError Unit × Engine :=
  match e.objects.remove a with
  | (some _, objects) => (.ok (), { e with objects })
  | (none, _) => (.error .staleAddress, e)

/-- Applies a transition to the object at an address. -/
def apply {α : Type} (e : Engine) (a : Address) (missing : Except NativeError α)
    (f : Transition α) : Except NativeError α × Engine :=
  match e.objects.get? a with
  | none => (missing, e)
  | some h =>
    match f h with
    | .error err => (.error err, e)
    | .ok effect =>
      (.ok effect.reply,
        { e with objects := e.objects.set a effect.object, bus := e.bus.publish? effect.event })

def call (e : Engine) (a : Address) (c : Call) : Except NativeError c.Reply × Engine :=
  match c.check with
  | .error err => (.error err, e)
  | .ok () => e.apply a c.missing c.transition

def session (e : Engine) (a : Address) (c : SessionCall) :
    Except NativeError c.Reply × Engine :=
  match c.transition e.defaultTrackers with
  | .error err => (.error err, e)
  | .ok f => e.apply a (.error .staleAddress) f

/-- Makes a handle object with a torrent. If the torrent is rejected, the object goes again. -/
def addTorrent (e : Engine) (params : TorrentParams) : Except NativeError Address × Engine :=
  match e.newHandle with
  | (.error err, e) => (.error err, e)
  | (.ok a, e) =>
    match e.session a (.startDownload params) with
    | (.ok (), e) => (.ok a, e)
    | (.error err, e) => (.error err, (e.destroyHandle a).2)

end Engine

end TorrentHandle
