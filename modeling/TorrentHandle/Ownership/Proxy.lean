import TorrentHandle.Engine.Host

/-!
Proxies and tokens. A proxy refers to a handle object and may own it; a token owns one on its way
from a proxy to another. An object that is owned is destroyed by its owner: when a proxy is told to,
when an owning proxy goes out of use, or when a token goes out of use that no proxy took.

A proxy that has released or destroyed its object is inert: it has no address and never gets one
again.
-/

namespace TorrentHandle

/-- A reference to a handle object. -/
structure Proxy where
  endpoint : Endpoint
  /-- None once the proxy is inert. -/
  address : Option Address := none
  owns : Bool := false
  deriving DecidableEq

/-- Ownership of a handle object between proxies. -/
structure OwnershipToken where
  endpoint : Endpoint
  /-- None once a proxy has taken it. -/
  address : Option Address := none
  deriving DecidableEq

def optionalAddressText : Option Address → String
  | some a => "Some(" ++ a.debugText ++ ")"
  | none => "None"

namespace OwnershipToken

/-- Destroys the object unless a proxy has taken it. -/
def drop (t : OwnershipToken) (h : Host) : Host :=
  match t.address with
  | some a => (h.destroyHandle a t.endpoint).2
  | none => h

/-- Text that names the type and the address. -/
def debugText (t : OwnershipToken) : String :=
  "OwnedAddress \x7b address: " ++ optionalAddressText t.address ++ ", .. \x7d"

end OwnershipToken

namespace Proxy

def inert (p : Proxy) : Proxy := { p with address := none, owns := false }

/-- A proxy for an object of another owner. -/
def wrap (endpoint : Endpoint) (a : Address) : Proxy := { endpoint, address := some a }

/-- A proxy that owns a fresh object. -/
def allocate (endpoint : Endpoint) (h : Host) : Except HandleError Proxy × Host :=
  match h.newHandle endpoint with
  | (.ok a, h) => (.ok { endpoint, address := some a, owns := true }, h)
  | (.error err, h) => (.error (err.during "allocate"), h)

/-- A proxy that takes ownership from a token. -/
def adopt (t : OwnershipToken) : Proxy :=
  { endpoint := t.endpoint, address := t.address, owns := t.address.isSome }

/-- A proxy that owns a fresh object with a torrent. -/
def start (engine : Nat) (params : TorrentParams) (h : Host) : Except HandleError Proxy × Host :=
  match h.addTorrent engine params with
  | (.ok a, h) => (.ok (adopt { endpoint := .engine engine, address := some a }), h)
  | (.error err, h) => (.error (err.during "start"), h)

def isReleased (p : Proxy) : Bool := p.address.isNone

def forward (p : Proxy) (c : Call) (h : Host) : Except HandleError c.Reply × Host :=
  match p.address with
  | none => (.error (.useAfterRelease c.operation), h)
  | some a =>
    let (result, h) := h.call a c p.endpoint
    (result.mapError (·.during c.operation), h)

/-- Reloads the metadata; the engine's number must name an outcome. -/
def reload (p : Proxy) (h : Host) : Except HandleError ReloadOutcome × Host :=
  match p.forward .reloadFile h with
  | (.ok n, h) => (ReloadOutcome.ofCode n, h)
  | (.error err, h) => (.error err, h)

/-- Gives ownership to a token. -/
def release (p : Proxy) : Except HandleError OwnershipToken × Proxy :=
  match p.address, p.owns with
  | some a, true => (.ok { endpoint := p.endpoint, address := some a }, p.inert)
  | _, _ => (.error (.notOwner "release"), p)

/-- Destroys the object if the proxy owns it. The proxy is inert afterwards in every case. -/
def destroy (p : Proxy) (h : Host) : Except HandleError Unit × Proxy × Host :=
  match p.address, p.owns with
  | some a, true =>
    let (result, h) := h.destroyHandle a p.endpoint
    (result.mapError (·.during "destroy"), p.inert, h)
  | _, _ => (.ok (), p.inert, h)

/-- Text that names the type, the address and the ownership. -/
def debugText (p : Proxy) : String :=
  "HandleProxy \x7b address: " ++ optionalAddressText p.address ++ ", owns: " ++
    (if p.owns then "true" else "false") ++ ", .. \x7d"

end Proxy

end TorrentHandle
