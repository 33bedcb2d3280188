import TorrentHandle.Ownership.Proxy

/-!
Proxies and tokens by number, with the engines they refer to. Numbers are given in order and never
again. A number without a proxy stands for an inert one, and a number without a token for one that
has been taken.
-/

namespace TorrentHandle

/-- Engines, proxies and tokens. -/
structure World where
  host : Host := {}
  proxies : Array Proxy := #[]
  tokens : Array OwnershipToken := #[]

namespace World

def proxy (w : World) (i : Nat) : Proxy := w.proxies.getD i { endpoint := .engine 0 }

def token (w : World) (i : Nat) : OwnershipToken := w.tokens.getD i { endpoint := .engine 0 }

/-- Adds a proxy and answers its number. -/
def addProxy (w : World) (p : Proxy) : Nat × World :=
  (w.proxies.size, { w with proxies := w.proxies.push p })

def addToken (w : World) (t : OwnershipToken) : Nat × World :=
  (w.tokens.size, { w with tokens := w.tokens.push t })

/-- One thing that is done with engines, proxies or tokens. -/
inductive Step where
  | newHandle (endpoint : Endpoint)
  | destroyHandle (endpoint : Endpoint) (a : Address)
  | call (endpoint : Endpoint) (a : Address) (c : Call)
  | session (engine : Nat) (a : Address) (c : SessionCall)
  | addTorrent (engine : Nat) (params : TorrentParams)
  | wrap (endpoint : Endpoint) (a : Address)
  | allocate (endpoint : Endpoint)
  | start (engine : Nat) (params : TorrentParams)
  | adopt (token : Nat)
  | forward (proxy : Nat) (c : Call)
  | reload (proxy : Nat)
  | release (proxy : Nat)
  | destroy (proxy : Nat)
  | dropProxy (proxy : Nat)
  | dropToken (token : Nat)

/-- Type of the answer. Proxies and tokens are answered by number. -/
abbrev Step.Answer : Step → Type
  | newHandle _ => Except NativeError Address
  | destroyHandle .. => Except NativeError Unit
  | call _ _ c => Except NativeError c.Reply
  | session _ _ c => Except NativeError c.Reply
  | addTorrent .. => Except NativeError Nat
  | wrap .. | adopt _ => Nat
  | allocate _ | start .. => Except HandleError Nat
  | forward _ c => Except HandleError c.Reply
  | reload _ => Except HandleError ReloadOutcome
  | release _ => Except HandleError Nat
  | destroy _ => Except HandleError Unit
  | dropProxy _ | dropToken _ => Unit

def withHost (w : World) {α : Type} (r : α × Host) : α × World := (r.1, { w with host := r.2 })

/-- Adds the proxy that was made, if any. -/
def keepProxy (w : World) : Except HandleError Proxy × Host → Except HandleError Nat × World
  | (.ok p, host) =>
    let (i, w) := { w with host }.addProxy p
    (.ok i, w)
  | (.error err, host) => (.error err, { w with host })

/-- Destroys what a proxy owns and makes it inert. -/
def destroyProxy (w : World) (i : Nat) : Except HandleError Unit × World :=
  let (result, p, host) := (w.proxy i).destroy w.host
  (result, { w with host, proxies := w.proxies.setIfInBounds i p })

def step (w : World) : (s : Step) → s.Answer × World
  | .newHandle endpoint => w.withHost (w.host.newHandle endpoint)
  | .destroyHandle endpoint a => w.withHost (w.host.destroyHandle a endpoint)
  | .call endpoint a c => w.withHost (w.host.call a c endpoint)
  | .session engine a c => w.withHost (w.host.session engine a c)
  | .addTorrent engine params =>
    match w.host.addTorrent engine params with
    | (.ok a, host) =>
      let (i, w) := { w with host }.addToken { endpoint := .engine engine, address := some a }
      (.ok i, w)
    | (.error err, host) => (.error err, { w with host })
  | .wrap endpoint a => w.addProxy (.wrap endpoint a)
  | .allocate endpoint => w.keepProxy (Proxy.allocate endpoint w.host)
  | .start engine params => w.keepProxy (Proxy.start engine params w.host)
  | .adopt token =>
    let t := w.token token
    let w := { w with tokens := w.tokens.setIfInBounds token { t with address := none } }
    w.addProxy (.adopt t)
  | .forward proxy c => w.withHost ((w.proxy proxy).forward c w.host)
  | .reload proxy => w.withHost ((w.proxy proxy).reload w.host)
  | .release proxy =>
    match (w.proxy proxy).release with
    | (.ok t, p) =>
      let (i, w) := { w with proxies := w.proxies.setIfInBounds proxy p }.addToken t
      (.ok i, w)
    | (.error err, _) => (.error err, w)
  | .destroy proxy => w.destroyProxy proxy
  | .dropProxy proxy => ((), (w.destroyProxy proxy).2)
  | .dropToken token =>
    let t := w.token token
    ((), { w with
      host := t.drop w.host
      tokens := w.tokens.setIfInBounds token { t with address := none } })

def run (w : World) (steps : List Step) : World := steps.foldl (fun w s => (w.step s).2) w

/-! ### Torrents behind a recorder -/

/-- Makes a proxy that owns a fresh object behind a recorder, and attaches a torrent to the object
without the recorder. A torrent that is rejected takes the proxy with it. -/
def startRecorded (w : World) (recorder : Nat) (params : TorrentParams) :
    Except NativeError Nat × World :=
  match w.step (.allocate (.recorder recorder)) with
  | (.error _, w) => (.error .staleAddress, w)
  | (.ok i, w) =>
    match (w.proxy i).address, w.host.recorders[recorder]? with
    | some a, some (engine, _) =>
      match w.step (.session engine a (.startDownload params)) with
      | (.ok (), w) => (.ok i, w)
      | (.error err, w) => (.error err, (w.step (.dropProxy i)).2)
    | _, _ => (.error .staleAddress, w)

end World

end TorrentHandle
