import TorrentHandle.Ownership.World
import TorrentHandle.Streaming.Plan

/-!
Where plans go. A deadline sink turns a plan into piece deadlines of a handle: pieces that leave the
plan lose their deadline unless they may hold the index of the container, and the pieces of the plan
get deadlines that grow with their place in it. It keeps track of the pieces it has given a deadline
and stops at the first call that fails. A logging sink only keeps the plans, and rejects those whose
turn it was told.
-/

namespace TorrentHandle

def maxDeadline : Nat := 0xffffffff

/-- A sink that sets piece deadlines. -/
structure DeadlineSink where
  /-- Milliseconds between one piece and the next. -/
  step : UInt32
  /-- Pieces that have a deadline of this sink. -/
  active : PieceSet := ∅

namespace DeadlineSink

/-- Whether a piece keeps its deadline though the plan does not name it. -/
def keeps (plan : PiecePlan) (piece : Nat) : Bool :=
  match plan.possibleFooter with
  | some (first, last) => first ≤ piece && piece ≤ last
  | none => false

/-- The pieces that lose their deadline, in ascending order. -/
def dropped (s : DeadlineSink) (plan : PiecePlan) : List Nat :=
  let wanted := PieceSet.ofList plan.pieces
  s.active.toList.filter fun piece => !wanted.contains piece && !keeps plan piece

def resetAll (p : Proxy) : List Nat → DeadlineSink → Host →
    Except HandleError Unit × DeadlineSink × Host
  | [], s, h => (.ok (), s, h)
  | piece :: rest, s, h =>
    match p.forward (.resetPieceDeadline (UInt32.ofNat piece)) h with
    | (.error err, h) => (.error err, s, h)
    | (.ok (), h) => resetAll p rest { s with active := s.active.erase piece } h

/-- Sets deadlines, the first one given. -/
def setAll (p : Proxy) (deadline : Nat) : List Nat → DeadlineSink → Host →
    Except HandleError Unit × DeadlineSink × Host
  | [], s, h => (.ok (), s, h)
  | piece :: rest, s, h =>
    match p.forward (.setPieceDeadline (UInt32.ofNat piece) (UInt32.ofNat deadline)) h with
    | (.error err, h) => (.error err, s, h)
    | (.ok (), h) =>
      setAll p (min (deadline + s.step.toNat) maxDeadline) rest
        { s with active := s.active.insert piece } h

def downloadOnly (s : DeadlineSink) (plan : PiecePlan) (p : Proxy) (h : Host) :
    Except HandleError Unit × DeadlineSink × Host :=
  match resetAll p (s.dropped plan) s h with
  | (.error err, s, h) => (.error err, s, h)
  | (.ok (), s, h) => setAll p 0 plan.pieces s h

end DeadlineSink

/-- A sink that keeps plans. -/
structure LoggingSink where
  /-- Turns, counted from one, at which a plan is rejected. -/
  failOn : List Nat := []
  calls : Nat := 0
  /-- The plans that were not rejected, latest first. -/
  accepted : List PiecePlan := []

/-- Takes a plan or rejects it. -/
def LoggingSink.downloadOnly (s : LoggingSink) (plan : PiecePlan) :
    Except HandleError Unit × LoggingSink :=
  let s := { s with calls := s.calls + 1 }
  if s.failOn.contains s.calls then (.error (.notOwner "sink"), s)
  else (.ok (), { s with accepted := plan :: s.accepted })

/-- Where the plans of a playback go. A deadline sink names its proxy by number. -/
inductive Sink where
  | deadlines (proxy : Nat) (s : DeadlineSink)
  | log (s : LoggingSink)

def Sink.downloadOnly (plan : PiecePlan) (w : World) :
    Sink → Except HandleError Unit × Sink × World
  | .deadlines proxy s =>
    let (result, s, host) := s.downloadOnly plan (w.proxy proxy) w.host
    (result, .deadlines proxy s, { w with host })
  | .log s =>
    let (result, s) := s.downloadOnly plan
    (result, .log s, w)

/-- A playback: progress, and where its plans go. -/
structure Playback where
  controller : Controller
  sink : Sink

namespace Playback

/-- Takes in what has happened, and applies the plan if it is to be. -/
def handle (p : Playback) (event : Progress) (w : World) :
    Except HandleError Unit × Playback × World :=
  let controller := p.controller.advance event
  if p.controller.applies event then
    let (result, sink, w) := p.sink.downloadOnly controller.plan w
    (result, { controller, sink }, w)
  else (.ok (), { p with controller }, w)

/-- Takes in events up to the first one whose plan is rejected. -/
def handleAll (p : Playback) (w : World) :
    List Progress → Except HandleError Unit × Playback × World
  | [] => (.ok (), p, w)
  | event :: rest =>
    match p.handle event w with
    | (.error err, p, w) => (.error err, p, w)
    | (.ok (), p, w) => handleAll p w rest

end Playback

end TorrentHandle
