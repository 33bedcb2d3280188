import TorrentHandle.Logging.Pattern.Brackets
import TorrentHandle.Text.Alphanumeric

/-!
Whether a text is a pattern. It is read once from left to right, with the groups that are open kept
aside. A pattern may be nested up to a limit of depth.

A count in braces after a part is no pattern here: the values of fields end at a closing brace, so
that such a count is never complete.
-/

namespace TorrentHandle.Logging.Pattern

open TorrentHandle.Text

/-- Alternatives that are being read. -/
structure Alternatives where
  /-- The depths of those that are complete. -/
  complete : List Nat := []
  /-- The depths of the parts of the last one, latest first, and whether they can be repeated. -/
  parts : List (Nat × Bool) := []
  deriving DecidableEq, Repr

namespace Alternatives

def depth (a : Alternatives) : Nat := joinedDepth (joinedDepth (a.parts.map (·.1)) :: a.complete)

def add (a : Alternatives) (depth : Nat) (repeatable : Bool) : Alternatives :=
  { a with parts := (depth, repeatable) :: a.parts }

def next (a : Alternatives) : Alternatives :=
  { complete := joinedDepth (a.parts.map (·.1)) :: a.complete }

end Alternatives

/-- How far a pattern has been read. -/
structure Progress where
  modes : Modes := {}
  current : Alternatives := {}
  /-- What stands around the open groups, innermost first, with the modes that return there. -/
  outer : List (Alternatives × Modes) := []
  /-- Names of groups. -/
  names : List (List Char) := []
  deriving DecidableEq, Repr

/-- Whether a text can name a group. -/
def isGroupName : List Char → Bool
  | [] => false
  | c :: rest =>
    (c == '_' || isAlphabetic c) &&
      rest.all fun c => c == '_' || c == '.' || c == '[' || c == ']' || isAlphanumeric c

namespace Progress

/-- With one more part that can be repeated. -/
def add (p : Progress) (depth : Nat) : Progress := { p with current := p.current.add depth true }

/-- Inside of a new group with the given modes. -/
def inside (p : Progress) (modes : Modes) : Progress :=
  { p with modes, current := {}, outer := (p.current, p.modes) :: p.outer }

/-- Reads the name of a group up to the closing angle. No name comes twice. -/
def openNamed (p : Progress) (cs : List Char) : Option (Progress × List Char) :=
  let name := cs.takeWhile (· != '>')
  match cs.dropWhile (· != '>') with
  | [] => none
  | _ :: rest =>
    if isGroupName name && !p.names.contains name then
      some ({ p.inside p.modes with names := name :: p.names }, rest)
    else none

/-- Reads what follows an opening bracket: a group with or without a name, a group with modes of
its own, or modes for the rest of the group around. -/
def openGroup (p : Progress) (cs : List Char) : Option (Progress × List Char) :=
  match p.modes.skip cs with
  | '?' :: 'P' :: '<' :: rest | '?' :: '<' :: rest => p.openNamed rest
  | '?' :: rest =>
    match p.modes.read [] rest with
    | none => none
    | some (modes, true, rest) => some (p.inside modes, rest)
    | some (modes, false, rest) =>
      some ({ p with modes, current := p.current.add 0 false }, rest)
  | rest => some (p.inside p.modes, rest)

def closeGroup (p : Progress) : Option Progress :=
  match p.outer with
  | [] => none
  | (around, modes) :: outer =>
    some { p with modes, current := around.add (p.current.depth + 1) true, outer }

/-- Repeats the last part. A question mark right behind belongs to the repetition. -/
def repeatLast (p : Progress) (rest : List Char) : Option (Progress × List Char) :=
  match p.current.parts with
  | (depth, true) :: parts =>
    let p := { p with current := { p.current with parts := (depth + 1, true) :: parts } }
    match rest with
    | '?' :: rest => some (p, rest)
    | rest => some (p, rest)
  | _ => none

/-- Takes in the character `c` and what belongs to it. -/
def advance (p : Progress) (c : Char) (rest : List Char) : Option (Progress × List Char) :=
  if c = '(' then p.openGroup rest
  else if c = ')' then p.closeGroup.map (·, rest)
  else if c = '|' then some ({ p with current := p.current.next }, rest)
  else if c = '[' then (readSet p.modes rest).map fun (depth, rest) => (p.add depth, rest)
  else if c = '?' || c = '*' || c = '+' then p.repeatLast rest
  else if c = '\x7b' then none
  else if c = '.' then if p.modes.allScripts then some (p.add 0, rest) else none
  else if c = '^' || c = '$' then some (p.add 0, rest)
  else
    match readPart p.modes c rest with
    | some (part, rest) => if p.modes.allows part then some (p.add 0, rest) else none
    | none => none

/-- Reads a pattern to its end, within the given number of steps. -/
def readWithin : Nat → Progress → List Char → Option Progress
  | 0, _, _ => none
  | steps + 1, p, cs =>
    match p.modes.skip cs with
    | [] => some p
    | c :: rest =>
      match p.advance c rest with
      | some (p, rest) => readWithin steps p rest
      | none => none

end Progress

/-- How deep a pattern may be nested. -/
def depthLimit : Nat := 250

/-- Whether a text is a pattern. Every step takes in a character, so its length bounds the steps. -/
def isPattern (cs : List Char) : Bool :=
  match Progress.readWithin (cs.length + 1) {} cs with
  | some p => p.outer.isEmpty && p.current.depth ≤ depthLimit
  | none => false

end TorrentHandle.Logging.Pattern
