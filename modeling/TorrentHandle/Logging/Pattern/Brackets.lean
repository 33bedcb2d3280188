import TorrentHandle.Logging.Pattern.Basic

/-!
Sets of characters in brackets. A set holds characters, ranges, classes and further sets in
brackets, and two operators between such rows: what both have, what only the left one has, what
one of them has.
-/

namespace TorrentHandle.Logging.Pattern

/-- A set that is being read. -/
structure OpenSet where
  /-- The depth of what stands to the left of an operator. -/
  left : Option Nat := none
  /-- The depths of the items since. -/
  items : List Nat := []
  /-- Whether nothing but hyphens has been read. -/
  fresh : Bool := true
  deriving DecidableEq, Repr

namespace OpenSet

def depth (s : OpenSet) : Nat :=
  match s.left with
  | none => joinedDepth s.items
  | some left => max left (joinedDepth s.items) + 1

def add (s : OpenSet) (depth : Nat) : OpenSet :=
  { s with items := depth :: s.items, fresh := false }

/-- Goes on to the right of an operator. -/
def operate (s : OpenSet) : OpenSet := { left := some s.depth, fresh := false }

end OpenSet

/-- Classes that have a name between colons. -/
def classNames : List String :=
  ["alnum", "alpha", "ascii", "blank", "cntrl", "digit", "graph", "lower", "print", "punct",
    "space", "upper", "word", "xdigit"]

/-- Reads the name of a class after the opening bracket. Answers whether the class is negated. -/
def readClassName : List Char → Option (Bool × List Char)
  | ':' :: rest =>
    let (negated, rest) := match rest with
      | '^' :: more => (true, more)
      | _ => (false, rest)
    match rest.dropWhile (· != ':') with
    | ':' :: ']' :: after =>
      if classNames.contains (String.ofList (rest.takeWhile (· != ':'))) then
        some (negated, after)
      else none
    | _ => none
  | _ => none

def Modes.allowsNamed (modes : Modes) (negated : Bool) : Bool :=
  if modes.allScripts then !modes.caseless else !negated

/-- Reads an item that is no set: a part, or a range of two characters in ascending order. A hyphen
before a closing bracket or another hyphen stands for itself. -/
def readItem (modes : Modes) (c : Char) (rest : List Char) : Option (List Char) := do
  let (first, rest) ← readPart modes c rest
  match modes.skip rest with
  | [] => none
  | '-' :: after =>
    if modes.peek after = some ']' || modes.peek after = some '-' then
      if modes.allowsInside first then some ('-' :: after) else none
    else
      match modes.skip after with
      | [] => none
      | d :: more =>
        let (last, rest) ← readPart modes d more
        match first, last with
        | .literal low _, .literal high _ =>
          if low ≤ high && modes.allowsInside first && modes.allowsInside last then some rest
          else none
        | _, _ => none
  | rest => if modes.allowsInside first then some rest else none

def openSet (modes : Modes) (cs : List Char) : Option (List Char) :=
  match modes.skip cs with
  | '^' :: rest => if modes.allowsNegation then some rest else none
  | rest => some rest

/-- What one more character of a set leads to. -/
inductive SetStep where
  /-- The end of the outermost set, with its depth. -/
  | ended (depth : Nat) (rest : List Char)
  /-- More of a set, with the sets around it. -/
  | more (outer : List OpenSet) (s : OpenSet) (rest : List Char)

/-- Takes in the character `c` and what belongs to it. `outer` holds the sets around the one that is
being read. -/
def OpenSet.advance (s : OpenSet) (modes : Modes) (outer : List OpenSet) (c : Char)
    (rest : List Char) : Option SetStep :=
  if s.fresh && (c == '-' || (c == ']' && s.items.isEmpty)) then
    if modes.allowsInside (.ofChar c) then
      some (.more outer { s.add 0 with fresh := c == '-' } rest)
    else none
  else
    match c, rest with
    | ']', rest =>
      match outer with
      | [] => some (.ended (s.depth + 1) rest)
      | o :: outer => some (.more outer (o.add (s.depth + 1)) rest)
    | '[', rest =>
      match readClassName rest with
      | some (negated, rest) =>
        if modes.allowsNamed negated then some (.more outer (s.add 0) rest) else none
      | none => (openSet modes rest).map (.more ({ s with fresh := false } :: outer) {})
    | '&', '&' :: rest | '-', '-' :: rest | '~', '~' :: rest => some (.more outer s.operate rest)
    | c, rest => (readItem modes c rest).map (.more outer (s.add 0))

/-- Reads sets within the given number of steps, up to the end of the outermost one. Answers its
depth. -/
def readSetWithin (modes : Modes) :
    Nat → List OpenSet → OpenSet → List Char → Option (Nat × List Char)
  | 0, _, _, _ => none
  | steps + 1, outer, s, cs =>
    match modes.skip cs with
    | [] => none
    | c :: rest =>
      match s.advance modes outer c rest with
      | none => none
      | some (.ended depth rest) => some (depth, rest)
      | some (.more outer s rest) => readSetWithin modes steps outer s rest

/-- Reads a set after its opening bracket. Answers its depth. -/
def readSet (modes : Modes) (cs : List Char) : Option (Nat × List Char) := do
  readSetWithin modes (cs.length + 1) [] {} (← openSet modes cs)

end TorrentHandle.Logging.Pattern
