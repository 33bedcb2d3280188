import TorrentHandle.Text.Blank
import TorrentHandle.Text.Hex

/-!
Patterns for the values of fields: the modes of a pattern and its smallest parts. A pattern is only
checked and never matched, so of a part is kept what decides where it may stand.

As a rule a pattern is about the characters of every script, and whatever needs tables of them is
missing: classes such as the digits, the edges of words, and letters regardless of case. It can be
switched to ASCII. There these exist, and whatever could match part of a character is missing.
-/

namespace TorrentHandle.Logging.Pattern

open TorrentHandle.Text

/-! ### Modes -/

/-- What can be switched inside of a pattern and bears on the check. -/
structure Modes where
  /-- Letters stand for both of their cases. -/
  caseless : Bool := false
  /-- Characters of every script, not of ASCII alone. -/
  allScripts : Bool := true
  /-- Blanks and comments are skipped. -/
  spaced : Bool := false
  deriving DecidableEq, Repr

/-- The letters of all modes. Those about lines and about greed have no bearing on the check. -/
def modeLetters : List Char := ['i', 'm', 's', 'U', 'u', 'R', 'x']

namespace Modes

def switch (modes : Modes) (letter : Char) (on : Bool) : Modes :=
  if letter = 'i' then { modes with caseless := on }
  else if letter = 'u' then { modes with allScripts := on }
  else if letter = 'x' then { modes with spaced := on }
  else modes

/-- Reads the letters of modes up to the colon, which opens a group (answered by `true`), or the
closing bracket. `passed` holds what has been read, latest first: no letter comes twice, and the
minus sign, which switches off what follows, comes once and not at the end. -/
def read (modes : Modes) (passed : List Char) : List Char → Option (Modes × Bool × List Char)
  | [] => none
  | c :: rest =>
    if c = ':' then
      if passed.head? = some '-' then none else some (modes, true, rest)
    else if c = ')' then
      if passed.isEmpty || passed.head? = some '-' then none else some (modes, false, rest)
    else if passed.contains c then none
    else if c = '-' then read modes (c :: passed) rest
    else if modeLetters.contains c then
      read (modes.switch c (!passed.contains '-')) (c :: passed) rest
    else none

end Modes

/-! ### Blanks and comments -/

/-- Leaves out blanks and comments, which go from a number sign to the end of the line. -/
def skipIgnored (comment : Bool) : List Char → List Char
  | [] => []
  | c :: rest =>
    if comment then skipIgnored (c != '\n') rest
    else if isBlank c then skipIgnored false rest
    else if c = '#' then skipIgnored true rest
    else c :: rest

def Modes.skip (modes : Modes) (cs : List Char) : List Char :=
  if modes.spaced then skipIgnored false cs else cs

/-- The first character after blanks and one number sign. -/
def peekIgnoring (marked : Bool) : List Char → Option Char
  | [] => none
  | c :: rest =>
    if isBlank c then peekIgnoring marked rest
    else if !marked && c == '#' then peekIgnoring true rest
    else some c

/-- The character that tells a hyphen between two ends of a range from one that stands for itself.
Here a comment hides its number sign only, not its words. -/
def Modes.peek (modes : Modes) (cs : List Char) : Option Char :=
  if modes.spaced then peekIgnoring false cs else cs.head?

/-! ### Parts -/

/-- A part of a pattern that has no parts itself. -/
inductive Part where
  /-- A character, and whether it is written with two hexadecimal digits. -/
  | literal (code : Nat) (twoDigits : Bool)
  /-- The digits, the blanks, the characters of words, or all but these. -/
  | shorthand (negated : Bool)
  /-- A place at the edge of a line or of the text. -/
  | edge
  /-- A place at the edge of a word, or one that is not. -/
  | wordEdge
  deriving DecidableEq, Repr

/-- A character that stands for itself. -/
def Part.ofChar (c : Char) : Part := .literal c.toNat false

namespace Modes

/-- Whether a part may stand outside of brackets. -/
def allows (modes : Modes) : Part → Bool
  | .literal code twoDigits =>
    if modes.allScripts then !modes.caseless else !twoDigits || code < 0x80
  | .shorthand negated => !modes.allScripts && !negated
  | .edge => true
  | .wordEdge => !modes.allScripts

/-- Whether a part may stand inside of brackets. -/
def allowsInside (modes : Modes) : Part → Bool
  | .literal code _ => if modes.allScripts then !modes.caseless else code < 0x80
  | .shorthand negated => !modes.allScripts && !negated
  | .edge | .wordEdge => false

/-- Whether a set in brackets may be negated. In ASCII the rest of a set is no set of characters. -/
def allowsNegation (modes : Modes) : Bool := modes.allScripts

end Modes

/-! ### Escapes -/

/-- The number of hexadecimal digits after an escape letter. -/
def codeLength? (c : Char) : Option Nat :=
  if c = 'x' then some 2
  else if c = 'u' then some 4
  else if c = 'U' then some 8
  else none

def readCode (modes : Modes) (code : Nat) : Nat → List Char → Option (Nat × List Char)
  | 0, cs => some (code, cs)
  | digits + 1, cs =>
    match modes.skip cs with
    | [] => none
    | c :: rest =>
      match Hex.digitValue? c with
      | some d => readCode modes (16 * code + d) digits rest
      | none => none

def isCharCode (code : Nat) : Bool := code < 0xD800 || (0xDFFF < code && code < 0x110000)

/-- The letters that stand for control characters. -/
def controlLetters : List (Char × Nat) :=
  [('a', 7), ('t', 9), ('n', 10), ('v', 11), ('f', 12), ('r', 13)]

/-- The part that a character stands for after a backslash. Marks of ASCII stand for themselves;
other letters, digits, and characters beyond ASCII for nothing. -/
def escaped? (c : Char) : Option Part :=
  if ['d', 's', 'w'].contains c then some (.shorthand false)
  else if ['D', 'S', 'W'].contains c then some (.shorthand true)
  else if ['A', 'z'].contains c then some .edge
  else if ['b', 'B', '<', '>'].contains c then some .wordEdge
  else
    match controlLetters.lookup c with
    | some code => some (.literal code false)
    | none => if c.toNat < 0x80 && !c.isAlphanum then some (.ofChar c) else none

def readEscape (modes : Modes) : List Char → Option (Part × List Char)
  | [] => none
  | c :: rest =>
    match codeLength? c with
    | some digits =>
      match readCode modes 0 digits rest with
      | some (code, rest) =>
        if isCharCode code then some (.literal code (c == 'x'), rest) else none
      | none => none
    | none => (escaped? c).map (·, rest)

def readPart (modes : Modes) (c : Char) (rest : List Char) : Option (Part × List Char) :=
  if c = '\\' then readEscape modes rest else some (.ofChar c, rest)

/-! ### Depth -/

/-- The depth of parts taken together. No part and a single one add nothing. -/
def joinedDepth : List Nat → Nat
  | [] => 0
  | [d] => d
  | ds => ds.foldl max 0 + 1

end TorrentHandle.Logging.Pattern
