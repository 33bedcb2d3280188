import TorrentHandle.Json.Fault
import TorrentHandle.Json.Number
import TorrentHandle.Text.Hex

/-!
Tokens of a JSON text. `tokens` cuts a text into tokens up to the first place where none can be
read; the last token then says what stands there. A piece of text that breaks off is told apart by
its kind, because skipping over a value asks less of it than reading it does: a skipped text may
hold escaped surrogates without a partner, and a number that breaks off while it is skipped is
malformed where reading it would find the end of the text.
-/

namespace TorrentHandle.Json

open TorrentHandle.Text

/-- The pieces a JSON text is made of. -/
inductive Token where
  | openList
  | closeList
  | openRecord
  | closeRecord
  | comma
  | colon
  | null
  | bool (b : Bool)
  | number (n : Number)
  | text (s : String)
  /-- A text in quotes whose escapes stand for no characters. -/
  | loneSurrogate
  /-- One of the three words, broken off. -/
  | cutWord (f : Fault)
  /-- A number, broken off: the fault when it is read. -/
  | cutNumber (f : Fault)
  /-- A text, broken off: the faults when it is read and when it is skipped. -/
  | cutText (read skipped : Fault)
  /-- A character that begins no token. -/
  | stray
  /-- The end of the text. -/
  | finish
  deriving DecidableEq, Repr

namespace Token

/-- Whether the text cannot be followed past this token. -/
def isLast : Token → Bool
  | cutWord _ | cutNumber _ | cutText _ _ | stray | finish => true
  | _ => false

/-- The fault when this token stands where a value is to be read and is none. -/
def readFault : Token → Fault
  | cutWord f | cutNumber f | cutText f _ => f
  | finish => .truncated
  | _ => .malformed

/-- The fault when this token stands where a value is to be skipped and is none. -/
def skipFault : Token → Fault
  | cutWord f | cutText _ f => f
  | finish => .truncated
  | _ => .malformed

/-- The fault when this token stands where only punctuation may. -/
def markFault : Token → Fault
  | finish => .truncated
  | _ => .malformed

/-- The fault when this token stands where a member's name is to be read and is none. -/
def nameFault : Token → Fault
  | cutText f _ => f
  | finish => .truncated
  | _ => .malformed

/-- The fault when this token stands where a member's name is to be skipped and is none. -/
def skipNameFault : Token → Fault
  | cutText _ f => f
  | finish => .truncated
  | _ => .malformed

end Token

/-! ### Texts -/

/-- A unit of a quoted text: a character, or a UTF-16 unit in hexadecimal. -/
inductive TextUnit where
  | plain (c : Char)
  | coded (n : Nat)
  deriving DecidableEq, Repr

/-- First half of a surrogate pair. -/
def isLeading (n : Nat) : Bool := 0xD800 ≤ n && n ≤ 0xDBFF

/-- Second half of a surrogate pair. -/
def isTrailing (n : Nat) : Bool := 0xDC00 ≤ n && n ≤ 0xDFFF

/-- The characters that units stand for; none if a surrogate lacks its partner. -/
def decodeUnits : List TextUnit → Option (List Char)
  | [] => some []
  | .plain c :: rest => (decodeUnits rest).map (c :: ·)
  | .coded n :: rest =>
    if isLeading n then
      match rest with
      | .coded m :: rest' =>
        if isTrailing m then
          (decodeUnits rest').map (Char.ofNat (0x10000 + (n - 0xD800) * 0x400 + (m - 0xDC00)) :: ·)
        else none
      | _ => none
    else if isTrailing n then none
    else (decodeUnits rest).map (Char.ofNat n :: ·)

/-- The character that an escape of one letter stands for. -/
def simpleEscape? (c : Char) : Option Char :=
  if c = '"' then some '"'
  else if c = '\\' then some '\\'
  else if c = '/' then some '/'
  else if c = 'b' then some '\x08'
  else if c = 'f' then some '\x0c'
  else if c = 'n' then some '\n'
  else if c = 'r' then some '\r'
  else if c = 't' then some '\t'
  else none

/-- Bytes of the UTF-8 form. -/
def byteLength (cs : List Char) : Nat := cs.foldr (fun c n => c.utf8Size + n) 0

/-- The fault of a broken hexadecimal escape: four digits need four bytes of text. -/
def codeFault (rest : List Char) : Fault :=
  if byteLength (rest.take 4) < 4 then .truncated else .malformed

/-- Goes through a quoted text after its opening quote. Answers the units passed, latest first,
the fault that stopped it, if any, and the rest of the text. -/
def scanText (done : List TextUnit) : List Char → List TextUnit × Option Fault × List Char
  | [] => (done, some .truncated, [])
  | '"' :: rest => (done, none, rest)
  | ['\\'] => (done, some .truncated, [])
  | '\\' :: 'u' :: a :: b :: c :: d :: rest =>
    match Hex.quad? a b c d with
    | some n => scanText (.coded n :: done) rest
    | none => (done, some (codeFault (a :: b :: c :: d :: rest)), rest)
  | '\\' :: e :: rest =>
    match simpleEscape? e with
    | some c => scanText (.plain c :: done) rest
    | none => (done, some (if e = 'u' then codeFault rest else .malformed), rest)
  | c :: rest =>
    if c.toNat < 0x20 then (done, some .malformed, rest) else scanText (.plain c :: done) rest

/-- The fault of reading a text that broke off with fault `f` after the units `done`, latest first:
a surrogate that already lacked its partner comes before it. -/
def brokenTextFault (f : Fault) (done : List TextUnit) : Fault :=
  let settled := match done with
    | .coded n :: earlier => if isLeading n then earlier else done
    | _ => done
  if (decodeUnits settled.reverse).isSome then f else .malformed

/-- The token of a quoted text, and the rest of the text. -/
def textToken (rest : List Char) : Token × List Char :=
  match scanText [] rest with
  | (done, some f, rest') => (.cutText (brokenTextFault f done) f, rest')
  | (done, none, rest') =>
    match decodeUnits done.reverse with
    | some cs => (.text (String.ofList cs), rest')
    | none => (.loneSurrogate, rest')

/-! ### Words and numbers -/

/-- What is left after the letters of a word. -/
def expectLetters : List Char → List Char → Except Fault (List Char)
  | [], rest => .ok rest
  | _ :: _, [] => .error .truncated
  | e :: es, c :: rest => if c = e then expectLetters es rest else .error .malformed

/-- The token of a word whose first letter has been passed. -/
def wordToken (t : Token) (letters rest : List Char) : Token × List Char :=
  match expectLetters letters rest with
  | .ok rest' => (t, rest')
  | .error f => (.cutWord f, [])

/-- The fault when digits must follow and do not. -/
def digitFault : List Char → Fault
  | [] => .truncated
  | _ => .malformed

/-- Goes on after the whole part and the fraction. -/
def exponentToken (negative : Bool) (whole fraction : List Char) :
    List Char → Token × List Char
  | 'e' :: rest | 'E' :: rest =>
    let (down, rest) := match rest with
      | '+' :: r => (false, r)
      | '-' :: r => (true, r)
      | r => (false, r)
    let ds := rest.takeWhile Char.isDigit
    if ds.isEmpty then (.cutNumber (digitFault rest), rest)
    else (.number (Literal.number ⟨negative, whole, fraction, some (down, ds)⟩),
      rest.dropWhile Char.isDigit)
  | rest => (.number (Literal.number ⟨negative, whole, fraction, none⟩), rest)

/-- Goes on after the whole part. -/
def fractionToken (negative : Bool) (whole : List Char) : List Char → Token × List Char
  | '.' :: rest =>
    let ds := rest.takeWhile Char.isDigit
    if ds.isEmpty then (.cutNumber (digitFault rest), rest)
    else exponentToken negative whole ds (rest.dropWhile Char.isDigit)
  | rest => exponentToken negative whole [] rest

/-- The token of a number after its sign. A zero is not followed by a digit. -/
def numberToken (negative : Bool) (cs : List Char) : Token × List Char :=
  let ds := cs.takeWhile Char.isDigit
  match ds with
  | [] => (.cutNumber (digitFault cs), cs)
  | '0' :: _ :: _ => (.cutNumber .malformed, cs)
  | _ => fractionToken negative ds (cs.dropWhile Char.isDigit)

/-! ### The whole text -/

def isSpace (c : Char) : Bool := c == ' ' || c == '\n' || c == '\t' || c == '\r'

/-- The token that begins with `c`, and the rest of the text. -/
def nextToken (c : Char) (rest : List Char) : Token × List Char :=
  if c = '"' then textToken rest
  else if c = ',' then (.comma, rest)
  else if c = ':' then (.colon, rest)
  else if c = '[' then (.openList, rest)
  else if c = ']' then (.closeList, rest)
  else if c = '\x7b' then (.openRecord, rest)
  else if c = '\x7d' then (.closeRecord, rest)
  else if c = 'n' then wordToken .null ['u', 'l', 'l'] rest
  else if c = 't' then wordToken (.bool true) ['r', 'u', 'e'] rest
  else if c = 'f' then wordToken (.bool false) ['a', 'l', 's', 'e'] rest
  else if c = '-' then numberToken true rest
  else if c.isDigit then numberToken false (c :: rest)
  else (.stray, rest)

/-- The tokens of a text, within the given number of steps. -/
def tokensWithin : Nat → List Char → List Token
  | 0, _ => [.finish]
  | steps + 1, cs =>
    match cs.dropWhile isSpace with
    | [] => [.finish]
    | c :: rest =>
      let (t, rest') := nextToken c rest
      if t.isLast then [t] else t :: tokensWithin steps rest'

/-- The tokens of a text. Each takes at least one character, so its length bounds their number. -/
def tokens (cs : List Char) : List Token := tokensWithin (cs.length + 1) cs

end TorrentHandle.Json
