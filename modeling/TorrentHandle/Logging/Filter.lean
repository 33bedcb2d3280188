import TorrentHandle.Logging.FieldValue
import TorrentHandle.Text.Decimal

/-!
Filters for log events. A filter is a list of directives, each a level, a target, or both; a level
alone is for every target, a target alone for every level. A directive may also name a span and
fields. Of the directives that fit an event, the one with the longest target decides. A filter
without directives lets errors through and nothing else.
-/

namespace TorrentHandle.Logging

open TorrentHandle.Text

/-- How much is logged, in ascending order. -/
inductive Level where
  | off
  | error
  | warn
  | info
  | debug
  | trace
  deriving DecidableEq, Repr

namespace Level

def all : List Level := [off, error, warn, info, debug, trace]

def rank : Level → Nat
  | off => 0
  | error => 1
  | warn => 2
  | info => 3
  | debug => 4
  | trace => 5

def name : Level → String
  | off => "off"
  | error => "error"
  | warn => "warn"
  | info => "info"
  | debug => "debug"
  | trace => "trace"

/-- A level by its number or, in any case, its name. -/
def ofChars? (cs : List Char) : Option Level :=
  match (Decimal.parse? 5 cs).bind (all[·]?) with
  | some level => some level
  | none => all.find? fun level => level.name.toList == cs.map Char.toLower

end Level

/-- One part of a filter. -/
structure Directive where
  level : Level := .trace
  target : Option (List Char) := none
  /-- Whether a span or a value of a field is named. No event outside of a span fits. -/
  bound : Bool := false
  /-- Names of fields that an event must have. -/
  fields : List (List Char) := []
  deriving DecidableEq

/-- What is read of a directive. -/
inductive Stage where
  | start
  | levelOrTarget (first : Nat)
  | span (first : Nat)
  | field (first : Nat)
  | fields
  | target
  | level (first : Nat)
  deriving DecidableEq

namespace Directive

/-- Whether a directive may begin with a character. -/
def isInitial (c : Char) : Bool :=
  c == '-' || c == ':' || c == '_' || isAlphanumeric c

/-- The characters from a place on. Places are counted in bytes of the UTF-8 form. -/
def dropBytes : Nat → List Char → List Char
  | 0, cs => cs
  | _ + 1, [] => []
  | n + 1, c :: rest => dropBytes (n + 1 - c.utf8Size) rest

def takeBytes : Nat → List Char → List Char
  | 0, _ => []
  | _ + 1, [] => []
  | n + 1, c :: rest => c :: takeBytes (n + 1 - c.utf8Size) rest

/-- The characters from one place up to but not including another. -/
def slice (text : List Char) (first last : Nat) : List Char :=
  takeBytes (last - first) (dropBytes first text)

/-- With one more field: a name, or a name and, after an equals sign, a value. A second equals sign
ends the value. -/
def withField (d : Directive) (field : List Char) : Option Directive :=
  if field.isEmpty then none
  else
    match field.dropWhile (· != '=') with
    | [] => some { d with fields := d.fields ++ [field] }
    | _ :: rest =>
      if FieldValue.isValid (rest.takeWhile (· != '=')) then some { d with bound := true }
      else none

/-- Takes in the character at place `i`. -/
def advance (text : List Char) (d : Directive) (stage : Stage) (i : Nat) (c : Char) :
    Option (Directive × Stage) :=
  match stage with
  | .start =>
    if c = '[' then some (d, .span (i + 1))
    else if isInitial c then some (d, .levelOrTarget i)
    else none
  | .levelOrTarget first =>
    if c = '=' then some ({ d with target := some (slice text first i) }, .level (i + 1))
    else if c = '[' then some ({ d with target := some (slice text first i) }, .span (i + 1))
    else some (d, stage)
  | .span first =>
    if c = ']' then some ({ d with bound := true }, .target)
    else if c = '\x7b' then
      some ({ d with bound := d.bound || !(slice text first i).isEmpty }, .field (i + 1))
    else some (d, stage)
  | .field first =>
    if c = '\x7d' then (d.withField (slice text first i)).map (·, .fields)
    else some (d, stage)
  | .fields => if c = ']' then some (d, .target) else none
  | .target => if c = '=' then some (d, .level (i + 1)) else none
  | .level _ => some (d, stage)

/-- The directive when all characters have been taken in. -/
def finish (text : List Char) (d : Directive) : Stage → Option Directive
  | .levelOrTarget first =>
    let rest := dropBytes first text
    match Level.ofChars? rest with
    | some level => some { d with level, target := none }
    | none => some { d with level := .trace, target := some rest }
  | .level first =>
    let rest := dropBytes first text
    if rest.isEmpty then some { d with level := .trace }
    else (Level.ofChars? rest).map fun level => { d with level }
  | .target => some d
  | _ => none

def advanceAll (text : List Char) (d : Directive) (stage : Stage) (i : Nat) :
    List Char → Option (Directive × Stage)
  | [] => some (d, stage)
  | c :: rest =>
    match advance text d stage i c with
    | none => none
    | some (d, stage) => advanceAll text d stage (i + c.utf8Size) rest

/-- The directive of a text. Its structure is that of the trimmed text, but places are counted in
the text as it is. -/
def ofChars? (text : List Char) : Option Directive :=
  match advanceAll text {} .start 0 (trimChars text) with
  | none => none
  | some (d, stage) => finish text d stage

/-- Whether the directive is about an event of a target with given fields. -/
def fits (d : Directive) (target : List Char) (fields : List (List Char)) : Bool :=
  !d.bound && d.fields.all fields.contains &&
    match d.target with
    | none => true
    | some t => t.isPrefixOf target

/-- Order of character lists, the first difference deciding. -/
def charsLt : List Char → List Char → Bool
  | _, [] => false
  | [], _ :: _ => true
  | a :: as, b :: bs => a.toNat < b.toNat || (a == b && charsLt as bs)

/-- Order of lists of character lists, the first difference deciding. -/
def namesLe : List (List Char) → List (List Char) → Bool
  | [], _ => true
  | _ :: _, [] => false
  | a :: as, b :: bs => charsLt a b || (a == b && namesLe as bs)

/-- Length of the target, more than none for an empty one. -/
def specificity (d : Directive) : Nat :=
  match d.target with
  | none => 0
  | some t => t.length + 1

/-- Whether a later directive takes the place of an earlier one that fits the same event: a longer
target wins, then more fields, then the later names, then the later directive. -/
def yieldsTo (d later : Directive) : Bool :=
  if d.specificity != later.specificity then d.specificity < later.specificity
  else if d.fields.length != later.fields.length then d.fields.length < later.fields.length
  else namesLe d.fields later.fields

end Directive

/-- Directives in the order they are given. -/
abbrev Filter := List Directive

namespace Filter

/-- The parts between commas that are not empty. -/
def parts (text : List Char) : List (List Char) :=
  (text.splitOn ',').filter (!·.isEmpty)

/-- The directives, or the one for errors if there are none. -/
def ofDirectives (ds : List Directive) : Filter := if ds.isEmpty then [{ level := .error }] else ds

/-- A filter without mistakes. -/
def ofText? (s : String) : Option Filter :=
  ((parts s.toList).mapM Directive.ofChars?).map ofDirectives

/-- A filter of the directives that are well-formed. -/
def ofTextLossy (s : String) : Filter :=
  ofDirectives ((parts s.toList).filterMap Directive.ofChars?)

/-- The directive that decides on an event. -/
def deciding? (f : Filter) (target : List Char) (fields : List (List Char)) : Option Directive :=
  (f.filter (·.fits target fields)).foldl (fun best d =>
    match best with
    | none => some d
    | some b => if b.yieldsTo d then some d else some b) none

def enables (f : Filter) (level : Level) (target : List Char) (fields : List (List Char)) : Bool :=
  match f.deciding? target fields with
  | some d => level.rank ≤ d.level.rank
  | none => false

end Filter

end TorrentHandle.Logging
