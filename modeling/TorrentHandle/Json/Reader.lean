import TorrentHandle.Json.Document
import TorrentHandle.Json.Value

/-!
Readers: what shape of JSON value is wanted, as a function from trees to values. A reader walks the
tree in text order and reports the first problem. A value of the wrong type is noticed where it
stands, a missing member at the closing bracket.

Records are read from records, where unknown members are skipped, or from lists by position.
-/

namespace TorrentHandle.Json

/-- Reads a tree, with the given depth left for lists and records. -/
abbrev Reader := (depth : Nat) → Doc → Except Fault Value

/-- The fault when another type is wanted. -/
def Doc.wrongType : Doc → Fault
  | .number .outOfRange | .loneSurrogate => .malformed
  | .gap t => t.readFault
  | _ => .mismatch

namespace Reader

def text : Reader := fun _ d =>
  match d with
  | .text s => .ok (.text s)
  | d => .error d.wrongType

def optionalText : Reader := fun depth d =>
  match d with
  | .null => .ok .null
  | d => text depth d

def bool : Reader := fun _ d =>
  match d with
  | .bool b => .ok (.bool b)
  | d => .error d.wrongType

/-- An integer between two bounds, both included. -/
def integer (low high : Int) : Reader := fun _ d =>
  match d with
  | .number (.integer i) => if low ≤ i ∧ i ≤ high then .ok (.integer i) else .error .mismatch
  | d => .error d.wrongType

def unsigned (bits : Nat) : Reader := integer 0 (Nat.pow 2 bits - 1)

def signed (bits : Nat) : Reader :=
  integer (-Nat.pow 2 (bits - 1)) (Nat.pow 2 (bits - 1) - 1)

/-- The values of another reader that pass a test. -/
def accepting (r : Reader) (test : Value → Bool) : Reader := fun depth d =>
  match r depth d with
  | .ok v => if test v then .ok v else .error .mismatch
  | .error f => .error f

def items (r : Doc → Except Fault Value) : List Doc → Except Fault (List Value)
  | [] => .ok []
  | d :: rest =>
    match r d with
    | .error f => .error f
    | .ok v => (items r rest).map (v :: ·)

/-- A result, unless the list or record ends with a fault. -/
def ended {α : Type} (ending : Ending) (a : α) : Except Fault α :=
  match ending.fault? with
  | some f => .error f
  | none => .ok a

/-- A list of values of one shape. -/
def list (r : Reader) : Reader := fun depth d =>
  match d with
  | .list ds ending => do
    let inside ← deeper depth
    let vs ← items (r inside) ds
    ended ending (.list vs)
  | d => .error d.wrongType

/-- One of the given names: a text, or a record of one member that has the name and is null. In the
place of the name only a text is looked at; all else there is malformed. -/
def oneOf (names : List String) : Reader := fun depth d =>
  match d with
  | .text s => if s ∈ names then .ok (.text s) else .error .mismatch
  | .record members ending => do
    let _ ← deeper depth
    match members with
    | [] => .error .malformed
    | (.text s, d) :: more =>
      if s ∈ names then
        match d with
        | .null => if more.isEmpty then ended ending (.text s) else .error .malformed
        | d => .error d.wrongType
      else .error .mismatch
    | (t, _) :: _ => .error t.nameFault
  | .gap (.cutText f _) => .error f
  | .gap .finish => .error .truncated
  | _ => .error .malformed

/-! ### Records -/

/-- A member that a record is to have. -/
structure Field where
  name : String
  reader : Reader
  /-- The value when it is missing; without one it must be there. -/
  fallback : Option Value := none

/-- The member values in the order of the fields, the missing ones filled in. -/
def complete (found : List (String × Value)) : List Field → Except Fault (List (String × Value))
  | [] => .ok []
  | field :: rest =>
    match found.lookup field.name, field.fallback with
    | some v, _ | none, some v => (complete found rest).map ((field.name, v) :: ·)
    | none, none => .error .mismatch

/-- Reads the members in text order: a known one only once, an unknown one by skipping it. -/
def members (fields : List Field) (depth : Nat) (found : List (String × Value)) :
    List (Token × Doc) → Except Fault (List (String × Value))
  | [] => .ok found
  | (.text name, d) :: rest =>
    match fields.find? (·.name == name) with
    | some field =>
      if (found.lookup name).isSome then .error .mismatch
      else
        match field.reader depth d with
        | .error f => .error f
        | .ok v => members fields depth ((name, v) :: found) rest
    | none =>
      match d.skipFault? with
      | some f => .error f
      | none => members fields depth found rest
  | (.loneSurrogate, _) :: _ => .error .malformed
  | (t, _) :: _ => .error t.nameFault

/-- Reads the members by position. -/
def positions (depth : Nat) (ending : Ending) :
    List Field → List Doc → Except Fault (List (String × Value))
  | [], [] => ended ending []
  | [], _ :: _ => .error .malformed
  | field :: fields, d :: ds =>
    match field.reader depth d with
    | .error f => .error f
    | .ok v => (positions depth ending fields ds).map ((field.name, v) :: ·)
  | field :: fields, [] =>
    match ending.fault?, field.fallback with
    | some f, _ => .error f
    | none, some v => (positions depth ending fields []).map ((field.name, v) :: ·)
    | none, none => .error .mismatch

/-- A record with the given fields. -/
def record (fields : List Field) : Reader := fun depth d =>
  match d with
  | .record ms ending => do
    let inside ← deeper depth
    let found ← members fields inside [] ms
    let found ← ended ending found
    return .record (← complete found fields)
  | .list ds ending => do
    let inside ← deeper depth
    return .record (← positions inside ending fields ds)
  | d => .error d.wrongType

/-! ### Tagged records -/

/-- Reads the tag, one of the given names. -/
def tag (names : List String) (d : Doc) : Except Fault String :=
  match d with
  | .text s => if s ∈ names then .ok s else .error .mismatch
  | d => .error d.wrongType

/-- Reads the tag and stores the other members. -/
def storeMembers (tagName : String) (names : List String) (depth : Nat) (found : Option String) :
    List (Token × Doc) → Except Fault (Option String)
  | [] => .ok found
  | (.text name, d) :: rest =>
    if name = tagName then
      if found.isSome then .error .mismatch
      else
        match tag names d with
        | .error f => .error f
        | .ok s => storeMembers tagName names depth (some s) rest
    else
      match d.storeFault? depth with
      | some f => .error f
      | none => storeMembers tagName names depth found rest
  | (.loneSurrogate, _) :: _ => .error .malformed
  | (t, _) :: _ => .error t.nameFault

/-- A stored record whose tag is known. What is wrong with it now is its shape. -/
def stored (variants : List (String × List Field)) (tagName kind : String)
    (read : List Field → Except Fault (List (String × Value))) : Except Fault Value :=
  match variants.lookup kind with
  | none => .error .mismatch
  | some fields =>
    match read fields with
    | .error _ => .error .mismatch
    | .ok found => .ok (.record ((tagName, .text kind) :: found))

/-- A record whose member `tagName` says which fields it has. It is stored as a whole first, so the
tag may stand anywhere. From a list the tag is the first item. -/
def tagged (tagName : String) (variants : List (String × List Field)) : Reader := fun depth d =>
  let names := variants.map (·.1)
  match d with
  | .record ms ending => do
    let inside ← deeper depth
    let found ← storeMembers tagName names inside none ms
    let found ← ended ending found
    match found with
    | none => .error .mismatch
    | some kind =>
      let others := ms.filter fun m => m.1 != .text tagName
      stored variants tagName kind fun fields => do
        complete (← members fields inside [] others) fields
  | .list [] ending => do
    let _ ← deeper depth
    let _ ← ended ending ()
    .error .mismatch
  | .list (d :: ds) ending => do
    let inside ← deeper depth
    let kind ← tag names d
    match (itemsStoreFault? inside ds).or ending.fault? with
    | some f => .error f
    | none => stored variants tagName kind fun fields => positions inside .closed fields ds
  | d => .error d.wrongType

end Reader

/-! ### Texts -/

/-- Depth of lists and records that a text may have where it is read. -/
def depthLimit : Nat := 128

/-- Reads a whole text; nothing may follow its value. -/
def read (r : Reader) (s : String) : Except Fault Value :=
  let (d, next) := parse s
  match r depthLimit d with
  | .error f => .error f
  | .ok v => if next = .finish then .ok v else .error .malformed

/-- A type with a JSON form. -/
class Form (α : Type) where
  /-- The shape that is read. -/
  reader : Reader
  /-- The value that is written. -/
  toValue : α → Value
  /-- The meaning of a value that `reader` has accepted. -/
  ofValue? : Value → Option α

def decode {α : Type} [Form α] (s : String) : Except Fault α :=
  match read (Form.reader α) s with
  | .error f => .error f
  | .ok v =>
    match Form.ofValue? v with
    | some a => .ok a
    | none => .error .mismatch

def encode {α : Type} [Form α] (a : α) : String := (Form.toValue a).render

end TorrentHandle.Json
