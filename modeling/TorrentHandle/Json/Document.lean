import TorrentHandle.Json.Token

/-!
The tree of a JSON text, as far as the text goes. Where the text breaks off the tree has a gap that
keeps the token found there, so that a reader which walks the tree in text order meets its own
problems and those of the text in the right order.
-/

namespace TorrentHandle.Json

/-- How a list or record ends. -/
inductive Ending where
  /-- With its closing bracket. -/
  | closed
  /-- After a complete part, with neither a comma nor the closing bracket. -/
  | cut (f : Fault)
  /-- Inside its last part. -/
  | inner
  deriving DecidableEq, Repr

/-- A JSON value as written, possibly incomplete. The name of a member is the token in its place,
a text unless the record breaks off there. -/
inductive Doc where
  | null
  | bool (b : Bool)
  | number (n : Number)
  | text (s : String)
  | loneSurrogate
  | list (items : List Doc) (ending : Ending)
  | record (members : List (Token × Doc)) (ending : Ending)
  /-- No value stands here, but this token. -/
  | gap (found : Token)

/-! ### From tokens -/

/-- A list or record that is still open, with its parts so far, latest first. -/
inductive Frame where
  | list (done : List Doc)
  | record (done : List (Token × Doc)) (name : Token)

/-- What is expected next. -/
inductive Mode where
  /-- A value, or the end of a list that has none yet. -/
  | value
  /-- What follows a value. -/
  | after (d : Doc)
  /-- The name of a member, or the end of a record that has none yet. -/
  | name (done : List (Token × Doc))
  /-- The colon after a name. -/
  | colon (done : List (Token × Doc)) (name : Token)

/-- Ends every open list and record inside its last part. -/
def abandon (d : Doc) : List Frame → Doc
  | [] => d
  | .list done :: frames => abandon (.list (d :: done).reverse .inner) frames
  | .record done name :: frames => abandon (.record ((name, d) :: done).reverse .inner) frames

/-- The gap where a colon is missing. -/
def colonGap (t : Token) : Doc := .gap (if t = .finish then .finish else .stray)

/-- The tree of the first value, and the token after it. -/
def assemble (frames : List Frame) (mode : Mode) : List Token → Doc × Token
  | [] =>
    match mode with
    | .value => (abandon (.gap .finish) frames, .finish)
    | .name done | .colon done _ =>
      (abandon (.record ((.finish, .gap .finish) :: done).reverse .inner) frames, .finish)
    | .after d =>
      match frames with
      | [] => (d, .finish)
      | .list done :: frames =>
        (abandon (.list (d :: done).reverse (.cut .truncated)) frames, .finish)
      | .record done name :: frames =>
        (abandon (.record ((name, d) :: done).reverse (.cut .truncated)) frames, .finish)
  | t :: ts =>
    match mode with
    | .value =>
      match t with
      | .null => assemble frames (.after .null) ts
      | .bool b => assemble frames (.after (.bool b)) ts
      | .number n => assemble frames (.after (.number n)) ts
      | .text s => assemble frames (.after (.text s)) ts
      | .loneSurrogate => assemble frames (.after .loneSurrogate) ts
      | .openList => assemble (.list [] :: frames) .value ts
      | .openRecord => assemble frames (.name []) ts
      | .closeList =>
        match frames with
        | .list [] :: frames => assemble frames (.after (.list [] .closed)) ts
        | _ => (abandon (.gap t) frames, .finish)
      | _ => (abandon (.gap t) frames, .finish)
    | .after d =>
      match frames with
      | [] => (d, t)
      | .list done :: frames =>
        match t with
        | .comma => assemble (.list (d :: done) :: frames) .value ts
        | .closeList => assemble frames (.after (.list (d :: done).reverse .closed)) ts
        | _ => (abandon (.list (d :: done).reverse (.cut t.markFault)) frames, .finish)
      | .record done name :: frames =>
        match t with
        | .comma => assemble frames (.name ((name, d) :: done)) ts
        | .closeRecord =>
          assemble frames (.after (.record ((name, d) :: done).reverse .closed)) ts
        | _ => (abandon (.record ((name, d) :: done).reverse (.cut t.markFault)) frames, .finish)
    | .name done =>
      match t with
      | .text _ | .loneSurrogate => assemble frames (.colon done t) ts
      | .closeRecord =>
        if done.isEmpty then assemble frames (.after (.record [] .closed)) ts
        else (abandon (.record ((t, .gap t) :: done).reverse .inner) frames, .finish)
      | _ => (abandon (.record ((t, .gap t) :: done).reverse .inner) frames, .finish)
    | .colon done name =>
      match t with
      | .colon => assemble (.record done name :: frames) .value ts
      | _ => (abandon (.record ((name, colonGap t) :: done).reverse .inner) frames, .finish)

/-- The tree of a text, and the token after it. -/
def parse (text : String) : Doc × Token := assemble [] .value (tokens text.toList)

/-! ### Skipping and storing -/

mutual

/-- The fault of skipping a value. Only the last part of a list or record can hold one. -/
def Doc.skipFault? : Doc → Option Fault
  | .list _ .closed | .record _ .closed => none
  | .list _ (.cut f) | .record _ (.cut f) => some f
  | .list items .inner => lastSkipFault? items
  | .record members .inner => lastMemberSkipFault? members
  | .gap t => some t.skipFault
  | _ => none

def lastSkipFault? : List Doc → Option Fault
  | [] => some .malformed
  | [d] => d.skipFault?
  | _ :: rest => lastSkipFault? rest

def lastMemberSkipFault? : List (Token × Doc) → Option Fault
  | [] => some .malformed
  | [(name, d)] =>
    match name with
    | .text _ | .loneSurrogate => d.skipFault?
    | t => some t.skipNameFault
  | _ :: rest => lastMemberSkipFault? rest

end

/-- Depth that is left inside one more list or record; the innermost level is not entered. -/
def deeper : Nat → Except Fault Nat
  | depth + 2 => .ok (depth + 1)
  | _ => .error .malformed

def Ending.fault? : Ending → Option Fault
  | .closed => none
  | .cut f => some f
  | .inner => some .malformed

mutual

/-- The fault of storing a value for later: all of it is read, and its depth is bounded. -/
def Doc.storeFault? (depth : Nat) : Doc → Option Fault
  | .number .outOfRange => some .malformed
  | .loneSurrogate => some .malformed
  | .gap t => some t.readFault
  | .list items ending =>
    match deeper depth with
    | .error f => some f
    | .ok inside => (itemsStoreFault? inside items).or ending.fault?
  | .record members ending =>
    match deeper depth with
    | .error f => some f
    | .ok inside => (membersStoreFault? inside members).or ending.fault?
  | _ => none

/-- The fault of storing values: that of the first one that has one. -/
def itemsStoreFault? (depth : Nat) : List Doc → Option Fault
  | [] => none
  | d :: rest => (d.storeFault? depth).or (itemsStoreFault? depth rest)

/-- The fault of storing members: that of the first one that has one. -/
def membersStoreFault? (depth : Nat) : List (Token × Doc) → Option Fault
  | [] => none
  | (.text _, d) :: rest => (d.storeFault? depth).or (membersStoreFault? depth rest)
  | (t, _) :: _ => some t.nameFault

end

end TorrentHandle.Json
