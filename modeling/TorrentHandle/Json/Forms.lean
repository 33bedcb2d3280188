import TorrentHandle.Json.Reader

/-!
JSON forms of texts, truth values, fixed-width integers and lists.
-/

namespace TorrentHandle.Json

/-- A field with the form of a type. -/
def Reader.Field.of (α : Type) [Form α] (name : String) : Reader.Field :=
  { name, reader := Form.reader α }

def ofItems? {α : Type} [Form α] : List Value → Option (List α)
  | [] => some []
  | v :: rest =>
    match Form.ofValue? v, ofItems? rest with
    | some a, some as => some (a :: as)
    | _, _ => none

/-- Items by their form. -/
instance {α : Type} [Form α] : Form (List α) where
  reader := .list (Form.reader α)
  toValue as := .list (as.map Form.toValue)
  ofValue?
    | .list vs => ofItems? vs
    | _ => none

instance : Form String where
  reader := .text
  toValue s := .text s
  ofValue?
    | .text s => some s
    | _ => none

instance : Form Bool where
  reader := .bool
  toValue b := .bool b
  ofValue?
    | .bool b => some b
    | _ => none

instance : Form UInt8 where
  reader := .unsigned 8
  toValue n := .integer n.toNat
  ofValue?
    | .integer i => some (UInt8.ofNat i.toNat)
    | _ => none

instance : Form UInt32 where
  reader := .unsigned 32
  toValue n := .integer n.toNat
  ofValue?
    | .integer i => some (UInt32.ofNat i.toNat)
    | _ => none

instance : Form UInt64 where
  reader := .unsigned 64
  toValue n := .integer n.toNat
  ofValue?
    | .integer i => some (UInt64.ofNat i.toNat)
    | _ => none

instance : Form Int32 where
  reader := .signed 32
  toValue n := .integer n.toInt
  ofValue?
    | .integer i => some (Int32.ofInt i)
    | _ => none

instance : Form Int64 where
  reader := .signed 64
  toValue n := .integer n.toInt
  ofValue?
    | .integer i => some (Int64.ofInt i)
    | _ => none

/-- A text, or null for none. -/
instance : Form (Option String) where
  reader := .optionalText
  toValue
    | some s => .text s
    | none => .null
  ofValue?
    | .text s => some (some s)
    | .null => some none
    | _ => none

end TorrentHandle.Json
