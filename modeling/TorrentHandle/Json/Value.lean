import TorrentHandle.Text.Decimal
import TorrentHandle.Text.Hex

/-!
JSON values and their compact text: no spaces, members in the order of the record, and in texts
only quotes, backslashes and the control characters below U+0020 escaped.
-/

namespace TorrentHandle.Json

open TorrentHandle.Text

/-- A JSON value without fractions. -/
inductive Value where
  | null
  | bool (b : Bool)
  | integer (i : Int)
  | text (s : String)
  | list (items : List Value)
  | record (members : List (String × Value))
  deriving Inhabited

/-- A character inside quotes. -/
def quoteChar (c : Char) : List Char :=
  if c = '"' then ['\\', '"']
  else if c = '\\' then ['\\', '\\']
  else if c = '\x08' then ['\\', 'b']
  else if c = '\x0c' then ['\\', 'f']
  else if c = '\n' then ['\\', 'n']
  else if c = '\r' then ['\\', 'r']
  else if c = '\t' then ['\\', 't']
  else if c.toNat < 0x20 then
    ['\\', 'u', '0', '0', Hex.lowerDigit (c.toNat / 16), Hex.lowerDigit (c.toNat % 16)]
  else [c]

def quote (s : String) : List Char := '"' :: s.toList.flatMap quoteChar ++ ['"']

mutual

/-- The compact text of a value. -/
def Value.chars : Value → List Char
  | .null => ['n', 'u', 'l', 'l']
  | .bool true => ['t', 'r', 'u', 'e']
  | .bool false => ['f', 'a', 'l', 's', 'e']
  | .integer i => Decimal.intDigits i
  | .text s => quote s
  | .list [] => ['[', ']']
  | .list (v :: rest) => '[' :: (v.chars ++ itemChars rest)
  | .record [] => ['\x7b', '\x7d']
  | .record ((name, v) :: rest) => '\x7b' :: (quote name ++ ':' :: (v.chars ++ memberChars rest))

/-- The items after the first, and the closing bracket. -/
def itemChars : List Value → List Char
  | [] => [']']
  | v :: rest => ',' :: (v.chars ++ itemChars rest)

/-- The members after the first, and the closing bracket. -/
def memberChars : List (String × Value) → List Char
  | [] => ['\x7d']
  | (name, v) :: rest => ',' :: (quote name ++ ':' :: (v.chars ++ memberChars rest))

end

def Value.render (v : Value) : String := String.ofList v.chars

end TorrentHandle.Json
