import TorrentHandle.Text.Hex

/-!
Percent encoding: ASCII letters, digits and `-`, `_`, `.`, `~` stand for themselves, every other
byte of the UTF-8 form is a percent sign and two upper-case digits.
-/

namespace TorrentHandle.Text.Percent

/-- Characters that are written as they are. -/
def isUnreserved (c : Char) : Bool :=
  c.isAlphanum || c == '-' || c == '_' || c == '.' || c == '~'

def encodeByte (b : UInt8) : List Char :=
  ['%', Hex.upperDigit (b.toNat / 16), Hex.upperDigit (b.toNat % 16)]

/-- One character, escaped unless it is unreserved. -/
def encodeChar (c : Char) : List Char :=
  if isUnreserved c then [c] else (String.utf8EncodeChar c).flatMap encodeByte

def encode (s : String) : List Char := s.toList.flatMap encodeChar

/-- The bytes that an encoded text stands for; an escape without two digits stands for itself. -/
def decodeBytes : List Char → List UInt8
  | [] => []
  | '%' :: a :: b :: rest =>
    match Hex.digitValue? a, Hex.digitValue? b with
    | some hi, some lo => UInt8.ofNat (16 * hi + lo) :: decodeBytes rest
    | _, _ => String.utf8EncodeChar '%' ++ decodeBytes (a :: b :: rest)
  | c :: rest => String.utf8EncodeChar c ++ decodeBytes rest

/-- The text that an encoded text stands for, if its bytes are UTF-8. -/
def decode? (cs : List Char) : Option String :=
  String.fromUTF8? ⟨(decodeBytes cs).toArray⟩

end TorrentHandle.Text.Percent
