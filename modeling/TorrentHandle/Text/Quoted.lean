import TorrentHandle.Text.Unprintable

/-!
Texts in quotes for a log line: quotes, backslashes and the four usual controls have short escapes,
other characters that are not shown have their code point in hexadecimal.
-/

namespace TorrentHandle.Text.Quoted

/-- Escape with a code point. -/
def codeEscape (c : Char) : List Char :=
  ['\\', 'u', '\x7b'] ++ Nat.toDigits 16 c.toNat ++ ['\x7d']

def encodeChar (c : Char) : List Char :=
  if c = '"' then ['\\', '"']
  else if c = '\\' then ['\\', '\\']
  else if c = '\n' then ['\\', 'n']
  else if c = '\r' then ['\\', 'r']
  else if c = '\t' then ['\\', 't']
  else if c = '\x00' then ['\\', '0']
  else if isUnprintable c then codeEscape c
  else [c]

def encode (s : String) : String :=
  String.ofList ('"' :: s.toList.flatMap encodeChar ++ ['"'])

end TorrentHandle.Text.Quoted
