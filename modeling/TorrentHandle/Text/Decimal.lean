/-!
Natural numbers in decimal: the digits of a number without leading zeros, and the number that a
text stands for when a limit bounds it.
-/

namespace TorrentHandle.Text.Decimal

/-- The digits of `n`, most significant first. -/
def digits (n : Nat) : List Char := Nat.toDigits 10 n

/-- The number that digits stand for. -/
def value (ds : List Char) : Nat := Nat.ofDigitChars 10 ds 0

/-- The number of a non-empty row of ASCII digits, if it is at most `limit`. -/
def digitsValue? (limit : Nat) (ds : List Char) : Option Nat :=
  if ds.isEmpty || !ds.all Char.isDigit then none
  else if value ds ≤ limit then some (value ds)
  else none

/-- The number of a row of digits after at most one plus sign. -/
def parse? (limit : Nat) : List Char → Option Nat
  | '+' :: ds => digitsValue? limit ds
  | ds => digitsValue? limit ds

def render (n : Nat) : String := String.ofList (digits n)

/-- An integer in decimal: a minus sign before the digits of a negative one. -/
def intDigits : Int → List Char
  | .ofNat n => digits n
  | .negSucc n => '-' :: digits (n + 1)

end TorrentHandle.Text.Decimal
