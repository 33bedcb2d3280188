import TorrentHandle.Text.Decimal

/-!
Numbers of a JSON text. A number without fraction and exponent that fits 64 bits is an integer.
Every other number is a double-precision fraction, of which only one thing matters here: whether
its magnitude is in range.

The range test works on a decimal `s * 10 ^ e` whose significand `s` holds the leading digits as
far as 64 bits go. Both factors are rounded to doubles and so is their product; it is out of range
when the product reaches the midpoint between the greatest double and `2 ^ 1024`.
-/

namespace TorrentHandle.Json

open TorrentHandle.Text

/-- A number as it is written. An absent fraction has no digits. -/
structure Literal where
  negative : Bool
  whole : List Char
  fraction : List Char
  /-- Whether the exponent is negative, and its digits. -/
  exponent : Option (Bool × List Char)
  deriving DecidableEq, Repr

/-- What a number means to a reader. -/
inductive Number where
  | integer (value : Int)
  | fractional
  | outOfRange
  deriving DecidableEq, Repr

def maxUnsigned : Nat := 0xffffffffffffffff

/-- Magnitude of the least integer of 64 bits with a sign. -/
def minSignedMagnitude : Nat := 0x8000000000000000

/-- The double nearest to `n`, of two equally near ones the even one. It has 53 binary digits. -/
def nearestDouble (n : Nat) : Nat :=
  if n < 1 <<< 53 then n
  else
    let shift := Nat.log2 n - 52
    let kept := n >>> shift
    let lost := n % (1 <<< shift)
    let half := 1 <<< (shift - 1)
    let rounded := if lost > half || (lost == half && kept % 2 == 1) then kept + 1 else kept
    rounded <<< shift

/-- A decimal `significand * 10 ^ exponent`. -/
structure Scaled where
  significand : Nat
  exponent : Int
  deriving DecidableEq, Repr

/-- Takes in one more digit of the whole part. Once a digit did not fit, later ones only scale. -/
def Scaled.pushWhole (s : Scaled) (digit : Char) : Scaled :=
  let next := s.significand * 10 + (digit.toNat - 48)
  if s.exponent > 0 || next > maxUnsigned then { s with exponent := s.exponent + 1 }
  else { s with significand := next }

/-- Takes in the digits of the fraction up to the first one that does not fit. -/
def Scaled.pushFraction (s : Scaled) : List Char → Scaled
  | [] => s
  | digit :: rest =>
    let next := s.significand * 10 + (digit.toNat - 48)
    if next > maxUnsigned then s
    else Scaled.pushFraction ⟨next, s.exponent - 1⟩ rest

def Scaled.scale (s : Scaled) : Option (Bool × List Char) → Scaled
  | none => s
  | some (true, ds) => { s with exponent := s.exponent - Decimal.value ds }
  | some (false, ds) => { s with exponent := s.exponent + Decimal.value ds }

def Scaled.isFinite (s : Scaled) : Bool :=
  if s.significand == 0 || s.exponent < 0 then true
  else if s.exponent > 308 then false
  else nearestDouble s.significand * nearestDouble (Nat.pow 10 s.exponent.toNat)
    < (1 <<< 1024) - (1 <<< 970)

/-- The decimal that a literal stands for, sign apart. -/
def Literal.scaled (l : Literal) : Scaled :=
  ((l.whole.foldl Scaled.pushWhole ⟨0, 0⟩).pushFraction l.fraction).scale l.exponent

/-- The integer that a literal stands for, if it fits 64 bits; minus zero is none. -/
def Literal.integer? (l : Literal) : Option Int :=
  if l.fraction.isEmpty && l.exponent.isNone then
    let n := Decimal.value l.whole
    if l.negative then
      if 0 < n ∧ n ≤ minSignedMagnitude then some (-(n : Int)) else none
    else if n ≤ maxUnsigned then some n
    else none
  else none

def Literal.number (l : Literal) : Number :=
  match l.integer? with
  | some i => .integer i
  | none => if l.scaled.isFinite then .fractional else .outOfRange

end TorrentHandle.Json
