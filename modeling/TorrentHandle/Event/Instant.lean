import TorrentHandle.Text.Blank
import TorrentHandle.Text.Decimal

/-!
Instants, as a day, a second of the day and nanoseconds, all in UTC, and their RFC 3339 text.

Reading is lenient: blanks may stand before every number and around the marks, numbers may be
shorter than their width, and a year with a sign may have any number of digits. A second may be 60;
it is kept as the second before with a second's worth of nanoseconds more. Writing uses 0, 3, 6 or
9 digits for the fraction, the fewest that lose nothing.
-/

namespace TorrentHandle

open TorrentHandle.Text

/-- A point in time. -/
structure Instant where
  /-- Days since 1970-01-01. -/
  day : Int
  /-- Second of the day. -/
  second : Nat
  /-- Nanoseconds; a billion and more in a leap second. -/
  nanos : Nat
  deriving DecidableEq

/-! ### Calendar -/

/-- A date of the Gregorian calendar. -/
structure Date where
  year : Int
  month : Nat
  day : Nat
  deriving DecidableEq

namespace Date

def isLeapYear (year : Int) : Bool := year % 4 == 0 && (year % 100 != 0 || year % 400 == 0)

def monthLength (year : Int) (month : Nat) : Nat :=
  if month = 2 then (if isLeapYear year then 29 else 28)
  else if month = 4 ∨ month = 6 ∨ month = 9 ∨ month = 11 then 30
  else 31

def minYear : Int := -262143

def maxYear : Int := 262142

def isValid (d : Date) : Bool :=
  1 ≤ d.month && d.month ≤ 12 && 1 ≤ d.day && d.day ≤ monthLength d.year d.month &&
    minYear ≤ d.year && d.year ≤ maxYear

/-- Days since 1970-01-01, counted in years that begin in March. -/
def toDays (d : Date) : Int :=
  let year := if d.month ≤ 2 then d.year - 1 else d.year
  let month := if d.month ≤ 2 then d.month + 9 else d.month - 3
  365 * year + year / 4 - year / 100 + year / 400 + (153 * month + 2) / 5 + d.day - 1 - 719468

def ofDays (days : Int) : Date :=
  let z := days + 719468
  let era := z / 146097
  let dayOfEra := (z % 146097).toNat
  let yearOfEra := (dayOfEra - dayOfEra / 1460 + dayOfEra / 36524 - dayOfEra / 146096) / 365
  let dayOfYear := dayOfEra - (365 * yearOfEra + yearOfEra / 4 - yearOfEra / 100)
  let month := (5 * dayOfYear + 2) / 153
  let day := dayOfYear - (153 * month + 2) / 5 + 1
  let year : Int := yearOfEra + era * 400
  if month < 10 then ⟨year, month + 3, day⟩ else ⟨year + 1, month - 9, day⟩

end Date

/-! ### Writing -/

/-- The digits of `n`, filled with zeros to a width. -/
def padded (width n : Nat) : List Char :=
  let ds := Decimal.digits n
  List.replicate (width - ds.length) '0' ++ ds

namespace Instant

/-- Four digits, or a sign and at least four. -/
def yearChars (year : Int) : List Char :=
  if 0 ≤ year ∧ year ≤ 9999 then padded 4 year.toNat
  else (if year < 0 then '-' else '+') :: padded 4 year.natAbs

def fractionChars (nanos : Nat) : List Char :=
  if nanos = 0 then []
  else if nanos % 1000000 = 0 then '.' :: padded 3 (nanos / 1000000)
  else if nanos % 1000 = 0 then '.' :: padded 6 (nanos / 1000)
  else '.' :: padded 9 nanos

/-- The RFC 3339 text. -/
def render (t : Instant) : String :=
  let date := Date.ofDays t.day
  let leap := t.nanos / 1000000000
  String.ofList <|
    yearChars date.year ++ '-' :: padded 2 date.month ++ '-' :: padded 2 date.day ++
    'T' :: padded 2 (t.second / 3600) ++ ':' :: padded 2 (t.second / 60 % 60) ++
    ':' :: padded 2 (t.second % 60 + leap) ++ fractionChars (t.nanos % 1000000000) ++ ['Z']

/-! ### Reading -/

/-- A number of at least one and at most `width` digits, and the rest. -/
def number? (width : Nat) (cs : List Char) : Option (Nat × List Char) :=
  let ds := (cs.take width).takeWhile Char.isDigit
  if ds.isEmpty then none else some (Decimal.value ds, cs.drop ds.length)

/-- A number after blanks. -/
def item? (width : Nat) (cs : List Char) : Option (Nat × List Char) :=
  number? width (cs.dropWhile isBlank)

/-- A mark after blanks. -/
def mark? (c : Char) (cs : List Char) : Option (List Char) :=
  match cs.dropWhile isBlank with
  | d :: rest => if d = c then some rest else none
  | [] => none

/-- A year: at most four digits, or a sign and any number of digits. -/
def year? (cs : List Char) : Option (Int × List Char) :=
  match cs.dropWhile isBlank with
  | '-' :: rest => (number? rest.length rest).map fun (n, rest) => (-(n : Int), rest)
  | '+' :: rest => (number? rest.length rest).map fun (n, rest) => ((n : Int), rest)
  | cs => (number? 4 cs).map fun (n, rest) => ((n : Int), rest)

/-- A fraction of a second in nanoseconds, if there is one; digits after the ninth do not count. -/
def fraction? : List Char → Option (Nat × List Char)
  | '.' :: rest =>
    let ds := rest.takeWhile Char.isDigit
    if ds.isEmpty then none
    else
      let kept := ds.take 9
      some (Decimal.value kept * Nat.pow 10 (9 - kept.length), rest.drop ds.length)
  | cs => some (0, cs)

/-- Two digits. -/
def pair? : List Char → Option (Nat × List Char)
  | a :: b :: rest =>
    if a.isDigit && b.isDigit then some (Decimal.value [a, b], rest) else none
  | _ => none

/-- A signed distance from UTC in seconds: two digits for hours and two for minutes. -/
def distance? (negative : Bool) (cs : List Char) : Option (Int × List Char) := do
  let (hours, cs) ← pair? cs
  let (minutes, cs) ← pair? (cs.dropWhile fun c => c == ':' || isBlank c)
  if minutes < 60 ∧ hours < 24 then
    let seconds : Int := hours * 3600 + minutes * 60
    some (if negative then -seconds else seconds, cs)
  else none

/-- The distance from UTC: the letters `UTC` or `Z`, or a signed one. -/
def offset? (cs : List Char) : Option (Int × List Char) :=
  if (cs.take 3).map Char.toUpper = ['U', 'T', 'C'] then some (0, cs.drop 3)
  else
    match cs with
    | 'Z' :: rest | 'z' :: rest => some (0, rest)
    | '+' :: rest => distance? false rest
    | '-' :: rest | '\u2212' :: rest => distance? true rest
    | _ => none

def ofText? (s : String) : Option Instant := do
  let (year, cs) ← year? s.toList
  let cs ← mark? '-' cs
  let (month, cs) ← item? 2 cs
  let cs ← mark? '-' cs
  let (day, cs) ← item? 2 cs
  let cs ← match cs with
    | 'T' :: rest | 't' :: rest | ' ' :: rest => some rest
    | _ => none
  let (hour, cs) ← item? 2 cs
  let cs ← mark? ':' cs
  let (minute, cs) ← item? 2 cs
  let cs ← mark? ':' cs
  let (second, cs) ← item? 2 cs
  let (nanos, cs) ← fraction? cs
  let (offset, cs) ← offset? (cs.dropWhile isBlank)
  let date : Date := ⟨year, month, day⟩
  if cs.all isBlank ∧ date.isValid ∧ hour < 24 ∧ minute < 60 ∧ second ≤ 60 then
    let leap := second / 60
    let total : Int := date.toDays * 86400 + hour * 3600 + minute * 60 + (second - leap) - offset
    let t : Instant := ⟨total / 86400, (total % 86400).toNat, nanos + leap * 1000000000⟩
    let utcYear := (Date.ofDays t.day).year
    if Date.minYear ≤ utcYear ∧ utcYear ≤ Date.maxYear then some t else none
  else none

end Instant

end TorrentHandle
