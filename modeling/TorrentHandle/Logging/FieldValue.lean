import TorrentHandle.Logging.Pattern.Check

/-!
What a directive may ask of the value of a field: a truth value, a number or a pattern. Truth values
and numbers are patterns themselves, but for numbers with a plus sign, which a pattern cannot begin
with.
-/

namespace TorrentHandle.Logging.FieldValue

/-- Names of what is no finite number, in any case. -/
def specialNames : List String := ["inf", "infinity", "nan"]

/-- Whether a text is empty or the exponent of a number. -/
def isExponent : List Char → Bool
  | [] => true
  | 'e' :: rest | 'E' :: rest =>
    let digits := match rest with
      | '+' :: more | '-' :: more => more
      | _ => rest
    !digits.isEmpty && digits.all Char.isDigit
  | _ => false

/-- Whether a text is a decimal number without a sign. Digits may be missing on one side of the
point. -/
def isUnsigned (cs : List Char) : Bool :=
  let whole := cs.takeWhile Char.isDigit
  match cs.dropWhile Char.isDigit with
  | '.' :: rest =>
    (!whole.isEmpty || !(rest.takeWhile Char.isDigit).isEmpty) &&
      isExponent (rest.dropWhile Char.isDigit)
  | rest => !whole.isEmpty && isExponent rest

def isPlusNumber : List Char → Bool
  | '+' :: rest =>
    isUnsigned rest || specialNames.any fun name => name.toList == rest.map Char.toLower
  | _ => false

/-- Whether a text can stand for values. -/
def isValid (cs : List Char) : Bool := isPlusNumber cs || Pattern.isPattern cs

end TorrentHandle.Logging.FieldValue
