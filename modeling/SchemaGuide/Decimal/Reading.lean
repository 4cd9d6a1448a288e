import SchemaGuide.Text.Numeral

/-!
Numbers read from free text. A whole number is an optional sign and digits. A double is an optional sign, then digits
with an optional point and exponent, or a word for infinity or for no number; the result is the double nearest to the
decimal.
-/

namespace SchemaGuide.Decimal

/-- The double nearest to `count * 10 ^ place`. Far outside the range of doubles the answer is known beforehand, so
that no power of an unbounded exponent is computed: a count of so many bits is at least `10 ^ (3 * bits / 10)` and less
than `10 ^ (bits / 3 + 1)`. -/
def nearest (count : Nat) (place : Int) : Float :=
  let bits := Nat.log2 count
  if count = 0 || place + (bits / 3 + 1 : Nat) < -330 then 0.0
  else if 310 < place + (3 * bits / 10 : Nat) then 1.0 / 0.0
  else Float.ofScientific count (place < 0) place.natAbs

namespace Reading

def signed : List Char → Bool × List Char
  | '-' :: rest => (true, rest)
  | '+' :: rest => (false, rest)
  | text => (false, text)

def int? (text : List Char) : Option Int :=
  let (negative, digits) := signed text
  let value : Int := if negative then -(Numeral.value digits) else Numeral.value digits
  if Numeral.isNumeral digits && Numeral.isSignedWord value then some value else none

/-- The value of an exponent with its mark; no mark is exponent zero. -/
def exponent? : List Char → Option Int
  | [] => some 0
  | mark :: rest =>
    let (negative, digits) := signed rest
    if (mark = 'e' || mark = 'E') && Numeral.isNumeral digits then
      some (if negative then -(Numeral.value digits) else Numeral.value digits)
    else none

/-- Digits around an optional point, at least one, then an optional exponent. -/
def decimal? (text : List Char) : Option Float :=
  let whole := text.takeWhile Char.isDigit
  let (decimals, rest) := match text.dropWhile Char.isDigit with
    | '.' :: more => (more.takeWhile Char.isDigit, more.dropWhile Char.isDigit)
    | other => ([], other)
  if whole.isEmpty && decimals.isEmpty then none
  else (exponent? rest).map fun exponent => nearest (Numeral.value (whole ++ decimals)) (exponent - decimals.length)

/-- A number without its sign, or one of the words, in letters of either case. -/
def magnitude? (text : List Char) : Option Float :=
  let word := String.ofList (text.map Char.toLower)
  if word = "inf" || word = "infinity" then some (1.0 / 0.0)
  else if word = "nan" then some (0.0 / 0.0)
  else decimal? text

def float? (text : List Char) : Option Float :=
  let (negative, rest) := signed text
  (magnitude? rest).map fun x => if negative then -x else x

end Reading

end SchemaGuide.Decimal
