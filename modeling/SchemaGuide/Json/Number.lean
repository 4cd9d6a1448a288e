import SchemaGuide.Decimal.Layout
import SchemaGuide.Text.Numeral

/-!
Numbers of JSON. A number is a whole number of 64 bits, signed or unsigned, or a double. A text without point or
exponent is whole when it fits; `-0` is a double because no whole number has a sign without a value.
-/

namespace SchemaGuide

inductive Number where
  | int (value : Int)
  | float (value : Float)
  deriving DecidableEq

namespace Number

def toFloat : Number → Float
  | .int value => Float.ofInt value
  | .float value => value

def text : Number → String
  | .int value => value.repr
  | .float value => Decimal.Layout.json.text value

structure Spelling where
  negative : Bool
  whole : List Char
  decimals : Option (List Char)
  exponent : Option (Bool × List Char)

namespace Spelling

def exponentPart? : List Char → Option (Option (Bool × List Char))
  | [] => some none
  | mark :: rest =>
    let (negative, digits) := match rest with
      | '-' :: more => (true, more)
      | '+' :: more => (false, more)
      | more => (false, more)
    if (mark = 'e' || mark = 'E') && Numeral.isNumeral digits then some (some (negative, digits)) else none

/-- Splits a text by the grammar of JSON: no leading zero, a digit on each side of a point. -/
def read? (text : List Char) : Option Spelling :=
  let (negative, unsigned) := match text with
    | '-' :: rest => (true, rest)
    | rest => (false, rest)
  let whole := unsigned.takeWhile Char.isDigit
  let (decimals, rest) := match unsigned.dropWhile Char.isDigit with
    | '.' :: more => (some (more.takeWhile Char.isDigit), more.dropWhile Char.isDigit)
    | other => (none, other)
  if whole.isEmpty || (whole.head? = some '0' && 1 < whole.length) || decimals = some [] then none
  else (exponentPart? rest).map fun exponent => { negative, whole, decimals, exponent }

/-- Appends digits to a significand as long as it fits 64 bits, and counts those left over. -/
def gather (significand : Nat) : List Char → Nat × Nat
  | [] => (significand, 0)
  | digit :: rest =>
    let longer := 10 * significand + (digit.toNat - '0'.toNat)
    if longer ≤ Numeral.greatest then gather longer rest else (significand, rest.length + 1)

/-- Divides by `10 ^ places`, by the greatest power of ten that a double can hold at a time. -/
def shrink (x : Float) (places : Nat) : Float :=
  if places ≤ 308 then x / Float.ofScientific 1 false places
  else if x == 0.0 then x
  else shrink (x / Float.ofScientific 1 false 308) (places - 308)
termination_by places

/-- A significand times a power of ten; nothing when the result exceeds every double. -/
def scale? (significand : Nat) (exponent : Int) : Option Float :=
  let x := Float.ofNat significand
  if exponent < 0 then some (shrink x exponent.natAbs)
  else if exponent ≤ 308 then
    let scaled := x * Float.ofScientific 1 false exponent.toNat
    if scaled.isInf then none else some scaled
  else if significand = 0 then some x
  else none

/-- The double of a spelling. Digits that no longer fit the significand count only by their place. -/
def float? (s : Spelling) : Option Float :=
  let (significand, dropped) := gather 0 s.whole
  let decimals := s.decimals.getD []
  let (significand, unread) := gather significand decimals
  let shift : Int := match s.exponent with
    | none => 0
    | some (negative, digits) => if negative then -(Numeral.value digits) else Numeral.value digits
  let exponent := shift + dropped - (decimals.length - unread)
  (scale? significand exponent).map fun x => if s.negative then -x else x

def int? (s : Spelling) : Option Int :=
  let magnitude := Numeral.value s.whole
  if s.decimals.isSome || s.exponent.isSome then none
  else if s.negative then if 0 < magnitude && Numeral.isSignedWord (-magnitude) then some (-magnitude) else none
  else if magnitude ≤ Numeral.greatest then some magnitude else none

def number? (s : Spelling) : Option Number :=
  match s.int? with
  | some value => some (.int value)
  | none => s.float?.map .float

end Spelling

end Number

end SchemaGuide
