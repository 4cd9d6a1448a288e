/-!
The fewest decimal digits that still name a 64-bit binary fraction. A word is read as `significand * 2 ^ exponent`;
every real number nearer to it than to its neighbours stands for it, and the digits are sought inside that interval
on coarser to finer decimal grids, in exact arithmetic.
-/

namespace SchemaGuide.Decimal

/-- The parts of a finite binary fraction. Below the least significand of a binade the gap is half as wide. -/
structure Binary where
  negative : Bool
  significand : Nat
  exponent : Int
  narrowBelow : Bool

namespace Binary

/-- The parts that a 64-bit word encodes: a sign bit, eleven exponent bits, fifty-two significand bits. -/
def ofBits (word : UInt64) : Binary :=
  let biased := (word.toNat / 0x10000000000000) % 0x800
  let stored := word.toNat % 0x10000000000000
  { negative := 0x8000000000000000 ≤ word.toNat
    significand := if biased = 0 then stored else 0x10000000000000 + stored
    exponent := if biased = 0 then -1074 else Int.ofNat biased - 1075
    narrowBelow := stored = 0 && 1 < biased }

end Binary

/-- What is done when two decimals are equally near. -/
inductive Tie where
  | toEven
  | up

/-- The reals that stand for a value, all over one denominator; the ends belong to it when `closed`. -/
structure Interval where
  low : Nat
  value : Nat
  high : Nat
  denominator : Nat
  closed : Bool

namespace Interval

/-- Half a gap to either side, counted in quarters of the last binary place. -/
def ofBinary (b : Binary) : Interval :=
  let scale := Nat.pow 2 (b.exponent - 2).toNat
  { low := (4 * b.significand - if b.narrowBelow then 1 else 2) * scale
    value := 4 * b.significand * scale
    high := (4 * b.significand + 2) * scale
    denominator := Nat.pow 2 (2 - b.exponent).toNat
    closed := b.significand % 2 = 0 }

def inUnitsOf (i : Interval) (place : Int) : Interval :=
  let factor := Nat.pow 10 (-place).toNat
  { i with
    low := i.low * factor, value := i.value * factor, high := i.high * factor
    denominator := i.denominator * Nat.pow 10 place.toNat }

def holds (i : Interval) (k : Nat) : Bool :=
  if i.closed then i.low ≤ k * i.denominator && k * i.denominator ≤ i.high
  else i.low < k * i.denominator && k * i.denominator < i.high

/-- The whole number nearest to the value among those in the interval. Only the two neighbours of the value can be. -/
def nearest? (i : Interval) (tie : Tie) : Option Nat :=
  let below := i.value / i.denominator
  match i.holds below, i.holds (below + 1) with
  | false, false => none
  | true, false => some below
  | false, true => some (below + 1)
  | true, true =>
    let twice := 2 * (i.value % i.denominator)
    if twice < i.denominator then some below
    else if i.denominator < twice then some (below + 1)
    else match tie with
      | .toEven => some (if below % 2 = 0 then below else below + 1)
      | .up => some (below + 1)

/-- How often `value` must be taken ten times to reach `goal`, within `bound` tries. -/
def timesTen (value goal : Nat) : (bound : Nat) → Nat
  | 0 => 0
  | bound + 1 => if goal ≤ value then 0 else timesTen (10 * value) goal bound + 1

/-- The power of ten of the first digit of the value. No binary fraction lies below `10 ^ -324`. -/
def leadingPlace (i : Interval) : Int :=
  if i.denominator ≤ i.value then (Nat.toDigits 10 (i.value / i.denominator)).length - 1
  else -(timesTen i.value i.denominator 324)

end Interval

/-- A decimal: its digits, first one first and the last one not zero, and the power of ten of the first. -/
structure Digits where
  digits : List Char
  place : Int

namespace Digits

def zero : Digits := ⟨['0'], 0⟩

/-- The digits of `count * 10 ^ place`, without trailing zeros. -/
def ofScaled (count : Nat) (place : Int) : Digits :=
  let written := Nat.toDigits 10 count
  ⟨(written.reverse.dropWhile (· = '0')).reverse, place + written.length - 1⟩

/-- The shortest decimal of a positive value; seventeen digits always suffice. -/
def shortest (b : Binary) (tie : Tie) : Digits :=
  if b.significand = 0 then zero
  else
    let interval := Interval.ofBinary b
    let first := interval.leadingPlace
    let found := (List.range 17).findSome? fun more =>
      let place := first - Int.ofNat more
      ((interval.inUnitsOf place).nearest? tie).map (ofScaled · place)
    found.getD zero

end Digits

end SchemaGuide.Decimal
