import SchemaGuide.Text.Numeral

/-!
Dates and times of TOML. A moment is a day of the Gregorian calendar, a time of day, or both, and with both perhaps an
offset from universal time. It has one normal form, whatever marks and fractions it was written with.
-/

namespace SchemaGuide.Toml

structure Day where
  year : Nat
  month : Nat
  day : Nat

structure Clock where
  hour : Nat
  minute : Nat
  second : Nat
  nanosecond : Nat

inductive Offset where
  | universal
  /-- Minutes ahead of universal time. -/
  | ahead (minutes : Int)

inductive Moment where
  | day (date : Day)
  | clock (time : Clock)
  | both (date : Day) (time : Clock) (offset : Option Offset)

namespace Moment

def isLeap (year : Nat) : Bool := year % 4 = 0 && (year % 100 ≠ 0 || year % 400 = 0)

def daysOf (year month : Nat) : Nat :=
  if month = 2 then if isLeap year then 29 else 28
  else if [4, 6, 9, 11].contains month then 30
  else 31

/-- A number of so many digits between two bounds, at the start of a text. -/
def part? (digits low high : Nat) (text : List Char) : Option (Nat × List Char) :=
  let front := text.take digits
  let value := Numeral.value front
  if front.length = digits && front.all Char.isDigit && low ≤ value && value ≤ high then some (value, text.drop digits)
  else none

def mark? (mark : Char) : List Char → Option (List Char)
  | c :: rest => if c = mark then some rest else none
  | [] => none

def day? (text : List Char) : Option (Day × List Char) := do
  let (year, rest) ← part? 4 0 9999 text
  let (month, rest) ← part? 2 1 12 (← mark? '-' rest)
  let (ofMonth, rest) ← part? 2 1 (daysOf year month) (← mark? '-' rest)
  some (⟨year, month, ofMonth⟩, rest)

/-- The fraction of a second after a point, in whole nanoseconds. -/
def fraction (text : List Char) : Nat × List Char :=
  match text with
  | '.' :: rest =>
    let digits := rest.takeWhile Char.isDigit
    if digits.isEmpty then (0, text)
    else
      let front := digits.take 9
      (Numeral.value (front ++ List.replicate (9 - front.length) '0'), rest.drop digits.length)
  | _ => (0, text)

/-- How strictly a moment is read. -/
inductive Rigor where
  /-- As a value of its own. -/
  | strict
  /-- From a text, where midnight may be hour 24 and an offset as long as a day. -/
  | loose
  deriving DecidableEq

def Rigor.lastHour : Rigor → Nat
  | strict => 23
  | loose => 24

/-- A second may be a leap second. -/
def clock? (rigor : Rigor) (text : List Char) : Option (Clock × List Char) := do
  let (hour, rest) ← part? 2 0 rigor.lastHour text
  let (minute, rest) ← part? 2 0 59 (← mark? ':' rest)
  let (second, rest) ← part? 2 0 60 (← mark? ':' rest)
  let (nanosecond, rest) := fraction rest
  some (⟨hour, minute, second, nanosecond⟩, rest)

/-- Whether an offset may have so many hours and minutes. -/
def Rigor.allows (rigor : Rigor) (hours minutes : Nat) : Bool :=
  match rigor with
  | strict => hours < 24 && minutes < 60
  | loose => 60 * hours + minutes ≤ 24 * 60

def offset? (rigor : Rigor) (text : List Char) : Option (Offset × List Char) :=
  let distance (sign : Int) (rest : List Char) := do
    let (hours, rest) ← part? 2 0 99 rest
    let (minutes, rest) ← part? 2 0 99 (← mark? ':' rest)
    if rigor.allows hours minutes then some (Offset.ahead (sign * (60 * hours + minutes)), rest) else none
  match text with
  | 'Z' :: rest => some (.universal, rest)
  | 'z' :: rest => some (.universal, rest)
  | '+' :: rest => distance 1 rest
  | '-' :: rest => distance (-1) rest
  | _ => none

/-- The time that may follow a day. -/
def clockAfterDay? (rigor : Rigor) (text : List Char) : Option (Clock × List Char) :=
  match text with
  | c :: rest => if c = 'T' || c = 't' || c = ' ' then clock? rigor rest else none
  | [] => none

/-- A moment at the start of a text. -/
def read? (rigor : Rigor) (text : List Char) : Option (Moment × List Char) :=
  match day? text with
  | none => (clock? rigor text).map fun (time, rest) => (.clock time, rest)
  | some (date, rest) =>
    match clockAfterDay? rigor rest with
    | none => some (.day date, rest)
    | some (time, rest) =>
      match offset? rigor rest with
      | none => some (.both date time none, rest)
      | some (offset, rest) => some (.both date time (some offset), rest)

/-- The moment that a whole text stands for. -/
def ofText? (text : String) : Option Moment :=
  match read? .loose text.toList with
  | some (moment, []) => some moment
  | _ => none

/-- The numeral of a number, with zeros in front up to a width. -/
def padded (width value : Nat) : String :=
  let digits := Nat.toDigits 10 value
  String.ofList (List.replicate (width - digits.length) '0' ++ digits)

end Moment

def Day.text (date : Day) : String :=
  Moment.padded 4 date.year ++ "-" ++ Moment.padded 2 date.month ++ "-" ++ Moment.padded 2 date.day

/-- The time with the fraction of its second, if there is one, without zeros at the end. -/
def Clock.text (time : Clock) : String :=
  let fraction := (Moment.padded 9 time.nanosecond).toList.reverse.dropWhile (· = '0')
  Moment.padded 2 time.hour ++ ":" ++ Moment.padded 2 time.minute ++ ":" ++ Moment.padded 2 time.second ++
    if fraction.isEmpty then "" else "." ++ String.ofList fraction.reverse

def Offset.text : Offset → String
  | universal => "Z"
  | ahead minutes =>
    (if minutes < 0 then "-" else "+") ++ Moment.padded 2 (minutes.natAbs / 60) ++ ":" ++
      Moment.padded 2 (minutes.natAbs % 60)

/-- The normal form: day and time are joined by a capital letter. -/
def Moment.text : Moment → String
  | day date => date.text
  | clock time => time.text
  | both date time offset => date.text ++ "T" ++ time.text ++ ((offset.map Offset.text).getD "")

end SchemaGuide.Toml
