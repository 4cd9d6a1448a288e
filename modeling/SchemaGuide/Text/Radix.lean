/-!
Numerals in bases up to sixteen; letters of either case are the digits above nine. Escapes write a character as the
hexadecimal numeral of its code.
-/

namespace SchemaGuide.Numeral

def hexDigit? (c : Char) : Option Nat :=
  if c.isDigit then some (c.toNat - '0'.toNat)
  else if 'a' ≤ c && c ≤ 'f' then some (c.toNat - 'a'.toNat + 10)
  else if 'A' ≤ c && c ≤ 'F' then some (c.toNat - 'A'.toNat + 10)
  else none

def digit? (base : Nat) (c : Char) : Option Nat := (hexDigit? c).filter (· < base)

/-- The value of a numeral, which has one digit at least. -/
def inBase? (base : Nat) (digits : List Char) : Option Nat :=
  if digits.isEmpty then none else digits.foldlM (fun value c => (digit? base c).map (base * value + ·)) 0

def code? (digits : Nat) (text : List Char) : Option (Nat × List Char) :=
  if text.length < digits then none else (inBase? 16 (text.take digits)).map (·, text.drop digits)

/-- The character with the code of a hexadecimal numeral, if there is one. -/
def character? (digits : List Char) : Option Char :=
  ((inBase? 16 digits).filter fun code => code.isValidChar).map Char.ofNat

/-- The character with the code of so many hexadecimal digits at the start of a text. -/
def escaped? (digits : Nat) (text : List Char) : Option (Char × List Char) :=
  if text.length < digits then none else (character? (text.take digits)).map (·, text.drop digits)

end SchemaGuide.Numeral
