import SchemaGuide.Decimal.Shortest

/-!
How the digits of a double are laid out as text. A layout says which numbers are written positionally, whether a
whole number keeps a fraction, and how ties between equally short decimals go.
-/

namespace SchemaGuide.Decimal

structure Layout where
  /-- Positional writing is used when the place of the first digit is accepted, and an exponent otherwise. -/
  positional : Int → Bool
  /-- A whole number ends in `.0`. -/
  fraction : Bool
  tie : Tie

namespace Layout

/-- Numbers in JSON text: positional from `1e-5` up to, not including, `1e16`; a double always shows that it is one. -/
def json : Layout := ⟨fun place => -5 ≤ place && place < 16, true, .toEven⟩

/-- Numbers in messages: never an exponent, and no fraction that is not there. -/
def plain : Layout := ⟨fun _ => true, false, .up⟩

private def zeros (count : Int) : List Char := List.replicate count.toNat '0'

def fixed (layout : Layout) (d : Digits) : List Char :=
  let whole := d.place + 1
  if whole ≤ 0 then '0' :: '.' :: zeros (-whole) ++ d.digits
  else if d.digits.length ≤ whole then
    d.digits ++ zeros (whole - d.digits.length) ++ if layout.fraction then ['.', '0'] else []
  else d.digits.take whole.toNat ++ '.' :: d.digits.drop whole.toNat

def scientific (d : Digits) : List Char :=
  let mantissa := match d.digits with
    | [] => []
    | [digit] => [digit]
    | digit :: rest => digit :: '.' :: rest
  mantissa ++ 'e' :: (if d.place < 0 then '-' else '+') :: Nat.toDigits 10 d.place.natAbs

def write (layout : Layout) (d : Digits) : List Char :=
  if layout.positional d.place then layout.fixed d else scientific d

def text (layout : Layout) (x : Float) : String :=
  if x.isNaN then "NaN"
  else
    let parts := Binary.ofBits x.toBits
    let sign := if parts.negative then "-" else ""
    if x.isInf then sign ++ "inf" else sign ++ String.ofList (layout.write (Digits.shortest parts layout.tie))

end Layout

end SchemaGuide.Decimal
