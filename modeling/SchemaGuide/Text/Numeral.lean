/-!
Decimal numerals. A position text is what may stand for a place in a list: digits, after at most one plus sign,
with a value that fits a 64-bit word. Main statement: the numeral of a position reads back as that position.
-/

namespace SchemaGuide.Numeral

/-- The greatest 64-bit word, and so the greatest position. -/
def greatest : Nat := 0xffffffffffffffff

/-- Whether a whole number is a signed word of 64 bits. -/
def isSignedWord (value : Int) : Bool := -0x8000000000000000 ≤ value && value ≤ 0x7fffffffffffffff

def value (digits : List Char) : Nat := Nat.ofDigitChars 10 digits 0

def isNumeral (text : List Char) : Bool := !text.isEmpty && text.all Char.isDigit

def unsigned : List Char → List Char
  | '+' :: rest => rest
  | text => text

def position? (text : String) : Option Nat :=
  let digits := unsigned text.toList
  if isNumeral digits && value digits ≤ greatest then some (value digits) else none

theorem isNumeral_toDigits (n : Nat) : isNumeral (Nat.toDigits 10 n) = true := by
  simp only [isNumeral, Bool.and_eq_true, Bool.not_eq_true', List.isEmpty_eq_false_iff, List.all_eq_true]
  exact ⟨Nat.toDigits_ne_nil, fun c member => Nat.isDigit_of_mem_toDigits (by decide) (by decide) member⟩

theorem unsigned_of_isNumeral {text : List Char} (numeral : isNumeral text = true) : unsigned text = text := by
  unfold unsigned
  split
  · simp [isNumeral, Char.isDigit] at numeral
  · rfl

theorem value_toDigits (n : Nat) : value (Nat.toDigits 10 n) = n := Nat.ofDigitChars_toDigits (by decide) (by decide)

theorem eq_of_repr_eq {m n : Nat} (same : m.repr = n.repr) : m = n := by
  rw [← value_toDigits m, ← Nat.toList_repr, same, Nat.toList_repr, value_toDigits]

theorem position?_repr {n : Nat} (small : n ≤ greatest) : position? n.repr = some n := by
  have numeral := isNumeral_toDigits n
  simp only [position?, Nat.toList_repr, unsigned_of_isNumeral numeral, numeral, value_toDigits, Bool.true_and,
    decide_eq_true_eq, if_pos small]

end SchemaGuide.Numeral
