/-!
White space as Unicode defines it, and trimming. The table is the `White_Space` property. A byte order mark is not in
it, and is dropped only where it may stand.
-/

namespace SchemaGuide.Text

/-- The ranges of code points that have the property, ends included. -/
def blankRanges : List (Nat × Nat) :=
  [(0x09, 0x0d), (0x20, 0x20), (0x85, 0x85), (0xa0, 0xa0), (0x1680, 0x1680), (0x2000, 0x200a), (0x2028, 0x2029),
    (0x202f, 0x202f), (0x205f, 0x205f), (0x3000, 0x3000)]

def isBlank (c : Char) : Bool :=
  blankRanges.any fun (first, last) => first ≤ c.toNat && c.toNat ≤ last

def trim (text : List Char) : List Char :=
  ((text.dropWhile isBlank).reverse.dropWhile isBlank).reverse

def unmarked : List Char → List Char
  | '\uFEFF' :: rest => rest
  | text => text

end SchemaGuide.Text
