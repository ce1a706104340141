/-
Blank code points, and trimming.

`isBlank` is the property White_Space of the Unicode standard: the ASCII control blanks, the space, U+0085, the
no-break spaces, the typographic spaces and the line and paragraph separators. `trim` removes them at both ends.
-/

namespace ErlangRecords.Text

/-- closed ranges of code points with the property White_Space -/
def blankRanges : List (Nat × Nat) := [
  (0x09, 0x0D), (0x20, 0x20), (0x85, 0x85), (0xA0, 0xA0), (0x1680, 0x1680), (0x2000, 0x200A), (0x2028, 0x2029),
  (0x202F, 0x202F), (0x205F, 0x205F), (0x3000, 0x3000)]

def isBlank (c : Char) : Bool :=
  blankRanges.any fun r => decide (r.1 ≤ c.toNat) && decide (c.toNat ≤ r.2)

def trimStart (cs : List Char) : List Char := cs.dropWhile isBlank

def trimEnd (cs : List Char) : List Char := (cs.reverse.dropWhile isBlank).reverse

/-- the text without the blanks at its two ends -/
def trim (cs : List Char) : List Char := trimEnd (trimStart cs)

end ErlangRecords.Text
