/-
Full lower-casing of a text.

Every code point is replaced by its lower case; two code points need more than the table:
- U+0130 (capital I with a dot) becomes `i` followed by the combining dot U+0307;
- U+03A3 (capital sigma) becomes the final form U+03C2 at the end of a word, and U+03C3 elsewhere. It ends a word when
  a cased letter stands before it and none after it, case-ignorable code points not counted on either side.
-/
import ErlangRecords.Text.LetterCase

namespace ErlangRecords.Text

def inRanges (ranges : List (Nat × Nat)) (c : Char) : Bool :=
  ranges.any fun r => decide (r.1 ≤ c.toNat) && decide (c.toNat ≤ r.2)

def isCased (c : Char) : Bool := inRanges casedRanges c

def isCaseIgnorable (c : Char) : Bool := inRanges caseIgnorableRanges c

/-- the run that holds the code point `n` -/
def LowerRun.contains (run : LowerRun) (n : Nat) : Bool :=
  decide (run.first ≤ n) && decide (n ≤ run.last) && (n - run.first) % run.stride == 0

/-- the lower case of one code point, its context left out of account -/
def lowerChar (c : Char) : List Char :=
  if c = 'İ' then ['i', '\u0307']
  else
    match lowerRuns.find? (·.contains c.toNat) with
    | some run => [Char.ofNat (c.toNat + run.shift).toNat]
    | none => [c]

/-- the first code point that is not case-ignorable is a cased one -/
def startsCased (cs : List Char) : Bool :=
  match cs.dropWhile isCaseIgnorable with
  | [] => false
  | c :: _ => isCased c

/-- lower case of a capital sigma between `before` (nearest first) and `after` -/
def lowerSigma (before after : List Char) : Char :=
  if startsCased before && !startsCased after then 'ς' else 'σ'

/-- lower case of a text that continues `before`, nearest first -/
def lowerAfter (before : List Char) : List Char → List Char
  | [] => []
  | c :: rest =>
    (if c = 'Σ' then [lowerSigma before rest] else lowerChar c) ++ lowerAfter (c :: before) rest

def lowerCase (s : String) : String := String.ofList (lowerAfter [] s.toList)

end ErlangRecords.Text
