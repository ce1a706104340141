/-
Atoms in Erlang source text.

An atom may be written bare when it begins with an ASCII small letter, goes on with ASCII letters, digits, `_` and `@`,
and is no reserved word. Every other name is written between quotes, with a backslash before each quote and backslash.
-/
import ErlangRecords.Text.LowerCase

namespace ErlangRecords.Atom

/-- words of the language, which are no bare atoms -/
def reservedWords : List String := [
  "after", "and", "andalso", "band", "begin", "bnot", "bor", "bsl", "bsr", "bxor", "case", "catch", "cond", "div",
  "else", "end", "fun", "if", "let", "maybe", "not", "of", "or", "orelse", "receive", "rem", "try", "when", "xor"]

def isBareTail (c : Char) : Bool := c.isAlphanum || c = '_' || c = '@'

/-- the name can be written without quotes -/
def isBare (name : String) : Bool :=
  match name.toList with
  | [] => false
  | c :: rest => c.isLower && rest.all isBareTail && !reservedWords.contains name

/-- a quote or backslash takes a backslash before it -/
def escape : List Char → List Char
  | [] => []
  | c :: rest => if c = '\'' || c = '\\' then '\\' :: c :: escape rest else c :: escape rest

/-- the atom `name` as it stands in source text -/
def quote (name : String) : String :=
  if isBare name then name else String.ofList ('\'' :: escape name.toList ++ ['\''])

/-- the atom of an enum value: its name in lower case -/
def ofEnumValue (name : String) : String := Text.lowerCase name

end ErlangRecords.Atom
