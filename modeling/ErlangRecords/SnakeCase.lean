/-
Snake-case identifiers from dotted camel-case names.

Dots become underscores and ASCII capitals small letters. An underscore is put before a capital whose neighbour on
either side is an ASCII small letter, unless the capital opens the name or already follows an underscore, so a run of
capitals stays together: `HTTPStatus` gives `http_status`. All other characters are kept.
-/

namespace ErlangRecords.SnakeCase

/-- dots separate words as underscores do -/
def separator (c : Char) : Char := if c = '.' then '_' else c

/-- a word begins at a capital between `before` and `after` -/
def startsWord (before after : Option Char) : Bool :=
  match before with
  | none => false
  | some p => (p.isLower || after.any Char.isLower) && p != '_'

/-- the characters written for `c` between `before` and `after` -/
def write (before : Option Char) (c : Char) (after : Option Char) : List Char :=
  if c.isUpper then
    if startsWord before after then ['_', c.toLower] else [c.toLower]
  else [c]

/-- snake case of a text that continues `before` -/
def convert (before : Option Char) : List Char → List Char
  | [] => []
  | c :: rest => write before c rest.head? ++ convert (some c) rest

end ErlangRecords.SnakeCase

namespace ErlangRecords

/-- snake case of a dotted name -/
def snakeCase (name : String) : String :=
  String.ofList (SnakeCase.convert none (name.toList.map SnakeCase.separator))

/-- the module that holds the types of a package -/
def moduleName (package : String) : String := snakeCase package

end ErlangRecords
