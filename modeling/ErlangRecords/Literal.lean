/-
Literals: the defaults of record slots, and their source text.
-/
import ErlangRecords.Atom

namespace ErlangRecords

inductive Literal where
  | integer (value : Int)
  | floatZero
  | boolean (value : Bool)
  | emptyList
  /-- the atom that stands for an absent value -/
  | undefined
  /-- for instance the value of an enum -/
  | atom (name : String)
deriving DecidableEq, Repr

/-- the source text of a literal -/
def Literal.render : Literal → String
  | .integer value => toString value
  | .floatZero => "0.0"
  | .boolean true => "true"
  | .boolean false => "false"
  | .emptyList => "[]"
  | .undefined => "undefined"
  | .atom name => Atom.quote name

end ErlangRecords
