/-
The parameter text of a request, and the settings it gives.

A parameter is a list of items between commas. Blanks around items, keys and values do not count, and empty items are
skipped. An item is a key and a value around the first equals sign; the one key is `verbose`, with `true` or `false`.
The last item wins, and the first faulty one is the error.
-/
import ErlangRecords.Text.Blank
import ErlangRecords.Text.Split

namespace ErlangRecords

structure Settings where
  /-- generated files are announced -/
  verbose : Bool := true
deriving DecidableEq, Repr

/-- what is wrong with an item -/
inductive ItemFault where
  | noValue
  | unknownKey (key : String)
  | notBoolean
deriving DecidableEq, Repr

def ItemFault.text : ItemFault → String
  | .noValue => "expected key=value"
  | .unknownKey key => "unknown option '" ++ key ++ "'"
  | .notBoolean => "provided string was not `true` or `false`"

structure ParameterError where
  /-- the item, without the blanks around it -/
  item : String
  fault : ItemFault
deriving DecidableEq, Repr

def ParameterError.message (e : ParameterError) : String := "invalid parameter '" ++ e.item ++ "': " ++ e.fault.text

namespace Settings

def boolean? (text : String) : Option Bool :=
  if text = "true" then some true else if text = "false" then some false else none

/-- the settings after an item -/
def applyItem (settings : Settings) (item : List Char) : Except ItemFault Settings :=
  match Text.cut? '=' item with
  | none => .error .noValue
  | some (key, value) =>
    if String.ofList (Text.trim key) = "verbose" then
      match boolean? (String.ofList (Text.trim value)) with
      | some verbose => .ok { settings with verbose }
      | none => .error .notBoolean
    else .error (.unknownKey (String.ofList (Text.trim key)))

/-- the items of a parameter, without the blanks around them and without empty ones -/
def items (parameter : String) : List (List Char) :=
  ((Text.splitOn ',' parameter.toList).map Text.trim).filter (!·.isEmpty)

/-- the settings a parameter gives -/
def ofParameter (parameter : String) : Except ParameterError Settings :=
  (items parameter).foldlM (fun settings item => (applyItem settings item).mapError (⟨String.ofList item, ·⟩)) {}

end Settings

end ErlangRecords
