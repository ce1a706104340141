/-
The record header: one record definition per message.

Each slot of a record is written with its default and its type. The header is included by other modules, so every user
type in it names its module. A header can be written exactly when all slots are resolved.
-/
import ErlangRecords.Package
import ErlangRecords.RecordLayout

namespace ErlangRecords

/-- a slot of a record that has no type yet -/
structure UnresolvedSlot where
  slot : String
  message : String
deriving DecidableEq, Repr

def UnresolvedSlot.text (u : UnresolvedSlot) : String :=
  "field '" ++ u.slot ++ "' of message " ++ u.message ++ " has no resolved type"

namespace Header

/-- the line of a slot, in a header of the module `home` -/
def slotLine (home message : String) (slot : RecordSlot) : Except UnresolvedSlot String :=
  match slot.typing with
  | none => .error ⟨slot.name, message⟩
  | some (type, default) =>
    .ok ("  " ++ Atom.quote slot.name ++ " = " ++ default.render ++ " :: " ++ (type.qualify home).render)

/-- the definition of a record with the given lines -/
def recordText (fullName typeName : String) (lines : List String) : String :=
  "%% Generated for message type " ++ fullName ++ ".\n-record(" ++ Atom.quote typeName ++ ", \x7b" ++
    (if lines.isEmpty then "" else "\n" ++ ",\n".intercalate lines ++ "\n") ++ "\x7d).\n"

/-- the record definition of a message -/
def record (home : String) (m : MessageDecl) : Except UnresolvedSlot String := do
  let lines ← m.slots.mapM (slotLine home m.fullName)
  return recordText m.fullName m.typeName lines

end Header

/-- the text of the header -/
def Package.header (p : Package) : Except UnresolvedSlot String := do
  let records ← p.messages.mapM (Header.record p.moduleName)
  return Package.openingComment p.name ++ String.join (records.map ("\n" ++ ·))

end ErlangRecords
