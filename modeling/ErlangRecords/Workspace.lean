/-
Workspace: descriptor files under construction, with the schemas last made from them.

Files grow by declarations at their end. `declare` makes a schema of the files as they are, and `resolve` resolves the
one made last; where one of them fails, the schema it would have replaced stays.
-/
import ErlangRecords.Schema.OfFiles
import ErlangRecords.Schema.Resolution

namespace ErlangRecords

structure Workspace where
  files : List Descriptor.File := []
  declared : Option Schema := none
  resolved : Option Schema := none
deriving Repr, Inhabited

namespace Workspace

def addFile (w : Workspace) (file : Descriptor.File) : Workspace := { w with files := w.files ++ [file] }

/-- drops the last file, if there is one -/
def popFile (w : Workspace) : Workspace := { w with files := w.files.dropLast }

/-- changes the file at a position -/
def modifyFile (w : Workspace) (position : Nat) (change : Descriptor.File → Descriptor.File) : Workspace :=
  { w with files := w.files.modify position change }

def addMessage (w : Workspace) (position : Nat) (m : Descriptor.Message) : Workspace :=
  w.modifyFile position fun file => { file with messages := file.messages ++ [m] }

def addEnum (w : Workspace) (position : Nat) (e : Descriptor.Enum) : Workspace :=
  w.modifyFile position fun file => { file with enums := file.enums ++ [e] }

/-- adds a field to a message at the top of a file -/
def addField (w : Workspace) (position message : Nat) (f : Descriptor.Field) : Workspace :=
  w.modifyFile position fun file =>
    { file with messages := file.messages.modify message fun m => { m with fields := m.fields ++ [f] } }

/-- makes a schema of the files -/
def declare (w : Workspace) : Except SchemaFault Workspace := do
  let schema ← Schema.ofFiles w.files
  return { w with declared := some schema }

/-- resolves the schema made last; nothing happens when there is none -/
def resolve (w : Workspace) : Except SchemaFault Workspace :=
  match w.declared with
  | none => .ok w
  | some schema => do
    let resolved ← schema.resolve
    return { w with resolved := some resolved }

end Workspace

end ErlangRecords
