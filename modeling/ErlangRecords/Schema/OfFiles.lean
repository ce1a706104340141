/-
The schema of a batch of files.

Two walks over the files build it. The first adds every message before the messages nested in it, so the position of a
message is known when those inside it are added. The second adds the enums and counts the messages it enters, so its
counter tells every enum the position of the message around it. The batch is refused at the first fault. Within a
message the fields are checked in order (label, extension, kind), then their oneof indices, then the name; within an
enum the values, then the name.
-/
import ErlangRecords.Descriptor
import ErlangRecords.Schema

namespace ErlangRecords

/-! ## Single declarations -/

/-- a field as declared; it is no member of a oneof that only records its presence -/
def FieldDecl.ofDescriptor (f : Descriptor.Field) : Except SchemaFault FieldDecl :=
  match f.label with
  | none => .error (.missingLabel f.name)
  | some label =>
    match Cardinality.ofNumber? label with
    | none => .error (.invalidLabel f.name label)
    | some cardinality =>
      if f.extendee ≠ "" then .error (.unsupported "extension field" f.name)
      else
        match FieldKind.ofCode f.type with
        | .unrecognized code => .error (.invalidType f.name code)
        | kind =>
          .ok
            { name := f.name
              number := f.number
              cardinality
              kind
              typeName := f.typeName
              oneof := if f.proto3Optional then none else f.oneofIndex.map Int.toNat
              proto3Optional := f.proto3Optional }

/-- what the field at `position` does to its oneof: it becomes a member, or marks the oneof as synthetic -/
def OneofDecl.enter (f : Descriptor.Field) (position : Nat) (o : OneofDecl) : OneofDecl :=
  if f.proto3Optional then { o with synthetic := true } else o.addMember position

/-- enters a field, given with its position, into the oneofs of its message -/
def enterOneof (oneofs : List OneofDecl) (entry : Descriptor.Field × Nat) : Except SchemaFault (List OneofDecl) :=
  match entry.1.oneofIndex with
  | none => .ok oneofs
  | some index =>
    if 0 ≤ index ∧ index.toNat < oneofs.length then
      .ok (oneofs.modify index.toNat (OneofDecl.enter entry.1 entry.2))
    else .error (.invalidOneofIndex entry.1.name index)

/-- the message that stands at `position`, under the given declaration -/
def MessageDecl.ofDescriptor (position : Nat) (d : Declaration) (m : Descriptor.Message) :
    Except SchemaFault MessageDecl := do
  let fields ← m.fields.mapM fun f => atPlace ("invalid field \"" ++ f.name ++ "\"") (FieldDecl.ofDescriptor f)
  let oneofs ← m.fields.zipIdx.foldlM enterOneof (m.oneofs.map fun name => { owner := position, name })
  return { d with fields, oneofs }

def EnumDecl.ofDescriptor (d : Declaration) (e : Descriptor.Enum) : EnumDecl :=
  { d with values := e.values.map fun v => ⟨v.name, v.number⟩ }

/-- local names of the message at a position and of those around it, innermost first; every message stands after the
one around it, so the walk goes on among those before -/
def namesAround (messages : List MessageDecl) : Option Nat → List String
  | none => []
  | some position =>
    match _h : messages[position]? with
    | none => []
    | some m => m.name :: namesAround (messages.take position) m.parent
termination_by messages.length
decreasing_by
  obtain ⟨hp, _⟩ := List.getElem?_eq_some_iff.1 ‹_›
  rw [List.length_take]
  omega

namespace Schema

open Descriptor (File Message Enum)

/-- a declaration of `file` inside the message at position `parent` -/
def declaration (schema : Schema) (file : File) (parent : Option Nat) (name : String) : Declaration :=
  { parent
    file := file.name
    package := file.package
    name
    fullName := Name.dotted (name :: namesAround schema.messages parent) }

/-! ## Messages -/

/-- adds a message under the given declaration, without those nested in it, at the next position -/
def insertMessage (schema : Schema) (d : Declaration) (m : Message) : Except SchemaFault Schema :=
  atPlace ("cannot create type for message " ++ m.name ++ " in package " ++ d.package) do
    let position := schema.messages.length
    let decl ← MessageDecl.ofDescriptor position d m
    let names ← schema.names.insert decl.absoluteName (.message position)
    return { schema with messages := schema.messages ++ [decl], names }

mutual

/-- adds a message at the next position, then those nested in it -/
def addMessage (file : File) (parent : Option Nat) (schema : Schema) : Message → Except SchemaFault Schema
  | ⟨name, fields, nested, enums, oneofs, extensions⟩ => do
    let after ← schema.insertMessage (schema.declaration file parent name)
      ⟨name, fields, nested, enums, oneofs, extensions⟩
    addMessages file (some schema.messages.length) after nested

/-- the same for messages side by side -/
def addMessages (file : File) (parent : Option Nat) (schema : Schema) : List Message → Except SchemaFault Schema
  | [] => .ok schema
  | m :: rest => do
    let after ← addMessage file parent schema m
    addMessages file parent after rest

end

/-! ## Enums -/

/-- adds an enum under the given declaration at the next position -/
def insertEnum (schema : Schema) (d : Declaration) (e : Enum) : Except SchemaFault Schema :=
  let decl := EnumDecl.ofDescriptor d e
  atPlace ("cannot create type for enum " ++ e.name ++ " in package " ++ d.package)
    (if decl.values.isEmpty then .error (.emptyEnum decl.fullName)
      else do
        let names ← schema.names.insert decl.absoluteName (.enum schema.enums.length)
        return { schema with enums := schema.enums ++ [decl], names })

/-- adds an enum declared inside the message at position `parent` -/
def addEnum (file : File) (parent : Option Nat) (schema : Schema) (e : Enum) : Except SchemaFault Schema :=
  schema.insertEnum (schema.declaration file parent e.name) e

mutual

/-- adds the enums inside a message, then those inside the messages nested in it; the number is the position of the
message, and the one returned that of the message which follows in the walk -/
def addNestedEnums (file : File) (state : Schema × Nat) : Message → Except SchemaFault (Schema × Nat)
  | ⟨_, _, nested, enums, _, _⟩ => do
    let after ← enums.foldlM (addEnum file (some state.2)) state.1
    addEnumsInside file (after, state.2 + 1) nested

/-- the same for messages side by side -/
def addEnumsInside (file : File) (state : Schema × Nat) : List Message → Except SchemaFault (Schema × Nat)
  | [] => .ok state
  | m :: rest => do
    let after ← addNestedEnums file state m
    addEnumsInside file after rest

end

/-! ## Whole batches -/

/-- adds all messages of a file -/
def addFileMessages (schema : Schema) (file : File) : Except SchemaFault Schema :=
  addMessages file none schema file.messages

/-- adds all enums of a file whose first message has the position given -/
def addFileEnums (state : Schema × Nat) (file : File) : Except SchemaFault (Schema × Nat) := do
  let after ← file.enums.foldlM (addEnum file none) state.1
  addEnumsInside file (after, state.2) file.messages

/-- all declarations of a batch, not yet resolved -/
def ofFiles (files : List File) : Except SchemaFault Schema := do
  let withMessages ← files.foldlM addFileMessages {}
  let (schema, _) ← files.foldlM addFileEnums (withMessages, 0)
  return schema

end Schema

end ErlangRecords
