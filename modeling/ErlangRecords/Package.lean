/-
Packages: what is generated for one package of a schema.

A package holds its messages and enums in order of position, the module that will define their types, and the directory
of the output. The header and the type module have the module's name, with different extensions.
-/
import ErlangRecords.Schema

namespace ErlangRecords

/-- the package to generate for, and the directory of its files, `.` at the root -/
structure Target where
  package : String
  directory : String
deriving DecidableEq, Repr

structure Package where
  name : String
  moduleName : String
  directory : String
  messages : List MessageDecl
  enums : List EnumDecl
deriving DecidableEq, Repr

/-- the declarations of the target's package -/
def Schema.package (schema : Schema) (target : Target) : Package :=
  { name := target.package
    moduleName := moduleName target.package
    directory := target.directory
    messages := schema.messages.filter fun m => m.package == target.package
    enums := schema.enums.filter fun e => e.package == target.package }

theorem Schema.mem_package_messages {schema : Schema} {target : Target} {m : MessageDecl} :
    m ∈ (schema.package target).messages ↔ m ∈ schema.messages ∧ m.package = target.package := by
  simp [Schema.package]

theorem Schema.mem_package_enums {schema : Schema} {target : Target} {e : EnumDecl} :
    e ∈ (schema.package target).enums ↔ e ∈ schema.enums ∧ e.package = target.package := by
  simp [Schema.package]

namespace Package

/-- path of the output with an extension; nothing stands before a file of the root -/
def path (p : Package) (extension : String) : String :=
  (if p.directory = "." then "" else p.directory ++ "/") ++ p.moduleName ++ "." ++ extension

def headerPath (p : Package) : String := p.path "hrl"

def modulePath (p : Package) : String := p.path "erl"

/-- the comment that opens every output -/
def openingComment (name : String) : String :=
  "%%% Generated from protobuf package " ++ name ++ ".\n%%% DO NOT EDIT.\n"

end Package

end ErlangRecords
