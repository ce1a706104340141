/-
Requests: which files of a batch to generate for.

The requested files must be in the batch, share one non-empty package and one directory, and declare neither extensions
nor explicit defaults. Files that are only referred to may do all of that. The checks run in this order, before anything
is collected.
-/
import ErlangRecords.Package
import ErlangRecords.Schema.OfFiles
import ErlangRecords.Schema.Resolution
import ErlangRecords.Text.Split

namespace ErlangRecords

/-- the directory of a path: `.` without a slash, and `/` when the only slash opens the path -/
def directoryOf (path : String) : String :=
  match Text.cutLast? '/' path.toList with
  | none => "."
  | some ([], _) => "/"
  | some (directory, _) => String.ofList directory

/-- what the schema compiler asks for -/
structure Request where
  filesToGenerate : List String := []
  parameter : String := ""
  /-- the whole batch: the files asked for, and all they refer to -/
  files : List Descriptor.File := []
deriving Repr, Inhabited

namespace Request

/-- the files of the given names, in the order of the names; of two files with one name the first counts -/
def selectFiles (names : List String) (files : List Descriptor.File) : Except SchemaFault (List Descriptor.File) :=
  if names.isEmpty then .error (.config "no files to generate")
  else
    names.mapM fun name =>
      match files.find? (·.name == name) with
      | some file => .ok file
      | none => .error (.config ("no descriptor for file '" ++ name ++ "'"))

/-- the file agrees with the target in package and directory -/
def checkAgrees (target : Target) (file : Descriptor.File) : Except SchemaFault Unit :=
  if file.package ≠ target.package then
    .error (.config ("cannot process multiple files with different proto packages: '" ++ target.package ++ "' and '" ++
      file.package ++ "'"))
  else if directoryOf file.name ≠ target.directory then
    .error (.config ("cannot process multiple files from different directories: '" ++ target.directory ++ "' and '" ++
      directoryOf file.name ++ "'"))
  else .ok ()

/-- the package and directory that all files share -/
def commonTarget : List Descriptor.File → Except SchemaFault Target
  | [] => .error (.config "no files to generate")
  | first :: rest => do
    let target : Target := ⟨first.package, directoryOf first.name⟩
    rest.forM (checkAgrees target)
    if target.package = "" then
      throw (.config ("file '" ++ first.name ++ "' declares no package, which names the generated module"))
    return target

/-! ## Extensions and explicit defaults -/

/-- refuses the first of the extensions declared in `scope`, which is empty at the top of a file -/
def refuseExtensionsIn (scope : String) : List Descriptor.Field → Except SchemaFault Unit
  | [] => .ok ()
  | ext :: _ => .error (.unsupported "extension field" (scope ++ ext.name))

/-- refuses the first of the fields declared in `scope` that has an explicit default -/
def refuseDefaultsIn (scope : String) (fields : List Descriptor.Field) : Except SchemaFault Unit :=
  match fields.find? (·.defaultValue.isSome) with
  | none => .ok ()
  | some f => .error (.unsupported "default value for field" (scope ++ f.name))

mutual

/-- runs a check on a message, with the dotted scope it opens, and then on those nested in it -/
def checkMessage (check : String → Descriptor.Message → Except SchemaFault Unit) (scope : String) :
    Descriptor.Message → Except SchemaFault Unit
  | ⟨name, fields, nested, enums, oneofs, extensions⟩ => do
    check (scope ++ name ++ ".") ⟨name, fields, nested, enums, oneofs, extensions⟩
    checkMessages check (scope ++ name ++ ".") nested

/-- the same for messages side by side -/
def checkMessages (check : String → Descriptor.Message → Except SchemaFault Unit) (scope : String) :
    List Descriptor.Message → Except SchemaFault Unit
  | [] => .ok ()
  | m :: rest => do
    checkMessage check scope m
    checkMessages check scope rest

end

def fileContext (file : Descriptor.File) : String := "in file " ++ file.name ++ " of package " ++ file.package

/-- refuses the first extension of the files -/
def refuseExtensions (files : List Descriptor.File) : Except SchemaFault Unit :=
  files.forM fun file => atPlace (fileContext file) do
    refuseExtensionsIn "" file.extensions
    checkMessages (fun scope m => refuseExtensionsIn scope m.extensions) "" file.messages

/-- refuses the first field of the files that has an explicit default -/
def refuseDefaults (files : List Descriptor.File) : Except SchemaFault Unit :=
  files.forM fun file => atPlace (fileContext file) do
    checkMessages (fun scope m => refuseDefaultsIn scope m.fields) "" file.messages

/-- the target of a request that passes all checks -/
def validate (names : List String) (files : List Descriptor.File) : Except SchemaFault Target := do
  let inputs ← selectFiles names files
  let target ← commonTarget inputs
  refuseExtensions inputs
  refuseDefaults inputs
  return target

end Request

/-- a request that passed all checks, with its whole batch resolved -/
structure ResolvedRequest where
  target : Target
  schema : Schema
deriving DecidableEq, Repr

namespace ResolvedRequest

/-- checks a request for the files of the given names, then resolves the whole batch -/
def ofBatch (names : List String) (files : List Descriptor.File) : Except SchemaFault ResolvedRequest := do
  let target ← Request.validate names files
  let declared ← Schema.ofFiles files
  let schema ← declared.resolve
  return { target, schema }

/-- the package that was asked for -/
def package (request : ResolvedRequest) : Package := request.schema.package request.target

end ResolvedRequest

end ErlangRecords
