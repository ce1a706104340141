/-
Generation: from a request to the two files of a package.

The parameter is read first, then the request is checked and its batch resolved, and last the header and the type module
are written. The first fault on that way is the error; no file comes with it.
-/
import ErlangRecords.Package.Header
import ErlangRecords.Package.TypeModule
import ErlangRecords.Parameter
import ErlangRecords.Request

namespace ErlangRecords

inductive GenerationError where
  | schema (e : SchemaFault)
  | parameter (e : ParameterError)
  | unresolved (e : UnresolvedSlot)
deriving DecidableEq, Repr

def GenerationError.message : GenerationError → String
  | .schema e => "schema error: " ++ e.message
  | .parameter e => e.message
  | .unresolved e => "generation error: " ++ e.text

/-- a generated file, with its path below the output directory -/
structure OutputFile where
  path : String
  content : String
deriving DecidableEq, Repr

/-- the header and the type module, in that order -/
def Package.outputs (p : Package) : Except UnresolvedSlot (List OutputFile) := do
  let header ← p.header
  return [⟨p.headerPath, header⟩, ⟨p.modulePath, p.typeModule⟩]

/-- the outputs for some files of a batch -/
def outputsFor (names : List String) (files : List Descriptor.File) : Except GenerationError (List OutputFile) := do
  let resolved ← (ResolvedRequest.ofBatch names files).mapError .schema
  resolved.package.outputs.mapError .unresolved

/-- the outputs of a request -/
def Request.outputs (request : Request) : Except GenerationError (List OutputFile) := do
  let _ ← (Settings.ofParameter request.parameter).mapError .parameter
  outputsFor request.filesToGenerate request.files

/-- what the schema compiler gets back: an error, or files -/
structure Response where
  error : Option String := none
  /-- the features supported, as a bit set -/
  supportedFeatures : Nat := 0
  files : List OutputFile := []
deriving DecidableEq, Repr

/-- the bit for fields that are optional in the third edition of the schema language -/
def proto3OptionalFeature : Nat := 1

/-- the answer to a request; a failure travels as its message -/
def Request.response (request : Request) : Response :=
  match request.outputs with
  | .ok files => { supportedFeatures := proto3OptionalFeature, files }
  | .error e => { error := some e.message, supportedFeatures := proto3OptionalFeature }

end ErlangRecords
