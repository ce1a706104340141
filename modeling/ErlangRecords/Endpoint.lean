/-
Entry points on bytes: an encoded request is answered by an encoded response, and an encoded set of descriptors by the
files generated from it.

Only input that cannot be read is an error of its own; every other failure is part of the answer.
-/
import ErlangRecords.Wire.Descriptor
import ErlangRecords.Wire.Response

namespace ErlangRecords

/-- what an entry point reads -/
inductive InputKind where
  | request
  | fileSet
deriving DecidableEq, Repr

def InputKind.text : InputKind → String
  | .request => "code generator request"
  | .fileSet => "file descriptor set"

inductive InputError where
  /-- the file cannot be read -/
  | unreadable
  | undecodable (input : InputKind)
  | generation (e : GenerationError)
deriving DecidableEq, Repr

def InputError.message : InputError → String
  | .unreadable => "IO error"
  | .undecodable input => "cannot decode " ++ input.text
  | .generation e => e.message

/-- the encoded answer to an encoded request -/
def answer (input : List UInt8) : Except InputError (List UInt8) :=
  match Request.read input with
  | none => .error (.undecodable .request)
  | some request => .ok request.response.write

/-- the files generated for some files of an encoded set of descriptors -/
def outputsFromSet (input : List UInt8) (names : List String) : Except InputError (List OutputFile) :=
  match Descriptor.readFileSet input with
  | none => .error (.undecodable .fileSet)
  | some files => (outputsFor names files).mapError .generation

/-- the same on the content of a file, `none` if it cannot be read -/
def outputsFromSetFile (content : Option (List UInt8)) (names : List String) : Except InputError (List OutputFile) :=
  match content with
  | none => .error .unreadable
  | some input => outputsFromSet input names

end ErlangRecords
