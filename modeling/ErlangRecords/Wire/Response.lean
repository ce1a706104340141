/-
Responses in their wire form.

Fields are written in the order of their numbers: the error (1) if there is one, the supported features (2), then each
file (15) with its path (1) and content (15). An empty text is written too. `Response.read` reads such bytes back.
-/
import ErlangRecords.Generation
import ErlangRecords.Wire.Field

namespace ErlangRecords

namespace Wire

/-- the key of a field that stores a number -/
def numberKey (tag : Nat) : Nat := tag * 8

/-- the key of a field that stores bytes after their count -/
def bytesKey (tag : Nat) : Nat := tag * 8 + 2

def writeNumber (tag value : Nat) : List UInt8 := Varint.write (numberKey tag) ++ Varint.write value

def writeBytes (tag : Nat) (bytes : List UInt8) : List UInt8 :=
  Varint.write (bytesKey tag) ++ Varint.write bytes.length ++ bytes

/-- the UTF-8 bytes of a text -/
def utf8 (text : String) : List UInt8 := text.toByteArray.data.toList

def writeText (tag : Nat) (text : String) : List UInt8 := writeBytes tag (utf8 text)

end Wire

open Wire

def OutputFile.write (file : OutputFile) : List UInt8 := writeText 1 file.path ++ writeText 15 file.content

def Response.write (response : Response) : List UInt8 :=
  (match response.error with
    | none => []
    | some message => writeText 1 message) ++
  writeNumber 2 response.supportedFeatures ++
  response.files.flatMap fun file => writeBytes 15 file.write

/-! ## Reading -/

def OutputFile.ofWire (fields : List Wire.Field) : OutputFile := ⟨textOf 1 fields, textOf 15 fields⟩

def Response.ofWire (fields : List Wire.Field) : Response :=
  { error := lastText? 1 fields
    supportedFeatures := (lastNumber? 2 fields).getD 0
    files := (embedded 15 fields).map OutputFile.ofWire }

/-- an encoded response -/
def Response.read (bytes : List UInt8) : Option Response :=
  (readFields depthLimit .response bytes).map Response.ofWire

end ErlangRecords
