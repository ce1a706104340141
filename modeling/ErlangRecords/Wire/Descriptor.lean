/-
Descriptors and requests from their wire form.
-/
import ErlangRecords.Request
import ErlangRecords.Wire.Field

namespace ErlangRecords

open Wire

namespace Descriptor

def Field.ofWire (fields : List Wire.Field) : Field :=
  { name := textOf 1 fields
    number := (int32? 3 fields).getD 0
    label := int32? 4 fields
    type := int32? 5 fields
    typeName := textOf 6 fields
    extendee := textOf 2 fields
    defaultValue := lastText? 7 fields
    oneofIndex := int32? 9 fields
    proto3Optional := isSet 17 fields }

def EnumValue.ofWire (fields : List Wire.Field) : EnumValue :=
  { name := textOf 1 fields, number := (int32? 2 fields).getD 0 }

def Enum.ofWire (fields : List Wire.Field) : Enum :=
  { name := textOf 1 fields, values := (embedded 2 fields).map EnumValue.ofWire }

/-- a message without regard to its nested ones, which are given -/
def Message.ofWireWith (nested : List Message) (fields : List Wire.Field) : Message :=
  { name := textOf 1 fields
    fields := (embedded 2 fields).map Field.ofWire
    nested
    enums := (embedded 4 fields).map Enum.ofWire
    oneofs := (embedded 8 fields).map (textOf 1)
    extensions := (embedded 6 fields).map Field.ofWire }

mutual

/-- the nested messages among the fields of a message -/
def nestedOfWire : List Wire.Field → List Message
  | [] => []
  | f :: rest => nestedOfWireField f ++ nestedOfWire rest

/-- a nested message is embedded under number 3 -/
def nestedOfWireField : Wire.Field → List Message
  | .embedded tag body => if tag = 3 then [Message.ofWireWith (nestedOfWire body) body] else []
  | _ => []

end

def Message.ofWire (fields : List Wire.Field) : Message := Message.ofWireWith (nestedOfWire fields) fields

def File.ofWire (fields : List Wire.Field) : File :=
  { name := textOf 1 fields
    package := textOf 2 fields
    messages := (embedded 4 fields).map Message.ofWire
    enums := (embedded 5 fields).map Enum.ofWire
    extensions := (embedded 7 fields).map Field.ofWire }

/-- the files of an encoded set -/
def readFileSet (bytes : List UInt8) : Option (List File) :=
  (readFields depthLimit .fileSet bytes).map fun fields => (embedded 1 fields).map File.ofWire

end Descriptor

def Request.ofWire (fields : List Wire.Field) : Request :=
  { filesToGenerate := texts 1 fields
    parameter := textOf 2 fields
    files := (embedded 15 fields).map Descriptor.File.ofWire }

/-- an encoded request -/
def Request.read (bytes : List UInt8) : Option Request := (readFields depthLimit .request bytes).map Request.ofWire

end ErlangRecords
