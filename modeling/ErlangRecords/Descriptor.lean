/-
Descriptors: the declarations of a batch of files, as the schema compiler delivers them.

A text or flag that a descriptor leaves unset reads as empty or false, and a number as zero. Four entries of a field are
told apart from unset ones: label, type, oneof index and explicit default.
-/

namespace ErlangRecords.Descriptor

structure Field where
  name : String := ""
  number : Int := 0
  /-- number of the cardinality -/
  label : Option Int := none
  /-- number of the kind -/
  type : Option Int := none
  /-- absolute name of the message or enum the field holds -/
  typeName : String := ""
  /-- the message that an extension field extends -/
  extendee : String := ""
  defaultValue : Option String := none
  /-- position of the oneof the field belongs to -/
  oneofIndex : Option Int := none
  /-- an optional field whose oneof only records its presence -/
  proto3Optional : Bool := false
deriving DecidableEq, Repr, Inhabited

structure EnumValue where
  name : String := ""
  number : Int := 0
deriving DecidableEq, Repr, Inhabited

structure Enum where
  name : String := ""
  values : List EnumValue := []
deriving DecidableEq, Repr, Inhabited

structure Message where
  name : String := ""
  fields : List Field := []
  nested : List Message := []
  enums : List Enum := []
  /-- names of the oneofs -/
  oneofs : List String := []
  extensions : List Field := []
deriving Repr, Inhabited

structure File where
  name : String := ""
  package : String := ""
  messages : List Message := []
  enums : List Enum := []
  extensions : List Field := []
deriving Repr, Inhabited

end ErlangRecords.Descriptor
