/-
Formats: which fields the messages of the descriptor schema have, and what is stored in each.

The table names every field of a generator request, of a set of file descriptors and of a generator response, also those
this library has no use for, since a malformed one makes the whole message unreadable.
-/

namespace ErlangRecords.Wire

/-- the message types that occur in requests, descriptor sets and responses -/
inductive Format where
  | request
  | version
  | fileSet
  | file
  | message
  | extensionRange
  | extensionRangeOptions
  | reservedRange
  | field
  | oneof
  | enum
  | enumReservedRange
  | enumValue
  | service
  | method
  | fileOptions
  | messageOptions
  | fieldOptions
  | oneofOptions
  | enumOptions
  | enumValueOptions
  | serviceOptions
  | methodOptions
  | uninterpretedOption
  | namePart
  | sourceInfo
  | sourceLocation
  | response
  | responseFile
  | codeInfo
  | codeSpan
deriving DecidableEq, Repr

/-- what a field stores -/
inductive Content where
  /-- a number, flag or enum value -/
  | number
  /-- any count of numbers, one by one or together -/
  | numbers
  | double
  | text
  | blob
  | embedded (format : Format)
deriving DecidableEq, Repr

namespace Format

/-- the fields of a format by number -/
def fields : Format → List (Nat × Content)
  | .request => [(1, .text), (2, .text), (3, .embedded .version), (15, .embedded .file)]
  | .version => [(1, .number), (2, .number), (3, .number), (4, .text)]
  | .fileSet => [(1, .embedded .file)]
  | .file =>
    [(1, .text), (2, .text), (3, .text), (4, .embedded .message), (5, .embedded .enum), (6, .embedded .service),
      (7, .embedded .field), (8, .embedded .fileOptions), (9, .embedded .sourceInfo), (10, .numbers), (11, .numbers),
      (12, .text)]
  | .message =>
    [(1, .text), (2, .embedded .field), (3, .embedded .message), (4, .embedded .enum), (5, .embedded .extensionRange),
      (6, .embedded .field), (7, .embedded .messageOptions), (8, .embedded .oneof), (9, .embedded .reservedRange),
      (10, .text)]
  | .extensionRange => [(1, .number), (2, .number), (3, .embedded .extensionRangeOptions)]
  | .extensionRangeOptions => [(999, .embedded .uninterpretedOption)]
  | .reservedRange => [(1, .number), (2, .number)]
  | .field =>
    [(1, .text), (2, .text), (3, .number), (4, .number), (5, .number), (6, .text), (7, .text),
      (8, .embedded .fieldOptions), (9, .number), (10, .text), (17, .number)]
  | .oneof => [(1, .text), (2, .embedded .oneofOptions)]
  | .enum =>
    [(1, .text), (2, .embedded .enumValue), (3, .embedded .enumOptions), (4, .embedded .enumReservedRange), (5, .text)]
  | .enumReservedRange => [(1, .number), (2, .number)]
  | .enumValue => [(1, .text), (2, .number), (3, .embedded .enumValueOptions)]
  | .service => [(1, .text), (2, .embedded .method), (3, .embedded .serviceOptions)]
  | .method =>
    [(1, .text), (2, .text), (3, .text), (4, .embedded .methodOptions), (5, .number), (6, .number)]
  | .fileOptions =>
    [(1, .text), (8, .text), (9, .number), (10, .number), (11, .text), (16, .number), (17, .number), (18, .number),
      (20, .number), (23, .number), (27, .number), (31, .number), (36, .text), (37, .text), (39, .text), (40, .text),
      (41, .text), (42, .number), (44, .text), (45, .text), (999, .embedded .uninterpretedOption)]
  | .messageOptions =>
    [(1, .number), (2, .number), (3, .number), (7, .number), (999, .embedded .uninterpretedOption)]
  | .fieldOptions =>
    [(1, .number), (2, .number), (3, .number), (5, .number), (6, .number), (10, .number),
      (999, .embedded .uninterpretedOption)]
  | .oneofOptions => [(999, .embedded .uninterpretedOption)]
  | .enumOptions => [(2, .number), (3, .number), (999, .embedded .uninterpretedOption)]
  | .enumValueOptions => [(1, .number), (999, .embedded .uninterpretedOption)]
  | .serviceOptions => [(33, .number), (999, .embedded .uninterpretedOption)]
  | .methodOptions => [(33, .number), (34, .number), (999, .embedded .uninterpretedOption)]
  | .uninterpretedOption =>
    [(2, .embedded .namePart), (3, .text), (4, .number), (5, .number), (6, .double), (7, .blob), (8, .text)]
  | .namePart => [(1, .text), (2, .number)]
  | .sourceInfo => [(1, .embedded .sourceLocation)]
  | .sourceLocation => [(1, .numbers), (2, .numbers), (3, .text), (4, .text), (6, .text)]
  | .response => [(1, .text), (2, .number), (15, .embedded .responseFile)]
  | .responseFile => [(1, .text), (2, .text), (15, .text), (16, .embedded .codeInfo)]
  | .codeInfo => [(1, .embedded .codeSpan)]
  | .codeSpan => [(1, .numbers), (2, .text), (3, .number), (4, .number), (5, .number)]

/-- what the format stores under a field number, if it knows it -/
def content? (format : Format) (number : Nat) : Option Content := format.fields.lookup number

end Format

end ErlangRecords.Wire
