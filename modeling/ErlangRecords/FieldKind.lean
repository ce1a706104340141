/-
Kinds and cardinalities of fields.

Descriptors give both as numbers. A kind number outside 1 to 18, or none at all, is kept as `unrecognized`; a
cardinality number outside 1 to 3 has no meaning.
-/

namespace ErlangRecords

/-- what a field holds, as its descriptor declares it -/
inductive FieldKind where
  | double
  | float
  | int64
  | uint64
  | int32
  | fixed64
  | fixed32
  | bool
  | string
  | group
  | message
  | bytes
  | uint32
  | enum
  | sfixed32
  | sfixed64
  | sint32
  | sint64
  /-- a number that stands for no kind, or no number -/
  | unrecognized (code : Option Int)
deriving DecidableEq, Repr

namespace FieldKind

def ofNumber : Int → FieldKind
  | 1 => .double
  | 2 => .float
  | 3 => .int64
  | 4 => .uint64
  | 5 => .int32
  | 6 => .fixed64
  | 7 => .fixed32
  | 8 => .bool
  | 9 => .string
  | 10 => .group
  | 11 => .message
  | 12 => .bytes
  | 13 => .uint32
  | 14 => .enum
  | 15 => .sfixed32
  | 16 => .sfixed64
  | 17 => .sint32
  | 18 => .sint64
  | n => .unrecognized (some n)

/-- the kind a descriptor declares by an optional number -/
def ofCode : Option Int → FieldKind
  | none => .unrecognized none
  | some n => ofNumber n

end FieldKind

/-- how many values a field holds -/
inductive Cardinality where
  | required
  | optional
  | repeated
deriving DecidableEq, Repr

def Cardinality.ofNumber? : Int → Option Cardinality
  | 1 => some .optional
  | 2 => some .required
  | 3 => some .repeated
  | _ => none

end ErlangRecords
