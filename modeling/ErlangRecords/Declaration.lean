/-
Declarations: the messages and enums of a batch, taken out of their files.

Each keeps its file, package and names, and the position of the message that encloses it. Fields and oneofs carry a
typing once they are resolved, see `ErlangRecords.Schema.Resolution`; before, they have none.
-/
import ErlangRecords.FieldKind
import ErlangRecords.Literal
import ErlangRecords.Name
import ErlangRecords.NameTable
import ErlangRecords.SnakeCase
import ErlangRecords.TypeExpr

namespace ErlangRecords

/-! ## Fields and oneofs -/

/-- the type expressions of a field -/
structure FieldTyping where
  /-- type of one value -/
  valueType : TypeExpr
  /-- type of the record slot -/
  slotType : TypeExpr
  default : Literal
deriving DecidableEq, Repr

structure FieldDecl where
  name : String
  number : Int
  cardinality : Cardinality
  kind : FieldKind
  /-- absolute name of the message or enum the field holds -/
  typeName : String
  /-- position of the oneof the field is a member of -/
  oneof : Option Nat := none
  proto3Optional : Bool := false
  /-- the declaration `typeName` denotes -/
  target : Option TypeRef := none
  typing : Option FieldTyping := none
deriving DecidableEq, Repr

/-- the type expression of a oneof -/
structure OneofTyping where
  slotType : TypeExpr
  default : Literal
deriving DecidableEq, Repr

structure OneofDecl where
  /-- position of the message that declares the oneof -/
  owner : Nat
  name : String
  /-- positions of the member fields -/
  members : List Nat := []
  /-- the oneof only records the presence of an optional field -/
  synthetic : Bool := false
  typing : Option OneofTyping := none
deriving DecidableEq, Repr

/-- makes the field at `position` a member, if it is none yet -/
def OneofDecl.addMember (o : OneofDecl) (position : Nat) : OneofDecl :=
  if position ∈ o.members then o else { o with members := o.members ++ [position] }

/-! ## Messages and enums -/

/-- what messages and enums have in common -/
structure Declaration where
  /-- position of the enclosing message -/
  parent : Option Nat := none
  file : String
  package : String
  name : String
  /-- dotted name inside the package -/
  fullName : String
deriving DecidableEq, Repr

namespace Declaration

/-- the key of every reference to the declaration -/
def absoluteName (d : Declaration) : String := Name.absolute d.package d.fullName

/-- the module that defines the generated type -/
def moduleName (d : Declaration) : String := ErlangRecords.moduleName d.package

/-- the name of the generated type -/
def typeName (d : Declaration) : String := snakeCase d.fullName

end Declaration

structure MessageDecl extends Declaration where
  fields : List FieldDecl := []
  oneofs : List OneofDecl := []
deriving DecidableEq, Repr

/-- the first field of the given name -/
def MessageDecl.field? (m : MessageDecl) (name : String) : Option FieldDecl := m.fields.find? (·.name == name)

/-- the first oneof of the given name -/
def MessageDecl.oneof? (m : MessageDecl) (name : String) : Option OneofDecl := m.oneofs.find? (·.name == name)

structure EnumValueDecl where
  name : String
  number : Int
deriving DecidableEq, Repr

def EnumValueDecl.atom (v : EnumValueDecl) : String := Atom.ofEnumValue v.name

structure EnumDecl extends Declaration where
  values : List EnumValueDecl := []
deriving DecidableEq, Repr

/-- the value that stands for an absent one: the first, whatever its number -/
def EnumDecl.defaultValue? (e : EnumDecl) : Option EnumValueDecl := e.values.head?

/-- the union of the values' atoms, in order -/
def EnumDecl.typeExpr (e : EnumDecl) : TypeExpr := .union (e.values.map fun v => .atom v.atom)

end ErlangRecords
