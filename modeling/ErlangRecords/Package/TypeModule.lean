/-
The type module: exported types for the enums and messages of a package.

An enum's type is the union of its atoms, a message's type its record, which the module takes from the header it
includes. Both sorts have an export list of their own, enums first.
-/
import ErlangRecords.Package

namespace ErlangRecords

namespace TypeModule

/-- the attribute that exports types without parameters -/
def exportList (names : List String) : String :=
  "-export_type([" ++
    (if names.isEmpty then ""
      else "\n" ++ ",\n".intercalate (names.map fun name => "  " ++ Atom.quote name ++ "/0") ++ "\n") ++ "]).\n"

/-- the type of a declaration of the given sort -/
def typeDefinition (sort : String) (d : Declaration) (type : TypeExpr) : String :=
  "%% Generated for " ++ sort ++ " type " ++ d.fullName ++ ".\n-type " ++ Atom.quote d.typeName ++ "() :: " ++
    type.render ++ ".\n"

def enumType (e : EnumDecl) : String := typeDefinition "enum" e.toDeclaration e.typeExpr

def messageType (m : MessageDecl) : String := typeDefinition "message" m.toDeclaration (.record m.typeName)

end TypeModule

/-- the text of the type module -/
def Package.typeModule (p : Package) : String :=
  Package.openingComment p.name ++
    "\n-module(" ++ Atom.quote p.moduleName ++ ").\n" ++
    "\n-include(\"" ++ p.moduleName ++ ".hrl\").\n" ++
    "\n" ++ TypeModule.exportList (p.enums.map (·.typeName)) ++
    "\n" ++ TypeModule.exportList (p.messages.map (·.typeName)) ++
    String.join (p.enums.map fun e => "\n" ++ TypeModule.enumType e) ++
    String.join (p.messages.map fun m => "\n" ++ TypeModule.messageType m)

end ErlangRecords
