/-
What can be wrong with a batch of descriptors.

A fault is a cause under any number of context layers. `cause` is what stands under all layers, `kind` its class, and
`message` reads from the outermost layer to the cause.
-/

namespace ErlangRecords

inductive SchemaFault where
  /-- the request itself cannot be served -/
  | config (detail : String)
  | missingLabel (field : String)
  | invalidLabel (field : String) (label : Int)
  | invalidOneofIndex (field : String) (index : Int)
  /-- the number of a kind that does not exist, or none -/
  | invalidType (field : String) (code : Option Int)
  | emptyEnum (name : String)
  /-- a declaration the generator has no rendering for -/
  | unsupported (feature name : String)
  /-- a reference to a declaration of the given sort that is not in the batch -/
  | unknownType (sort typeName field : String)
  | nameCollision (name : String)
  /-- where the fault arose -/
  | context (place : String) (source : SchemaFault)
deriving DecidableEq, Repr

/-- classes of causes -/
inductive FaultKind where
  | config
  | malformedField
  | malformedEnum
  | unsupportedFeature
  | unknownType
  | nameCollision
deriving DecidableEq, Repr

namespace SchemaFault

/-- what stands under all context layers -/
def cause : SchemaFault → SchemaFault
  | .context _ source => source.cause
  | fault => fault

/-- the class of a fault by itself; a context layer has none -/
def ownKind? : SchemaFault → Option FaultKind
  | .config _ => some .config
  | .missingLabel _ | .invalidLabel _ _ | .invalidOneofIndex _ _ | .invalidType _ _ => some .malformedField
  | .emptyEnum _ => some .malformedEnum
  | .unsupported _ _ => some .unsupportedFeature
  | .unknownType _ _ _ => some .unknownType
  | .nameCollision _ => some .nameCollision
  | .context _ _ => none

theorem isSome_ownKind?_cause (fault : SchemaFault) : fault.cause.ownKind?.isSome = true := by
  induction fault with
  | context _ source ih => exact ih
  | _ => rfl

/-- the class of the cause, which is no layer -/
def kind (fault : SchemaFault) : FaultKind := fault.cause.ownKind?.get fault.isSome_ownKind?_cause

/-- the text shown to the user -/
def message : SchemaFault → String
  | .config detail => "configuration error: " ++ detail
  | .missingLabel field => "missing label for field '" ++ field ++ "'"
  | .invalidLabel field label => "unsupported label " ++ toString label ++ " for field '" ++ field ++ "'"
  | .invalidOneofIndex field index => "invalid oneof index " ++ toString index ++ " for field '" ++ field ++ "'"
  | .invalidType field none => "invalid type (missing) for field '" ++ field ++ "'"
  | .invalidType field (some code) => "invalid type " ++ toString code ++ " for field '" ++ field ++ "'"
  | .emptyEnum name => "enum '" ++ name ++ "' has no values"
  | .unsupported feature name => "unsupported " ++ feature ++ " '" ++ name ++ "'"
  | .unknownType sort typeName field =>
    "unknown " ++ sort ++ " type '" ++ typeName ++ "' referenced by field '" ++ field ++ "'"
  | .nameCollision name => "duplicate definition of '" ++ name ++ "'"
  | .context place source => place ++ ": " ++ source.message

end SchemaFault

/-- the result, a fault of which arose at `place` -/
def atPlace {α : Type} (place : String) (result : Except SchemaFault α) : Except SchemaFault α :=
  result.mapError (.context place)

end ErlangRecords
