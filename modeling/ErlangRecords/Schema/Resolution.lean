/-
Resolution: every field gets its typing, every oneof the union of its tagged members.

Messages are resolved in place, one position after the other. While one is, its fields and oneofs are out of the
schema, which holds resolved messages before it and unresolved ones after it. A field is resolved against the names,
packages and enum values of the declarations it refers to, never against their fields. So the order of declarations
plays no part, and references may run in circles. A field, too, is written where it stands: its target once that is
found to serve, its typing at the end.
-/
import ErlangRecords.Schema

namespace ErlangRecords

/-- what one value of a field is -/
structure FieldValue where
  type : TypeExpr
  default : Literal
  /-- the declaration referred to -/
  target : Option TypeRef := none
deriving DecidableEq, Repr

/-- a reference from `package` to a declaration, with its module when the packages differ -/
def Declaration.reference (d : Declaration) (package : String) : TypeExpr :=
  .named (if d.package = package then none else some d.moduleName) d.typeName

namespace FieldDecl

/-- the value of a field that `package` declares -/
def value (schema : Schema) (package : String) (f : FieldDecl) : Except SchemaFault FieldValue :=
  match f.kind with
  | .bool => .ok { type := .boolean, default := .boolean false }
  | .float | .double => .ok { type := .float, default := .floatZero }
  | .int32 | .sint32 | .sfixed32 => .ok { type := .signed 32, default := .integer 0 }
  | .int64 | .sint64 | .sfixed64 => .ok { type := .signed 64, default := .integer 0 }
  | .uint32 | .fixed32 => .ok { type := .unsigned 32, default := .integer 0 }
  | .uint64 | .fixed64 => .ok { type := .unsigned 64, default := .integer 0 }
  | .string | .bytes => .ok { type := .iodata, default := .emptyList }
  | .enum =>
    match schema.enum? f.typeName with
    | none => .error (.unknownType "enum" f.typeName f.name)
    | some (position, e) =>
      match e.defaultValue? with
      | none => .error (.emptyEnum e.fullName)
      | some first =>
        .ok { type := e.reference package, default := .atom first.atom, target := some (.enum position) }
  | .message =>
    match schema.message? f.typeName with
    | none => .error (.unknownType "message" f.typeName f.name)
    | some (position, m) =>
      .ok { type := m.reference package, default := .undefined, target := some (.message position) }
  | .group => .error (.unsupported "group field type" f.name)
  | .unrecognized code => .error (.invalidType f.name code)

theorem value_enum_eq_ok_iff {schema : Schema} {package : String} {f : FieldDecl} {v : FieldValue}
    (hkind : f.kind = .enum) :
    f.value schema package = .ok v ↔ ∃ position e first, schema.enum? f.typeName = some (position, e) ∧
      e.defaultValue? = some first ∧ v = ⟨e.reference package, .atom first.atom, some (.enum position)⟩ := by
  unfold value
  rw [hkind]
  constructor
  · intro h
    cases hfind : schema.enum? f.typeName with
    | none => simp [hfind] at h
    | some found =>
      cases hfirst : found.2.defaultValue? with
      | none => simp [hfind, hfirst] at h
      | some first =>
        simp only [hfind, hfirst, Except.ok.injEq] at h
        exact ⟨found.1, found.2, first, rfl, hfirst, h.symm⟩
  · rintro ⟨position, e, first, hfind, hfirst, rfl⟩
    simp only [hfind, hfirst]

theorem value_message_eq_ok_iff {schema : Schema} {package : String} {f : FieldDecl} {v : FieldValue}
    (hkind : f.kind = .message) :
    f.value schema package = .ok v ↔ ∃ position m, schema.message? f.typeName = some (position, m) ∧
      v = ⟨m.reference package, .undefined, some (.message position)⟩ := by
  unfold value
  rw [hkind]
  constructor
  · intro h
    cases hfind : schema.message? f.typeName with
    | none => simp [hfind] at h
    | some found =>
      simp only [hfind, Except.ok.injEq] at h
      exact ⟨found.1, found.2, rfl, h.symm⟩
  · rintro ⟨position, m, hfind, rfl⟩
    simp only [hfind]

/-- where the kind refers to no declaration, the schema plays no part and there is no target -/
theorem value_of_scalar {schema : Schema} {package : String} {f : FieldDecl} {v : FieldValue} (henum : f.kind ≠ .enum)
    (hmessage : f.kind ≠ .message) (h : f.value schema package = .ok v) :
    v.target = none ∧ ∀ other, f.value other package = .ok v := by
  unfold value at h ⊢
  cases hkind : f.kind with
  | enum => exact absurd hkind henum
  | message => exact absurd hkind hmessage
  | group | unrecognized _ => simp [hkind] at h
  | _ =>
    simp only [hkind, Except.ok.injEq] at h
    simp [← h]

/-- the typing of a field with the given value: a list, a value, or a value or its absence -/
def typingOf (f : FieldDecl) (value : FieldValue) : FieldTyping :=
  match f.cardinality with
  | .repeated => ⟨value.type, .list value.type, .emptyList⟩
  | .optional => ⟨value.type, .optional value.type, value.default⟩
  | .required => ⟨value.type, if f.kind = .message then .optional value.type else value.type, value.default⟩

/-- finds the type and default of one value of the field; a declaration becomes its target when it is found to serve -/
def findValue (schema : Schema) (package : String) : EStateM SchemaFault FieldDecl (TypeExpr × Literal) := do
  let f ← get
  match f.kind with
  | .enum =>
    match schema.enum? f.typeName with
    | none => throw (.unknownType "enum" f.typeName f.name)
    | some (position, e) =>
      match e.defaultValue? with
      | none => throw (.emptyEnum e.fullName)
      | some first =>
        set { f with target := some (.enum position) }
        return (e.reference package, .atom first.atom)
  | .message =>
    match schema.message? f.typeName with
    | none => throw (.unknownType "message" f.typeName f.name)
    | some (position, m) =>
      set { f with target := some (.message position) }
      return (m.reference package, .undefined)
  | _ =>
    match f.value schema package with
    | .error fault => throw fault
    | .ok value => return (value.type, value.default)

/-- resolves the field in its place; a fault leaves it with all that was written before -/
def resolveInPlace (schema : Schema) (package : String) : EStateM SchemaFault FieldDecl Unit := do
  let (type, default) ← findValue schema package
  modify fun f => { f with typing := some (f.typingOf { type, default }) }

/-- the field as resolution leaves it, where `package` declares it -/
def resolve (schema : Schema) (package : String) (f : FieldDecl) : Except SchemaFault FieldDecl :=
  match (resolveInPlace schema package).run f with
  | .ok _ resolved => .ok resolved
  | .error fault _ => .error fault

/-- the look-ups come before anything is written, so a fault leaves the field as it was -/
theorem run_findValue (schema : Schema) (package : String) (f : FieldDecl) :
    (findValue schema package).run f =
      match f.value schema package with
      | .ok v => .ok (v.type, v.default) { f with target := v.target <|> f.target }
      | .error fault => .error fault f := by
  unfold findValue
  rw [EStateM.run_bind, EStateM.run_get]
  dsimp only
  cases hkind : f.kind with
  | enum =>
    simp only [value, hkind]
    cases schema.enum? f.typeName with
    | none => rfl
    | some found => cases hfirst : found.2.defaultValue? <;> simp only [hfirst] <;> rfl
  | message =>
    simp only [value, hkind]
    cases schema.message? f.typeName <;> rfl
  | _ =>
    cases hv : f.value schema package with
    | error fault => rfl
    | ok v =>
      have htarget := (value_of_scalar (by simp [hkind]) (by simp [hkind]) hv).1
      simp only [htarget, ← hkind]
      rfl

/-- a field ends with its typing and, if it refers to a declaration, with that for its target; or as it was -/
theorem run_resolveInPlace (schema : Schema) (package : String) (f : FieldDecl) :
    (resolveInPlace schema package).run f =
      match f.value schema package with
      | .ok v => .ok () { f with target := v.target <|> f.target, typing := some (f.typingOf v) }
      | .error fault => .error fault f := by
  unfold resolveInPlace
  rw [EStateM.run_bind, run_findValue]
  cases f.value schema package <;> rfl

theorem resolve_eq (schema : Schema) (package : String) (f : FieldDecl) :
    f.resolve schema package = do
      let value ← f.value schema package
      return { f with target := value.target <|> f.target, typing := some (f.typingOf value) } := by
  rw [resolve, run_resolveInPlace]
  cases f.value schema package <;> rfl

/-- the member of a oneof's union for a field, if that is resolved -/
def alternative? (f : FieldDecl) : Option TypeExpr := f.typing.map fun t => .tagged f.name t.valueType

end FieldDecl

/-- a oneof with its typing, from the resolved fields of its message -/
def OneofDecl.resolve (fields : List FieldDecl) (o : OneofDecl) : OneofDecl :=
  let alternatives := o.members.filterMap fun position => (fields[position]?).bind FieldDecl.alternative?
  { o with typing := some ⟨.union (.undefined :: alternatives), .undefined⟩ }

/-- the fields and oneofs of a message that `package` declares, resolved -/
def resolveBody (schema : Schema) (package : String) (fields : List FieldDecl) (oneofs : List OneofDecl) :
    Except SchemaFault (List FieldDecl × List OneofDecl) := do
  let resolved ← fields.mapM fun f =>
    atPlace ("cannot resolve type of field \"" ++ f.name ++ "\"") (f.resolve schema package)
  return (resolved, oneofs.map (·.resolve resolved))

/-- the message with the given fields and oneofs -/
def MessageDecl.withBody (m : MessageDecl) (fields : List FieldDecl) (oneofs : List OneofDecl) : MessageDecl :=
  { m with fields, oneofs }

namespace Schema

/-- resolves the message at a position; its fields and oneofs are taken out of the schema and put back resolved -/
def resolveAt (schema : Schema) (position : Nat) : Except SchemaFault Schema :=
  match schema.messages[position]? with
  | none => .ok schema
  | some m => do
    let hollow := { schema with messages := schema.messages.set position (m.withBody [] []) }
    let (fields, oneofs) ←
      atPlace ("cannot resolve types in message \"" ++ m.fullName ++ "\" of package \"" ++ m.package ++ "\"")
        (resolveBody hollow m.package m.fields m.oneofs)
    return { hollow with messages := hollow.messages.modify position (·.withBody fields oneofs) }

/-- the schema with all messages resolved, in order of position -/
def resolve (schema : Schema) : Except SchemaFault Schema :=
  (List.range schema.messages.length).foldlM resolveAt schema

end Schema

end ErlangRecords
