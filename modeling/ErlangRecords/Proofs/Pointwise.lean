/-
What resolution makes of each field and oneof, said for one of them at a time.

The functions of the namespace `Pointwise` look at a field, the package of its message and the schema as it was
collected. They know neither the name table nor any order: a reference is to the declaration of that absolute name.

- `value_eq_ok_iff`: the value of a field is the one said.
- `resolve_pointwise`: resolution, in the order it takes or in any other, ends in exactly the messages said, and fails
  exactly when for some field or oneof nothing is said.
-/
import ErlangRecords.Proofs.Arena
import ErlangRecords.Proofs.InPlace

namespace ErlangRecords

open Descriptor (File Message Enum)

/-! ## What is said of each -/

namespace Pointwise

/-- the first of the declarations with an absolute name, after its position -/
def named? {α : Type} (absoluteName : α → String) (ds : List α) (name : String) : Option (Nat × α) :=
  (ds.zipIdx.find? fun entry => absoluteName entry.1 == name).map Prod.swap

/-- the type of a declaration as `package` writes it -/
def reference (d : Declaration) (package : String) : TypeExpr :=
  .named (if d.package = package then none else some d.moduleName) d.typeName

/-- type and default of one value where the kind refers to no declaration -/
def scalar? : FieldKind → Option (TypeExpr × Literal)
  | .bool => some (.boolean, .boolean false)
  | .float | .double => some (.float, .floatZero)
  | .int32 | .sint32 | .sfixed32 => some (.range (-2147483648) 2147483647, .integer 0)
  | .int64 | .sint64 | .sfixed64 => some (.range (-9223372036854775808) 9223372036854775807, .integer 0)
  | .uint32 | .fixed32 => some (.range 0 4294967295, .integer 0)
  | .uint64 | .fixed64 => some (.range 0 18446744073709551615, .integer 0)
  | .string | .bytes => some (.iodata, .emptyList)
  | .enum | .message | .group | .unrecognized _ => none

/-- one value of a field: that of its kind, or of the declaration it names; an enum's first value is the default,
whatever its number -/
def value? (schema : Schema) (package : String) (f : FieldDecl) : Option FieldValue :=
  match f.kind with
  | .enum => do
    let (position, e) ← named? (·.absoluteName) schema.enums f.typeName
    let first ← e.values.head?
    return ⟨reference e.toDeclaration package, .atom (Text.lowerCase first.name), some (.enum position)⟩
  | .message => do
    let (position, m) ← named? (·.absoluteName) schema.messages f.typeName
    return ⟨reference m.toDeclaration package, .undefined, some (.message position)⟩
  | kind => (scalar? kind).map fun (type, default) => ⟨type, default, none⟩

/-- the typing of a field whose values are of the type given -/
def typing (f : FieldDecl) (v : FieldValue) : FieldTyping :=
  if f.cardinality = .repeated then ⟨v.type, .list v.type, .emptyList⟩
  else if f.kind = .message then ⟨v.type, .union [.undefined, v.type], .undefined⟩
  else if f.cardinality = .optional then ⟨v.type, .union [.undefined, v.type], v.default⟩
  else ⟨v.type, v.type, v.default⟩

def field? (schema : Schema) (package : String) (f : FieldDecl) : Option FieldDecl := do
  let v ← value? schema package f
  return { f with target := v.target, typing := some (typing f v) }

/-- the member of a union for the field at a position -/
def alternative? (schema : Schema) (package : String) (fields : List FieldDecl) (position : Nat) :
    Option TypeExpr := do
  let f ← fields[position]?
  let v ← value? schema package f
  return .tagged f.name v.type

/-- absence, or one of the members, in order -/
def oneof? (schema : Schema) (package : String) (fields : List FieldDecl) (o : OneofDecl) : Option OneofDecl := do
  let alternatives ← o.members.mapM (alternative? schema package fields)
  return { o with typing := some ⟨.union (.undefined :: alternatives), .undefined⟩ }

def message? (schema : Schema) (m : MessageDecl) : Option MessageDecl := do
  let fields ← m.fields.mapM (field? schema m.package)
  let oneofs ← m.oneofs.mapM (oneof? schema m.package m.fields)
  return { m with fields, oneofs }

end Pointwise

/-! ## References -/

theorem named?_eq_some_iff {α : Type} {key : α → String} {ds : List α} {name : String} {i : Nat} {d : α}
    (hunique : ∀ (i j : Nat) (d d' : α), ds[i]? = some d → ds[j]? = some d' → key d = key d' → i = j) :
    Pointwise.named? key ds name = some (i, d) ↔ ds[i]? = some d ∧ key d = name := by
  simp only [Pointwise.named?, Option.map_eq_some_iff, Prod.exists, Prod.swap_prod_mk, Prod.mk.injEq]
  constructor
  · rintro ⟨d', i', hfind, rfl, rfl⟩
    have hd := List.mk_mem_zipIdx_iff_getElem?.1 (List.mem_of_find?_eq_some hfind)
    exact ⟨hd, by simpa using List.find?_some hfind⟩
  · rintro ⟨hd, hkey⟩
    cases hfind : ds.zipIdx.find? fun entry => key entry.1 == name with
    | none =>
      have := List.find?_eq_none.1 hfind (d, i) (List.mk_mem_zipIdx_iff_getElem?.2 hd)
      simp [hkey] at this
    | some entry =>
      obtain ⟨d', i'⟩ := entry
      have hd' := List.mk_mem_zipIdx_iff_getElem?.1 (List.mem_of_find?_eq_some hfind)
      have hkey' : key d' = name := by simpa using List.find?_some hfind
      obtain rfl := hunique _ _ _ _ hd hd' (hkey.trans hkey'.symm)
      rw [hd] at hd'
      exact ⟨d', i, rfl, rfl, (Option.some.inj hd').symm⟩

/-- an index that finds exactly the declarations under their names does what a search through them does -/
theorem bind_eq_named? {α : Type} {index : String → Option Nat} {key : α → String} {ds : List α}
    (h : ∀ n i, index n = some i ↔ ∃ d, ds[i]? = some d ∧ key d = n) (name : String) :
    ((index name).bind fun i => (ds[i]?).map (i, ·)) = Pointwise.named? key ds name := by
  have hunique : ∀ (i j : Nat) (d d' : α), ds[i]? = some d → ds[j]? = some d' → key d = key d' → i = j := by
    intro i j d d' hd hd' hkey
    have hi := (h (key d) i).2 ⟨d, hd, rfl⟩
    have hj := (h (key d) j).2 ⟨d', hd', hkey.symm⟩
    rw [hi] at hj
    exact Option.some.inj hj
  apply Option.ext
  rintro ⟨i, d⟩
  rw [named?_eq_some_iff hunique]
  simp only [Option.bind_eq_some_iff, Option.map_eq_some_iff, Prod.mk.injEq, h]
  constructor
  · rintro ⟨i', ⟨d', hd', hkey⟩, d'', hd, rfl, rfl⟩
    rw [hd] at hd'
    cases hd'
    exact ⟨hd, hkey⟩
  · rintro ⟨hd, hkey⟩
    exact ⟨i, ⟨d, hd, hkey⟩, d, hd, rfl, rfl⟩

theorem Schema.Indexed.message?_eq {schema : Schema} (h : schema.Indexed) (name : String) :
    schema.message? name = Pointwise.named? (·.absoluteName) schema.messages name :=
  bind_eq_named? (fun n i => NameTable.message?_eq_some_iff.trans (h.message n i)) name

theorem Schema.Indexed.enum?_eq {schema : Schema} (h : schema.Indexed) (name : String) :
    schema.enum? name = Pointwise.named? (·.absoluteName) schema.enums name :=
  bind_eq_named? (fun n i => NameTable.enum?_eq_some_iff.trans (h.enum n i)) name

/-! ## Values and fields -/

theorem value_eq_ok_iff {schema : Schema} (h : schema.Indexed) {package : String} {f : FieldDecl} {v : FieldValue} :
    f.value schema package = .ok v ↔ Pointwise.value? schema package f = some v := by
  unfold FieldDecl.value Pointwise.value?
  rw [h.message?_eq, h.enum?_eq]
  cases f.kind with
  | enum =>
    cases Pointwise.named? (·.absoluteName) schema.enums f.typeName with
    | none => simp
    | some found =>
      simp only [EnumDecl.defaultValue?, Option.bind_eq_bind, Option.bind_some]
      cases found.2.values.head? with
      | none => simp
      | some first => simp [Declaration.reference, Pointwise.reference, EnumValueDecl.atom, Atom.ofEnumValue]
  | message =>
    cases Pointwise.named? (·.absoluteName) schema.messages f.typeName with
    | none => simp
    | some found => simp [Declaration.reference, Pointwise.reference]
  | _ => simp [Pointwise.scalar?, TypeExpr.signed, TypeExpr.unsigned]

/-- a message is absent by default -/
theorem default_of_value? {schema : Schema} {package : String} {f : FieldDecl} {v : FieldValue}
    (h : Pointwise.value? schema package f = some v) (hkind : f.kind = .message) : v.default = .undefined := by
  simp only [Pointwise.value?, hkind, Option.bind_eq_bind, Option.bind_eq_some_iff] at h
  obtain ⟨found, _, h⟩ := h
  cases h
  rfl

theorem typingOf_eq {f : FieldDecl} {v : FieldValue} (h : f.kind = .message → v.default = .undefined) :
    f.typingOf v = Pointwise.typing f v := by
  unfold FieldDecl.typingOf Pointwise.typing
  by_cases hkind : f.kind = .message
  · rw [h hkind]
    cases f.cardinality <;> simp [hkind, TypeExpr.optional]
  · cases f.cardinality <;> simp [hkind, TypeExpr.optional]

theorem resolve_field_eq_ok_iff {schema : Schema} (h : schema.Indexed) {package : String} {f r : FieldDecl}
    (hfresh : f.target = none) :
    f.resolve schema package = .ok r ↔ Pointwise.field? schema package f = some r := by
  simp only [FieldDecl.resolve_eq, Pointwise.field?, bind_eq_ok, Option.bind_eq_bind, Option.bind_eq_some_iff,
    value_eq_ok_iff h, pure, Except.pure, Except.ok.injEq, Option.some.injEq]
  refine exists_congr fun v => and_congr_right fun hv => ?_
  have htarget : (v.target <|> f.target) = v.target := by
    rw [hfresh]
    cases v.target <;> rfl
  rw [htarget, typingOf_eq (default_of_value? hv)]

/-! ## Oneofs -/

/-- the union of a oneof has one member for each of its fields -/
theorem resolve_oneof_eq {schema : Schema} {package : String} {fields resolved : List FieldDecl} {o : OneofDecl}
    (hfields : fields.mapM (Pointwise.field? schema package) = some resolved)
    (hmembers : ∀ position ∈ o.members, position < fields.length) :
    Pointwise.oneof? schema package fields o = some (o.resolve resolved) := by
  have hall := mapM_eq_some_iff.1 hfields
  have halternatives : o.members.mapM (Pointwise.alternative? schema package fields) =
      some (o.members.filterMap fun position => (resolved[position]?).bind FieldDecl.alternative?) := by
    refine mapM_eq_some_filterMap fun position hposition => ?_
    have hlt := hmembers position hposition
    have hlt' : position < resolved.length := hall.length_eq ▸ hlt
    have hfield : Pointwise.field? schema package fields[position] = some resolved[position] := hall.get hlt hlt'
    simp only [Pointwise.field?, Option.bind_eq_bind, Option.bind_eq_some_iff, Option.pure_def,
      Option.some.injEq] at hfield
    obtain ⟨v, hv, hresolved⟩ := hfield
    refine ⟨.tagged fields[position].name v.type, ?_, ?_⟩
    · simp [Pointwise.alternative?, List.getElem?_eq_getElem hlt, hv]
    · have htype : (Pointwise.typing fields[position] v).valueType = v.type := by
        unfold Pointwise.typing
        split <;> [rfl; split] <;> [rfl; split] <;> rfl
      rw [List.getElem?_eq_getElem hlt', ← hresolved, Option.bind_some]
      simp [FieldDecl.alternative?, htype]
  simp only [Pointwise.oneof?, halternatives]
  rfl

/-! ## Messages -/

theorem resolve_message_eq_ok_iff {schema : Schema} (h : schema.Indexed) {m r : MessageDecl}
    (hfresh : Fresh m.fields m.oneofs) :
    m.resolve schema = .ok r ↔ Pointwise.message? schema m = some r := by
  have hfields : ∀ resolved, List.Forall₂ (fun f g => f.resolve schema m.package = .ok g) m.fields resolved ↔
      m.fields.mapM (Pointwise.field? schema m.package) = some resolved := by
    intro resolved
    rw [mapM_eq_some_iff]
    exact forall₂_congr_mem fun f hf r => resolve_field_eq_ok_iff h (hfresh.target f hf)
  have honeofs : ∀ resolved, m.fields.mapM (Pointwise.field? schema m.package) = some resolved →
      m.oneofs.mapM (Pointwise.oneof? schema m.package m.fields) = some (m.oneofs.map (·.resolve resolved)) := by
    intro resolved hresolved
    rw [mapM_eq_some_iff, List.forall₂_map_right_iff, List.forall₂_same]
    exact fun o ho => resolve_oneof_eq hresolved (hfresh.members o ho)
  simp only [MessageDecl.resolve_eq_ok_iff, hfields, Pointwise.message?, Option.bind_eq_bind, Option.bind_eq_some_iff,
    Option.pure_def, Option.some.injEq]
  constructor
  · rintro ⟨resolved, hresolved, rfl⟩
    exact ⟨resolved, hresolved, _, honeofs resolved hresolved, rfl⟩
  · rintro ⟨resolved, hresolved, oneofs, hos, rfl⟩
    rw [honeofs resolved hresolved, Option.some.injEq] at hos
    exact ⟨resolved, hresolved, by rw [← hos]; rfl⟩

/-! ## Schemas -/

/-- the schema with every message as it is said, and nothing else changed -/
structure Pointwise.Resolved (schema resolved : Schema) : Prop where
  enums : resolved.enums = schema.enums
  names : resolved.names = schema.names
  messages : schema.messages.mapM (Pointwise.message? schema) = some resolved.messages

/-- **In place is pointwise.** Once a batch is collected, the loop over the messages ends in the schema with every
message as it is said, and in no other; and so does a loop that visits the messages in any other order. -/
theorem resolve_pointwise {files : List File} {schema : Schema} (h : Schema.ofFiles files = .ok schema)
    (resolved : Schema) :
    (schema.resolve = .ok resolved ↔ Pointwise.Resolved schema resolved) ∧
      ∀ order : List Nat, order.Perm (List.range schema.messages.length) →
        (order.foldlM Schema.resolveAt schema = .ok resolved ↔ Pointwise.Resolved schema resolved) := by
  have hc := collected_of_ok h
  have hmessages : List.Forall₂ (fun m r => m.resolve schema = .ok r) schema.messages resolved.messages ↔
      schema.messages.mapM (Pointwise.message? schema) = some resolved.messages := by
    rw [mapM_eq_some_iff]
    exact forall₂_congr_mem fun m hm r => resolve_message_eq_ok_iff hc.indexed (hc.fresh m hm)
  have hspec : (resolved.enums = schema.enums ∧ resolved.names = schema.names ∧
      List.Forall₂ (fun m r => m.resolve schema = .ok r) schema.messages resolved.messages) ↔
      Pointwise.Resolved schema resolved := by
    rw [hmessages]
    exact ⟨fun ⟨henums, hnames, hall⟩ => ⟨henums, hnames, hall⟩, fun hr => ⟨hr.enums, hr.names, hr.messages⟩⟩
  exact ⟨resolve_eq_ok_iff.trans hspec, fun order horder => (foldlM_resolveAt_perm_iff horder).trans hspec⟩

/-- the slots of the records, as they are printed -/
def printedSlots (schema : Schema) : List (List (Option String)) :=
  schema.messages.map fun m =>
    m.fields.map (fun f => f.typing.map fun t => t.slotType.render ++ " = " ++ t.default.render) ++
      m.oneofs.map fun o => o.typing.map fun t => t.slotType.render

def sampleSlots : List (List (Option String)) := [
  [some "list(order_line()) = []", some "undefined | order_state() = open", some "undefined | iodata() = []",
    some "undefined | party:person() = undefined",
    some "undefined | \x7bcard, iodata()\x7d | \x7bpayer, party:person()\x7d"],
  [some "undefined | order() = undefined", some "order_line_unit() = kilo"], [], [],
  [some "undefined | shop:order() = undefined"]]

theorem resolve_pointwise_sample : ∃ schema resolved, Schema.ofFiles sampleFiles = .ok schema ∧
    Pointwise.Resolved schema resolved ∧ [3, 0, 4, 2, 1].foldlM Schema.resolveAt schema = .ok resolved ∧
    printedSlots resolved = sampleSlots := by
  obtain ⟨schema, h, hlength, hresolve⟩ := exists_ok_of_check (x := Schema.ofFiles sampleFiles)
    (P := fun schema => schema.messages.length = 5 ∧
      (schema.resolve.toOption.any fun resolved => decide (printedSlots resolved = sampleSlots)) = true)
    (by decide +kernel)
  obtain ⟨resolved, hresolved, hprinted⟩ := exists_ok_of_check hresolve
  obtain ⟨hloop, horders⟩ := resolve_pointwise h resolved
  refine ⟨schema, resolved, h, hloop.1 hresolved, ?_, hprinted⟩
  exact (horders [3, 0, 4, 2, 1] (by rw [hlength]; decide)).2 (hloop.1 hresolved)

end ErlangRecords
