/-
A resolved batch: what every field and every oneof carries.

Resolution leaves the declarations as they were collected and gives each field the typing of its value, against the very
schema that it ends in, and each oneof the union of its members.

- `ScalarValue`: the values of fields that refer to no declaration.
- `MessageDecl.Typed`: the fields and oneofs of a message carry what they should.
- `resolvedFrom_of_ok`: so do those of all messages of a resolved batch, which without them is the batch as collected.
-/
import ErlangRecords.Proofs.Arena
import ErlangRecords.Proofs.InPlace

namespace ErlangRecords

open Descriptor (File)

/-! ## Values -/

/-- the value of a field that refers to no declaration -/
inductive ScalarValue : FieldValue → Prop
  | boolean : ScalarValue { type := .boolean, default := .boolean false }
  | float : ScalarValue { type := .float, default := .floatZero }
  | signed (bits : Nat) : ScalarValue { type := .signed bits, default := .integer 0 }
  | unsigned (bits : Nat) : ScalarValue { type := .unsigned bits, default := .integer 0 }
  | iodata : ScalarValue { type := .iodata, default := .emptyList }

theorem scalarValue_of_value {schema : Schema} {package : String} {f : FieldDecl} {v : FieldValue}
    (henum : f.kind ≠ .enum) (hmessage : f.kind ≠ .message) (hv : f.value schema package = .ok v) : ScalarValue v := by
  unfold FieldDecl.value at hv
  cases hkind : f.kind with
  | enum => exact absurd hkind henum
  | message => exact absurd hkind hmessage
  | group | unrecognized _ => simp [hkind] at hv
  | _ =>
    simp only [hkind, Except.ok.injEq] at hv
    rw [← hv]
    constructor

@[simp] theorem typingOf_valueType (f : FieldDecl) (v : FieldValue) : (f.typingOf v).valueType = v.type := by
  unfold FieldDecl.typingOf
  cases f.cardinality <;> rfl

/-! ## Without typings -/

/-- the field as it was before resolution -/
def FieldDecl.untyped (f : FieldDecl) : FieldDecl := { f with target := none, typing := none }

/-- the oneof as it was before resolution -/
def OneofDecl.untyped (o : OneofDecl) : OneofDecl := { o with typing := none }

/-- the message as it was before resolution -/
def MessageDecl.untyped (m : MessageDecl) : MessageDecl :=
  m.withBody (m.fields.map (·.untyped)) (m.oneofs.map (·.untyped))

/-- the schema as it was before resolution -/
def Schema.untyped (schema : Schema) : Schema := { schema with messages := schema.messages.map (·.untyped) }

/-! ## With typings -/

/-- the type of a oneof's slot: one tagged member for each of its fields -/
def Alternative (fields : List FieldDecl) (position : Nat) (t : TypeExpr) : Prop :=
  ∃ f typing, fields[position]? = some f ∧ f.typing = some typing ∧ t = .tagged f.name typing.valueType

/-- every field and oneof of the message carries its typing -/
structure MessageDecl.Typed (schema : Schema) (m : MessageDecl) : Prop where
  field : ∀ f ∈ m.fields, ∃ v, f.value schema m.package = .ok v ∧ f.target = v.target ∧
    f.typing = some (f.typingOf v)
  oneof : ∀ o ∈ m.oneofs, ∃ alternatives, List.Forall₂ (Alternative m.fields) o.members alternatives ∧
    o.typing = some ⟨.union (.undefined :: alternatives), .undefined⟩

/-- the schema is that of the batch, with all typings -/
structure ResolvedFrom (files : List File) (resolved : Schema) : Prop where
  collected : Collected files resolved.untyped
  typed : ∀ m ∈ resolved.messages, m.Typed resolved

/-! ## One message -/

theorem untyped_of_resolve_field {schema : Schema} {package : String} {f g : FieldDecl} (htarget : f.target = none)
    (htyping : f.typing = none) (h : f.resolve schema package = .ok g) : g.untyped = f := by
  obtain ⟨v, _, rfl⟩ := FieldDecl.resolve_eq_ok_iff.1 h
  cases f
  simp_all [FieldDecl.untyped]

/-- resolution only adds typings -/
theorem untyped_of_resolve {schema : Schema} {m r : MessageDecl} (hfresh : Fresh m.fields m.oneofs)
    (h : m.resolve schema = .ok r) : r.untyped = m := by
  obtain ⟨fields, hfields, rfl⟩ := MessageDecl.resolve_eq_ok_iff.1 h
  have hf : fields.map (·.untyped) = m.fields :=
    map_eq_of_forall₂ (fun f hf g hg => untyped_of_resolve_field (hfresh.target f hf) (hfresh.typing f hf) hg) hfields
  have ho : (m.oneofs.map (·.resolve fields)).map (·.untyped) = m.oneofs := by
    rw [List.map_map]
    refine (List.map_congr_left fun o ho => ?_).trans (List.map_id _)
    have htyping := hfresh.oneofTyping o ho
    cases o
    simp_all [OneofDecl.untyped, OneofDecl.resolve]
  simp only [MessageDecl.untyped, MessageDecl.withBody, hf, ho]

/-- the typings are those of the values against the schema that resolution ends in -/
theorem typed_of_resolve {schema resolved : Schema} {m r : MessageDecl} (hfresh : Fresh m.fields m.oneofs)
    (hsame : SameDeclarations resolved schema) (h : m.resolve schema = .ok r) : r.Typed resolved := by
  obtain ⟨fields, hfields, rfl⟩ := MessageDecl.resolve_eq_ok_iff.1 h
  have htyped : ∀ g ∈ fields, ∃ v, g.value resolved m.package = .ok v ∧ g.target = v.target ∧
      g.typing = some (g.typingOf v) := by
    intro g hg
    obtain ⟨i, hi, rfl⟩ := List.getElem_of_mem hg
    have hi' : i < m.fields.length := hfields.length_eq ▸ hi
    obtain ⟨v, hv, heq⟩ := FieldDecl.resolve_eq_ok_iff.1 (hfields.get hi' hi)
    simp only [List.get_eq_getElem] at heq
    rw [← FieldDecl.value_congr hsame] at hv
    refine ⟨v, ?_, ?_, ?_⟩
    · rw [heq]
      exact hv
    · rw [heq]
      simp [hfresh.target _ (List.getElem_mem hi')]
    · rw [heq]
      rfl
  refine ⟨htyped, ?_⟩
  intro o' ho'
  obtain ⟨o, ho, rfl⟩ := List.mem_map.1 ho'
  have halternatives : ∀ position ∈ o.members, ∃ t, (fields[position]?).bind FieldDecl.alternative? = some t ∧
      (fields[position]?).bind FieldDecl.alternative? = some t := by
    intro position hposition
    have hlt : position < fields.length := hfields.length_eq ▸ hfresh.members o ho position hposition
    obtain ⟨v, _, _, htyping⟩ := htyped _ (List.getElem_mem hlt)
    refine ⟨.tagged fields[position].name (fields[position].typingOf v).valueType, ?_⟩
    simp [List.getElem?_eq_getElem hlt, FieldDecl.alternative?, htyping]
  refine ⟨_, ?_, rfl⟩
  refine (mapM_eq_some_iff.1 (mapM_eq_some_filterMap halternatives)).imp fun position t ht => ?_
  obtain ⟨f, hf, ht⟩ := Option.bind_eq_some_iff.1 ht
  obtain ⟨typing, htyping, rfl⟩ := Option.map_eq_some_iff.1 ht
  exact ⟨f, typing, hf, htyping, rfl⟩

/-! ## The batch -/

/-- without its typings, a resolved batch is the one that was collected -/
theorem untyped_of_resolved {files : List File} {schema resolved : Schema} (h : Schema.ofFiles files = .ok schema)
    (hr : schema.resolve = .ok resolved) : resolved.untyped = schema := by
  obtain ⟨henums, hnames, hmessages⟩ := resolve_eq_ok_iff.1 hr
  have hmap : resolved.messages.map (·.untyped) = schema.messages :=
    map_eq_of_forall₂ (fun m hm r => untyped_of_resolve ((collected_of_ok h).fresh m hm)) hmessages
  unfold Schema.untyped
  rw [hmap]
  cases resolved
  simp_all

/-- **A resolved batch** is the collected one, with every field and oneof typed. -/
theorem resolvedFrom_of_ok {files : List File} {schema resolved : Schema} (h : Schema.ofFiles files = .ok schema)
    (hr : schema.resolve = .ok resolved) : ResolvedFrom files resolved := by
  have hc := collected_of_ok h
  obtain ⟨_, _, hmessages⟩ := resolve_eq_ok_iff.1 hr
  refine ⟨?_, fun r hr' => ?_⟩
  · rw [untyped_of_resolved h hr]
    exact hc
  · obtain ⟨i, hi, rfl⟩ := List.getElem_of_mem hr'
    have hi' : i < schema.messages.length := hmessages.length_eq ▸ hi
    exact typed_of_resolve (hc.fresh _ (List.getElem_mem hi')) (sameDeclarations_of_resolve hr) (hmessages.get hi' hi)

namespace ResolvedFrom

variable {files : List File} {resolved : Schema}

theorem enum_indexed (h : ResolvedFrom files resolved) (name : String) (position : Nat) :
    resolved.names.get? name = some (.enum position) ↔
      ∃ e, resolved.enums[position]? = some e ∧ e.absoluteName = name :=
  h.collected.indexed.enum name position

theorem message_indexed (h : ResolvedFrom files resolved) (name : String) (position : Nat) :
    resolved.names.get? name = some (.message position) ↔
      ∃ m, resolved.messages[position]? = some m ∧ m.absoluteName = name := by
  refine (h.collected.indexed.message name position).trans ?_
  simp only [Schema.untyped, List.getElem?_map, Option.map_eq_some_iff]
  constructor
  · rintro ⟨_, ⟨m, hm, rfl⟩, hname⟩
    exact ⟨m, hm, hname⟩
  · rintro ⟨m, hm, hname⟩
    exact ⟨_, ⟨m, hm, rfl⟩, hname⟩

/-- without its typings, a message stands for the one listed at its position -/
theorem node (h : ResolvedFrom files resolved) {i : Nat} {m : MessageDecl} (hm : resolved.messages[i]? = some m) :
    ∃ e, (batchMessages files)[i]? = some e ∧ MessageNode (positionOf files) e i m.untyped := by
  have huntyped : resolved.untyped.messages[i]? = some m.untyped := by simp [Schema.untyped, hm]
  exact h.collected.of_message huntyped

/-- the messages stand as they are listed, each under the package and with the path of its place -/
theorem listed (h : ResolvedFrom files resolved) {i : Nat} {m : MessageDecl} (hm : resolved.messages[i]? = some m) :
    ∃ e, (batchMessages files)[i]? = some e ∧ m.package = e.1.package ∧ m.fullName = Name.dotted e.1.path := by
  obtain ⟨e, he, body, _, heq⟩ := h.node hm
  exact ⟨e, he, congrArg (fun m : MessageDecl => m.package) heq, congrArg (fun m : MessageDecl => m.fullName) heq⟩

end ResolvedFrom

end ErlangRecords
