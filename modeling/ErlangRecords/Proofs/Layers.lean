/-
Faults under context layers.

A fault is told from the outside in: the places it arose in, outermost first, and at the end its cause. However many
layers there are, they neither hide the cause nor change its class. Every fault of a request is of that form: a check
finds the cause, and the places are those of the file, or of the declaration and the field in it, that the check was of.

- `SchemaFault.inside`: a cause at some places; `Layered`, `layered`: what is told of it.
- `Raised`: every check of a request and its batch, with the places, the cause and the class of what it finds.
- `fromCheck_of_validate`, `fromCheck_of_ofFiles`, `fromCheck_of_resolve`, `fromCheck_of_ofBatch`: faults come from
  checks.
- `layers_keep_cause`: all this together.
-/
import ErlangRecords.Proofs.Acceptance
import ErlangRecords.Proofs.Dangling
import ErlangRecords.Proofs.Violations

namespace ErlangRecords

open Descriptor (File Message Enum)

/-! ## Layers -/

namespace SchemaFault

/-- the cause in context layers, the outermost place first -/
def inside (places : List String) (cause : SchemaFault) : SchemaFault := places.foldr .context cause

/-- the fault is no context layer -/
def IsCause (fault : SchemaFault) : Prop := ∀ place source, fault ≠ .context place source

/-- what is told of a cause at these places -/
structure Layered (places : List String) (cause : SchemaFault) : Prop where
  kept : (inside places cause).cause = cause
  /-- what stands under all layers is no layer, -/
  bottom : (inside places cause).cause.IsCause
  /-- so it has a class of its own, -/
  classed : (inside places cause).cause.ownKind? = some (inside places cause).kind
  /-- which the layers do not change -/
  kind : (inside places cause).kind = cause.kind
  message : (inside places cause).message = ": ".intercalate (places ++ [cause.message])

theorem ownKind?_cause (fault : SchemaFault) : fault.cause.ownKind? = some fault.kind :=
  (Option.some_get fault.isSome_ownKind?_cause).symm

theorem IsCause.cause_eq {cause : SchemaFault} (h : cause.IsCause) : cause.cause = cause := by
  cases cause with
  | context place source => exact absurd rfl (h place source)
  | _ => rfl

theorem cause_inside (places : List String) (cause : SchemaFault) : (inside places cause).cause = cause.cause := by
  induction places with
  | nil => rfl
  | cons place places ih => exact ih

theorem kind_inside (places : List String) (cause : SchemaFault) : (inside places cause).kind = cause.kind := by
  induction places with
  | nil => rfl
  | cons place places ih => exact ih

theorem message_inside (places : List String) (cause : SchemaFault) :
    (inside places cause).message = ": ".intercalate (places ++ [cause.message]) := by
  induction places with
  | nil => exact String.intercalate_singleton.symm
  | cons place places ih =>
    have hne : places ++ [cause.message] ≠ [] := by simp
    rw [List.cons_append, String.intercalate_cons_of_ne_nil hne, ← ih]
    rfl

/-- **Layers leave the cause alone.** -/
theorem layered {cause : SchemaFault} (h : cause.IsCause) (places : List String) : Layered places cause where
  kept := by rw [cause_inside, h.cause_eq]
  bottom := by rwa [cause_inside, h.cause_eq]
  classed := ownKind?_cause _
  kind := kind_inside places cause
  message := message_inside places cause

end SchemaFault

open SchemaFault (inside IsCause Layered)

/-! ## Checks -/

/-- what a check finds wrong with a field by itself, and the class of that -/
inductive Descriptor.Field.Malformed (f : Descriptor.Field) : SchemaFault → FaultKind → Prop
  | noLabel (hlabel : f.label = none) : Malformed f (.missingLabel f.name) .malformedField
  | label {n : Int} (hlabel : f.label = some n) (hrange : ¬(1 ≤ n ∧ n ≤ 3)) :
      Malformed f (.invalidLabel f.name n) .malformedField
  | extension (hextendee : f.extendee ≠ "") : Malformed f (.unsupported "extension field" f.name) .unsupportedFeature
  | noType (htype : f.type = none) : Malformed f (.invalidType f.name none) .malformedField
  | type {n : Int} (htype : f.type = some n) (hrange : ¬(1 ≤ n ∧ n ≤ 18)) :
      Malformed f (.invalidType f.name (some n)) .malformedField

/-- where a message is resolved, and a field of it -/
def resolutionPlaces (m : MessageDecl) (f : FieldDecl) : List String := [
  "cannot resolve types in message \"" ++ m.fullName ++ "\" of package \"" ++ m.package ++ "\"",
  "cannot resolve type of field \"" ++ f.name ++ "\""]

/-- what a check of the request or of its batch finds wrong: at which places, for what cause, and of which class that
is -/
inductive Raised (names : List String) (files : List File) : List String → SchemaFault → FaultKind → Prop
  | misconfigured {detail : String} (h : Request.Misconfigured names files detail) :
      Raised names files [] (.config detail) .config
  | refused {inputs : List File} {target : Target} {file : File} {feature : String} {path : List String}
      (hinputs : Request.Configured names files inputs target) (h : Request.Refused inputs file feature path) :
      Raised names files ["in file " ++ file.name ++ " of package " ++ file.package]
        (.unsupported feature (".".intercalate path.reverse)) .unsupportedFeature
  | field {e : Place × Message} {f : Descriptor.Field} {cause : SchemaFault} {kind : FaultKind}
      (he : e ∈ batchMessages files) (hf : f ∈ e.2.fields) (h : f.Malformed cause kind) :
      Raised names files [messageContext e.2.name e.1.package, "invalid field \"" ++ f.name ++ "\""] cause kind
  | oneofIndex {e : Place × Message} {f : Descriptor.Field} {index : Int} (he : e ∈ batchMessages files)
      (hf : f ∈ e.2.fields) (hindex : f.oneofIndex = some index) (hrange : ¬(0 ≤ index ∧ index < e.2.oneofs.length)) :
      Raised names files [messageContext e.2.name e.1.package] (.invalidOneofIndex f.name index) .malformedField
  | messageName {before after : List (Place × Message)} {e : Place × Message}
      (hmessages : batchMessages files = before ++ e :: after)
      (htaken : e.1.absoluteName ∈ before.map (·.1.absoluteName)) :
      Raised names files [messageContext e.2.name e.1.package] (.nameCollision e.1.absoluteName) .nameCollision
  | enumValues {e : Place × Enum} (he : e ∈ batchEnums files) (hempty : e.2.values = []) :
      Raised names files [enumContext e.2.name e.1.package] (.emptyEnum (Name.dotted e.1.path)) .malformedEnum
  | enumName {before after : List (Place × Enum)} {e : Place × Enum} (henums : batchEnums files = before ++ e :: after)
      (htaken : e.1.absoluteName ∈ (batchMessages files).map (·.1.absoluteName) ++ before.map (·.1.absoluteName)) :
      Raised names files [enumContext e.2.name e.1.package] (.nameCollision e.1.absoluteName) .nameCollision
  | group {schema : Schema} {m : MessageDecl} {f : FieldDecl} (hschema : Schema.ofFiles files = .ok schema)
      (hm : m ∈ schema.messages) (hf : f ∈ m.fields) (hkind : f.kind = .group) :
      Raised names files (resolutionPlaces m f) (.unsupported "group field type" f.name) .unsupportedFeature
  | unknownEnum {schema : Schema} {m : MessageDecl} {f : FieldDecl} (hschema : Schema.ofFiles files = .ok schema)
      (hm : m ∈ schema.messages) (hf : f ∈ m.fields) (hkind : f.kind = .enum)
      (hname : f.typeName ∉ (batchEnums files).map (·.1.absoluteName)) :
      Raised names files (resolutionPlaces m f) (.unknownType "enum" f.typeName f.name) .unknownType
  | unknownMessage {schema : Schema} {m : MessageDecl} {f : FieldDecl} (hschema : Schema.ofFiles files = .ok schema)
      (hm : m ∈ schema.messages) (hf : f ∈ m.fields) (hkind : f.kind = .message)
      (hname : f.typeName ∉ (batchMessages files).map (·.1.absoluteName)) :
      Raised names files (resolutionPlaces m f) (.unknownType "message" f.typeName f.name) .unknownType

/-- the fault is what a check finds, at the places that the check is of -/
def FromCheck (names : List String) (files : List File) (fault : SchemaFault) : Prop :=
  ∃ places cause kind, Raised names files places cause kind ∧ fault = inside places cause

section

variable {names : List String} {files : List File} {fault : SchemaFault}

/-- no check finds a layer, and each finds causes of one class only -/
theorem Raised.own {places : List String} {cause : SchemaFault} {kind : FaultKind}
    (h : Raised names files places cause kind) : cause.IsCause ∧ cause.kind = kind := by
  have hown : ∀ {cause : SchemaFault} {kind : FaultKind}, cause.ownKind? = some kind →
      cause.IsCause ∧ cause.kind = kind := by
    intro cause kind h
    cases cause with
    | context => cases h
    | _ => exact ⟨nofun, Option.some.inj h⟩
  cases h with
  | field _ _ h => cases h <;> exact hown rfl
  | _ => exact hown rfl

/-! ## Faults come from checks -/

theorem fromCheck_of_validate (h : Request.validate names files = .error fault) : FromCheck names files fault := by
  rw [Request.validate_eq_error_iff, ← Request.misconfigured_iff] at h
  rcases h with ⟨detail, hdetail, rfl⟩ | ⟨inputs, target, htarget, hrefused⟩
  · exact ⟨_, _, _, .misconfigured hdetail, rfl⟩
  · obtain ⟨file, feature, path, hpath, rfl⟩ := Request.refused_iff.1 hrefused
    exact ⟨_, _, _, .refused (Request.configured_iff.2 htarget) hpath, rfl⟩

theorem exists_malformed {f : Descriptor.Field} {cause : SchemaFault} (h : cause ∈ f.causes) :
    ∃ kind, f.Malformed cause kind := by
  rcases mem_causes_iff.1 h with ⟨hlabel, rfl⟩ | ⟨n, hlabel, hrange, rfl⟩ | ⟨hextendee, rfl⟩ | ⟨htype, rfl⟩ |
    ⟨n, htype, hrange, rfl⟩
  · exact ⟨_, .noLabel hlabel⟩
  · exact ⟨_, .label hlabel hrange⟩
  · exact ⟨_, .extension hextendee⟩
  · exact ⟨_, .noType htype⟩
  · exact ⟨_, .type htype hrange⟩

theorem fromCheck_of_messageViolation {before after : List (Place × Message)} {e : Place × Message} {v : Violation}
    (hmessages : batchMessages files = before ++ e :: after)
    (hv : v ∈ messageViolations ((before.map (·.1.absoluteName)).reverse ++ []) e) : FromCheck names files v.fault := by
  have he : e ∈ batchMessages files := hmessages ▸ List.mem_append_right _ List.mem_cons_self
  rcases mem_messageViolations_iff.1 hv with ⟨f, hf, cause, hcause, rfl⟩ | ⟨f, hf, cause, hcause, rfl⟩ | ⟨htaken, rfl⟩
  · obtain ⟨kind, hkind⟩ := exists_malformed hcause
    exact ⟨_, _, _, .field he hf hkind, rfl⟩
  · obtain ⟨index, hindex, hrange, rfl⟩ := mem_indexCauses_iff.1 hcause
    exact ⟨_, _, _, .oneofIndex he hf hindex hrange, rfl⟩
  · rw [List.append_nil, List.mem_reverse] at htaken
    exact ⟨_, _, _, .messageName hmessages htaken, rfl⟩

theorem fromCheck_of_enumViolation {before after : List (Place × Enum)} {e : Place × Enum} {v : Violation}
    (henums : batchEnums files = before ++ e :: after)
    (hv : v ∈ enumViolations ((before.map (·.1.absoluteName)).reverse ++ (batchMessages files).map (·.1.absoluteName))
      e) : FromCheck names files v.fault := by
  have he : e ∈ batchEnums files := henums ▸ List.mem_append_right _ List.mem_cons_self
  rcases mem_enumViolations_iff.1 hv with ⟨hempty, rfl⟩ | ⟨htaken, rfl⟩
  · exact ⟨_, _, _, .enumValues he hempty, rfl⟩
  · rw [List.mem_append, List.mem_reverse, or_comm, ← List.mem_append] at htaken
    exact ⟨_, _, _, .enumName henums htaken, rfl⟩

theorem fromCheck_of_ofFiles (h : Schema.ofFiles files = .error fault) : FromCheck names files fault := by
  rw [← fault?_eq_some_iff, fault?_ofFiles, Option.map_eq_some_iff] at h
  obtain ⟨v, hv, rfl⟩ := h
  rcases List.mem_append.1 (List.mem_of_head? hv) with hv | hv
  · obtain ⟨before, e, after, hmessages, hv⟩ := mem_violationsFrom hv
    exact fromCheck_of_messageViolation hmessages hv
  · obtain ⟨before, e, after, henums, hv⟩ := mem_violationsFrom hv
    exact fromCheck_of_enumViolation henums hv

theorem fromCheck_of_resolve {schema : Schema} (hschema : Schema.ofFiles files = .ok schema)
    (h : schema.resolve = .error fault) : FromCheck names files fault := by
  obtain ⟨m, f, cause, hfirst, rfl⟩ := (collected_of_ok hschema).resolve_eq_error_iff.1 h
  obtain ⟨before, after, hmessages, _⟩ := hfirst.message
  obtain ⟨front, back, hfields, _⟩ := hfirst.field
  have hm : m ∈ schema.messages := hmessages ▸ List.mem_append_right _ List.mem_cons_self
  have hf : f ∈ m.fields := hfields ▸ List.mem_append_right _ List.mem_cons_self
  cases hfirst.offence with
  | group hkind => exact ⟨_, _, _, .group hschema hm hf hkind, rfl⟩
  | enum hkind hname => exact ⟨_, _, _, .unknownEnum hschema hm hf hkind hname, rfl⟩
  | message hkind hname => exact ⟨_, _, _, .unknownMessage hschema hm hf hkind hname, rfl⟩

/-- **Every fault of a request comes from a check**: of the request, of a declaration, or of a reference. -/
theorem fromCheck_of_ofBatch (h : ResolvedRequest.ofBatch names files = .error fault) :
    FromCheck names files fault := by
  rcases bind_eq_error.1 h with hvalidate | ⟨target, _, h⟩
  · exact fromCheck_of_validate hvalidate
  rcases bind_eq_error.1 h with hcollect | ⟨declared, hdeclared, h⟩
  · exact fromCheck_of_ofFiles hcollect
  rcases bind_eq_error.1 h with hresolve | ⟨resolved, _, h⟩
  · exact fromCheck_of_resolve hdeclared hresolve
  · cases h

end

/-- **Layers keep the cause.** Around a cause there may be any number of context layers: the cause is still what stands
under them all, the class is that of the cause, and the message is made of the places, outermost first, and the message
of the cause. And every fault of a request is of that form, with a cause and a class that are those of the check that
found it, in the places that this check was of. -/
theorem layers_keep_cause :
    (∀ places cause, IsCause cause → Layered places cause) ∧
    ∀ names files fault, ResolvedRequest.ofBatch names files = .error fault →
      ∃ places cause kind, Raised names files places cause kind ∧ fault = inside places cause ∧
        Layered places cause ∧ fault.kind = kind := by
  refine ⟨fun places cause h => SchemaFault.layered h places, fun names files fault h => ?_⟩
  obtain ⟨places, cause, kind, hraised, rfl⟩ := fromCheck_of_ofBatch h
  obtain ⟨hcause, hkind⟩ := hraised.own
  have hlayered := SchemaFault.layered hcause places
  exact ⟨places, cause, kind, hraised, rfl, hlayered, hlayered.kind.trans hkind⟩

theorem layers_keep_cause_sample :
    Layered ["message A", "invalid field \"x\""] (.invalidLabel "x" 7) ∧
    ∃ fault, ResolvedRequest.ofBatch ["shop/order.proto"] danglingFiles = .error fault ∧
      fault.message = "cannot resolve types in message \"Refund\" of package \"shop\": " ++
        "cannot resolve type of field \"order\": unknown message type '.shop.Ordre' referenced by field 'order'" ∧
      ∃ places, Raised ["shop/order.proto"] danglingFiles places (.unknownType "message" ".shop.Ordre" "order")
        .unknownType := by
  have hfault : ResolvedRequest.ofBatch ["shop/order.proto"] danglingFiles =
      .error (inside ["cannot resolve types in message \"Refund\" of package \"shop\"",
        "cannot resolve type of field \"order\""] (.unknownType "message" ".shop.Ordre" "order")) :=
    fault?_eq_some_iff.1 (by decide +kernel)
  refine ⟨layers_keep_cause.1 _ _ nofun, _, hfault, by decide +kernel, ?_⟩
  obtain ⟨places, cause, kind, hraised, hinside, hlayered, rfl⟩ := layers_keep_cause.2 _ _ _ hfault
  obtain rfl : SchemaFault.unknownType "message" ".shop.Ordre" "order" = cause :=
    (congrArg SchemaFault.cause hinside).trans hlayered.kept
  exact ⟨places, hraised⟩

end ErlangRecords
