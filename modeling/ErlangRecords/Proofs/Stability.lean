/-
Resolving a schema that is resolved.

The loop finds nothing but typings of its own making, takes the fields and oneofs of each message out, and puts back the
same ones. The typing of a field is made from what resolution never writes, and that of a oneof from the typings of the
fields, which have just been written anew.

- `MessageDecl.resolve_again`: one message.
- `Settled`, `settled_of_resolve`: a schema that bears the typings which resolution gives, as every resolved one does.
- `Settled.resolveAt`, `Settled.run`: a step, and a run over any positions, in any order and however often.
- `resolve_eq_self_iff`: the schemas that resolution leaves as they are.
- `resolve_resolved`: what comes of resolving is resolved already.
-/
import ErlangRecords.Proofs.Atomicity

namespace ErlangRecords

/-! ## One message -/

section

variable {schema : Schema} {m r : MessageDecl}

/-- a resolved field is resolved to itself, and so are the oneofs, from the same fields -/
theorem MessageDecl.resolve_again (h : m.resolve schema = .ok r) : r.resolve schema = .ok r := by
  obtain ⟨fields, hfields, rfl⟩ := MessageDecl.resolve_eq_ok_iff.1 h
  refine MessageDecl.resolve_eq_ok_iff.2 ⟨fields, List.forall₂_same.2 fun g hg => ?_, ?_⟩
  · obtain ⟨f, _, hf⟩ := mem_right_of_forall₂ hfields hg
    exact FieldDecl.resolve_again hf
  · have honeofs : (m.oneofs.map (·.resolve fields)).map (·.resolve fields) = m.oneofs.map (·.resolve fields) := by
      rw [List.map_map]
      rfl
    simp only [MessageDecl.withBody, honeofs]

end

/-! ## Schemas -/

/-- every message bears the typings that resolution against this schema gives -/
def Schema.Settled (schema : Schema) : Prop := ∀ m ∈ schema.messages, m.resolve schema = .ok m

theorem settled_of_resolve {schema resolved : Schema} (h : schema.resolve = .ok resolved) : resolved.Settled := by
  obtain ⟨_, _, hmessages⟩ := resolve_eq_ok_iff.1 h
  intro r hr
  obtain ⟨m, _, hm⟩ := mem_right_of_forall₂ hmessages hr
  rw [MessageDecl.resolve_congr fun f _ => FieldDecl.value_congr (sameDeclarations_of_resolve h) r.package f]
  exact MessageDecl.resolve_again hm

namespace Schema.Settled

variable {schema : Schema}

/-- a step takes a message out and puts the same one back -/
theorem resolveAt (h : schema.Settled) (position : Nat) : schema.resolveAt position = .ok schema := by
  cases hm : schema.messages[position]? with
  | none =>
    unfold Schema.resolveAt
    rw [hm]
  | some m =>
    obtain ⟨hlt, hget⟩ := List.getElem?_eq_some_iff.1 hm
    have hback : schema.messages.set position m = schema.messages := by
      rw [← hget, List.set_getElem_self]
    rw [resolveAt_eq (SameDeclarations.refl schema) hm, h m (List.mem_of_getElem? hm)]
    simp only [bind, Except.bind, pure, Except.pure, hback]

/-- **So does a run**, wherever it goes. -/
theorem run (h : schema.Settled) (positions : List Nat) : positions.foldlM Schema.resolveAt schema = .ok schema := by
  induction positions with
  | nil => rfl
  | cons position positions ih =>
    rw [List.foldlM_cons, h.resolveAt position]
    exact ih

end Schema.Settled

/-- **Fixed points**: resolution leaves exactly the settled schemas as they are. -/
theorem resolve_eq_self_iff {schema : Schema} : schema.resolve = .ok schema ↔ schema.Settled :=
  ⟨settled_of_resolve, fun h => h.run _⟩

/-- **Resolving twice is resolving once.** When a schema is resolved, the one made of the resolved messages, the enums
and the name table is resolved to itself, in all its fields, oneofs, typings and targets; and no step at any position,
or run over any positions, changes it. -/
theorem resolve_resolved {schema resolved : Schema} (h : schema.resolve = .ok resolved) :
    Schema.resolve ⟨resolved.messages, resolved.enums, resolved.names⟩ = .ok resolved ∧
      ∀ positions : List Nat, positions.foldlM Schema.resolveAt resolved = .ok resolved := by
  have hsettled := settled_of_resolve h
  exact ⟨resolve_eq_self_iff.2 hsettled, hsettled.run⟩

/-- the declarations that the fields of each message refer to -/
def Schema.targets (schema : Schema) : List (List (Option TypeRef)) :=
  schema.messages.map fun m => m.fields.map (·.target)

def sampleTargets : List (List (Option TypeRef)) := [
  [some (.message 1), some (.enum 0), none, some (.message 4)], [some (.message 0), some (.enum 1)], [], [],
  [some (.message 0)]]

theorem resolve_resolved_sample : ∃ schema resolved, Schema.ofFiles sampleFiles = .ok schema ∧
    schema.resolve = .ok resolved ∧ schema.targets ≠ sampleTargets ∧ resolved.targets = sampleTargets ∧
    Schema.resolve ⟨resolved.messages, resolved.enums, resolved.names⟩ = .ok resolved ∧
    [4, 0, 0, 9, 1].foldlM Schema.resolveAt resolved = .ok resolved := by
  obtain ⟨schema, hschema, hfresh, hresolve⟩ := exists_ok_of_check (x := Schema.ofFiles sampleFiles)
    (P := fun schema => schema.targets ≠ sampleTargets ∧
      (schema.resolve.toOption.any fun resolved => decide (resolved.targets = sampleTargets)) = true)
    (by decide +kernel)
  obtain ⟨resolved, hresolved, htargets⟩ := exists_ok_of_check hresolve
  obtain ⟨htwice, hruns⟩ := resolve_resolved hresolved
  exact ⟨schema, resolved, hschema, hresolved, hfresh, htargets, htwice, hruns [4, 0, 0, 9, 1]⟩

end ErlangRecords
