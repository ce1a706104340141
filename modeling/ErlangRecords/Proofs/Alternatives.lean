/-
The union of a oneof: absence, or the value of one of its fields under the name of that field.

The union is made from the positions that the oneof lists. One that is out of range, or of a field without a typing,
would be passed over without a fault, and its alternative would be missing. There is none: the oneof lists exactly the
fields that bear its position, and those are all typed and back in their message by then.

- `membersOf`, `MembersAgree.members_eq`: the fields of a oneof as the fields tell it, and the positions that it lists.
- `ChoiceOf`: the alternative for a field.
- `Complete`, `complete_of_typed`: a oneof whose union has one alternative for each field, and no other.
- `oneofs_drop_no_member`: so has every oneof of a resolved batch.
-/
import ErlangRecords.Proofs.Membership
import ErlangRecords.Proofs.ReadBack

namespace ErlangRecords

open Descriptor (File Message)

/-! ## The fields of a oneof -/

/-- the fields that are members of the oneof at a position, as they are declared -/
def MessageDecl.membersOf (m : MessageDecl) (k : Nat) : List FieldDecl := m.fields.filter fun f => f.oneof == some k

/-- the oneof lists the positions of its fields, in order -/
theorem MembersAgree.members_eq {d : Message} {position : Nat} {m : MessageDecl} (h : MembersAgree d position m)
    {k : Nat} {o : OneofDecl} (ho : m.oneofs[k]? = some o) :
    o.members = positions (fun f : FieldDecl => f.oneof == some k) m.fields := by
  apply eq_positions_of_ordered (h.ordered o (List.mem_of_getElem? ho))
  intro p
  simp only [h.members k o ho p, beq_iff_eq]

/-! ## Its alternatives -/

/-- the alternative for a field: its name, and the type of one of its values, without what its cardinality adds -/
structure ChoiceOf (schema : Schema) (package : String) (f : FieldDecl) (t : TypeExpr) : Prop where
  tagged : ∃ typing, f.typing = some typing ∧ t = .tagged f.name typing.valueType
  value : ∃ v, f.value schema package = .ok v ∧ v.type.IsValue ∧ t = .tagged f.name v.type

/-- the oneof at a position lists its fields, and its union has absence and one alternative for each of them -/
structure OneofDecl.Complete (schema : Schema) (m : MessageDecl) (k : Nat) (o : OneofDecl) : Prop where
  members : List.Forall₂ (fun p f => m.fields[p]? = some f) o.members (m.membersOf k)
  union : ∃ alternatives, List.Forall₂ (ChoiceOf schema m.package) (m.membersOf k) alternatives ∧
    o.typing = some ⟨.union (.undefined :: alternatives), .undefined⟩
  count : o.typing.map (·.slotType.memberCount) = some ((m.membersOf k).length + 1)

theorem choiceOf_of_typed {schema : Schema} {m : MessageDecl} (h : m.Typed schema) {p : Nat} {f : FieldDecl}
    {t : TypeExpr} (hf : m.fields[p]? = some f) (ht : Alternative m.fields p t) : ChoiceOf schema m.package f t := by
  obtain ⟨f', typing, hf', htyping, rfl⟩ := ht
  rw [hf, Option.some.injEq] at hf'
  subst hf'
  obtain ⟨v, hv, _, hresolved⟩ := h.field f (List.mem_of_getElem? hf)
  have heq : typing = f.typingOf v := Option.some.inj (htyping.symm.trans hresolved)
  exact ⟨⟨typing, htyping, rfl⟩, v, hv, isValue_of_value hv, by rw [heq, typingOf_valueType]⟩

theorem complete_of_typed {schema : Schema} {d : Message} {position : Nat} {m : MessageDecl} (h : m.Typed schema)
    (hagree : MembersAgree d position m) {k : Nat} {o : OneofDecl} (ho : m.oneofs[k]? = some o) :
    o.Complete schema m k := by
  have hmembers : List.Forall₂ (fun p f => m.fields[p]? = some f) o.members (m.membersOf k) := by
    rw [hagree.members_eq ho]
    exact forall₂_positions _ m.fields
  obtain ⟨alternatives, hall, htyping⟩ := h.oneof o (List.mem_of_getElem? ho)
  have hstep : ∀ (f : FieldDecl) (p : Nat) (t : TypeExpr), m.fields[p]? = some f → Alternative m.fields p t →
      ChoiceOf schema m.package f t := fun _ _ _ hf ht => choiceOf_of_typed h hf ht
  have hchoices : List.Forall₂ (ChoiceOf schema m.package) (m.membersOf k) alternatives :=
    forall₂_trans hstep hmembers.flip hall
  refine ⟨hmembers, ⟨alternatives, hchoices, htyping⟩, ?_⟩
  rw [htyping, hchoices.length_eq]
  rfl

/-! ## Batches -/

/-- **No member is dropped.** When a batch is collected and resolved, the type of every oneof is a union that opens with
`undefined` and goes on, in the order of declaration, with one pair for each field that is a member of the oneof: the
name of the field, and the type of one of its values, which is no list and no union. So it has one alternative more than
the oneof has members, and its default is `undefined`. -/
theorem oneofs_drop_no_member {files : List File} {schema resolved : Schema} (h : Schema.ofFiles files = .ok schema)
    (hr : schema.resolve = .ok resolved) :
    ∀ m ∈ resolved.messages, ∀ (k : Nat) (o : OneofDecl), m.oneofs[k]? = some o → o.Complete resolved m k := by
  have hfrom := resolvedFrom_of_ok h hr
  intro m hm k o ho
  obtain ⟨i, hi⟩ := List.getElem?_of_mem hm
  obtain ⟨e, _, hagree⟩ := hfrom.agrees i m hi
  exact complete_of_typed (hfrom.typed m hm) hagree ho

/-- two oneofs with their members in turns, one of which is repeated, and a oneof without members -/
def choiceMessage : Message where
  name := "Parcel"
  fields := [
    { name := "codes", number := 1, label := some 3, type := some 13, oneofIndex := some 1 },
    { name := "next", number := 2, label := some 1, type := some 11, typeName := ".post.Parcel", oneofIndex := some 0 },
    { name := "note", number := 3, label := some 1, type := some 9 },
    { name := "size", number := 4, label := some 2, type := some 14, typeName := ".post.Size", oneofIndex := some 1 },
    { name := "end", number := 5, label := some 1, type := some 8, oneofIndex := some 0 }]
  oneofs := ["way", "mark", "none"]

def choiceFiles : List File := [{
  name := "post.proto"
  package := "post"
  messages := [choiceMessage]
  enums := [{ name := "Size", values := [⟨"SMALL", 0⟩] }] }]

theorem oneofs_drop_no_member_sample : ∃ schema resolved, Schema.ofFiles choiceFiles = .ok schema ∧
    schema.resolve = .ok resolved ∧
    resolved.messages.map (fun m => m.oneofs.map fun o => o.typing.map (·.slotType.render)) =
      [[some "undefined | \x7bnext, parcel()\x7d | \x7b'end', boolean()\x7d",
        some "undefined | \x7bcodes, 0..4294967295\x7d | \x7bsize, size()\x7d", some "undefined"]] ∧
    ∀ m ∈ resolved.messages, ∀ (k : Nat) (o : OneofDecl), m.oneofs[k]? = some o → o.Complete resolved m k := by
  obtain ⟨resolved, h, hprinted⟩ := exists_ok_of_check (x := Schema.ofFiles choiceFiles >>= Schema.resolve)
    (P := fun resolved => resolved.messages.map (fun m => m.oneofs.map fun o => o.typing.map (·.slotType.render)) =
      [[some "undefined | \x7bnext, parcel()\x7d | \x7b'end', boolean()\x7d",
        some "undefined | \x7bcodes, 0..4294967295\x7d | \x7bsize, size()\x7d", some "undefined"]]) (by decide +kernel)
  obtain ⟨schema, hschema, hresolved⟩ := bind_eq_ok.1 h
  exact ⟨schema, resolved, hschema, hresolved, hprinted, oneofs_drop_no_member hschema hresolved⟩

end ErlangRecords
