/-
Membership: which fields belong to which oneof of a message.

It is recorded twice. A field bears the position of its oneof, and a oneof the positions of its fields. Slots are laid
out by the first record, and the type of a oneof is made from the second.

- `MembersAgree`: both records say the same, and what they say is what the descriptor declares.
- `DeclaredBy.membersAgree`: so it is in every message that stands for a listed one, with typings or without.
- `oneofs_partition_fields`: in every message of a collected batch, before resolution and after it.
-/
import ErlangRecords.Proofs.Records

namespace ErlangRecords

open Descriptor (File Message)

/-! ## The two records of membership -/

/-- what a field takes over from its descriptor, apart from kind and membership -/
structure FieldDecl.Keeps (f : Descriptor.Field) (g : FieldDecl) : Prop where
  name : g.name = f.name
  number : g.number = f.number
  cardinality : f.label.bind Cardinality.ofNumber? = some g.cardinality
  typeName : g.typeName = f.typeName

/-- the message at a position has the fields and oneofs of the descriptor, in order, and both say the same of which
fields belong to which oneof -/
structure MembersAgree (d : Message) (position : Nat) (m : MessageDecl) : Prop where
  fields : List.Forall₂ FieldDecl.Keeps d.fields m.fields
  oneofs : m.oneofs.map (·.name) = d.oneofs
  member : ∀ (p : Nat) (f : Descriptor.Field) (g : FieldDecl), d.fields[p]? = some f → m.fields[p]? = some g →
    ∀ k : Nat, g.oneof = some k ↔ f.oneofIndex = some (k : Int) ∧ f.proto3Optional = false
  declared : ∀ g ∈ m.fields, ∀ k, g.oneof = some k → k < m.oneofs.length
  ordered : ∀ o ∈ m.oneofs, o.members.Pairwise (· < ·)
  members : ∀ (k : Nat) (o : OneofDecl), m.oneofs[k]? = some o →
    ∀ p, p ∈ o.members ↔ ∃ g, m.fields[p]? = some g ∧ g.oneof = some k
  /-- no field is a member of two oneofs -/
  disjoint : ∀ (j k : Nat) (o o' : OneofDecl), m.oneofs[j]? = some o → m.oneofs[k]? = some o' →
    ∀ p ∈ o.members, p ∈ o'.members → j = k
  owner : ∀ o ∈ m.oneofs, o.owner = position

theorem keeps_of_read {f : Descriptor.Field} {g : FieldDecl} (hread : FieldDecl.ofDescriptor f = .ok g.untyped) :
    g.Keeps f := by
  obtain ⟨_, _, cardinality, hcardinality, heq⟩ := FieldDecl.ofDescriptor_eq_ok_iff.1 hread
  have hkept : cardinality = g.cardinality := (congrArg FieldDecl.cardinality heq).symm
  exact ⟨congrArg FieldDecl.name heq, congrArg FieldDecl.number heq, hkept ▸ hcardinality,
    congrArg FieldDecl.typeName heq⟩

namespace MessageDecl.DeclaredBy

variable {m : MessageDecl} {d : Message}

theorem names_eq (h : m.DeclaredBy d) : m.oneofs.map (·.name) = d.oneofs := by
  apply List.ext_getElem?
  intro k
  have hk := congrArg (Option.map OneofDecl.name) (h.oneof k)
  simp only [Option.map_map] at hk
  rw [List.getElem?_map]
  refine hk.trans ?_
  cases d.oneofs[k]? <;> rfl

/-- a field is a member of the oneof its descriptor refers to, unless it is optional by itself -/
theorem oneof_iff (h : m.DeclaredBy d) {p : Nat} {f : Descriptor.Field} {g : FieldDecl} (hf : d.fields[p]? = some f)
    (hg : m.fields[p]? = some g) (k : Nat) :
    g.oneof = some k ↔ f.oneofIndex = some (k : Int) ∧ f.proto3Optional = false := by
  obtain ⟨g', hg', hread⟩ := getElem?_of_forall₂ h.fields hf
  rw [hg, Option.some.injEq] at hg'
  subst hg'
  rw [member_iff hread (h.indices f (List.mem_of_getElem? hf)), Descriptor.Field.refersTo, beq_iff_eq]

/-- the two records of membership agree wherever the oneofs are told where their message stands -/
theorem membersAgree (h : m.DeclaredBy d) {position : Nat} (howner : ∀ o ∈ m.oneofs, o.owner = position) :
    MembersAgree d position m := by
  have hmembered := h.membered
  constructor
  case fields => exact h.fields.imp fun f g hread => keeps_of_read hread
  case oneofs => exact h.names_eq
  case member => exact fun p f g hf hg => h.oneof_iff hf hg
  case declared =>
    intro g hg k hk
    obtain ⟨o, ho⟩ := hmembered.declared g hg k hk
    exact (List.getElem?_eq_some_iff.1 ho).1
  case ordered =>
    intro o ho
    obtain ⟨k, ho⟩ := List.getElem?_of_mem ho
    rw [(h.oneof_eq ho).2.1]
    exact positions_ordered (fun f => f.refersTo k && !f.proto3Optional) d.fields
  case members => exact hmembered.members
  case disjoint =>
    intro j k o o' hj hk p hp hp'
    obtain ⟨g, hg, hgj⟩ := (hmembered.members j o hj p).1 hp
    obtain ⟨g', hg', hgk⟩ := (hmembered.members k o' hk p).1 hp'
    rw [hg, Option.some.injEq] at hg'
    rw [← hg', hgj, Option.some.injEq] at hgk
    exact hgk
  case owner => exact howner

end MessageDecl.DeclaredBy

/-- the oneofs of a message that stands for a listed one are told its position -/
theorem MessageNode.owner {pos : Place → Option Nat} {e : Place × Message} {position : Nat} {m : MessageDecl}
    (h : MessageNode pos e position m.untyped) : ∀ o ∈ m.oneofs, o.owner = position := by
  obtain ⟨body, _, heq⟩ := h
  have honeofs : m.oneofs.map (·.untyped) = body.2.map (·.ownedBy position) := congrArg MessageDecl.oneofs heq
  intro o ho
  obtain ⟨o', _, howned⟩ := List.mem_map.1 (honeofs ▸ List.mem_map_of_mem ho)
  exact (congrArg OneofDecl.owner howned).symm

theorem MessageNode.membersAgree {pos : Place → Option Nat} {e : Place × Message} {position : Nat} {m : MessageDecl}
    (h : MessageNode pos e position m.untyped) : MembersAgree e.2 position m :=
  h.declaredBy.membersAgree h.owner

/-! ## Batches -/

/-- a message without typings is left as it is when they are taken away -/
theorem untyped_of_fresh {m : MessageDecl} (h : Fresh m.fields m.oneofs) : m.untyped = m := by
  have hfields : m.fields.map (·.untyped) = m.fields := by
    refine (List.map_congr_left fun f hf => ?_).trans (List.map_id _)
    rw [FieldDecl.untyped, ← h.target f hf, ← h.typing f hf]
    rfl
  have honeofs : m.oneofs.map (·.untyped) = m.oneofs := by
    refine (List.map_congr_left fun o ho => ?_).trans (List.map_id _)
    rw [OneofDecl.untyped, ← h.oneofTyping o ho]
    rfl
  rw [MessageDecl.untyped, hfields, honeofs]
  rfl

/-- the messages of the schema agree with the descriptors listed at their positions -/
def AgreesWith (files : List File) (schema : Schema) : Prop :=
  ∀ (i : Nat) (m : MessageDecl), schema.messages[i]? = some m →
    ∃ e, (batchMessages files)[i]? = some e ∧ MembersAgree e.2 i m

theorem Collected.agrees {files : List File} {schema : Schema} (h : Collected files schema) :
    AgreesWith files schema := by
  intro i m hm
  obtain ⟨e, he, hnode⟩ := h.of_message hm
  rw [← untyped_of_fresh (h.fresh m (List.mem_of_getElem? hm))] at hnode
  exact ⟨e, he, hnode.membersAgree⟩

theorem ResolvedFrom.agrees {files : List File} {resolved : Schema} (h : ResolvedFrom files resolved) :
    AgreesWith files resolved := by
  intro i m hm
  obtain ⟨e, he, hnode⟩ := h.node hm
  exact ⟨e, he, hnode.membersAgree⟩

/-- **Oneofs part the fields.** In every message of a collected batch, a field belongs to the oneof that its descriptor
refers to, unless it is optional by itself. Each such oneof is declared, bears the position of the message, and lists
its fields in strictly increasing order and no others, so that no field is in two. Names, numbers, cardinalities and
type names are those of the descriptor. Resolution changes nothing but typings and targets. -/
theorem oneofs_partition_fields {files : List File} {schema : Schema} (h : Schema.ofFiles files = .ok schema) :
    AgreesWith files schema ∧
      ∀ resolved, schema.resolve = .ok resolved → resolved.untyped = schema ∧ AgreesWith files resolved :=
  ⟨(collected_of_ok h).agrees, fun _ hr => ⟨untyped_of_resolved h hr, (resolvedFrom_of_ok h hr).agrees⟩⟩

/-- members of two oneofs in turns, between a plain field and one that is optional by itself -/
def interleavedMessage : Message where
  name := "Contact"
  fields := [
    { name := "mail", number := 1, label := some 1, type := some 9, oneofIndex := some 0 },
    { name := "age", number := 2, label := some 1, type := some 13, oneofIndex := some 2, proto3Optional := true },
    { name := "street", number := 3, label := some 1, type := some 9, oneofIndex := some 1 },
    { name := "tags", number := 4, label := some 3, type := some 9 },
    { name := "phone", number := 5, label := some 1, type := some 9, oneofIndex := some 0 },
    { name := "box", number := 6, label := some 1, type := some 13, oneofIndex := some 1 }]
  oneofs := ["reach", "address", "_age"]

def interleavedFiles : List File :=
  [{ name := "crm.proto", package := "crm", messages := [{ name := "Note" }, interleavedMessage] }]

theorem oneofs_partition_fields_sample : ∃ schema resolved, Schema.ofFiles interleavedFiles = .ok schema ∧
    schema.resolve = .ok resolved ∧
    resolved.messages.map (fun m => m.fields.map (·.oneof)) =
      [[], [some 0, none, some 1, none, some 0, some 1]] ∧
    resolved.messages.map (fun m => m.oneofs.map fun o => (o.owner, o.name, o.members)) =
      [[], [(1, "reach", [0, 4]), (1, "address", [2, 5]), (1, "_age", [])]] ∧
    AgreesWith interleavedFiles schema ∧ resolved.untyped = schema ∧ AgreesWith interleavedFiles resolved := by
  obtain ⟨resolved, h, hfields, honeofs⟩ := exists_ok_of_check
    (x := Schema.ofFiles interleavedFiles >>= Schema.resolve)
    (P := fun resolved => resolved.messages.map (fun m => m.fields.map (·.oneof)) =
        [[], [some 0, none, some 1, none, some 0, some 1]] ∧
      resolved.messages.map (fun m => m.oneofs.map fun o => (o.owner, o.name, o.members)) =
        [[], [(1, "reach", [0, 4]), (1, "address", [2, 5]), (1, "_age", [])]]) (by decide +kernel)
  obtain ⟨schema, hschema, hresolved⟩ := bind_eq_ok.1 h
  obtain ⟨hagrees, hresolves⟩ := oneofs_partition_fields hschema
  obtain ⟨huntyped, hkept⟩ := hresolves resolved hresolved
  exact ⟨schema, resolved, hschema, hresolved, hfields, honeofs, hagrees, huntyped, hkept⟩

end ErlangRecords
