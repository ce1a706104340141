/-
Records: which fields of a message its record holds.

A field is held by a slot of its own or, as a tagged member, by the slot of its oneof. A oneof has no slot once a single
field that is optional by itself refers to it; ordinary fields of such a oneof are in no slot.

- `FieldsHeld`, `DeclaredBy.fieldsHeld`: a record holds each field once, except those.
- `fields_represented`: so does every record definition of a header.
- `member_beside_optional_lost`: a field that is in no slot.
-/
import ErlangRecords.Proofs.Layout
import ErlangRecords.Proofs.Written

namespace ErlangRecords

open Descriptor (File Message)

/-! ## A message and its descriptor -/

theorem oneof_of_read {f : Descriptor.Field} {g : FieldDecl} (hread : FieldDecl.ofDescriptor f = .ok g.untyped) :
    g.oneof = if f.proto3Optional then none else f.oneofIndex.map Int.toNat := by
  obtain ⟨_, _, _, _, heq⟩ := FieldDecl.ofDescriptor_eq_ok_iff.1 hread
  exact congrArg FieldDecl.oneof heq

/-- a field is a member of the oneof it refers to, unless it is optional by itself -/
theorem member_iff {f : Descriptor.Field} {g : FieldDecl} (hread : FieldDecl.ofDescriptor f = .ok g.untyped)
    {count : Nat} (hindex : f.IndexBelow count) {k : Nat} :
    g.oneof = some k ↔ f.refersTo k = true ∧ f.proto3Optional = false := by
  rw [oneof_of_read hread, Descriptor.Field.refersTo]
  cases f.proto3Optional with
  | true => simp
  | false =>
    cases hf : f.oneofIndex with
    | none => simp
    | some index =>
      have hbelow := hindex index hf
      simp only [Bool.false_eq_true, if_false, Option.map_some, Option.some.injEq, beq_iff_eq, and_true]
      omega

namespace MessageDecl

/-- fields and oneofs of the message are those of the descriptor -/
structure DeclaredBy (m : MessageDecl) (d : Message) : Prop where
  fields : List.Forall₂ (fun f g => FieldDecl.ofDescriptor f = .ok g.untyped) d.fields m.fields
  indices : ∀ f ∈ d.fields, f.IndexBelow d.oneofs.length
  oneof : ∀ k, (m.oneofs[k]?).map (fun o => o.untyped.ownedBy 0) = (d.oneofs[k]?).map (d.oneofAt k)

namespace DeclaredBy

variable {m : MessageDecl} {d : Message}

theorem oneof_eq (h : m.DeclaredBy d) {k : Nat} {o : OneofDecl} (ho : m.oneofs[k]? = some o) :
    k < d.oneofs.length ∧ o.members = d.memberPositions k ∧ o.synthetic = d.isMarked k := by
  have hk := h.oneof k
  rw [ho, Option.map_some] at hk
  obtain ⟨name, hname, heq⟩ := Option.map_eq_some_iff.1 hk.symm
  refine ⟨(List.getElem?_eq_some_iff.1 hname).1, ?_, ?_⟩
  · exact (congrArg OneofDecl.members heq).symm
  · exact (congrArg OneofDecl.synthetic heq).symm

theorem exists_oneof (h : m.DeclaredBy d) {k : Nat} (hk : k < d.oneofs.length) : ∃ o, m.oneofs[k]? = some o := by
  have heq := h.oneof k
  rw [List.getElem?_eq_getElem hk, Option.map_some] at heq
  obtain ⟨o, ho, _⟩ := Option.map_eq_some_iff.1 heq
  exact ⟨o, ho⟩

/-- fields and oneofs of a declared message say the same of who belongs to whom -/
theorem membered (h : m.DeclaredBy d) : m.Membered := by
  constructor
  case declared =>
    intro g hg k hk
    obtain ⟨f, hf, hread⟩ := mem_right_of_forall₂ h.fields hg
    obtain ⟨hrefers, _⟩ := (member_iff hread (h.indices f hf)).1 hk
    have hbelow := h.indices f hf k (beq_iff_eq.1 hrefers)
    apply h.exists_oneof
    omega
  case members =>
    intro k o ho i
    rw [(h.oneof_eq ho).2.1, mem_memberPositions]
    constructor
    · intro ⟨f, hf, hmember⟩
      obtain ⟨g, hg, hread⟩ := getElem?_of_forall₂ h.fields hf
      exact ⟨g, hg, (member_iff hread (h.indices f (List.mem_of_getElem? hf))).2 hmember⟩
    · intro ⟨g, hg, hmember⟩
      obtain ⟨f, hf, hread⟩ := getElem?_of_forall₂ h.fields.flip hg
      exact ⟨f, hf, (member_iff hread (h.indices f (List.mem_of_getElem? hf))).1 hmember⟩
  case nodup =>
    intro o ho
    obtain ⟨k, ho⟩ := List.getElem?_of_mem ho
    rw [(h.oneof_eq ho).2.1]
    exact positions_nodup (fun f => f.refersTo k && !f.proto3Optional) d.fields

theorem hasSlot_iff (h : m.DeclaredBy d) {k : Nat} :
    m.hasSlot k = true ↔ k < d.oneofs.length ∧ d.isMarked k = false := by
  rw [MessageDecl.hasSlot_iff]
  constructor
  · intro ⟨o, ho, hs⟩
    obtain ⟨hk, _, hmarked⟩ := h.oneof_eq ho
    exact ⟨hk, hmarked ▸ hs⟩
  · intro ⟨hk, hmarked⟩
    obtain ⟨o, ho⟩ := h.exists_oneof hk
    exact ⟨o, ho, (h.oneof_eq ho).2.2.trans hmarked⟩

end DeclaredBy

end MessageDecl

/-- a message that stands for a listed one, with typings or without, is declared by its descriptor -/
theorem MessageNode.declaredBy {pos : Place → Option Nat} {e : Place × Message} {p : Nat} {m : MessageDecl}
    (h : MessageNode pos e p m.untyped) : m.DeclaredBy e.2 := by
  obtain ⟨body, hbody, heq⟩ := h
  obtain ⟨hfields, hindices, honeofs⟩ := bodyOf_eq_ok_iff.1 hbody
  have hbodyFields : m.fields.map (·.untyped) = body.1 := congrArg MessageDecl.fields heq
  have hbodyOneofs : m.oneofs.map (·.untyped) = body.2.map (·.ownedBy p) := congrArg MessageDecl.oneofs heq
  refine ⟨?_, hindices, ?_⟩
  · rw [← hbodyFields, List.forall₂_map_right_iff] at hfields
    exact hfields
  · intro k
    have hk := congrArg (fun oneofs : List OneofDecl => (oneofs[k]?).map (·.ownedBy 0)) hbodyOneofs
    simp only [honeofs, List.getElem?_map, List.getElem?_mapIdx, Option.map_map] at hk
    exact hk

/-- the messages of a resolved batch are declared by the listed descriptors -/
theorem ResolvedFrom.declaredBy {files : List File} {resolved : Schema} (h : ResolvedFrom files resolved) {p : Nat}
    {m : MessageDecl} (hm : resolved.messages[p]? = some m) :
    ∃ e, (batchMessages files)[p]? = some e ∧ m.DeclaredBy e.2 := by
  obtain ⟨e, he, hnode⟩ := h.node hm
  exact ⟨e, he, hnode.declaredBy⟩

/-! ## Which fields a record holds -/

/-- the slot that should hold the field at a position -/
def Descriptor.Field.slotRef (f : Descriptor.Field) (position : Nat) : SlotRef :=
  if f.proto3Optional then .field position else f.oneofIndex.elim (.field position) fun k => .oneof k.toNat

/-- the field is an ordinary one of a oneof to which one that is optional by itself refers, too -/
def Descriptor.Message.isShadowed (d : Message) (f : Descriptor.Field) : Bool :=
  !f.proto3Optional && f.oneofIndex.any fun k => d.isMarked k.toNat

/-- the record holds each field of the descriptor that is not shadowed once, in the slot where it should -/
structure FieldsHeld (d : Message) (m : MessageDecl) : Prop where
  fields : List.Forall₂ (fun f g => FieldDecl.ofDescriptor f = .ok g.untyped) d.fields m.fields
  slots : m.layout.Nodup
  slot : ∀ (i : Nat) (f : Descriptor.Field), d.fields[i]? = some f →
    ∀ ref ∈ m.layout, i ∈ m.heldBy ref ↔ ref = f.slotRef i
  count : ∀ (i : Nat) (f : Descriptor.Field), d.fields[i]? = some f →
    m.held.count i = if d.isShadowed f then 0 else 1
  /-- a single field that is optional by itself makes its oneof synthetic -/
  synthetic : ∀ (k : Nat) (o : OneofDecl), m.oneofs[k]? = some o →
    (o.synthetic = true ↔ ∃ f ∈ d.fields, f.oneofIndex = some (k : Int) ∧ f.proto3Optional = true)
  oneofSlot : ∀ (k : Nat) (o : OneofDecl), m.oneofs[k]? = some o → (.oneof k ∈ m.layout ↔ o.synthetic = false)

theorem isMarked_iff {d : Message} {k : Nat} :
    d.isMarked k = true ↔ ∃ f ∈ d.fields, f.oneofIndex = some (k : Int) ∧ f.proto3Optional = true := by
  simp [Descriptor.Message.isMarked, Descriptor.Field.refersTo]

/-- where the field of a declared message should be held -/
theorem slotRef_eq {f : Descriptor.Field} {g : FieldDecl} (hread : FieldDecl.ofDescriptor f = .ok g.untyped) (i : Nat) :
    f.slotRef i = g.oneof.elim (.field i) .oneof := by
  rw [oneof_of_read hread, Descriptor.Field.slotRef]
  cases f.proto3Optional with
  | true => rfl
  | false => cases f.oneofIndex <;> rfl

/-- where all oneofs of the field have a slot -/
theorem MessageDecl.DeclaredBy.mem_held_iff {m : MessageDecl} {d : Message} (h : m.DeclaredBy d) {i : Nat}
    {f : Descriptor.Field} (hf : d.fields[i]? = some f) : i ∈ m.held ↔ d.isShadowed f = false := by
  obtain ⟨g, hg, hread⟩ := getElem?_of_forall₂ h.fields hf
  have hindex := h.indices f (List.mem_of_getElem? hf)
  have hslots : i ∈ m.held ↔ ∀ k, g.oneof = some k → m.hasSlot k = true := by
    rw [MessageDecl.mem_held_iff h.membered]
    simp [hg]
  simp only [hslots, h.hasSlot_iff, oneof_of_read hread, Descriptor.Message.isShadowed]
  cases f.proto3Optional with
  | true => simp
  | false =>
    cases hf : f.oneofIndex with
    | none => simp
    | some index => simp [(hindex index hf).2]

theorem MessageDecl.DeclaredBy.fieldsHeld {m : MessageDecl} {d : Message} (h : m.DeclaredBy d) : FieldsHeld d m := by
  have hmembered := h.membered
  constructor
  case fields => exact h.fields
  case slots => exact m.layout_nodup
  case slot =>
    intro i f hf ref href
    obtain ⟨g, hg, hread⟩ := getElem?_of_forall₂ h.fields hf
    rw [mem_heldBy_iff hmembered href, slotRef_eq hread]
    simp [hg]
  case count =>
    intro i f hf
    rw [(held_nodup hmembered).count]
    simp only [h.mem_held_iff hf]
    cases d.isShadowed f <;> rfl
  case synthetic =>
    intro k o ho
    rw [(h.oneof_eq ho).2.2, isMarked_iff]
  case oneofSlot =>
    intro k o ho
    rw [mem_layout_oneof, h.hasSlot_iff, (h.oneof_eq ho).2.2]
    exact and_iff_right (h.oneof_eq ho).1

/-! ## Record definitions -/

/-- the line of a slot: that of a field, or that of a oneof, a choice of its tagged members -/
inductive LineOf (home : String) (m : MessageDecl) : SlotRef → Header.Line → Prop
  | field {i : Nat} {f : FieldDecl} {typing : FieldTyping} (hf : m.fields[i]? = some f)
      (htyping : f.typing = some typing) :
      LineOf home m (.field i) ⟨f.name, typing.default, typing.slotType.qualify home⟩
  | oneof {k : Nat} {o : OneofDecl} {alternatives : List TypeExpr} (ho : m.oneofs[k]? = some o)
      (hall : List.Forall₂ (Alternative m.fields) (m.heldBy (.oneof k)) alternatives) :
      LineOf home m (.oneof k) ⟨o.name, .undefined, (TypeExpr.union (.undefined :: alternatives)).qualify home⟩

theorem lineOf_of_typed {schema : Schema} {home : String} {m : MessageDecl} (h : m.Typed schema) {ref : SlotRef}
    {slot : RecordSlot} {line : Header.Line} (hslot : m.slot? ref = some slot)
    (hline : Header.line? home slot = some line) : LineOf home m ref line := by
  obtain ⟨typing, htyping, rfl⟩ := Option.map_eq_some_iff.1 hline
  cases ref with
  | field i =>
    obtain ⟨f, hf, rfl⟩ := Option.map_eq_some_iff.1 hslot
    obtain ⟨t, ht, rfl⟩ := Option.map_eq_some_iff.1 htyping
    exact .field hf ht
  | oneof k =>
    obtain ⟨o, ho, rfl⟩ := Option.map_eq_some_iff.1 hslot
    obtain ⟨alternatives, hall, heq⟩ := h.oneof o (List.mem_of_getElem? ho)
    simp only [RecordSlot.typing, heq, Option.map_some, Option.some.injEq] at htyping
    subst htyping
    refine .oneof ho ?_
    rw [MessageDecl.heldBy, ho]
    exact hall

/-- the definition is that of the record of a message of the batch: a line for each slot, and every field that is not
shadowed held by one of them -/
def RecordFor (files : List File) (schema : Schema) (home : String) (m : MessageDecl) (d : Header.Definition) : Prop :=
  ∃ (p : Nat) (e : Place × Message), (batchMessages files)[p]? = some e ∧ schema.messages[p]? = some m ∧
    FieldsHeld e.2 m ∧ d.declaration = m.toDeclaration ∧ List.Forall₂ (LineOf home m) m.layout d.lines

theorem ResolvedFrom.recordFor {files : List File} {schema : Schema} (h : ResolvedFrom files schema) {home : String}
    {m : MessageDecl} (hm : m ∈ schema.messages) {d : Header.Definition} (hd : Header.Defined home m d) :
    RecordFor files schema home m d := by
  obtain ⟨p, hp⟩ := List.getElem?_of_mem hm
  obtain ⟨e, he, hdeclared⟩ := h.declaredBy hp
  refine ⟨p, e, he, hp, hdeclared.fieldsHeld, hd.declaration, ?_⟩
  apply forall₂_trans _ m.slots_layout hd.lines
  intro ref slot line hslot hline
  exact lineOf_of_typed (h.typed m hm) hslot hline

/-- **Which fields a header holds.** When a request has outputs, the header is a sequence of record definitions, one for
each message of the package. Each field of a message is held once in its record, by the slot where it should be, unless
it is an ordinary field of a oneof to which a field that is optional by itself refers, too. Such a oneof, and no other,
is synthetic and has no slot, so those fields are not held at all. -/
theorem fields_represented {request : Request} {out : List OutputFile} (h : request.outputs = .ok out) :
    ∃ resolved definitions, ResolvedRequest.ofBatch request.filesToGenerate request.files = .ok resolved ∧
      out = [⟨resolved.package.headerPath, resolved.package.headerWith definitions⟩,
        ⟨resolved.package.modulePath, resolved.package.typeModule⟩] ∧
      List.Forall₂ (RecordFor request.files resolved.schema resolved.package.moduleName) resolved.package.messages
        definitions := by
  obtain ⟨resolved, definitions, hbatch, hfrom, hdefinitions, hout⟩ := exists_definitions_of_outputs h
  refine ⟨resolved, definitions, hbatch, hout, hdefinitions.imp fun m d hd => ?_⟩
  exact hfrom.recordFor (List.mem_filter.1 hd.1).1 hd.2

theorem fields_represented_sample : ∃ out, sampleRequest.outputs = .ok out ∧ ∃ resolved definitions,
    ResolvedRequest.ofBatch sampleRequest.filesToGenerate sampleRequest.files = .ok resolved ∧
      out.map (·.path) = ["shop/shop.hrl", "shop/shop.erl"] ∧
      out = [⟨resolved.package.headerPath, resolved.package.headerWith definitions⟩,
        ⟨resolved.package.modulePath, resolved.package.typeModule⟩] ∧
      List.Forall₂ (RecordFor sampleRequest.files resolved.schema resolved.package.moduleName)
        resolved.package.messages definitions := by
  obtain ⟨out, h, hpaths⟩ := exists_ok_of_check (x := sampleRequest.outputs)
    (P := fun out => out.map (·.path) = ["shop/shop.hrl", "shop/shop.erl"]) (by decide +kernel)
  obtain ⟨resolved, definitions, hbatch, hout, hrecords⟩ := fields_represented h
  exact ⟨out, h, resolved, definitions, hbatch, hpaths, hout, hrecords⟩

/-- two fields of one oneof, of which only the first is optional by itself -/
def mixedMessage : Message where
  name := "Contact"
  fields := [
    { name := "phone", number := 1, label := some 1, type := some 13, oneofIndex := some 0, proto3Optional := true },
    { name := "mail", number := 2, label := some 1, type := some 9, oneofIndex := some 0 }]
  oneofs := ["reach"]

def mixedRequest : Request where
  filesToGenerate := ["contact.proto"]
  files := [{ name := "contact.proto", package := "crm", messages := [mixedMessage] }]

/-- **Not every field is represented**: `mail` is an ordinary field of a oneof, but the oneof counts as synthetic
because of `phone`, and the record holds `phone` only. -/
theorem member_beside_optional_lost :
    mixedMessage.fields.map (fun f => (f.name, f.oneofIndex, f.proto3Optional)) =
        [("phone", some 0, true), ("mail", some 0, false)] ∧
      (∃ resolved, ResolvedRequest.ofBatch mixedRequest.filesToGenerate mixedRequest.files = .ok resolved ∧
        resolved.package.messages.map (fun m => (m.oneofs.map (·.synthetic), m.held)) = [([true], [0])]) ∧
      ∃ out, mixedRequest.outputs = .ok out ∧
        out.head?.map (·.content) = some ("%%% Generated from protobuf package crm.\n%%% DO NOT EDIT.\n\n" ++
          "%% Generated for message type Contact.\n" ++
          "-record(contact, \x7b\n  phone = 0 :: undefined | 0..4294967295\n\x7d).\n") := by
  refine ⟨by decide, ?_, ?_⟩
  · apply exists_ok_of_check
    decide +kernel
  · apply exists_ok_of_check
    decide +kernel

end ErlangRecords
