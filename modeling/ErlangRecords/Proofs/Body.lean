/-
The body of a message: its fields, and its oneofs with the fields that belong to them.

Fields are read one by one. A second pass then enters each of them, with its position, into the oneof it refers to: an
ordinary field becomes a member, a field that is optional by itself marks the oneof as synthetic.

- `FieldDecl.ofDescriptor_eq_ok_iff`: what is read of a field.
- `foldlM_enterOneof_eq_ok_iff`: what the second pass makes of each oneof.
- `ofDescriptor_eq`: fields and oneofs are read without regard to where the message stands.
- `bodyOf_eq_ok_iff`: a body in closed form; `fresh_of_bodyOf`: nothing in it is resolved yet.
-/
import Mathlib.Data.List.Nodup
import ErlangRecords.Proofs.Faults
import ErlangRecords.Schema.OfFiles

namespace ErlangRecords

open Descriptor (Message)

/-! ## Fields -/

/-- the field that a sound descriptor with the given cardinality declares -/
def Descriptor.Field.declared (f : Descriptor.Field) (cardinality : Cardinality) : FieldDecl where
  name := f.name
  number := f.number
  cardinality
  kind := FieldKind.ofCode f.type
  typeName := f.typeName
  oneof := if f.proto3Optional then none else f.oneofIndex.map Int.toNat
  proto3Optional := f.proto3Optional

theorem FieldDecl.ofDescriptor_eq_ok_iff {f : Descriptor.Field} {d : FieldDecl} :
    FieldDecl.ofDescriptor f = .ok d ↔ f.extendee = "" ∧ (∀ code, FieldKind.ofCode f.type ≠ .unrecognized code) ∧
      ∃ cardinality, f.label.bind Cardinality.ofNumber? = some cardinality ∧ d = f.declared cardinality := by
  unfold FieldDecl.ofDescriptor
  cases hlabel : f.label with
  | none => simp
  | some label =>
    rw [Option.bind_some]
    cases hcardinality : Cardinality.ofNumber? label with
    | none => simp [hcardinality]
    | some cardinality =>
      by_cases hextendee : f.extendee = ""
      · cases hkind : FieldKind.ofCode f.type with
        | unrecognized code => simp [hcardinality, hextendee]
        | _ =>
          simp only [hcardinality, hextendee, Descriptor.Field.declared, hkind]
          simp [eq_comm (b := d)]
      · simp [hcardinality, hextendee]

/-! ## Oneofs -/

/-- the field is declared inside the oneof at a position -/
def Descriptor.Field.refersTo (f : Descriptor.Field) (k : Nat) : Bool := f.oneofIndex == some (k : Int)

/-- if the field has a oneof index, that is below `count` -/
def Descriptor.Field.IndexBelow (f : Descriptor.Field) (count : Nat) : Prop :=
  ∀ index, f.oneofIndex = some index → 0 ≤ index ∧ index.toNat < count

theorem mapIdx_self {α : Type} (l : List α) : l.mapIdx (fun _ a => a) = l :=
  List.mapIdx_eq_iff.2 fun i => by simp

/-- one step enters the field into the oneof it refers to -/
theorem enterOneof_eq_ok_iff {oneofs after : List OneofDecl} {entry : Descriptor.Field × Nat} :
    enterOneof oneofs entry = .ok after ↔ entry.1.IndexBelow oneofs.length ∧
      after = oneofs.mapIdx fun k o => if entry.1.refersTo k then o.enter entry.1 entry.2 else o := by
  unfold enterOneof Descriptor.Field.IndexBelow Descriptor.Field.refersTo
  cases hindex : entry.1.oneofIndex with
  | none => simp [mapIdx_self, eq_comm (b := after)]
  | some index =>
    by_cases hbelow : 0 ≤ index ∧ index.toNat < oneofs.length
    · have hmodify : oneofs.modify index.toNat (OneofDecl.enter entry.1 entry.2) =
          oneofs.mapIdx fun k o => if some index == some (k : Int) then o.enter entry.1 entry.2 else o := by
        apply List.ext_getElem?
        intro k
        have hk : index.toNat = k ↔ index = (k : Int) := by omega
        rw [List.getElem?_modify, List.getElem?_mapIdx]
        simp only [hk, beq_iff_eq, Option.some.injEq]
        rfl
      simp only [hbelow, hmodify]
      simp [eq_comm (b := after), hbelow]
    · simp [hbelow]

/-- **The second pass**: each oneof takes, in order, the fields that refer to it. -/
theorem foldlM_enterOneof_eq_ok_iff {entries : List (Descriptor.Field × Nat)} {oneofs after : List OneofDecl} :
    entries.foldlM enterOneof oneofs = .ok after ↔ (∀ e ∈ entries, e.1.IndexBelow oneofs.length) ∧
      after = oneofs.mapIdx fun k o => (entries.filter (·.1.refersTo k)).foldl (fun o e => o.enter e.1 e.2) o := by
  induction entries generalizing oneofs with
  | nil => simp [pure, Except.pure, mapIdx_self, eq_comm (b := after)]
  | cons e rest ih =>
    have hstep : ∀ k o, ((e :: rest).filter (·.1.refersTo k)).foldl (fun o e => OneofDecl.enter e.1 e.2 o) o =
        (rest.filter (·.1.refersTo k)).foldl (fun o e => o.enter e.1 e.2)
          (if e.1.refersTo k then o.enter e.1 e.2 else o) := by
      intro k o
      by_cases hk : e.1.refersTo k <;> simp [hk]
    rw [List.foldlM_cons, bind_eq_ok]
    simp only [enterOneof_eq_ok_iff, ih, List.forall_mem_cons, hstep]
    constructor
    · rintro ⟨next, ⟨he, rfl⟩, hrest, rfl⟩
      exact ⟨⟨he, by simpa using hrest⟩, by rw [List.mapIdx_mapIdx]; rfl⟩
    · rintro ⟨⟨he, hrest⟩, rfl⟩
      exact ⟨_, ⟨he, rfl⟩, by simpa using hrest, by rw [List.mapIdx_mapIdx]; rfl⟩

/-- fields entered one after the other: ordinary ones become members, any other marks the oneof -/
theorem foldl_enter {entries : List (Descriptor.Field × Nat)} {o : OneofDecl}
    (h : (o.members ++ entries.map Prod.snd).Nodup) :
    entries.foldl (fun o e => OneofDecl.enter e.1 e.2 o) o =
      { o with
        members := o.members ++ (entries.filter (!·.1.proto3Optional)).map Prod.snd
        synthetic := o.synthetic || entries.any (·.1.proto3Optional) } := by
  induction entries generalizing o with
  | nil => simp
  | cons e rest ih =>
    obtain ⟨f, position⟩ := e
    rw [List.foldl_cons]
    cases hf : f.proto3Optional with
    | true =>
      have hrest : (o.members ++ rest.map Prod.snd).Nodup :=
        h.sublist ((List.sublist_cons_self _ _).append_left _)
      have hentered : o.enter f position = { o with synthetic := true } := if_pos hf
      rw [hentered, ih (o := { o with synthetic := true }) hrest]
      simp [hf]
    | false =>
      have hnew : position ∉ o.members := by
        intro hin
        exact (List.nodup_append.1 h).2.2 position hin position (by simp) rfl
      have hentered : o.enter f position = { o with members := o.members ++ [position] } := by
        rw [OneofDecl.enter, if_neg (by simp [hf]), OneofDecl.addMember, if_neg hnew]
      rw [hentered, ih (o := { o with members := o.members ++ [position] }) (by simpa using h)]
      simp [hf]

/-! ## Bodies -/

/-- the oneof as the message at a position declares it -/
def OneofDecl.ownedBy (position : Nat) (o : OneofDecl) : OneofDecl := { o with owner := position }

/-- fields and oneofs of a message, read without its position -/
def bodyOf (m : Message) : Except SchemaFault (List FieldDecl × List OneofDecl) := do
  let fields ← m.fields.mapM fun f => atPlace ("invalid field \"" ++ f.name ++ "\"") (FieldDecl.ofDescriptor f)
  let oneofs ← m.fields.zipIdx.foldlM enterOneof (m.oneofs.map fun name => { owner := 0, name })
  return (fields, oneofs)

theorem OneofDecl.enter_ownedBy (position k : Nat) (f : Descriptor.Field) (o : OneofDecl) :
    (o.ownedBy position).enter f k = (o.enter f k).ownedBy position := by
  unfold OneofDecl.enter OneofDecl.addMember
  cases f.proto3Optional with
  | true => rfl
  | false => by_cases hk : k ∈ o.members <;> simp [OneofDecl.ownedBy, hk]

theorem enterOneof_ownedBy (position : Nat) (oneofs : List OneofDecl) (entry : Descriptor.Field × Nat) :
    enterOneof (oneofs.map (·.ownedBy position)) entry =
      (enterOneof oneofs entry).map (List.map (·.ownedBy position)) := by
  unfold enterOneof
  split
  · rfl
  · simp only [List.length_map]
    split
    · simp only [Except.map, Except.ok.injEq]
      apply List.ext_getElem?
      intro i
      simp only [List.getElem?_modify, List.getElem?_map]
      cases oneofs[i]? with
      | none => rfl
      | some o =>
        split
        · exact congrArg some (OneofDecl.enter_ownedBy position entry.2 entry.1 o)
        · rfl
    · rfl

theorem foldlM_enterOneof_ownedBy (position : Nat) (entries : List (Descriptor.Field × Nat))
    (oneofs : List OneofDecl) :
    entries.foldlM enterOneof (oneofs.map (·.ownedBy position)) =
      (entries.foldlM enterOneof oneofs).map (List.map (·.ownedBy position)) := by
  induction entries generalizing oneofs with
  | nil => rfl
  | cons entry rest ih =>
    rw [List.foldlM_cons, List.foldlM_cons, enterOneof_ownedBy]
    cases enterOneof oneofs entry with
    | error e => rfl
    | ok next => exact ih next

/-- **Bodies know no position**: a message is read the same wherever it stands; only its oneofs are told the
position. -/
theorem ofDescriptor_eq (position : Nat) (d : Declaration) (m : Message) :
    MessageDecl.ofDescriptor position d m =
      (bodyOf m).map fun body => { d with fields := body.1, oneofs := body.2.map (·.ownedBy position) } := by
  unfold MessageDecl.ofDescriptor bodyOf
  have hmap : (m.oneofs.map fun name => ({ owner := position, name } : OneofDecl)) =
      (m.oneofs.map fun name => ({ owner := 0, name } : OneofDecl)).map (·.ownedBy position) := by
    rw [List.map_map]
    rfl
  rw [hmap, foldlM_enterOneof_ownedBy]
  cases m.fields.mapM fun f => atPlace ("invalid field \"" ++ f.name ++ "\"") (FieldDecl.ofDescriptor f) with
  | error e => rfl
  | ok fields =>
    cases m.fields.zipIdx.foldlM enterOneof (m.oneofs.map fun name => { owner := 0, name }) with
    | error e => rfl
    | ok oneofs => rfl

theorem ofDescriptor_eq_ok_iff {position : Nat} {d : Declaration} {m : Message} {decl : MessageDecl} :
    MessageDecl.ofDescriptor position d m = .ok decl ↔ ∃ body, bodyOf m = .ok body ∧
      decl = { d with fields := body.1, oneofs := body.2.map (·.ownedBy position) } := by
  rw [ofDescriptor_eq]
  cases bodyOf m with
  | error e => simp [Except.map]
  | ok body => simp [Except.map, eq_comm]

/-- positions of the fields that are members of the oneof at a position -/
def Descriptor.Message.memberPositions (m : Message) (k : Nat) : List Nat :=
  (m.fields.zipIdx.filter fun e => e.1.refersTo k && !e.1.proto3Optional).map Prod.snd

/-- a field that is optional by itself refers to the oneof at a position -/
def Descriptor.Message.isMarked (m : Message) (k : Nat) : Bool :=
  m.fields.any fun f => f.refersTo k && f.proto3Optional

/-- the oneof at a position, as the fields of the message make it -/
def Descriptor.Message.oneofAt (m : Message) (k : Nat) (name : String) : OneofDecl where
  owner := 0
  name
  members := m.memberPositions k
  synthetic := m.isMarked k

theorem mem_memberPositions {m : Message} {k position : Nat} :
    position ∈ m.memberPositions k ↔
      ∃ f, m.fields[position]? = some f ∧ f.refersTo k = true ∧ f.proto3Optional = false := by
  simp [Descriptor.Message.memberPositions, List.mk_mem_zipIdx_iff_getElem?]

theorem foldl_enter_eq_oneofAt (m : Message) (k : Nat) (name : String) :
    (m.fields.zipIdx.filter (·.1.refersTo k)).foldl (fun o e => OneofDecl.enter e.1 e.2 o) { owner := 0, name } =
      m.oneofAt k name := by
  have hnodup : (([] : List Nat) ++ (m.fields.zipIdx.filter (·.1.refersTo k)).map Prod.snd).Nodup := by
    rw [List.nil_append]
    exact positions_nodup (·.refersTo k) m.fields
  have hmembers : ((m.fields.zipIdx.filter (·.1.refersTo k)).filter (!·.1.proto3Optional)).map Prod.snd =
      m.memberPositions k := by
    rw [List.filter_filter, Descriptor.Message.memberPositions]
    simp only [Bool.and_comm]
  have hmarked : (m.fields.zipIdx.filter (·.1.refersTo k)).any (·.1.proto3Optional) = m.isMarked k := by
    rw [List.any_filter, Descriptor.Message.isMarked]
    conv_rhs => rw [← List.zipIdx_map_fst 0 m.fields, List.any_map]
    rfl
  rw [foldl_enter hnodup, hmembers, hmarked]
  rfl

/-- **Bodies in closed form.** A body is read exactly when every field is and no oneof index is out of range. The
members of a oneof are then the ordinary fields that refer to it, in order, and a single field that is optional by
itself marks it as synthetic. -/
theorem bodyOf_eq_ok_iff {m : Message} {body : List FieldDecl × List OneofDecl} :
    bodyOf m = .ok body ↔
      List.Forall₂ (fun f d => FieldDecl.ofDescriptor f = .ok d) m.fields body.1 ∧
        (∀ f ∈ m.fields, f.IndexBelow m.oneofs.length) ∧ body.2 = m.oneofs.mapIdx m.oneofAt := by
  have honeofs : ((m.oneofs.map fun name => ({ owner := 0, name } : OneofDecl)).mapIdx fun k o =>
      (m.fields.zipIdx.filter (·.1.refersTo k)).foldl (fun o e => OneofDecl.enter e.1 e.2 o) o) =
        m.oneofs.mapIdx m.oneofAt := by
    apply List.ext_getElem?
    intro k
    rw [List.getElem?_mapIdx, List.getElem?_mapIdx, List.getElem?_map, Option.map_map]
    congr 1
    funext name
    exact foldl_enter_eq_oneofAt m k name
  have hindices : (∀ e ∈ m.fields.zipIdx, e.1.IndexBelow m.oneofs.length) ↔
      ∀ f ∈ m.fields, f.IndexBelow m.oneofs.length := by
    conv_rhs => rw [← List.zipIdx_map_fst 0 m.fields]
    exact (List.forall_mem_map (P := fun f : Descriptor.Field => f.IndexBelow m.oneofs.length)).symm
  have hplace : ∀ (f : Descriptor.Field) (d : FieldDecl),
      atPlace ("invalid field \"" ++ f.name ++ "\"") (FieldDecl.ofDescriptor f) = .ok d ↔
        FieldDecl.ofDescriptor f = .ok d := fun _ _ => atPlace_eq_ok
  obtain ⟨fields, oneofs⟩ := body
  unfold bodyOf
  simp only [bind_eq_ok, mapM_eq_ok_iff, foldlM_enterOneof_eq_ok_iff, List.length_map, honeofs, hindices, hplace,
    pure, Except.pure, Except.ok.injEq, Prod.mk.injEq]
  constructor
  · rintro ⟨_, hfields, _, ⟨hbelow, rfl⟩, rfl, rfl⟩
    exact ⟨hfields, hbelow, rfl⟩
  · rintro ⟨hfields, hbelow, rfl⟩
    exact ⟨fields, hfields, _, ⟨hbelow, rfl⟩, rfl, rfl⟩

/-- a body as it is read: nothing is resolved yet, and the members of the oneofs are fields of the message -/
structure Fresh (fields : List FieldDecl) (oneofs : List OneofDecl) : Prop where
  target : ∀ f ∈ fields, f.target = none
  typing : ∀ f ∈ fields, f.typing = none
  oneofTyping : ∀ o ∈ oneofs, o.typing = none
  members : ∀ o ∈ oneofs, ∀ position ∈ o.members, position < fields.length

theorem fresh_of_bodyOf {m : Message} {body : List FieldDecl × List OneofDecl} (h : bodyOf m = .ok body) :
    Fresh body.1 body.2 := by
  obtain ⟨hfields, _, honeofs⟩ := bodyOf_eq_ok_iff.1 h
  have hdeclared : ∀ d ∈ body.1, d.target = none ∧ d.typing = none := by
    intro d hd
    obtain ⟨i, hi, rfl⟩ := List.getElem_of_mem hd
    have hread := hfields.get (hfields.length_eq ▸ hi) hi
    obtain ⟨_, _, cardinality, _, heq⟩ := FieldDecl.ofDescriptor_eq_ok_iff.1 hread
    rw [List.get_eq_getElem] at heq
    rw [heq]
    exact ⟨rfl, rfl⟩
  have hentered : ∀ o ∈ body.2, ∃ k name, o = m.oneofAt k name := by
    intro o ho
    rw [honeofs] at ho
    obtain ⟨k, hk, rfl⟩ := List.mem_mapIdx.1 ho
    exact ⟨k, _, rfl⟩
  constructor
  case target => exact fun d hd => (hdeclared d hd).1
  case typing => exact fun d hd => (hdeclared d hd).2
  case oneofTyping =>
    intro o ho
    obtain ⟨k, name, rfl⟩ := hentered o ho
    rfl
  case members =>
    intro o ho position hposition
    obtain ⟨k, name, rfl⟩ := hentered o ho
    obtain ⟨f, hf, _⟩ := mem_memberPositions.1 hposition
    rw [← hfields.length_eq]
    exact (List.getElem?_eq_some_iff.1 hf).1

end ErlangRecords
