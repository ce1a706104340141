/-
Which batches are collected, and the fault of any other.

A batch is well-formed when each of its fields, at any depth, can be read, no enum is empty, and no absolute name is
declared twice. Of all that is wrong with another batch the first is reported: messages before enums, a message before
those nested in it; inside a message its fields, then their oneof indices, then its name; of an enum its values, then
its name.

- `WellFormed`: what a batch must be; `violations`: all that is wrong with it, in the order of the checks.
- `violations_eq_nil_iff`: nothing is wrong with a well-formed batch only.
- `fault?_ofDescriptor`, `fault?_bodyOf`, `fault?_insertMessage`, `fault?_insertEnum`: the fault of each step.
- `fault?_foldlM_insert`: of a run of insertions; `fault?_ofFiles`: of a batch.
- `collected_iff_wellFormed`: a batch is collected when it is well-formed, and else ends in its first violation.
-/
import Mathlib.Tactic.IntervalCases
import ErlangRecords.Proofs.Arena
import ErlangRecords.Proofs.FirstFault
import ErlangRecords.Proofs.Nesting

namespace ErlangRecords

open Descriptor (File Message Enum)

/-! ## Well-formed batches -/

/-- the field can be read, in a message with the given number of oneofs -/
structure Descriptor.Field.Sound (f : Descriptor.Field) (oneofCount : Nat) : Prop where
  label : ∃ n, f.label = some n ∧ 1 ≤ n ∧ n ≤ 3
  extendee : f.extendee = ""
  type : ∃ n, f.type = some n ∧ 1 ≤ n ∧ n ≤ 18
  oneofIndex : ∀ index, f.oneofIndex = some index → 0 ≤ index ∧ index < oneofCount

structure WellFormed (files : List File) : Prop where
  fields : ∀ file ∈ files, ∀ m, file.Declares m → ∀ f ∈ m.fields, f.Sound m.oneofs.length
  values : ∀ file ∈ files, ∀ e, file.DeclaresEnum e → e.values ≠ []
  names : (batchNames files).Nodup

/-! ## Violations -/

/-- one thing wrong with a declaration -/
structure Violation where
  /-- the context of the declaration -/
  place : String
  /-- the field, where it is wrong by itself -/
  field : Option String := none
  cause : SchemaFault
deriving DecidableEq, Repr

/-- what is reported: the cause, in the context of the field if there is one, in that of the declaration -/
def Violation.fault (v : Violation) : SchemaFault :=
  .context v.place (v.field.elim v.cause fun name => .context ("invalid field \"" ++ name ++ "\"") v.cause)

/-- what is wrong with a field by itself: its label, its extendee, its type -/
def Descriptor.Field.causes (f : Descriptor.Field) : List SchemaFault :=
  (match f.label with
    | none => [.missingLabel f.name]
    | some n => if 1 ≤ n ∧ n ≤ 3 then [] else [.invalidLabel f.name n]) ++
  (if f.extendee = "" then [] else [.unsupported "extension field" f.name]) ++
  (match f.type with
    | none => [.invalidType f.name none]
    | some n => if 1 ≤ n ∧ n ≤ 18 then [] else [.invalidType f.name (some n)])

/-- what is wrong with the oneof index of a field -/
def Descriptor.Field.indexCauses (oneofCount : Nat) (f : Descriptor.Field) : List SchemaFault :=
  match f.oneofIndex with
  | none => []
  | some index => if 0 ≤ index ∧ index < oneofCount then [] else [.invalidOneofIndex f.name index]

/-- what is wrong with a name when some are taken -/
def collision (taken : List String) (name : String) : List SchemaFault :=
  if name ∈ taken then [.nameCollision name] else []

def messageContext (name package : String) : String :=
  "cannot create type for message " ++ name ++ " in package " ++ package

def enumContext (name package : String) : String := "cannot create type for enum " ++ name ++ " in package " ++ package

/-- what is wrong with a field by itself, in the context of its message -/
def fieldViolations (place : String) (f : Descriptor.Field) : List Violation :=
  f.causes.map fun cause => ⟨place, some f.name, cause⟩

/-- what is wrong with a listed message, without those nested in it: its fields, then the oneof indices, then its
name -/
def messageViolations (taken : List String) (e : Place × Message) : List Violation :=
  e.2.fields.flatMap (fieldViolations (messageContext e.2.name e.1.package)) ++
    ((e.2.fields.flatMap (·.indexCauses e.2.oneofs.length)) ++ collision taken e.1.absoluteName).map fun cause =>
      ⟨messageContext e.2.name e.1.package, none, cause⟩

/-- what is wrong with a listed enum: its values, then its name -/
def enumViolations (taken : List String) (e : Place × Enum) : List Violation :=
  ((if e.2.values = [] then [SchemaFault.emptyEnum (Name.dotted e.1.path)] else []) ++
    collision taken e.1.absoluteName).map fun cause => ⟨enumContext e.2.name e.1.package, none, cause⟩

/-- what is wrong with declarations in a row, when some names are taken before them -/
def violationsFrom {α : Type} (name : α → String) (violationsOf : List String → α → List Violation)
    (taken : List String) : List α → List Violation
  | [] => []
  | a :: rest => violationsOf taken a ++ violationsFrom name violationsOf (name a :: taken) rest

/-- **All that is wrong with a batch**, in the order of the checks. -/
def violations (files : List File) : List Violation :=
  violationsFrom (·.1.absoluteName) messageViolations [] (batchMessages files) ++
    violationsFrom (·.1.absoluteName) enumViolations ((batchMessages files).map (·.1.absoluteName)) (batchEnums files)

/-! ## Nothing is wrong -/

theorem collision_eq_nil_iff {taken : List String} {name : String} : collision taken name = [] ↔ name ∉ taken := by
  unfold collision
  split <;> simp_all

theorem causes_eq_nil_iff {f : Descriptor.Field} :
    f.causes = [] ↔ (∃ n, f.label = some n ∧ 1 ≤ n ∧ n ≤ 3) ∧ f.extendee = "" ∧
      ∃ n, f.type = some n ∧ 1 ≤ n ∧ n ≤ 18 := by
  unfold Descriptor.Field.causes
  cases f.label <;> cases f.type <;> simp [and_assoc]

theorem indexCauses_eq_nil_iff {f : Descriptor.Field} {count : Nat} :
    f.indexCauses count = [] ↔ ∀ index, f.oneofIndex = some index → 0 ≤ index ∧ index < count := by
  unfold Descriptor.Field.indexCauses
  cases f.oneofIndex <;> simp

theorem sound_iff {f : Descriptor.Field} {count : Nat} : f.Sound count ↔ f.causes = [] ∧ f.indexCauses count = [] := by
  rw [causes_eq_nil_iff, indexCauses_eq_nil_iff]
  exact ⟨fun h => ⟨⟨h.label, h.extendee, h.type⟩, h.oneofIndex⟩, fun ⟨⟨hl, he, ht⟩, hi⟩ => ⟨hl, he, ht, hi⟩⟩

theorem messageViolations_eq_nil_iff (taken : List String) (e : Place × Message) :
    messageViolations taken e = [] ↔ (∀ f ∈ e.2.fields, f.Sound e.2.oneofs.length) ∧ e.1.absoluteName ∉ taken := by
  simp only [messageViolations, fieldViolations, List.append_eq_nil_iff, List.flatMap_eq_nil_iff, List.map_eq_nil_iff,
    collision_eq_nil_iff, sound_iff, forall_and, and_assoc]

theorem enumViolations_eq_nil_iff (taken : List String) (e : Place × Enum) :
    enumViolations taken e = [] ↔ e.2.values ≠ [] ∧ e.1.absoluteName ∉ taken := by
  simp [enumViolations, collision_eq_nil_iff]

theorem violationsFrom_eq_nil_iff {α : Type} {name : α → String} {violationsOf : List String → α → List Violation}
    {Good : α → Prop} (h : ∀ taken a, violationsOf taken a = [] ↔ Good a ∧ name a ∉ taken) (taken : List String)
    (l : List α) :
    violationsFrom name violationsOf taken l = [] ↔
      (∀ a ∈ l, Good a) ∧ (l.map name).Nodup ∧ ∀ a ∈ l, name a ∉ taken := by
  induction l generalizing taken with
  | nil => simp [violationsFrom]
  | cons a l ih =>
    have hfree : (∀ b ∈ l, name b ∉ name a :: taken) ↔ name a ∉ l.map name ∧ ∀ b ∈ l, name b ∉ taken := by
      simp only [List.mem_cons, not_or, List.mem_map, not_exists, not_and, forall_and]
    rw [violationsFrom, List.append_eq_nil_iff, h, ih, hfree, List.map_cons, List.nodup_cons, List.forall_mem_cons,
      List.forall_mem_cons]
    tauto

theorem violations_eq_nil_iff {files : List File} : violations files = [] ↔ WellFormed files := by
  have hfields : (∀ e ∈ batchMessages files, ∀ f ∈ e.2.fields, f.Sound e.2.oneofs.length) ↔
      ∀ file ∈ files, ∀ m, file.Declares m → ∀ f ∈ m.fields, f.Sound m.oneofs.length := by
    constructor
    · intro h file hfile m hm
      obtain ⟨p, hp⟩ := mem_batchMessages_iff.2 ⟨file, hfile, hm⟩
      exact h _ hp
    · intro h e he
      obtain ⟨file, hfile, hm⟩ := mem_batchMessages_iff.1 ⟨e.1, he⟩
      exact h file hfile e.2 hm
  have hvalues : (∀ e ∈ batchEnums files, e.2.values ≠ []) ↔
      ∀ file ∈ files, ∀ e, file.DeclaresEnum e → e.values ≠ [] := by
    constructor
    · intro h file hfile e he
      obtain ⟨p, hp⟩ := mem_batchEnums_iff.2 ⟨file, hfile, he⟩
      exact h _ hp
    · intro h e he
      obtain ⟨file, hfile, he⟩ := mem_batchEnums_iff.1 ⟨e.1, he⟩
      exact h file hfile e.2 he
  rw [violations, List.append_eq_nil_iff, violationsFrom_eq_nil_iff messageViolations_eq_nil_iff,
    violationsFrom_eq_nil_iff enumViolations_eq_nil_iff, hfields, hvalues]
  constructor
  · rintro ⟨⟨hf, hm, _⟩, hv, he, hfree⟩
    refine ⟨hf, hv, List.nodup_append.2 ⟨hm, he, fun n hn n' hn' heq => ?_⟩⟩
    obtain ⟨e, hin, rfl⟩ := List.mem_map.1 hn'
    exact hfree e hin (heq ▸ hn)
  · rintro ⟨hf, hv, hnames⟩
    obtain ⟨hm, he, hdisjoint⟩ := List.nodup_append.1 hnames
    refine ⟨⟨hf, hm, fun _ _ => List.not_mem_nil⟩, hv, he, fun e hin hn => ?_⟩
    exact hdisjoint _ hn _ (List.mem_map_of_mem hin) rfl

/-! ## The fault of each step -/

theorem ofNumber?_eq_none_iff {n : Int} : Cardinality.ofNumber? n = none ↔ ¬(1 ≤ n ∧ n ≤ 3) := by
  unfold Cardinality.ofNumber?
  split <;> grind

/-- the numbers from 1 to 18 stand for kinds -/
theorem ofNumber_ne_unrecognized {n : Int} (h : 1 ≤ n ∧ n ≤ 18) (code : Option Int) :
    FieldKind.ofNumber n ≠ .unrecognized code := by
  obtain ⟨hl, hu⟩ := h
  interval_cases n <;> simp [FieldKind.ofNumber]

theorem ofNumber_eq_unrecognized {n : Int} (h : ¬(1 ≤ n ∧ n ≤ 18)) :
    FieldKind.ofNumber n = .unrecognized (some n) := by
  unfold FieldKind.ofNumber
  split <;> first | rfl | omega

theorem fault?_ofDescriptor (f : Descriptor.Field) : fault? (FieldDecl.ofDescriptor f) = f.causes.head? := by
  unfold FieldDecl.ofDescriptor Descriptor.Field.causes
  cases f.label with
  | none => rfl
  | some label =>
    by_cases hlabel : 1 ≤ label ∧ label ≤ 3
    · obtain ⟨cardinality, hcardinality⟩ : ∃ c, Cardinality.ofNumber? label = some c :=
        Option.ne_none_iff_exists'.1 fun h => ofNumber?_eq_none_iff.1 h hlabel
      by_cases hextendee : f.extendee = ""
      · cases f.type with
        | none => simp [hcardinality, hlabel, hextendee, FieldKind.ofCode, fault?]
        | some n =>
          by_cases htype : 1 ≤ n ∧ n ≤ 18
          · have hkind := ofNumber_ne_unrecognized htype
            simp only [hcardinality, hlabel, hextendee, htype, FieldKind.ofCode]
            cases hk : FieldKind.ofNumber n with
            | unrecognized code => exact absurd hk (hkind code)
            | _ => rfl
          · simp [hcardinality, hlabel, hextendee, htype, ofNumber_eq_unrecognized htype, FieldKind.ofCode, fault?]
      · simp [hcardinality, hlabel, hextendee, fault?]
    · simp [ofNumber?_eq_none_iff.2 hlabel, hlabel, fault?]

theorem fault?_enterOneof (oneofs : List OneofDecl) (e : Descriptor.Field × Nat) :
    fault? (enterOneof oneofs e) = (e.1.indexCauses oneofs.length).head? := by
  unfold enterOneof Descriptor.Field.indexCauses
  cases e.1.oneofIndex with
  | none => rfl
  | some index =>
    have hbelow : (0 ≤ index ∧ index.toNat < oneofs.length) ↔ 0 ≤ index ∧ index < oneofs.length := by omega
    simp only [hbelow]
    split <;> rfl

/-- the second pass ends at the first field whose oneof index is out of range -/
theorem fault?_enterOneofs (fields : List Descriptor.Field) (oneofs : List OneofDecl) :
    fault? (fields.zipIdx.foldlM enterOneof oneofs) =
      fields.findSome? fun f => (f.indexCauses oneofs.length).head? := by
  have hpass := fault?_foldlM (I := fun _ (after : List OneofDecl) => after.length = oneofs.length)
    (g := fun e : Descriptor.Field × Nat => (e.1.indexCauses oneofs.length).head?)
    (fun e _ after h => by rw [fault?_enterOneof, h])
    (fun e _ after next h hnext => by
      obtain ⟨_, rfl⟩ := enterOneof_eq_ok_iff.1 hnext
      rw [List.length_mapIdx, h])
    (l := fields.zipIdx) (s := oneofs) rfl
  rw [hpass]
  conv_rhs => rw [← List.zipIdx_map_fst 0 fields, List.findSome?_map]
  rfl

/-- the first thing wrong with the body of a message, as it is reported inside the message's own context -/
theorem fault?_bodyOf (m : Message) :
    fault? (bodyOf m) =
      (m.fields.findSome? fun f => f.causes.head?.map (.context ("invalid field \"" ++ f.name ++ "\""))).or
        (m.fields.findSome? fun f => (f.indexCauses m.oneofs.length).head?) := by
  have hfields : fault? (m.fields.mapM fun f =>
      atPlace ("invalid field \"" ++ f.name ++ "\"") (FieldDecl.ofDescriptor f)) =
        m.fields.findSome? fun f => f.causes.head?.map (.context ("invalid field \"" ++ f.name ++ "\"")) := by
    simp only [fault?_mapM, fault?_atPlace, fault?_ofDescriptor]
  rw [bodyOf, ← hfields]
  refine fault?_bind fun fields _ => ?_
  have hpass := fault?_enterOneofs m.fields (m.oneofs.map fun name => { owner := 0, name })
  rw [List.length_map] at hpass
  rw [← hpass]
  exact fault?_bind_pure _ _

/-- exactly the given names are taken -/
def Schema.Taken (schema : Schema) (taken : List String) : Prop := ∀ n, schema.names.get? n = none ↔ n ∉ taken

theorem fault?_insert {table : NameTable} {taken : List String} (h : ∀ n, table.get? n = none ↔ n ∉ taken)
    (name : String) (target : TypeRef) : fault? (table.insert name target) = (collision taken name).head? := by
  unfold collision
  cases hget : table.get? name with
  | none =>
    rw [NameTable.insert_of_none target hget, if_neg ((h name).1 hget)]
    rfl
  | some old =>
    have hin : name ∈ taken := by
      by_contra hn
      rw [(h name).2 hn] at hget
      cases hget
    rw [NameTable.insert_of_some target hget, if_pos hin]
    rfl

theorem fault?_insertMessage {schema : Schema} {taken : List String} (h : schema.Taken taken) (d : Declaration)
    (m : Message) :
    fault? (schema.insertMessage d m) = ((fault? (bodyOf m)).or (collision taken d.absoluteName).head?).map
      (.context (messageContext m.name d.package)) := by
  have hread : fault? (MessageDecl.ofDescriptor schema.messages.length d m) = fault? (bodyOf m) := by
    rw [ofDescriptor_eq, fault?_map]
  unfold Schema.insertMessage
  rw [fault?_atPlace, ← hread]
  refine congrArg (Option.map _) (fault?_bind fun decl hdecl => ?_)
  obtain ⟨body, _, rfl⟩ := ofDescriptor_eq_ok_iff.1 hdecl
  rw [fault?_bind_pure]
  exact fault?_insert h _ _

theorem fault?_insertEnum {schema : Schema} {taken : List String} (h : schema.Taken taken) (d : Declaration)
    (e : Enum) :
    fault? (schema.insertEnum d e) =
      ((if e.values = [] then [SchemaFault.emptyEnum d.fullName] else []) ++ collision taken d.absoluteName).head?.map
        (.context (enumContext e.name d.package)) := by
  unfold Schema.insertEnum
  rw [fault?_atPlace]
  refine congrArg (Option.map _) ?_
  by_cases hvalues : e.values = []
  · simp [EnumDecl.ofDescriptor, hvalues, fault?]
  · simp only [EnumDecl.ofDescriptor, hvalues, List.isEmpty_iff, List.map_eq_nil_iff, if_false, fault?_bind_pure,
      List.nil_append]
    exact fault?_insert h _ _

/-- the first thing wrong with a field by itself, as it is reported -/
theorem fieldViolations_head? (place : String) (fields : List Descriptor.Field) :
    (fields.flatMap (fieldViolations place)).head?.map Violation.fault = (fields.findSome? fun f =>
      f.causes.head?.map (.context ("invalid field \"" ++ f.name ++ "\""))).map (.context place) := by
  rw [List.head?_flatMap, List.map_findSome?, List.map_findSome?]
  congr 1
  funext f
  simp only [fieldViolations, Function.comp_apply, List.head?_map, Option.map_map]
  rfl

theorem fault?_declareMessage (pos : Place → Option Nat) {schema : Schema} {taken : List String}
    (h : schema.Taken taken) (e : Place × Message) :
    fault? (declareMessage pos schema e) = (messageViolations taken e).head?.map Violation.fault := by
  have hown : ((e.2.fields.flatMap (·.indexCauses e.2.oneofs.length) ++ collision taken e.1.absoluteName).map
      fun cause => (⟨messageContext e.2.name e.1.package, none, cause⟩ : Violation)).head?.map Violation.fault =
        ((e.2.fields.findSome? fun f => (f.indexCauses e.2.oneofs.length).head?).or
          (collision taken e.1.absoluteName).head?).map (.context (messageContext e.2.name e.1.package)) := by
    rw [List.head?_map, Option.map_map, List.head?_append, List.head?_flatMap]
    rfl
  rw [messageViolations, List.head?_append, Option.map_or, fieldViolations_head?, hown, ← Option.map_or,
    ← Option.or_assoc, ← fault?_bodyOf]
  exact fault?_insertMessage h _ _

theorem fault?_declareEnum (pos : Place → Option Nat) {schema : Schema} {taken : List String}
    (h : schema.Taken taken) (e : Place × Enum) :
    fault? (declareEnum pos schema e) = (enumViolations taken e).head?.map Violation.fault := by
  rw [declareEnum, fault?_insertEnum h, enumViolations, List.head?_map, Option.map_map]
  rfl

/-! ## The fault of a batch -/

/-- **Runs of insertions** end in their first violation. -/
theorem fault?_foldlM_insert {α : Type} {step : Schema → α → Except SchemaFault Schema} {name : α → String}
    {violationsOf : List String → α → List Violation}
    (hfault : ∀ s taken a, s.Taken taken → fault? (step s a) = (violationsOf taken a).head?.map Violation.fault)
    (hget : ∀ s a s', step s a = .ok s' → ∀ n, s'.names.get? n = none ↔ n ≠ name a ∧ s.names.get? n = none)
    (as : List α) {s : Schema} {taken : List String} (h : s.Taken taken) :
    fault? (as.foldlM step s) = (violationsFrom name violationsOf taken as).head?.map Violation.fault := by
  induction as generalizing s taken with
  | nil => rfl
  | cons a as ih =>
    rw [List.foldlM_cons, violationsFrom, List.head?_append, Option.map_or, ← hfault s taken a h]
    refine fault?_bind fun s' hs' => ih fun n => ?_
    rw [hget s a s' hs', h, List.mem_cons, not_or]

theorem fault?_ofFiles (files : List File) :
    fault? (Schema.ofFiles files) = (violations files).head?.map Violation.fault := by
  have hempty : ({} : Schema).Taken [] := fun n => by simp [NameTable.get?]
  have hmessages := fault?_foldlM_insert (fun _ _ e h => fault?_declareMessage (positionOf files) h e)
    (fun _ _ _ h => get?_declareMessage h) (batchMessages files) hempty
  rw [ofFiles_eq_listings, violations, List.head?_append, Option.map_or, ← hmessages]
  refine fault?_bind fun schema hschema => ?_
  refine fault?_foldlM_insert (fun _ _ e h => fault?_declareEnum (positionOf files) h e)
    (fun _ _ _ h => get?_declareEnum h) (batchEnums files) fun n => ?_
  rw [Schema.get?_foldlM_insert (fun _ _ _ h => get?_declareMessage h) hschema]
  simp [NameTable.get?]

/-! ## Which violation is reported -/

/-- what is wrong with declarations in a row is wrong with one of them, when the names of those before it are taken -/
theorem mem_violationsFrom {α : Type} {name : α → String} {violationsOf : List String → α → List Violation}
    {taken : List String} {l : List α} {v : Violation} (h : v ∈ violationsFrom name violationsOf taken l) :
    ∃ before a after, l = before ++ a :: after ∧ v ∈ violationsOf ((before.map name).reverse ++ taken) a := by
  induction l generalizing taken with
  | nil => cases h
  | cons a l ih =>
    rcases List.mem_append.1 h with h | h
    · exact ⟨[], a, l, rfl, h⟩
    · obtain ⟨before, b, after, rfl, hv⟩ := ih h
      exact ⟨a :: before, b, after, rfl, by simpa using hv⟩

theorem mem_collision_iff {taken : List String} {name : String} {cause : SchemaFault} :
    cause ∈ collision taken name ↔ name ∈ taken ∧ cause = .nameCollision name := by
  unfold collision
  split <;> simp_all

theorem mem_causes_iff {f : Descriptor.Field} {cause : SchemaFault} :
    cause ∈ f.causes ↔
      f.label = none ∧ cause = .missingLabel f.name ∨
      (∃ n, f.label = some n ∧ ¬(1 ≤ n ∧ n ≤ 3) ∧ cause = .invalidLabel f.name n) ∨
      f.extendee ≠ "" ∧ cause = .unsupported "extension field" f.name ∨
      f.type = none ∧ cause = .invalidType f.name none ∨
      ∃ n, f.type = some n ∧ ¬(1 ≤ n ∧ n ≤ 18) ∧ cause = .invalidType f.name (some n) := by
  unfold Descriptor.Field.causes
  cases f.label <;> cases f.type <;> simp

theorem mem_indexCauses_iff {f : Descriptor.Field} {count : Nat} {cause : SchemaFault} :
    cause ∈ f.indexCauses count ↔ ∃ index, f.oneofIndex = some index ∧ ¬(0 ≤ index ∧ index < count) ∧
      cause = .invalidOneofIndex f.name index := by
  unfold Descriptor.Field.indexCauses
  cases f.oneofIndex with
  | none => simp
  | some index => simp only [List.mem_ite_nil_left, List.mem_singleton, Option.some.injEq, exists_eq_left']

/-- it is wrong with a field by itself, with the oneof index of a field, or with the name -/
theorem mem_messageViolations_iff {taken : List String} {e : Place × Message} {v : Violation} :
    v ∈ messageViolations taken e ↔
      (∃ f ∈ e.2.fields, ∃ cause ∈ f.causes, v = ⟨messageContext e.2.name e.1.package, some f.name, cause⟩) ∨
      (∃ f ∈ e.2.fields, ∃ cause ∈ f.indexCauses e.2.oneofs.length,
        v = ⟨messageContext e.2.name e.1.package, none, cause⟩) ∨
      e.1.absoluteName ∈ taken ∧
        v = ⟨messageContext e.2.name e.1.package, none, .nameCollision e.1.absoluteName⟩ := by
  simp only [messageViolations, fieldViolations, List.map_append, List.map_flatMap, List.mem_append, List.mem_flatMap,
    List.mem_map, mem_collision_iff, eq_comm (b := v), and_assoc, exists_eq_left, exists_and_left]

/-- it is wrong with the values, or with the name -/
theorem mem_enumViolations_iff {taken : List String} {e : Place × Enum} {v : Violation} :
    v ∈ enumViolations taken e ↔
      e.2.values = [] ∧ v = ⟨enumContext e.2.name e.1.package, none, .emptyEnum (Name.dotted e.1.path)⟩ ∨
      e.1.absoluteName ∈ taken ∧
        v = ⟨enumContext e.2.name e.1.package, none, .nameCollision e.1.absoluteName⟩ := by
  simp only [enumViolations, List.map_append, List.mem_append, List.mem_map, List.mem_ite_nil_right,
    List.mem_singleton, mem_collision_iff, eq_comm (b := v), and_assoc, exists_eq_left, exists_and_left]

theorem cause_of_mem_messageViolations {taken : List String} {e : Place × Message} {v : Violation}
    (h : v ∈ messageViolations taken e) : v.cause.cause = v.cause := by
  rcases mem_messageViolations_iff.1 h with ⟨f, _, cause, hcause, rfl⟩ | ⟨f, _, cause, hcause, rfl⟩ | ⟨_, rfl⟩
  · rcases mem_causes_iff.1 hcause with ⟨_, rfl⟩ | ⟨_, _, _, rfl⟩ | ⟨_, rfl⟩ | ⟨_, rfl⟩ | ⟨_, _, _, rfl⟩ <;> rfl
  · obtain ⟨_, _, _, rfl⟩ := mem_indexCauses_iff.1 hcause
    rfl
  · rfl

theorem cause_of_mem_enumViolations {taken : List String} {e : Place × Enum} {v : Violation}
    (h : v ∈ enumViolations taken e) : v.cause.cause = v.cause := by
  rcases mem_enumViolations_iff.1 h with ⟨_, rfl⟩ | ⟨_, rfl⟩ <;> rfl

/-- a cause has no context of its own -/
theorem cause_of_mem_violations {files : List File} {v : Violation} (h : v ∈ violations files) :
    v.cause.cause = v.cause := by
  rcases List.mem_append.1 h with h | h
  · obtain ⟨_, e, _, _, hv⟩ := mem_violationsFrom h
    exact cause_of_mem_messageViolations hv
  · obtain ⟨_, e, _, _, hv⟩ := mem_violationsFrom h
    exact cause_of_mem_enumViolations hv

theorem Violation.cause_fault {v : Violation} (h : v.cause.cause = v.cause) : v.fault.cause = v.cause := by
  unfold Violation.fault
  cases v.field <;> exact h

/-- **Exactly the well-formed batches are collected.** Of all that is wrong with any other batch, the first is the fault
it ends in, with the context of its declaration and, where it is about a field by itself, of the field. -/
theorem collected_iff_wellFormed (files : List File) :
    ((∃ schema, Schema.ofFiles files = .ok schema) ↔ WellFormed files) ∧
      ∀ fault, Schema.ofFiles files = .error fault ↔
        ∃ v, (violations files).head? = some v ∧ fault = v.fault ∧ fault.cause = v.cause := by
  constructor
  · rw [← fault?_eq_none_iff, fault?_ofFiles, Option.map_eq_none_iff, List.head?_eq_none_iff, violations_eq_nil_iff]
  · intro fault
    rw [← fault?_eq_some_iff, fault?_ofFiles, Option.map_eq_some_iff]
    refine exists_congr fun v => and_congr_right fun hv => ?_
    have hcause := Violation.cause_fault (cause_of_mem_violations (List.mem_of_head? hv))
    exact ⟨fun h => ⟨h.symm, h ▸ hcause⟩, fun h => h.1.symm⟩

/-- a message of one package, and one of another that is nested, may get the same absolute name -/
example : (violations [{ package := "a.b", messages := [{ name := "C" }] },
    { package := "a", messages := [{ name := "b", nested := [{ name := "C" }] }] }]).map (·.fault.message) =
      ["cannot create type for message C in package a: duplicate definition of '.a.b.C'"] := by
  decide +kernel

end ErlangRecords
