/-
When resolution fails, and where.

A collected batch has nothing left that resolution can trip over but groups and references that dangle: to a name that
no declaration of the right sort bears. Of these the first is reported, in the order of the messages and of the fields
in each, in the context of its message and its own.

- `InRange`, `Schema.Indexed.inRange`: look-ups that find a declaration at the position they are given.
- `FieldDecl.Obstacle`, `FieldDecl.value_eq_error_iff`: what stands in the way of a field in any such schema.
- `FieldDecl.Resolvable`, `FieldDecl.Offence`: what a field must be in a batch, and the cause it gives otherwise.
- `Collected.fault?_value`: the fault of one field; `fault?_resolve_message`, `fault?_resolve`: of a message, and of the
  loop, which is that of the messages as collected.
- `resolve_eq_error_iff_first`: the fault of a schema, where those of its fields are known.
- `FirstOffence`, `Collected.resolve_eq_error_iff`: the fault that is reported.
- `Collected.inRange_hollow`: every look-up on the way is in range.
- `resolve_fails_at_first`: all this, of the schema of a batch.
-/
import ErlangRecords.Proofs.FirstFault
import ErlangRecords.Proofs.Lookup

namespace ErlangRecords

open Descriptor (File)

/-! ## Positions -/

/-- every position that a name denotes is that of a declaration -/
structure InRange (schema : Schema) : Prop where
  message : ∀ name position, schema.names.message? name = some position → position < schema.messages.length
  enum : ∀ name position, schema.names.enum? name = some position → position < schema.enums.length

theorem Schema.Indexed.inRange {schema : Schema} (h : schema.Indexed) : InRange schema := by
  constructor
  · intro name position hname
    obtain ⟨m, hm, _⟩ := (h.message name position).1 (NameTable.message?_eq_some_iff.1 hname)
    exact (List.getElem?_eq_some_iff.1 hm).1
  · intro name position hname
    obtain ⟨e, he, _⟩ := (h.enum name position).1 (NameTable.enum?_eq_some_iff.1 hname)
    exact (List.getElem?_eq_some_iff.1 he).1

section

variable {schema : Schema} {name : String}

theorem InRange.enum?_eq_none_iff (h : InRange schema) :
    schema.enum? name = none ↔ schema.names.enum? name = none := by
  unfold Schema.enum?
  cases hname : schema.names.enum? name with
  | none => simp
  | some position => simp [List.getElem?_eq_getElem (h.enum name position hname)]

theorem InRange.message?_eq_none_iff (h : InRange schema) :
    schema.message? name = none ↔ schema.names.message? name = none := by
  unfold Schema.message?
  cases hname : schema.names.message? name with
  | none => simp
  | some position => simp [List.getElem?_eq_getElem (h.message name position hname)]

end

/-! ## Obstacles -/

namespace FieldDecl

variable {schema : Schema} {package : String} {f : FieldDecl} {fault : SchemaFault}

/-- what stands in the way of a field that cannot be resolved, with the fault reported for it -/
inductive Obstacle (schema : Schema) (f : FieldDecl) : SchemaFault → Prop
  | unknownEnum (hkind : f.kind = .enum) (hname : schema.names.enum? f.typeName = none) :
    Obstacle schema f (.unknownType "enum" f.typeName f.name)
  | emptyEnum {position : Nat} {e : EnumDecl} (hkind : f.kind = .enum)
    (hname : schema.names.enum? f.typeName = some position) (he : schema.enums[position]? = some e)
    (hempty : e.values = []) : Obstacle schema f (.emptyEnum e.fullName)
  | unknownMessage (hkind : f.kind = .message) (hname : schema.names.message? f.typeName = none) :
    Obstacle schema f (.unknownType "message" f.typeName f.name)
  | group (hkind : f.kind = .group) : Obstacle schema f (.unsupported "group field type" f.name)
  | unrecognized {code : Option Int} (hkind : f.kind = .unrecognized code) :
    Obstacle schema f (.invalidType f.name code)

theorem obstacle_of_value (hrange : InRange schema) (h : f.value schema package = .error fault) :
    f.Obstacle schema fault := by
  unfold value at h
  cases hkind : f.kind with
  | enum =>
    cases hfind : schema.enum? f.typeName with
    | none =>
      simp only [hkind, hfind, Except.error.injEq] at h
      exact h ▸ .unknownEnum hkind (hrange.enum?_eq_none_iff.1 hfind)
    | some found =>
      obtain ⟨hname, he⟩ := Schema.enum?_eq_some_iff.1 hfind
      cases hfirst : found.2.defaultValue? with
      | none =>
        simp only [hkind, hfind, hfirst, Except.error.injEq] at h
        exact h ▸ .emptyEnum hkind (NameTable.enum?_eq_some_iff.2 hname) he (List.head?_eq_none_iff.1 hfirst)
      | some first => simp [hkind, hfind, hfirst] at h
  | message =>
    cases hfind : schema.message? f.typeName with
    | none =>
      simp only [hkind, hfind, Except.error.injEq] at h
      exact h ▸ .unknownMessage hkind (hrange.message?_eq_none_iff.1 hfind)
    | some found => simp [hkind, hfind] at h
  | group =>
    simp only [hkind, Except.error.injEq] at h
    exact h ▸ .group hkind
  | unrecognized code =>
    simp only [hkind, Except.error.injEq] at h
    exact h ▸ .unrecognized hkind
  | _ => simp [hkind] at h

theorem Obstacle.value_eq (hrange : InRange schema) (h : f.Obstacle schema fault) (package : String) :
    f.value schema package = .error fault := by
  cases h with
  | unknownEnum hkind hname =>
    have hfind := hrange.enum?_eq_none_iff.2 hname
    simp only [value, hkind, hfind]
  | @emptyEnum position e hkind hname he hempty =>
    have hfind := Schema.enum?_eq_some_iff.2 ⟨NameTable.enum?_eq_some_iff.1 hname, he⟩
    have hfirst : e.defaultValue? = none := List.head?_eq_none_iff.2 hempty
    simp only [value, hkind, hfind, hfirst]
  | unknownMessage hkind hname =>
    have hfind := hrange.message?_eq_none_iff.2 hname
    simp only [value, hkind, hfind]
  | group hkind => simp only [value, hkind]
  | unrecognized hkind => simp only [value, hkind]

/-- **The faults of a field**, one for each obstacle -/
theorem value_eq_error_iff (hrange : InRange schema) :
    f.value schema package = .error fault ↔ f.Obstacle schema fault :=
  ⟨obstacle_of_value hrange, fun h => h.value_eq hrange package⟩

end FieldDecl

/-! ## Fields -/

/-- the field is no group, and a declaration of the batch of the sort it needs bears its type name -/
structure FieldDecl.Resolvable (files : List File) (f : FieldDecl) : Prop where
  group : f.kind ≠ .group
  enum : f.kind = .enum → f.typeName ∈ (batchEnums files).map (·.1.absoluteName)
  message : f.kind = .message → f.typeName ∈ (batchMessages files).map (·.1.absoluteName)

/-- the field cannot be resolved, for the given cause -/
inductive FieldDecl.Offence (files : List File) (f : FieldDecl) : SchemaFault → Prop
  | group (hkind : f.kind = .group) : Offence files f (.unsupported "group field type" f.name)
  | enum (hkind : f.kind = .enum) (hname : f.typeName ∉ (batchEnums files).map (·.1.absoluteName)) :
    Offence files f (.unknownType "enum" f.typeName f.name)
  | message (hkind : f.kind = .message) (hname : f.typeName ∉ (batchMessages files).map (·.1.absoluteName)) :
    Offence files f (.unknownType "message" f.typeName f.name)

theorem resolvable_iff {files : List File} {f : FieldDecl} : f.Resolvable files ↔ ∀ cause, ¬f.Offence files cause := by
  constructor
  · intro h cause hoffence
    cases hoffence with
    | group hkind => exact h.group hkind
    | enum hkind hname => exact hname (h.enum hkind)
    | message hkind hname => exact hname (h.message hkind)
  · intro h
    refine ⟨fun hkind => h _ (.group hkind), fun hkind => ?_, fun hkind => ?_⟩
    · by_contra hname
      exact h _ (.enum hkind hname)
    · by_contra hname
      exact h _ (.message hkind hname)

/-- fields of a collected message are of a known kind -/
theorem Collected.recognized {files : List File} {schema : Schema} (h : Collected files schema) {m : MessageDecl}
    (hm : m ∈ schema.messages) {f : FieldDecl} (hf : f ∈ m.fields) (code : Option Int) :
    f.kind ≠ .unrecognized code := by
  obtain ⟨i, hm⟩ := List.getElem?_of_mem hm
  obtain ⟨e, _, body, hb, rfl⟩ := h.of_message hm
  obtain ⟨d, _, hd⟩ := mem_right_of_forall₂ (bodyOf_eq_ok_iff.1 hb).1 hf
  obtain ⟨_, hkind, cardinality, _, rfl⟩ := FieldDecl.ofDescriptor_eq_ok_iff.1 hd
  exact hkind code

/-- a collected enum has a first value -/
theorem Collected.exists_defaultValue {files : List File} {schema : Schema} (h : Collected files schema) {e : EnumDecl}
    (he : e ∈ schema.enums) : ∃ first, e.defaultValue? = some first := by
  obtain ⟨entry, hentry, rfl⟩ := h.of_enum he
  obtain ⟨v, rest, hvalues⟩ := List.exists_cons_of_ne_nil (h.values entry hentry)
  simp [EnumDecl.defaultValue?, enumNode, EnumDecl.ofDescriptor, hvalues]

/-- **The fault of a field** is the cause of its offence: neither an empty enum nor an unknown kind is met. -/
theorem Collected.fault?_value {files : List File} {schema : Schema} (h : Collected files schema) {f : FieldDecl}
    (hkind : ∀ code, f.kind ≠ .unrecognized code) (package : String) (cause : SchemaFault) :
    fault? (f.value schema package) = some cause ↔ f.Offence files cause := by
  have henum : schema.names.enum? f.typeName = none ↔ f.typeName ∉ (batchEnums files).map (·.1.absoluteName) := by
    rw [← h.indexed.inRange.enum?_eq_none_iff, h.indexed.enum?_eq_none_iff, h.enumNames]
  have hmessage : schema.names.message? f.typeName = none ↔
      f.typeName ∉ (batchMessages files).map (·.1.absoluteName) := by
    rw [← h.indexed.inRange.message?_eq_none_iff, h.indexed.message?_eq_none_iff, h.messageNames]
  rw [fault?_eq_some_iff, FieldDecl.value_eq_error_iff h.indexed.inRange]
  constructor
  · intro hobstacle
    cases hobstacle with
    | unknownEnum hk hname => exact .enum hk (henum.1 hname)
    | unknownMessage hk hname => exact .message hk (hmessage.1 hname)
    | group hk => exact .group hk
    | emptyEnum _ _ he hempty =>
      obtain ⟨first, hfirst⟩ := h.exists_defaultValue (List.mem_of_getElem? he)
      simp [EnumDecl.defaultValue?, hempty] at hfirst
    | unrecognized hk => exact absurd hk (hkind _)
  · intro hoffence
    cases hoffence with
    | group hk => exact .group hk
    | enum hk hname => exact .unknownEnum hk (henum.2 hname)
    | message hk hname => exact .unknownMessage hk (hmessage.2 hname)

theorem Collected.fault?_value_eq_none_iff {files : List File} {schema : Schema} (h : Collected files schema)
    {f : FieldDecl} (hkind : ∀ code, f.kind ≠ .unrecognized code) (package : String) :
    fault? (f.value schema package) = none ↔ f.Resolvable files := by
  simp only [resolvable_iff, Option.eq_none_iff_forall_ne_some, ne_eq, h.fault?_value hkind]

/-! ## Messages, and the loop over them -/

/-- what is reported of a field that cannot be resolved: the cause, in the context of the field and of its message -/
def resolutionFault (m : MessageDecl) (f : FieldDecl) (cause : SchemaFault) : SchemaFault :=
  .context ("cannot resolve types in message \"" ++ m.fullName ++ "\" of package \"" ++ m.package ++ "\"")
    (.context ("cannot resolve type of field \"" ++ f.name ++ "\"") cause)

/-- a message ends in the fault of its first field that has one -/
theorem fault?_resolve_message (schema : Schema) (m : MessageDecl) :
    fault? (m.resolve schema) =
      m.fields.findSome? fun f => (fault? (f.value schema m.package)).map (resolutionFault m f) := by
  have hfield : ∀ f : FieldDecl, fault? (f.resolve schema m.package) = fault? (f.value schema m.package) := by
    intro f
    rw [FieldDecl.resolve_eq]
    exact fault?_bind_pure _ _
  unfold MessageDecl.resolve resolveBody
  simp only [fault?_bind_pure, fault?_atPlace, fault?_mapM, hfield, List.map_findSome?]
  congr 1
  funext f
  exact Option.map_map _ _ _

theorem findSome?_range_getElem? {α β : Type} (l : List α) (g : α → Option β) :
    ((List.range l.length).findSome? fun p => (l[p]?).bind g) = l.findSome? g := by
  induction l with
  | nil => rfl
  | cons a l ih =>
    rw [List.length_cons, List.range_succ_eq_map, findSome?_cons_eq_or, findSome?_cons_eq_or, List.findSome?_map, ← ih]
    rfl

/-- a step leaves the schema alone, or puts a message in the place of one with the same declaration -/
theorem of_resolveAt {s s' : Schema} {position : Nat} (h : s.resolveAt position = .ok s') :
    s' = s ∨ ∃ m r, s.messages[position]? = some m ∧ r.toDeclaration = m.toDeclaration ∧
      s' = { s with messages := s.messages.set position r } := by
  cases hm : s.messages[position]? with
  | none =>
    left
    simp only [Schema.resolveAt, hm, Except.ok.injEq] at h
    exact h.symm
  | some m =>
    right
    rw [resolveAt_eq (.refl s) hm, bind_eq_ok] at h
    obtain ⟨r, hr, h⟩ := h
    exact ⟨m, r, rfl, MessageDecl.toDeclaration_of_resolve hr, (Except.ok.inj h).symm⟩

theorem sameDeclarations_of_resolveAt {s s' : Schema} {position : Nat} (h : s.resolveAt position = .ok s') :
    SameDeclarations s' s := by
  rcases of_resolveAt h with rfl | ⟨m, r, hm, hr, rfl⟩
  · exact .refl s'
  · exact sameDeclarations_set hm hr

theorem getElem?_of_resolveAt {s s' : Schema} {position : Nat} (h : s.resolveAt position = .ok s') {i : Nat}
    (hi : position ≠ i) : s'.messages[i]? = s.messages[i]? := by
  rcases of_resolveAt h with rfl | ⟨m, r, _, _, rfl⟩
  · rfl
  · exact List.getElem?_set_ne hi

theorem fault?_resolveAt {s schema : Schema} (hs : SameDeclarations s schema) (position : Nat) :
    fault? (s.resolveAt position) = (s.messages[position]?).bind fun m => fault? (m.resolve schema) := by
  cases hm : s.messages[position]? with
  | none => simp [Schema.resolveAt, hm, fault?]
  | some m =>
    rw [resolveAt_eq hs hm, fault?_bind_pure]
    rfl

/-- **The loop** ends in the fault of the first message that has one, as it was collected: those before it are resolved
by then, and it is out of the schema itself, but neither shows. -/
theorem fault?_resolve (schema : Schema) :
    fault? schema.resolve = schema.messages.findSome? fun m => fault? (m.resolve schema) := by
  -- the messages still to be visited stand as collected, and the others have kept their declarations
  let Pending (rest : List Nat) (s : Schema) : Prop :=
    SameDeclarations s schema ∧ rest.Nodup ∧ ∀ p ∈ rest, s.messages[p]? = schema.messages[p]?
  have hstep : ∀ p rest s, Pending (p :: rest) s →
      fault? (s.resolveAt p) = (schema.messages[p]?).bind fun m => fault? (m.resolve schema) := by
    intro p rest s h
    obtain ⟨hs, _, hpending⟩ := h
    rw [fault?_resolveAt hs, hpending p List.mem_cons_self]
  have hkeeps : ∀ p rest s s', Pending (p :: rest) s → s.resolveAt p = .ok s' → Pending rest s' := by
    intro p rest s s' h hs'
    obtain ⟨hs, hnodup, hpending⟩ := h
    obtain ⟨hp, hrest⟩ := List.nodup_cons.1 hnodup
    refine ⟨(sameDeclarations_of_resolveAt hs').trans hs, hrest, fun q hq => ?_⟩
    rw [getElem?_of_resolveAt hs' fun heq => hp (heq ▸ hq), hpending q (List.mem_cons_of_mem p hq)]
  unfold Schema.resolve
  rw [fault?_foldlM hstep hkeeps ⟨.refl schema, List.nodup_range, fun _ _ => rfl⟩]
  exact findSome?_range_getElem? _ _

/-! ## The first field that fails -/

section

variable {schema : Schema} {Free : FieldDecl → Prop} {Gives : FieldDecl → SchemaFault → Prop}

/-- a message is resolved exactly when each of its fields can be -/
theorem fault?_message_eq_none_iff {m : MessageDecl}
    (hfree : ∀ f ∈ m.fields, fault? (f.value schema m.package) = none ↔ Free f) :
    fault? (m.resolve schema) = none ↔ ∀ f ∈ m.fields, Free f := by
  rw [fault?_resolve_message, List.findSome?_eq_none_iff]
  refine forall₂_congr fun f hf => ?_
  rw [Option.map_eq_none_iff, hfree f hf]

/-- a message that is not resolved ends in what is wrong with its first field that cannot be -/
theorem fault?_message_eq_some_iff {m : MessageDecl}
    (hfree : ∀ f ∈ m.fields, fault? (f.value schema m.package) = none ↔ Free f)
    (hgives : ∀ f ∈ m.fields, ∀ cause, fault? (f.value schema m.package) = some cause ↔ Gives f cause)
    {fault : SchemaFault} :
    fault? (m.resolve schema) = some fault ↔ ∃ before f after, m.fields = before ++ f :: after ∧
      (∀ g ∈ before, Free g) ∧ ∃ cause, Gives f cause ∧ resolutionFault m f cause = fault := by
  rw [fault?_resolve_message]
  apply findSome?_eq_some_iff_first
  · intro f hf
    rw [Option.map_eq_none_iff, hfree f hf]
  · intro f hf fault
    simp only [Option.map_eq_some_iff, hgives f hf]

theorem exists_resolve_iff
    (hfree : ∀ m ∈ schema.messages, ∀ f ∈ m.fields, fault? (f.value schema m.package) = none ↔ Free f) :
    (∃ resolved, schema.resolve = .ok resolved) ↔ ∀ m ∈ schema.messages, ∀ f ∈ m.fields, Free f := by
  rw [← fault?_eq_none_iff, fault?_resolve, List.findSome?_eq_none_iff]
  exact forall₂_congr fun m hm => fault?_message_eq_none_iff (hfree m hm)

/-- **A schema that is not resolved** ends in what is wrong with the first field that cannot be, of the first message
with such a field. -/
theorem resolve_eq_error_iff_first
    (hfree : ∀ m ∈ schema.messages, ∀ f ∈ m.fields, fault? (f.value schema m.package) = none ↔ Free f)
    (hgives : ∀ m ∈ schema.messages, ∀ f ∈ m.fields, ∀ cause,
      fault? (f.value schema m.package) = some cause ↔ Gives f cause) {fault : SchemaFault} :
    schema.resolve = .error fault ↔ ∃ before m after, schema.messages = before ++ m :: after ∧
      (∀ m' ∈ before, ∀ g ∈ m'.fields, Free g) ∧ ∃ front f back, m.fields = front ++ f :: back ∧
        (∀ g ∈ front, Free g) ∧ ∃ cause, Gives f cause ∧ resolutionFault m f cause = fault := by
  rw [← fault?_eq_some_iff, fault?_resolve]
  exact findSome?_eq_some_iff_first (fun m hm => fault?_message_eq_none_iff (hfree m hm))
    fun m hm _ => fault?_message_eq_some_iff (hfree m hm) (hgives m hm)

end

/-! ## The first offence -/

/-- `f` is the first field that cannot be resolved, in the order of the messages and of the fields in each -/
structure FirstOffence (files : List File) (schema : Schema) (m : MessageDecl) (f : FieldDecl) (cause : SchemaFault) :
    Prop where
  message : ∃ before after, schema.messages = before ++ m :: after ∧
    ∀ m' ∈ before, ∀ g ∈ m'.fields, g.Resolvable files
  field : ∃ before after, m.fields = before ++ f :: after ∧ ∀ g ∈ before, g.Resolvable files
  offence : f.Offence files cause

theorem Collected.free {files : List File} {schema : Schema} (h : Collected files schema) :
    ∀ m ∈ schema.messages, ∀ f ∈ m.fields, fault? (f.value schema m.package) = none ↔ f.Resolvable files :=
  fun _ hm _ hf => h.fault?_value_eq_none_iff (h.recognized hm hf) _

theorem Collected.resolve_eq_ok_iff {files : List File} {schema : Schema} (h : Collected files schema) :
    (∃ resolved, schema.resolve = .ok resolved) ↔ ∀ m ∈ schema.messages, ∀ f ∈ m.fields, f.Resolvable files :=
  exists_resolve_iff h.free

theorem Collected.resolve_eq_error_iff {files : List File} {schema : Schema} (h : Collected files schema)
    {fault : SchemaFault} : schema.resolve = .error fault ↔
      ∃ m f cause, FirstOffence files schema m f cause ∧ fault = resolutionFault m f cause := by
  rw [resolve_eq_error_iff_first h.free fun _ hm _ hf => h.fault?_value (h.recognized hm hf) _]
  constructor
  · intro hfirst
    obtain ⟨before, m, after, hmessages, hbefore, front, f, back, hfields, hfront, cause, hcause, rfl⟩ := hfirst
    exact ⟨m, f, cause, ⟨⟨before, after, hmessages, hbefore⟩, ⟨front, back, hfields, hfront⟩, hcause⟩, rfl⟩
  · intro hfirst
    obtain ⟨m, f, cause, ⟨⟨before, after, hmessages, hbefore⟩, ⟨front, back, hfields, hfront⟩, hcause⟩, rfl⟩ := hfirst
    exact ⟨before, m, after, hmessages, hbefore, front, f, back, hfields, hfront, cause, hcause, rfl⟩

/-! ## Look-ups on the way -/

/-- **No look-up misses.** When the loop comes to a position, a message stands there; once that is taken out, every
position that a name denotes is still that of a declaration. -/
theorem Collected.inRange_hollow {files : List File} {schema : Schema} (h : Collected files schema) {position : Nat}
    (hposition : position < schema.messages.length) {s : Schema}
    (hs : (List.range position).foldlM Schema.resolveAt schema = .ok s) :
    ∃ m, s.messages[position]? = some m ∧
      InRange { s with messages := s.messages.set position (m.withBody [] []) } := by
  have hsame : SameDeclarations s schema :=
    foldlM_keeps (P := (SameDeclarations · schema))
      (fun _ _ _ _ hs hs' => (sameDeclarations_of_resolveAt hs').trans hs) (.refl schema) hs
  have hlength := congrArg List.length hsame.messages
  rw [List.length_map, List.length_map] at hlength
  have hm := List.getElem?_eq_getElem (hlength ▸ hposition)
  have hhollow := (sameDeclarations_set (r := s.messages[position].withBody [] []) hm rfl).trans hsame
  exact ⟨_, hm, (hhollow.indexed h.indexed).inRange⟩

/-! ## Batches -/

/-- **Resolution fails at the first offence.** The schema of a batch is resolved exactly when none of its fields is a
group and each reference is to a declaration of the batch of the right sort. Otherwise the first field for which this
does not hold is reported, in two contexts, with a cause that is neither an empty enum nor an unknown kind. On the way
no look-up goes out of range. -/
theorem resolve_fails_at_first {files : List File} {schema : Schema} (h : Schema.ofFiles files = .ok schema) :
    ((∃ resolved, schema.resolve = .ok resolved) ↔ ∀ m ∈ schema.messages, ∀ f ∈ m.fields, f.Resolvable files) ∧
      (∀ fault, schema.resolve = .error fault ↔
        ∃ m f cause, FirstOffence files schema m f cause ∧ fault = resolutionFault m f cause ∧ fault.cause = cause) ∧
      (∀ fault, schema.resolve = .error fault →
        (∀ name, fault.cause ≠ .emptyEnum name) ∧ ∀ field code, fault.cause ≠ .invalidType field code) ∧
      ∀ position < schema.messages.length, ∀ s, (List.range position).foldlM Schema.resolveAt schema = .ok s →
        ∃ m, s.messages[position]? = some m ∧
          InRange { s with messages := s.messages.set position (m.withBody [] []) } := by
  have hc := collected_of_ok h
  have hcause : ∀ {m : MessageDecl} {f : FieldDecl} {cause : SchemaFault}, f.Offence files cause →
      (resolutionFault m f cause).cause = cause := fun hoffence => by cases hoffence <;> rfl
  refine ⟨hc.resolve_eq_ok_iff, fun fault => ?_, fun fault hfault => ?_, fun _ hlt _ => hc.inRange_hollow hlt⟩
  · rw [hc.resolve_eq_error_iff]
    constructor
    · rintro ⟨m, f, cause, hfirst, rfl⟩
      exact ⟨m, f, cause, hfirst, rfl, hcause hfirst.offence⟩
    · rintro ⟨m, f, cause, hfirst, hfault, _⟩
      exact ⟨m, f, cause, hfirst, hfault⟩
  · obtain ⟨m, f, cause, hfirst, rfl⟩ := hc.resolve_eq_error_iff.1 hfault
    rw [hcause hfirst.offence]
    cases hfirst.offence <;> simp

/-- the second message refers to no declaration, and the third has a group -/
def danglingFiles : List File :=
  [sampleShop [
    { name := "Order", fields := [{ name := "note", number := 1, label := some 1, type := some 9 }] },
    { name := "Refund", fields := [
      { name := "reason", number := 1, label := some 1, type := some 9 },
      { name := "order", number := 2, label := some 2, type := some 11, typeName := ".shop.Ordre" },
      { name := "state", number := 3, label := some 1, type := some 14, typeName := ".shop.Order" }] },
    { name := "Legacy", fields := [{ name := "entries", number := 1, label := some 3, type := some 10 }] }]]

theorem resolve_fails_at_first_sample :
    (∃ schema, Schema.ofFiles sampleFiles = .ok schema ∧
      ∀ m ∈ schema.messages, ∀ f ∈ m.fields, f.Resolvable sampleFiles) ∧
    ∃ schema fault, Schema.ofFiles danglingFiles = .ok schema ∧ schema.resolve = .error fault ∧
      fault.message = "cannot resolve types in message \"Refund\" of package \"shop\": " ++
        "cannot resolve type of field \"order\": unknown message type '.shop.Ordre' referenced by field 'order'" ∧
      ∃ m f, FirstOffence danglingFiles schema m f (.unknownType "message" ".shop.Ordre" "order") := by
  constructor
  · obtain ⟨schema, h, hresolves⟩ := exists_ok_of_check (x := Schema.ofFiles sampleFiles)
      (P := fun schema => fault? schema.resolve = none) (by decide +kernel)
    exact ⟨schema, h, (resolve_fails_at_first h).1.1 (fault?_eq_none_iff.1 hresolves)⟩
  · obtain ⟨schema, h, hfault⟩ := exists_ok_of_check (x := Schema.ofFiles danglingFiles)
      (P := fun schema => fault? schema.resolve =
        some (.context "cannot resolve types in message \"Refund\" of package \"shop\""
          (.context "cannot resolve type of field \"order\"" (.unknownType "message" ".shop.Ordre" "order"))))
      (by decide +kernel)
    have herror := fault?_eq_some_iff.1 hfault
    obtain ⟨m, f, cause, hfirst, _, hcause⟩ := ((resolve_fails_at_first h).2.1 _).1 herror
    refine ⟨schema, _, h, herror, by decide +kernel, m, f, ?_⟩
    rw [← hcause] at hfirst
    exact hfirst

end ErlangRecords
