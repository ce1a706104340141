/-
Enums without values.

A collected enum has a first value, which is the default of the fields that hold it. Where enums are emptied afterwards,
they are still found under their names, so nothing changes but for the fields that refer to them: the first of these,
or of the fields that could not be resolved anyway, is reported.

- `enum?_clearEnums`, `Schema.Indexed.clearEnums`: look-up once enums are emptied.
- `obstacle_clearEnums_iff`: what stands in the way of a field then.
- `resolve_clearEnums_of_unused`: where no field refers to an emptied enum, it plays no part.
- `resolve_clearEnums`: all this, of the schema of a batch.
-/
import ErlangRecords.Proofs.Dangling

namespace ErlangRecords

open Descriptor (File)

/-! ## Enums -/

/-- the enum with no values left, if its name is one of those given -/
def EnumDecl.emptied (names : List String) (e : EnumDecl) : EnumDecl :=
  if names.contains e.absoluteName then { e with values := [] } else e

section

variable {names : List String} {e : EnumDecl}

theorem EnumDecl.emptied_of_mem (h : e.absoluteName ∈ names) : e.emptied names = { e with values := [] } :=
  if_pos (List.contains_iff_mem.2 h)

theorem EnumDecl.emptied_of_not_mem (h : e.absoluteName ∉ names) : e.emptied names = e :=
  if_neg fun hcontains => h (List.contains_iff_mem.1 hcontains)

@[simp] theorem EnumDecl.toDeclaration_emptied (names : List String) (e : EnumDecl) :
    (e.emptied names).toDeclaration = e.toDeclaration := by
  unfold emptied
  split <;> rfl

end

/-! ## Look-up -/

namespace Schema

variable {schema : Schema} {names : List String}

theorem getElem?_clearEnums (position : Nat) :
    (schema.clearEnums names).enums[position]? = (schema.enums[position]?).map (·.emptied names) :=
  List.getElem?_map

theorem enum?_clearEnums (name : String) :
    (schema.clearEnums names).enum? name = (schema.enum? name).map fun found => (found.1, found.2.emptied names) := by
  have hnames : (schema.clearEnums names).names = schema.names := rfl
  unfold enum?
  rw [hnames]
  cases schema.names.enum? name with
  | none => rfl
  | some position => simp only [Option.bind_some, getElem?_clearEnums, Option.map_map, Function.comp_def]

/-- an emptied enum is found where it was -/
theorem Indexed.clearEnums (h : schema.Indexed) : (schema.clearEnums names).Indexed := by
  refine ⟨h.message, fun n i => ?_⟩
  have hname : ∀ e : EnumDecl, (e.emptied names).absoluteName = e.absoluteName :=
    fun e => congrArg Declaration.absoluteName (e.toDeclaration_emptied names)
  refine (h.enum n i).trans ?_
  simp only [getElem?_clearEnums, Option.map_eq_some_iff, exists_exists_and_eq_and, hname]

end Schema

/-! ## Fields -/

namespace FieldDecl

variable {schema : Schema} {names : List String} {f : FieldDecl} {cause : SchemaFault}

/-- the field holds none of the enums of the given names -/
def Spares (names : List String) (f : FieldDecl) : Prop := f.kind = .enum → f.typeName ∉ names

/-- the field holds an enum that is emptied, which is reported -/
inductive HoldsEmptied (schema : Schema) (names : List String) (f : FieldDecl) : SchemaFault → Prop
  | intro {e : EnumDecl} (hkind : f.kind = .enum) (he : e ∈ schema.enums) (habsolute : e.absoluteName = f.typeName)
      (hname : f.typeName ∈ names) : HoldsEmptied schema names f (.emptyEnum e.fullName)

/-- a field that holds no emptied enum has the value it had -/
theorem value_clearEnums (h : schema.Indexed) (hspares : f.Spares names) (package : String) :
    f.value (schema.clearEnums names) package = f.value schema package := by
  unfold value
  cases hkind : f.kind with
  | enum =>
    dsimp only
    rw [Schema.enum?_clearEnums]
    cases hfind : schema.enum? f.typeName with
    | none => rfl
    | some found =>
      have hname : found.2.absoluteName ∉ names := by
        rw [(h.enum?_eq_some_iff.1 hfind).2]
        exact hspares hkind
      simp only [Option.map_some, EnumDecl.emptied_of_not_mem hname]
  | _ => rfl

/-- what stood in the way of a field still does -/
theorem Obstacle.clearEnums (h : f.Obstacle schema cause) (names : List String) :
    f.Obstacle (schema.clearEnums names) cause := by
  cases h with
  | unknownEnum hkind hname => exact .unknownEnum hkind hname
  | unknownMessage hkind hname => exact .unknownMessage hkind hname
  | group hkind => exact .group hkind
  | unrecognized hkind => exact .unrecognized hkind
  | @emptyEnum position e hkind hname he hempty =>
    have hstill : (e.emptied names).values = [] := by
      unfold EnumDecl.emptied
      split
      · rfl
      · exact hempty
    rw [← EnumDecl.toDeclaration_emptied names e]
    exact .emptyEnum hkind hname (by rw [Schema.getElem?_clearEnums, he, Option.map_some]) hstill

theorem HoldsEmptied.obstacle (h : schema.Indexed) (hholds : f.HoldsEmptied schema names cause) :
    f.Obstacle (schema.clearEnums names) cause := by
  obtain @⟨e, hkind, he, habsolute, hin⟩ := hholds
  obtain ⟨position, he⟩ := List.getElem?_of_mem he
  have hname := NameTable.enum?_eq_some_iff.2 ((h.enum _ position).2 ⟨e, he, habsolute⟩)
  have hempty : (e.emptied names).values = [] := by rw [EnumDecl.emptied_of_mem (habsolute ▸ hin)]
  rw [← EnumDecl.toDeclaration_emptied names e]
  exact .emptyEnum hkind hname (by rw [Schema.getElem?_clearEnums, he, Option.map_some]) hempty

/-- **What stands in the way of a field** is what did, or that it holds an emptied enum. -/
theorem obstacle_clearEnums_iff (h : schema.Indexed) :
    f.Obstacle (schema.clearEnums names) cause ↔ f.Obstacle schema cause ∨ f.HoldsEmptied schema names cause := by
  constructor
  · intro hobstacle
    cases hobstacle with
    | unknownEnum hkind hname => exact .inl (.unknownEnum hkind hname)
    | unknownMessage hkind hname => exact .inl (.unknownMessage hkind hname)
    | group hkind => exact .inl (.group hkind)
    | unrecognized hkind => exact .inl (.unrecognized hkind)
    | emptyEnum hkind hname he hempty =>
      rw [Schema.getElem?_clearEnums, Option.map_eq_some_iff] at he
      obtain ⟨e, he, rfl⟩ := he
      obtain ⟨e', he', habsolute⟩ := (h.enum _ _).1 (NameTable.enum?_eq_some_iff.1 hname)
      obtain rfl := Option.some.inj (he.symm.trans he')
      by_cases hin : e.absoluteName ∈ names
      · rw [EnumDecl.toDeclaration_emptied]
        exact .inr (.intro hkind (List.mem_of_getElem? he) habsolute (habsolute ▸ hin))
      · rw [EnumDecl.emptied_of_not_mem hin] at hempty ⊢
        exact .inl (.emptyEnum hkind hname he hempty)
  · rintro (hobstacle | hholds)
    · exact hobstacle.clearEnums names
    · exact hholds.obstacle h

end FieldDecl

/-! ## Schemas -/

section

variable {files : List File} {schema : Schema} {names : List String}

/-- **Enums that no field holds** can be emptied before or after resolution. -/
theorem resolve_clearEnums_of_unused (h : schema.Indexed)
    (hspares : ∀ m ∈ schema.messages, ∀ f ∈ m.fields, f.Spares names) {out : Schema} :
    (schema.clearEnums names).resolve = .ok out ↔
      ∃ resolved, schema.resolve = .ok resolved ∧ out = resolved.clearEnums names := by
  have hmessages : ∀ m ∈ schema.messages, m.resolve (schema.clearEnums names) = m.resolve schema :=
    fun m hm => MessageDecl.resolve_congr fun f hf => FieldDecl.value_clearEnums h (hspares m hm f hf) m.package
  have hsame : ∀ messages,
      List.Forall₂ (fun m r => m.resolve (schema.clearEnums names) = .ok r) schema.messages messages ↔
        List.Forall₂ (fun m r => m.resolve schema = .ok r) schema.messages messages := by
    intro messages
    rw [← mapM_eq_ok_iff, ← mapM_eq_ok_iff, mapM_congr_mem hmessages]
  rw [resolve_eq_ok_iff]
  constructor
  · rintro ⟨henums, hnames, hresolved⟩
    refine ⟨{ messages := out.messages, enums := schema.enums, names := schema.names }, ?_, ?_⟩
    · exact resolve_eq_ok_iff.2 ⟨rfl, rfl, (hsame _).1 hresolved⟩
    · cases out
      cases henums
      cases hnames
      rfl
  · rintro ⟨resolved, hresolve, rfl⟩
    obtain ⟨henums, hnames, hresolved⟩ := resolve_eq_ok_iff.1 hresolve
    refine ⟨?_, hnames, (hsame _).2 hresolved⟩
    rw [Schema.clearEnums, henums]
    rfl

/-- the causes of a field of a batch, once enums are emptied -/
theorem Collected.fault?_value_clearEnums (h : Collected files schema) {f : FieldDecl}
    (hkind : ∀ code, f.kind ≠ .unrecognized code) (package : String) (cause : SchemaFault) :
    fault? (f.value (schema.clearEnums names) package) = some cause ↔
      f.Offence files cause ∨ f.HoldsEmptied schema names cause := by
  have hbefore : f.Obstacle schema cause ↔ f.Offence files cause := by
    rw [← h.fault?_value hkind package, fault?_eq_some_iff, FieldDecl.value_eq_error_iff h.indexed.inRange]
  rw [fault?_eq_some_iff, FieldDecl.value_eq_error_iff h.indexed.clearEnums.inRange,
    FieldDecl.obstacle_clearEnums_iff h.indexed, hbefore]

theorem Collected.fault?_value_clearEnums_eq_none_iff (h : Collected files schema) {f : FieldDecl}
    (hkind : ∀ code, f.kind ≠ .unrecognized code) (package : String) :
    fault? (f.value (schema.clearEnums names) package) = none ↔ f.Resolvable files ∧ f.Spares names := by
  simp only [Option.eq_none_iff_forall_ne_some, ne_eq, h.fault?_value_clearEnums hkind, not_or, forall_and,
    ← resolvable_iff]
  refine and_congr_right fun hresolvable => ?_
  constructor
  · intro hnone henum hin
    obtain ⟨e, he, habsolute⟩ := List.mem_map.1 (h.enumNames ▸ hresolvable.enum henum)
    exact hnone _ (.intro henum he habsolute hin)
  · rintro hspares _ ⟨henum, _, _, hin⟩
    exact hspares henum hin

/-- **A batch with enums emptied.** It is resolved exactly when it was before and no field holds an emptied enum, and
then to the same but for these enums. Otherwise the first field that holds one, or that could not be resolved anyway, is
reported, in two contexts; for an emptied enum the cause is that it is empty. -/
theorem resolve_clearEnums (h : Schema.ofFiles files = .ok schema) (names : List String) :
    (∀ out, (schema.clearEnums names).resolve = .ok out ↔
      (∀ m ∈ schema.messages, ∀ f ∈ m.fields, f.Spares names) ∧
        ∃ resolved, schema.resolve = .ok resolved ∧ out = resolved.clearEnums names) ∧
    ∀ fault, (schema.clearEnums names).resolve = .error fault ↔
      ∃ before m after, schema.messages = before ++ m :: after ∧
        (∀ m' ∈ before, ∀ g ∈ m'.fields, g.Resolvable files ∧ g.Spares names) ∧
        ∃ front f back, m.fields = front ++ f :: back ∧ (∀ g ∈ front, g.Resolvable files ∧ g.Spares names) ∧
          ∃ cause, (f.Offence files cause ∨ f.HoldsEmptied schema names cause) ∧ resolutionFault m f cause = fault := by
  have hc := collected_of_ok h
  have hfree : ∀ m ∈ (schema.clearEnums names).messages, ∀ f ∈ m.fields,
      fault? (f.value (schema.clearEnums names) m.package) = none ↔ f.Resolvable files ∧ f.Spares names :=
    fun m hm f hf => hc.fault?_value_clearEnums_eq_none_iff (hc.recognized hm hf) m.package
  constructor
  · intro out
    constructor
    · intro hout
      have hall := (exists_resolve_iff hfree).1 ⟨out, hout⟩
      have hspares : ∀ m ∈ schema.messages, ∀ f ∈ m.fields, f.Spares names := fun m hm f hf => (hall m hm f hf).2
      exact ⟨hspares, (resolve_clearEnums_of_unused hc.indexed hspares).1 hout⟩
    · rintro ⟨hspares, hresolved⟩
      exact (resolve_clearEnums_of_unused hc.indexed hspares).2 hresolved
  · intro fault
    exact resolve_eq_error_iff_first hfree fun m hm f hf => hc.fault?_value_clearEnums (hc.recognized hm hf) m.package

end

/-- the enum is still found where it was -/
example : (Schema.ofFiles sampleFiles).toOption.map (fun schema =>
      ((schema.clearEnums [".shop.Order.State"]).names.enum? ".shop.Order.State",
        (fault? (schema.clearEnums [".shop.Order.State"]).resolve).map (·.message))) =
    some (some 0, some ("cannot resolve types in message \"Order\" of package \"shop\": " ++
      "cannot resolve type of field \"state\": enum 'Order.State' has no values")) := by
  decide +kernel

end ErlangRecords
