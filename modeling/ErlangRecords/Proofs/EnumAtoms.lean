/-
Atoms of enum values, beside the atom for an absent one.

The atom of a value is its name in lower case, and an optional field without a value holds `undefined`. Nothing is done
to keep these apart: two values whose names differ in case only share an atom, and a value can be named `UNDEFINED`. The
choices that a field has are told apart exactly when neither is so.

- `EnumDecl.choices`, `choiceTerm`: what an optional field can hold, and the term written for it.
- `inhabits_optional_iff`: these terms, and no others, belong to the type of the field.
- `choiceTerm_injOn_iff`, `choices_told_apart_iff`: when different choices have different terms.
- `choices_not_told_apart`: sometimes they have not.
-/
import Mathlib
import ErlangRecords.Proofs.LowerCase
import ErlangRecords.Proofs.Meaning

namespace ErlangRecords

open Descriptor (File)

/-! ## Choices -/

/-- what an optional field of the enum can hold: no value, or one, which its name tells from the others -/
def EnumDecl.choices (e : EnumDecl) : List (Option String) := none :: e.values.map fun v => some v.name

theorem choices_of_names {e : EnumDecl} {names : List String} (h : e.values.map (·.name) = names) :
    e.choices = none :: names.map some := by
  rw [EnumDecl.choices, ← h, List.map_map]
  rfl

/-- the term that stands for a choice -/
def choiceTerm : Option String → Term
  | none => .undefined
  | some name => .atom (Atom.ofEnumValue name)

/-- no two values have names that lower case makes the same, and no name is a way to write `undefined` -/
structure EnumDecl.ToldApart (e : EnumDecl) : Prop where
  values : ∀ v ∈ e.values, ∀ w ∈ e.values, Text.lowerCase v.name = Text.lowerCase w.name → v.name = w.name
  present : ∀ v ∈ e.values, v.name.toLower ≠ "undefined"

section

variable {e : EnumDecl}

theorem choiceTerm_some_eq_iff {a b : String} :
    choiceTerm (some a) = choiceTerm (some b) ↔ Text.lowerCase a = Text.lowerCase b := by
  rw [choiceTerm, choiceTerm, Term.atom.injEq]
  rfl

/-- a value is taken for an absent one when its name reads `undefined`, in capitals or not; letters beyond ASCII do not
come into it -/
theorem choiceTerm_eq_undefined_iff {name : String} :
    choiceTerm (some name) = choiceTerm none ↔ name.toLower = "undefined" := by
  have hascii : ∀ c ∈ "undefined".toList, Text.IsAscii c ∧ c ≠ 'k' := by simp [Text.IsAscii]
  rw [choiceTerm, choiceTerm, Term.undefined, Term.atom.injEq, Atom.ofEnumValue]
  exact Text.lowerCase_eq_iff_of_ascii hascii

/-- **Choices with terms of their own.** -/
theorem choiceTerm_injOn_iff : Set.InjOn choiceTerm {choice | choice ∈ e.choices} ↔ e.ToldApart := by
  have hvalue : ∀ v ∈ e.values, some v.name ∈ e.choices := fun v hv =>
    List.mem_cons_of_mem _ (List.mem_map_of_mem hv)
  constructor
  · intro h
    constructor
    case values =>
      intro v hv w hw hlower
      exact Option.some.inj (h (hvalue v hv) (hvalue w hw) (choiceTerm_some_eq_iff.2 hlower))
    case present =>
      intro v hv hlower
      have habsent : some v.name = none := h (hvalue v hv) List.mem_cons_self (choiceTerm_eq_undefined_iff.2 hlower)
      cases habsent
  · intro h choice hchoice other hother heq
    rcases List.mem_cons.1 hchoice with rfl | hchoice <;> rcases List.mem_cons.1 hother with rfl | hother
    · rfl
    · obtain ⟨w, hw, rfl⟩ := List.mem_map.1 hother
      exact absurd (choiceTerm_eq_undefined_iff.1 heq.symm) (h.present w hw)
    · obtain ⟨v, hv, rfl⟩ := List.mem_map.1 hchoice
      exact absurd (choiceTerm_eq_undefined_iff.1 heq) (h.present v hv)
    · obtain ⟨v, hv, rfl⟩ := List.mem_map.1 hchoice
      obtain ⟨w, hw, rfl⟩ := List.mem_map.1 hother
      rw [h.values v hv w hw (choiceTerm_some_eq_iff.1 heq)]

/-- names of ASCII letters are made the same by lower case when they differ in capitals only -/
theorem choiceTerm_some_eq_iff_of_ascii {a b : String} (ha : ∀ c ∈ a.toList, Text.IsAscii c)
    (hb : ∀ c ∈ b.toList, Text.IsAscii c) : choiceTerm (some a) = choiceTerm (some b) ↔ a.toLower = b.toLower := by
  rw [choiceTerm_some_eq_iff, Text.lowerCase_of_ascii ha, Text.lowerCase_of_ascii hb]

end

/-! ## Terms of the field's type -/

section

variable {schema : Schema} {f : FieldDecl} {e : EnumDecl} {position : Nat} {t : Term}

/-- the terms of an enum's type are the atoms of its values -/
theorem inhabits_typeExpr_iff {scope : List FieldDecl} :
    Inhabits schema scope e.typeExpr t ↔ ∃ v ∈ e.values, t = choiceTerm (some v.name) := by
  constructor
  · intro h
    cases h with
    | union hin h =>
      obtain ⟨v, hv, rfl⟩ := List.mem_map.1 hin
      cases h with
      | atom _ => exact ⟨v, hv, rfl⟩
  · rintro ⟨v, hv, rfl⟩
    obtain ⟨alternatives, halternatives, hin⟩ := atom_mem_typeExpr hv
    rw [halternatives]
    exact .union hin (.atom v.atom)

theorem inhabits_reference_iff (htarget : f.target = some (.enum position)) (he : schema.enums[position]? = some e)
    (package : String) :
    Inhabits schema [f] (e.reference package) t ↔ ∃ v ∈ e.values, t = choiceTerm (some v.name) := by
  have htype : Inhabits schema [] e.typeExpr t ↔ ∃ v ∈ e.values, t = choiceTerm (some v.name) := inhabits_typeExpr_iff
  rw [← htype]
  constructor
  · intro h
    -- the handle of the field in the scope is the one given, so it denotes this enum and no message
    generalize hreference : e.reference package = type at h
    cases h with
    | enum hf htarget' he' _ h =>
      rw [List.mem_singleton.1 hf, htarget] at htarget'
      cases htarget'
      rw [he, Option.some.injEq] at he'
      exact he' ▸ h
    | message hf htarget' =>
      rw [List.mem_singleton.1 hf, htarget] at htarget'
      cases htarget'
    | _ => cases hreference
  · intro h
    exact .enum List.mem_cons_self htarget he rfl h

/-- **The terms of an optional field** of the enum are those of its choices. -/
theorem inhabits_optional_iff (htarget : f.target = some (.enum position)) (he : schema.enums[position]? = some e)
    (package : String) :
    Inhabits schema [f] (.optional (e.reference package)) t ↔ ∃ choice ∈ e.choices, t = choiceTerm choice := by
  constructor
  · intro h
    cases h with
    | union hin h =>
      rcases List.mem_cons.1 hin with rfl | hin
      · cases h with
        | undefined => exact ⟨none, List.mem_cons_self, rfl⟩
      · rw [List.mem_singleton.1 hin, inhabits_reference_iff htarget he] at h
        obtain ⟨v, hv, rfl⟩ := h
        exact ⟨some v.name, List.mem_cons_of_mem _ (List.mem_map_of_mem hv), rfl⟩
  · rintro ⟨choice, hchoice, rfl⟩
    rcases List.mem_cons.1 hchoice with rfl | hchoice
    · exact .union List.mem_cons_self .undefined
    · obtain ⟨v, hv, rfl⟩ := List.mem_map.1 hchoice
      exact .union (List.mem_cons_of_mem _ List.mem_cons_self)
        ((inhabits_reference_iff htarget he package).2 ⟨v, hv, rfl⟩)

end

/-! ## Optional fields of a resolved batch -/

/-- the field holds a value of the enum or none: its handle denotes the enum, and its type has the terms of the
choices -/
structure HoldsOptional (schema : Schema) (package : String) (f : FieldDecl) (e : EnumDecl) : Prop where
  target : ∃ position, f.target = some (.enum position) ∧ schema.enums[position]? = some e
  name : e.absoluteName = f.typeName
  typing : ∃ default, f.typing = some ⟨e.reference package, .optional (e.reference package), default⟩
  terms : ∀ t, Inhabits schema [f] (.optional (e.reference package)) t ↔ ∃ choice ∈ e.choices, t = choiceTerm choice

theorem ResolvedFrom.exists_holdsOptional {files : List File} {schema : Schema} (h : ResolvedFrom files schema)
    {m : MessageDecl} (hm : m ∈ schema.messages) {f : FieldDecl} (hf : f ∈ m.fields) (hkind : f.kind = .enum)
    (hcardinality : f.cardinality = .optional) : ∃ e, HoldsOptional schema m.package f e := by
  obtain ⟨v, hv, htarget, htyping⟩ := (h.typed m hm).field f hf
  obtain ⟨position, e, first, hposition, hfind, _, htype, _⟩ := enum_default hkind hv
  obtain ⟨hname, he⟩ := Schema.enum?_eq_some_iff.1 hfind
  obtain ⟨e', he', habsolute⟩ := (h.enum_indexed f.typeName position).1 hname
  rw [he] at he'
  cases he'
  refine ⟨e, ⟨position, htarget.trans hposition, he⟩, habsolute, ⟨v.default, ?_⟩, fun t => ?_⟩
  · rw [htyping, FieldDecl.typingOf, hcardinality, htype]
  · exact inhabits_optional_iff (htarget.trans hposition) he m.package

/-- **When the choices of an optional enum field are told apart.** In a resolved batch, the terms of such a field are
`undefined` and the atoms of the values of its enum. Different choices have different terms exactly when no two names of
values become the same in lower case, and none is `undefined` but for ASCII capitals. For names in ASCII, to become the
same in lower case is to differ in capitals only. -/
theorem choices_told_apart_iff {files : List File} {schema resolved : Schema} (h : Schema.ofFiles files = .ok schema)
    (hr : schema.resolve = .ok resolved) :
    ∀ m ∈ resolved.messages, ∀ f ∈ m.fields, f.kind = .enum → f.cardinality = .optional →
      ∃ e, HoldsOptional resolved m.package f e ∧
        (Set.InjOn choiceTerm {choice | choice ∈ e.choices} ↔ e.ToldApart) ∧
        ∀ v ∈ e.values, ∀ w ∈ e.values, (∀ c ∈ v.name.toList, Text.IsAscii c) → (∀ c ∈ w.name.toList, Text.IsAscii c) →
          (choiceTerm (some v.name) = choiceTerm (some w.name) ↔ v.name.toLower = w.name.toLower) := by
  intro m hm f hf hkind hcardinality
  obtain ⟨e, he⟩ := (resolvedFrom_of_ok h hr).exists_holdsOptional hm hf hkind hcardinality
  exact ⟨e, he, choiceTerm_injOn_iff, fun v _ w _ hv hw => choiceTerm_some_eq_iff_of_ascii hv hw⟩

/-! ## Two lamps -/

/-- a lamp with an optional light, of the given names -/
def lampFiles (names : List String) : List File := [
  { name := "lamp.proto"
    package := "home"
    messages := [{
      name := "Lamp"
      fields := [{ name := "light", number := 1, label := some 1, type := some 14, typeName := ".home.Light" }] }]
    enums := [{ name := "Light", values := names.zipIdx.map fun entry => ⟨entry.1, entry.2⟩ }] }]

/-- the schema is that of a lamp with lights of the given names -/
def IsLamp (names : List String) (schema : Schema) : Prop :=
  schema.messages.map (fun m => m.fields.map fun f => (f.kind, f.cardinality, f.target)) =
      [[(.enum, .optional, some (.enum 0))]] ∧
    schema.enums.map (fun e => e.values.map (·.name)) = [names]

instance (names : List String) (schema : Schema) : Decidable (IsLamp names schema) :=
  inferInstanceAs (Decidable (_ ∧ _))

theorem IsLamp.exists_field {names : List String} {schema : Schema} (h : IsLamp names schema) :
    ∃ m ∈ schema.messages, ∃ f ∈ m.fields, (f.kind = .enum ∧ f.cardinality = .optional ∧ f.target = some (.enum 0)) ∧
      ∃ e, schema.enums[0]? = some e ∧ e.values.map (·.name) = names := by
  obtain ⟨hmessages, henums⟩ := h
  obtain ⟨m, hm, hfields⟩ := List.map_eq_singleton_iff.1 hmessages
  obtain ⟨f, hf, hfield⟩ := List.map_eq_singleton_iff.1 hfields
  obtain ⟨e, he, hnames⟩ := List.map_eq_singleton_iff.1 henums
  simp only [Prod.mk.injEq] at hfield
  exact ⟨m, by simp [hm], f, by simp [hf], hfield, e, by simp [he], hnames⟩

/-- a sigma at the end of a word is another small letter than one inside, so the last two are told apart -/
def brightNames : List String := ["OFF", "UNDEFINED_YET", "ΦΩΣ", "φωσ"]

theorem choices_told_apart_sample : ∃ schema resolved, Schema.ofFiles (lampFiles brightNames) = .ok schema ∧
    schema.resolve = .ok resolved ∧ ∃ m ∈ resolved.messages, ∃ f ∈ m.fields, ∃ e,
      HoldsOptional resolved m.package f e ∧ e.choices = none :: brightNames.map some ∧
        Set.InjOn choiceTerm {choice | choice ∈ e.choices} := by
  obtain ⟨schema, h, hresolves⟩ := exists_ok_of_check (x := Schema.ofFiles (lampFiles brightNames))
    (P := fun schema => (schema.resolve.toOption.any fun resolved => decide (IsLamp brightNames resolved)) = true)
    (by decide +kernel)
  obtain ⟨resolved, hr, hlamp⟩ := exists_ok_of_check hresolves
  obtain ⟨m, hm, f, hf, ⟨hkind, hcardinality, htarget⟩, lights, hlights, hnames⟩ := hlamp.exists_field
  obtain ⟨e, he, hinjective, _⟩ := choices_told_apart_iff h hr m hm f hf hkind hcardinality
  have hsame : e = lights := by
    obtain ⟨position, hposition, hfound⟩ := he.target
    rw [htarget] at hposition
    cases hposition
    exact Option.some.inj (hfound.symm.trans hlights)
  subst hsame
  have hdistinct : ∀ a ∈ brightNames, ∀ b ∈ brightNames, Text.lowerCase a = Text.lowerCase b → a = b := by
    decide +kernel
  have hpresent : ∀ a ∈ brightNames, a.toLower ≠ "undefined" := by decide +kernel
  have hname : ∀ v ∈ e.values, v.name ∈ brightNames := fun v hv => hnames ▸ List.mem_map_of_mem hv
  refine ⟨schema, resolved, h, hr, m, hm, f, hf, e, he, choices_of_names hnames, hinjective.2 ⟨?_, ?_⟩⟩
  · exact fun v hv w hw => hdistinct _ (hname v hv) _ (hname w hw)
  · exact fun v hv => hpresent _ (hname v hv)

/-- **Values may share an atom, and be taken for absent**: the batch is resolved all the same. -/
theorem choices_not_told_apart : ∃ schema resolved,
    Schema.ofFiles (lampFiles ["RED", "red", "UNDEFINED"]) = .ok schema ∧ schema.resolve = .ok resolved ∧
      ∃ m ∈ resolved.messages, ∃ f ∈ m.fields, (f.kind = .enum ∧ f.cardinality = .optional ∧
          f.target = some (.enum 0)) ∧ ∃ e, resolved.enums[0]? = some e ∧
        e.choices = [none, some "RED", some "red", some "UNDEFINED"] ∧
        choiceTerm (some "RED") = choiceTerm (some "red") ∧ choiceTerm (some "UNDEFINED") = choiceTerm none ∧
        ¬Set.InjOn choiceTerm {choice | choice ∈ e.choices} := by
  obtain ⟨schema, h, hresolves⟩ := exists_ok_of_check
    (x := Schema.ofFiles (lampFiles ["RED", "red", "UNDEFINED"]))
    (P := fun schema => (schema.resolve.toOption.any fun resolved =>
      decide (IsLamp ["RED", "red", "UNDEFINED"] resolved)) = true) (by decide +kernel)
  obtain ⟨resolved, hr, hlamp⟩ := exists_ok_of_check hresolves
  obtain ⟨m, hm, f, hf, hfield, e, he, hnames⟩ := hlamp.exists_field
  have hchoices := choices_of_names hnames
  have hshared : choiceTerm (some "RED") = choiceTerm (some "red") := choiceTerm_some_eq_iff.2 (by decide +kernel)
  have habsent : choiceTerm (some "UNDEFINED") = choiceTerm none := choiceTerm_eq_undefined_iff.2 (by decide +kernel)
  refine ⟨schema, resolved, h, hr, m, hm, f, hf, hfield, e, he, hchoices, hshared, habsent, fun hinjective => ?_⟩
  have hsame : some "UNDEFINED" = none := hinjective (by simp [hchoices]) (by simp [hchoices]) habsent
  cases hsame

end ErlangRecords
