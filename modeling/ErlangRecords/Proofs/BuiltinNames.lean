/-
Names of the language.

The types `boolean()`, `float()` and `iodata()` are written as references to user types are, and a declaration may have
any name. So a declaration of the package can take the name of such a type: its module then defines and exports a type
of that name, and a reference to it is written like the type of the language. Apart from that, the text of a value's
type tells which type it is.

- `IsValue.render_eq_iff`: values with one text.
- `typeName_eq_builtin_iff`: declarations that take the name of a type of the language.
- `texts_equal_iff`: the types of the values of a package, told apart by their texts.
-/
import ErlangRecords.Proofs.Identifiers
import ErlangRecords.Proofs.ReadBack
import ErlangRecords.Proofs.References

namespace ErlangRecords

/-! ## Texts of values -/

namespace TypeExpr

/-- the type as its text spells it: one of the language like a user type of its name -/
def spelled : TypeExpr → TypeExpr
  | .boolean => .named none "boolean"
  | .float => .named none "float"
  | .iodata => .named none "iodata"
  | t => t

/-- the text of the user type `user`, of the module it stands in, is that of the type `builtin` of the language -/
def SpelledAs (builtin user : TypeExpr) : Prop := ∃ name, builtin? name = some builtin ∧ user = .named none name

/-- what the text of a value spells -/
def readSpelled (cs : List Char) : Option (TypeExpr × List Char) :=
  match Atom.read cs with
  | none => readRange cs
  | some (home, ':' :: cs) => do
    let (name, cs) ← Atom.read cs
    let cs ← skip "()" cs
    return (.named (some home) name, cs)
  | some (name, cs) => do
    let cs ← skip "()" cs
    return (.named none name, cs)

section

variable {s t : TypeExpr} {name : String} {rest : List Char}

theorem builtin?_eq_some_iff : builtin? name = some t ↔
    name = "boolean" ∧ t = .boolean ∨ name = "float" ∧ t = .float ∨ name = "iodata" ∧ t = .iodata := by
  unfold builtin?
  split_ifs <;> simp_all [eq_comm (a := t)]

theorem spelled_of_builtin? (h : builtin? name = some t) : t.spelled = .named none name := by
  rcases builtin?_eq_some_iff.1 h with ⟨rfl, rfl⟩ | ⟨rfl, rfl⟩ | ⟨rfl, rfl⟩ <;> rfl

/-- a text is that of the type it spells -/
theorem render_spelled (t : TypeExpr) : t.spelled.render = t.render := by
  cases t with
  | boolean | float | iodata => decide +kernel
  | _ => rfl

theorem readSpelled_named (qualifier : Option String) (name : String) (rest : List Char) :
    readSpelled ((render (.named qualifier name)).toList ++ rest) = some (.named qualifier name, rest) := by
  have hname : ∀ rest, Atom.read ((Atom.quote name).toList ++ '(' :: ')' :: rest) = some (name, '(' :: ')' :: rest) :=
    fun rest => Atom.read_quote name (Atom.ends_cons (by decide) _)
  cases qualifier with
  | none =>
    have hopen : (render (.named none name)).toList ++ rest = (Atom.quote name).toList ++ '(' :: ')' :: rest := by
      simp [render]
    rw [hopen, readSpelled, hname]
    simp [skip_parens]
  | some home =>
    have hopen : (render (.named (some home) name)).toList ++ rest =
        (Atom.quote home).toList ++ ':' :: ((Atom.quote name).toList ++ '(' :: ')' :: rest) := by simp [render]
    rw [hopen, readSpelled, Atom.read_quote home (Atom.ends_cons (by decide) _)]
    simp [hname, skip_parens]

/-- **What a value spells** is read back from its text. -/
theorem IsValue.readSpelled (h : IsValue t) (hends : Atom.Ends rest) :
    readSpelled (t.render.toList ++ rest) = some (t.spelled, rest) := by
  rw [← render_spelled]
  cases h with
  | range min max =>
    have hopen : (render (.range min max)).toList ++ rest =
        (toString min).toList ++ ("..".toList ++ (toString max).toList ++ rest) := by simp [render]
    have hatom : Atom.read ((render (.range min max)).toList ++ rest) = none := by rw [hopen, read_int_eq_none]
    have hsame : spelled (.range min max) = .range min max := rfl
    rw [hsame, TypeExpr.readSpelled, hatom]
    exact readRange_append min max hends
  | _ => exact readSpelled_named _ _ rest

theorem spelled_eq_iff (hs : IsValue s) (ht : IsValue t) :
    s.spelled = t.spelled ↔ s = t ∨ SpelledAs s t ∨ SpelledAs t s := by
  constructor
  · intro h
    cases hs <;> cases ht <;> simp_all [spelled, SpelledAs, builtin?_eq_some_iff]
  · rintro (rfl | ⟨name, hname, rfl⟩ | ⟨name, hname, rfl⟩)
    · rfl
    · exact spelled_of_builtin? hname
    · exact (spelled_of_builtin? hname).symm

/-- **Values with one text** are the same, or one is a type of the language and the other a user type of its name. -/
theorem IsValue.render_eq_iff (hs : IsValue s) (ht : IsValue t) :
    s.render = t.render ↔ s = t ∨ SpelledAs s t ∨ SpelledAs t s := by
  rw [← spelled_eq_iff hs ht]
  constructor
  · intro h
    have hends : Atom.Ends [] := fun c hc => by cases hc
    have hread := hs.readSpelled hends
    rw [h, ht.readSpelled hends] at hread
    exact (congrArg Prod.fst (Option.some.inj hread)).symm
  · intro h
    rw [← render_spelled s, ← render_spelled t, h]

end

end TypeExpr

/-! ## Declarations -/

/-- **A declaration takes the name of a type of the language** exactly when its full name is that one word. -/
theorem typeName_eq_builtin_iff {name : String} {builtin : TypeExpr} (h : TypeExpr.builtin? name = some builtin)
    (d : Declaration) : d.typeName = name ↔ SnakeCase.words d.fullName = [name.toList] := by
  have hword : snakeCase name = name ∧ SnakeCase.words name = [name.toList] := by
    rcases TypeExpr.builtin?_eq_some_iff.1 h with ⟨rfl, _⟩ | ⟨rfl, _⟩ | ⟨rfl, _⟩ <;> decide +kernel
  rw [← hword.2, ← SnakeCase.snakeCase_eq_iff, hword.1]
  rfl

/-! ## Value types of a package -/

namespace Package

/-- a field of the package holds values of the type -/
def HasValueType (p : Package) (t : TypeExpr) : Prop :=
  ∃ m ∈ p.messages, ∃ f ∈ m.fields, ∃ typing, f.typing = some typing ∧ typing.valueType = t

/-- the text of a reference to a declaration of the package is that of the type `builtin` of the language -/
def Captures (p : Package) (builtin user : TypeExpr) : Prop :=
  ∃ d ∈ p.declarations, TypeExpr.builtin? d.typeName = some builtin ∧ user = .named none d.typeName

end Package

section

variable {files : List Descriptor.File} {schema : Schema} {target : Target} {s t : TypeExpr}

theorem exists_value_of_hasValueType (h : ResolvedFrom files schema) (ht : (schema.package target).HasValueType t) :
    ∃ (f : FieldDecl) (v : FieldValue), f.value schema target.package = .ok v ∧ v.type = t := by
  obtain ⟨m, hm, f, hf, typing, htyping, rfl⟩ := ht
  obtain ⟨hin, hpackage⟩ := Schema.mem_package_messages.1 hm
  obtain ⟨v, hv, _, hresolved⟩ := (h.typed m hin).field f hf
  cases htyping.symm.trans hresolved
  rw [hpackage] at hv
  exact ⟨f, v, hv, (typingOf_valueType f v).symm⟩

/-- a user type without a module is that of a declaration of the package -/
theorem exists_declaration_of_hasValueType (h : ResolvedFrom files schema) {name : String}
    (ht : (schema.package target).HasValueType (.named none name)) :
    ∃ d ∈ (schema.package target).declarations, d.typeName = name := by
  obtain ⟨f, v, hv, htype⟩ := exists_value_of_hasValueType h ht
  have huser : (none, name) ∈ v.type.userTypes := by
    rw [htype]
    exact List.mem_singleton_self _
  obtain ⟨d, heq, hrefers⟩ := value_refers h hv huser
  obtain ⟨hmodule, rfl⟩ := Prod.mk.inj heq
  have hpackage : d.package = target.package := by
    by_contra hforeign
    rw [if_neg hforeign] at hmodule
    cases hmodule
  have hhome := hrefers target.directory
  rw [hpackage] at hhome
  exact ⟨d, hhome.mem_declarations, rfl⟩

/-- **Types of values with one text** in a package -/
theorem render_eq_iff_of_hasValueType (h : ResolvedFrom files schema) (hs : (schema.package target).HasValueType s)
    (ht : (schema.package target).HasValueType t) :
    s.render = t.render ↔ s = t ∨ (schema.package target).Captures s t ∨ (schema.package target).Captures t s := by
  have hvalue : ∀ t, (schema.package target).HasValueType t → t.IsValue := by
    intro t ht
    obtain ⟨f, v, hv, rfl⟩ := exists_value_of_hasValueType h ht
    exact isValue_of_value hv
  have hcaptures : ∀ s t, (schema.package target).HasValueType t →
      (s.SpelledAs t ↔ (schema.package target).Captures s t) := by
    intro s t ht
    constructor
    · rintro ⟨name, hname, rfl⟩
      obtain ⟨d, hd, rfl⟩ := exists_declaration_of_hasValueType h ht
      exact ⟨d, hd, hname, rfl⟩
    · rintro ⟨d, _, hname, rfl⟩
      exact ⟨d.typeName, hname, rfl⟩
  rw [(hvalue s hs).render_eq_iff (hvalue t ht), hcaptures s t ht, hcaptures t s hs]

end

/-! ## The outputs of a request -/

/-- **When texts tell types apart.** When a request has outputs, the type module defines and exports a type for each
declaration of the package. That has the name of a type of the language exactly when the declaration's full name is that
one word. Among the types that fields of the package hold values of, two have one text exactly when they are the same,
or one is a type of the language whose name a declaration of the package takes, and the other refers to it. So where no
declaration takes such a name, the texts tell the types apart. -/
theorem texts_equal_iff {request : Request} {out : List OutputFile} (h : request.outputs = .ok out) :
    ∃ resolved header enums messages,
      ResolvedRequest.ofBatch request.filesToGenerate request.files = .ok resolved ∧
      out = [⟨resolved.package.headerPath, header⟩,
        ⟨resolved.package.modulePath, resolved.package.typeModuleWith enums messages⟩] ∧
      (enums ++ messages).map (·.declaration) = resolved.package.declarations ∧
      (∀ d ∈ enums ++ messages,
        TypeModule.Exports (resolved.package.typeModuleWith enums messages) d.declaration.typeName ∧
          TypeModule.Defines (resolved.package.typeModuleWith enums messages) d.declaration.typeName) ∧
      (∀ d ∈ enums ++ messages, ∀ name builtin, TypeExpr.builtin? name = some builtin →
        (d.name = name ↔ SnakeCase.words d.declaration.fullName = [name.toList])) ∧
      (∀ s t, resolved.package.HasValueType s → resolved.package.HasValueType t →
        (s.render = t.render ↔ s = t ∨ resolved.package.Captures s t ∨ resolved.package.Captures t s)) ∧
      ((∀ d ∈ resolved.package.declarations, TypeExpr.builtin? d.typeName = none) →
        ∀ s t, resolved.package.HasValueType s → resolved.package.HasValueType t → s.render = t.render → s = t) := by
  obtain ⟨_, h⟩ := outputs_eq_ok_iff.1 h
  obtain ⟨resolved, header, hbatch, _, rfl⟩ := outputsFor_eq_ok_iff.1 h
  have htexts : ∀ s t, resolved.package.HasValueType s → resolved.package.HasValueType t →
      (s.render = t.render ↔ s = t ∨ resolved.package.Captures s t ∨ resolved.package.Captures t s) :=
    fun s t => render_eq_iff_of_hasValueType (resolvedFrom_of_ofBatch hbatch)
  refine ⟨resolved, header, resolved.package.enumDefinitions, resolved.package.messageDefinitions, hbatch, ?_,
    resolved.package.definitions_declaration, fun d hd => resolved.package.offered_of_mem_definitions hd,
    fun d _ name builtin hname => typeName_eq_builtin_iff hname _, htexts, ?_⟩
  · rw [← Package.typeModule_eq]
  · intro hnone s t hs ht heq
    rcases (htexts s t hs ht).1 heq with hsame | ⟨d, hd, hcaptured, _⟩ | ⟨d, hd, hcaptured, _⟩
    · exact hsame
    · rw [hnone d hd] at hcaptured
      cases hcaptured
    · rw [hnone d hd] at hcaptured
      cases hcaptured

theorem texts_equal_iff_sample : ∃ out resolved, sampleRequest.outputs = .ok out ∧
    ResolvedRequest.ofBatch sampleRequest.filesToGenerate sampleRequest.files = .ok resolved ∧
    resolved.package.declarations.map (·.typeName) =
      ["order_state", "order_line_unit", "refund_reason", "order", "order_line", "order_note", "refund"] ∧
    ∀ s t, resolved.package.HasValueType s → resolved.package.HasValueType t → s.render = t.render → s = t := by
  obtain ⟨out, h, _⟩ := exists_ok_of_check (x := sampleRequest.outputs) (P := fun _ => True) (by decide +kernel)
  obtain ⟨checked, hchecked, htypes, hnone⟩ := exists_ok_of_check
    (x := ResolvedRequest.ofBatch sampleRequest.filesToGenerate sampleRequest.files)
    (P := fun resolved => resolved.package.declarations.map (·.typeName) =
        ["order_state", "order_line_unit", "refund_reason", "order", "order_line", "order_note", "refund"] ∧
      ∀ d ∈ resolved.package.declarations, TypeExpr.builtin? d.typeName = none)
    (by decide +kernel)
  obtain ⟨resolved, _, _, _, hbatch, _, _, _, _, _, happart⟩ := texts_equal_iff h
  cases hchecked.symm.trans hbatch
  exact ⟨out, _, h, hbatch, htypes, happart hnone⟩

/-- a switch holds a boolean, and a message of that name -/
def switchRequest : Request where
  filesToGenerate := ["p/switch.proto"]
  files := [
    { name := "p/switch.proto"
      package := "p"
      messages := [
        { name := "Boolean" },
        { name := "Switch"
          fields := [
            { name := "on", number := 1, label := some 1, type := some 8 },
            { name := "why", number := 2, label := some 1, type := some 11, typeName := ".p.Boolean" }] }] }]

/-- **A declaration may take the name of a type of the language**: the module defines and exports `boolean()`, and the
types of the switch's fields differ, but have one text. -/
theorem boolean_captured :
    (∃ out, switchRequest.outputs = .ok out ∧ out[1]? = some ⟨"p/p.erl",
      "%%% Generated from protobuf package p.\n%%% DO NOT EDIT.\n\n-module(p).\n\n-include(\"p.hrl\").\n\n" ++
        "-export_type([]).\n\n-export_type([\n  boolean/0,\n  switch/0\n]).\n\n" ++
        "%% Generated for message type Boolean.\n-type boolean() :: #boolean\x7b\x7d.\n\n" ++
        "%% Generated for message type Switch.\n-type switch() :: #switch\x7b\x7d.\n"⟩) ∧
      ∃ resolved, ResolvedRequest.ofBatch switchRequest.filesToGenerate switchRequest.files = .ok resolved ∧
        resolved.package.messages.map (fun m => m.fields.map fun f => f.typing.map (·.valueType)) =
          [[], [some .boolean, some (.named none "boolean")]] ∧
        TypeExpr.boolean.render = (TypeExpr.named none "boolean").render := by
  constructor
  · apply exists_ok_of_check
    decide +kernel
  · apply exists_ok_of_check
    decide +kernel

end ErlangRecords
