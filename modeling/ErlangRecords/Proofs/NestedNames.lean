/-
Identifiers of nested declarations.

Snake case looks at the characters on both sides of a capital, yet a dot hides what is beyond it: it counts as the
beginning of a name for what follows, and as its end for what comes before. So the identifier of a dotted name is made
of the identifiers of its components, and that of a nested declaration continues the one around it.

- `snakeCase_append_dot`: two names with a dot between them; `snakeCase_intercalate`: any number.
- `snakeCase_eq_components`: the components of one name.
- `typeNamed_of_parented`: one declaration of a batch.
- `identifiers_composed`: all of them.
-/
import ErlangRecords.Proofs.Arena
import ErlangRecords.Proofs.Identifiers

namespace ErlangRecords

open Descriptor (File Message Enum)

/-! ## Dotted names -/

/-- what stands between the dots of a name -/
def Name.components (name : String) : List String := (Text.splitOn '.' name.toList).map String.ofList

theorem Name.intercalate_components (name : String) : ".".intercalate (components name) = name := by
  rw [← String.toList_inj, String.toList_intercalate, components, List.map_map]
  have hpieces : (Text.splitOn '.' name.toList).map (String.toList ∘ String.ofList) = Text.splitOn '.' name.toList := by
    simp [Function.comp_def]
  rw [hpieces]
  exact Text.intercalate_splitOn '.' name.toList

/-- **Over a dot**, snake case goes on as from the beginning. -/
theorem snakeCase_append_dot (a b : String) : snakeCase (a ++ "." ++ b) = snakeCase a ++ "_" ++ snakeCase b := by
  have hdot : (a ++ "." ++ b).toList.map SnakeCase.separator =
      a.toList.map SnakeCase.separator ++ '_' :: b.toList.map SnakeCase.separator := by
    simp [SnakeCase.separator]
  rw [snakeCase, hdot, SnakeCase.convert_append, ← List.singleton_append, String.ofList_append, String.ofList_append,
    ← String.append_assoc]
  rfl

theorem snakeCase_intercalate (parts : List String) :
    snakeCase (".".intercalate parts) = "_".intercalate (parts.map snakeCase) := by
  induction parts with
  | nil => rfl
  | cons part parts ih =>
    cases parts with
    | nil => simp
    | cons next parts =>
      rw [String.intercalate_cons_cons, snakeCase_append_dot, ih, List.map_cons (a := part),
        String.intercalate_cons_of_ne_nil (by simp)]

theorem snakeCase_eq_components (name : String) :
    snakeCase name = "_".intercalate ((Name.components name).map snakeCase) := by
  rw [← snakeCase_intercalate, Name.intercalate_components]

/-! ## Declarations of a batch -/

/-- the type name of a listed declaration is its local name in snake case, after the type name of the message whose
descriptor holds it if there is one; `top` and `inside` are the lists that hold such declarations -/
inductive TypeNamed {α : Type} (name : α → String) (top : File → List α) (inside : Message → List α) (files : List File)
    (schema : Schema) (e : Place × α) (d : Declaration) : Prop
  | top {number : Nat} {file : File} (hfile : files[number]? = some file)
      (hin : StandsIn name (.ofFile number file) (top file) e) (hparent : d.parent = none)
      (htype : d.typeName = snakeCase (name e.2))
  | nested {position : Nat} {around : Place × Message} {m : MessageDecl}
      (haround : (batchMessages files)[position]? = some around)
      (hin : StandsIn name around.1 (inside around.2) e) (hm : schema.messages[position]? = some m)
      (hparent : d.parent = some position) (htype : d.typeName = m.typeName ++ "_" ++ snakeCase (name e.2))

section

variable {α : Type} {name : α → String} {top : File → List α} {inside : Message → List α} {files : List File}
  {schema : Schema} {e : Place × α} {d : Declaration}

theorem StandsIn.head_path {around : Place} {ds : List α} (h : StandsIn name around ds e) :
    e.1.path.headD "" = name e.2 := by
  obtain ⟨number, _, hplace⟩ := h
  rw [hplace]
  rfl

theorem typeNamed_of_parented (h : Parented name top inside files schema e d) (hname : d.name = e.1.path.headD "") :
    TypeNamed name top inside files schema e d := by
  cases h with
  | top hfile hin hparent _ _ hfull =>
    refine .top hfile hin hparent ?_
    rw [Declaration.typeName, hfull, hname, hin.head_path]
  | nested haround hin hm hparent hinside =>
    refine .nested haround hin hm hparent ?_
    rw [Declaration.typeName, hinside.fullName, snakeCase_append_dot, hname, hin.head_path]
    rfl

end

/-- the module of a declaration, and its type name along the parents, outermost first -/
structure ComposedNames (schema : Schema) (d : Declaration) : Prop where
  typeName : d.typeName =
    "_".intercalate ((d.name :: namesAround schema.messages d.parent).reverse.map snakeCase)
  moduleName : d.moduleName = "_".intercalate ((Name.components d.package).map snakeCase)

theorem composedNames_of_fullName {schema : Schema} {d : Declaration}
    (h : d.fullName = Name.dotted (d.name :: namesAround schema.messages d.parent)) : ComposedNames schema d where
  typeName := by rw [Declaration.typeName, h, Name.dotted, snakeCase_intercalate]
  moduleName := snakeCase_eq_components d.package

/-- the identifiers of all declarations of a batch, in the order of the listings -/
structure ComposedIdentifiers (files : List File) (schema : Schema) : Prop where
  messages : List.Forall₂ (fun e m => TypeNamed Message.name File.messages Message.nested files schema e
    m.toDeclaration) (batchMessages files) schema.messages
  enums : List.Forall₂ (fun e d => TypeNamed Enum.name File.enums Message.enums files schema e d.toDeclaration)
    (batchEnums files) schema.enums
  messageNames : ∀ m ∈ schema.messages, ComposedNames schema m.toDeclaration
  enumNames : ∀ d ∈ schema.enums, ComposedNames schema d.toDeclaration

section

variable {files : List File} {schema : Schema}

theorem Collected.composed_message (h : Collected files schema) {i : Nat} {e : Place × Message} {m : MessageDecl}
    (he : (batchMessages files)[i]? = some e) (hm : schema.messages[i]? = some m) :
    TypeNamed Message.name File.messages Message.nested files schema e m.toDeclaration ∧
      ComposedNames schema m.toDeclaration := by
  have hparented := (h.parented_message he hm).1
  obtain ⟨e', he', body, _, rfl⟩ := h.of_message hm
  cases he.symm.trans he'
  exact ⟨typeNamed_of_parented hparented rfl, composedNames_of_fullName (h.names_around hparented rfl rfl)⟩

theorem Collected.composed_enum (h : Collected files schema) {e : Place × Enum} (he : e ∈ batchEnums files) :
    TypeNamed Enum.name File.enums Message.enums files schema e (enumNode (positionOf files) e).toDeclaration ∧
      ComposedNames schema (enumNode (positionOf files) e).toDeclaration := by
  have hparented := h.parented_enum he
  exact ⟨typeNamed_of_parented hparented rfl, composedNames_of_fullName (h.names_around hparented rfl rfl)⟩

theorem Collected.composedIdentifiers (h : Collected files schema) : ComposedIdentifiers files schema where
  messages := by
    refine List.forall₂_iff_get.2 ⟨h.length.symm, fun i hi hi' => ?_⟩
    exact (h.composed_message (List.getElem?_eq_getElem hi) (List.getElem?_eq_getElem hi')).1
  enums := by
    rw [h.enums, List.forall₂_map_right_iff, List.forall₂_same]
    exact fun e he => (h.composed_enum he).1
  messageNames := by
    intro m hm
    obtain ⟨i, hm⟩ := List.getElem?_of_mem hm
    obtain ⟨e, he, _⟩ := h.of_message hm
    exact (h.composed_message he hm).2
  enumNames := by
    intro d hd
    obtain ⟨e, he, rfl⟩ := h.of_enum hd
    exact (h.composed_enum he).2

end

/-- **Identifiers are put together like names.** The snake case of two names with a dot between them is that of the one
and that of the other with an underscore between them, whatever the names are. So once a batch is collected, the type
name of a nested message or enum is that of the message around it, an underscore, and its local name in snake case, at
any depth; and every module name is made in the same way of the components of the package. -/
theorem identifiers_composed :
    (∀ a b : String, snakeCase (a ++ "." ++ b) = snakeCase a ++ "_" ++ snakeCase b) ∧
      ∀ (files : List File) (schema : Schema), Schema.ofFiles files = .ok schema →
        ComposedIdentifiers files schema :=
  ⟨snakeCase_append_dot, fun _ _ h => (collected_of_ok h).composedIdentifiers⟩

/-- capitals, small letters and underscores on both sides of the dots -/
def seamFiles : List File := [
  { name := "api.proto"
    package := "acme.MyAPI.v1"
    messages := [{
      name := "GetHTTP"
      nested := [{ name := "StatusX", enums := [{ name := "okCode", values := [⟨"ZERO", 0⟩] }] }]
      enums := [{ name := "_Flag_", values := [⟨"OFF", 0⟩] }] }] }]

theorem identifiers_composed_seams : ∃ schema, Schema.ofFiles seamFiles = .ok schema ∧
    ComposedIdentifiers seamFiles schema ∧
    schema.messages.map (·.typeName) = ["get_http", "get_http_status_x"] ∧
    schema.enums.map (·.typeName) = ["get_http__flag_", "get_http_status_x_ok_code"] ∧
    schema.messages.map (·.moduleName) = ["acme_my_api_v1", "acme_my_api_v1"] := by
  obtain ⟨schema, h, htypes⟩ := exists_ok_of_check (x := Schema.ofFiles seamFiles)
    (P := fun schema => schema.messages.map (·.typeName) = ["get_http", "get_http_status_x"] ∧
      schema.enums.map (·.typeName) = ["get_http__flag_", "get_http_status_x_ok_code"] ∧
      schema.messages.map (·.moduleName) = ["acme_my_api_v1", "acme_my_api_v1"]) (by decide +kernel)
  exact ⟨schema, h, identifiers_composed.2 seamFiles schema h, htypes⟩

end ErlangRecords
