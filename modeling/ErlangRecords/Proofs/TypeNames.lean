/-
Type names of a package, and where they are written.

No two declarations of a package share a full name, but type names are told apart by words alone. A type name is written
in the record definition of a message, and for every declaration in an export list and in a type definition; so in each
of these places, too, what is written for two declarations differs exactly when their full names differ in words.

- `fullNames_nodup`: full names tell the declarations of a package apart.
- `Package.WrittenAs`, `exists_writtenAs`: the definitions that the outputs of a resolved batch are made of.
- `typeName_eq_iff_words`: when the types generated for a package are told apart.
- `typeNames_not_distinct`: sometimes they are not.
-/
import ErlangRecords.Proofs.AtomTexts
import ErlangRecords.Proofs.Identifiers
import ErlangRecords.Proofs.Renderable

namespace ErlangRecords

/-! ## Full names -/

/-- no two declarations of a batch share an absolute name, resolved or not -/
theorem nodup_of_resolve {files : List Descriptor.File} {schema resolved : Schema}
    (h : Schema.ofFiles files = .ok schema) (hr : schema.resolve = .ok resolved) :
    (resolved.enums.map (·.absoluteName) ++ resolved.messages.map (·.absoluteName)).Nodup := by
  have hc := collected_of_ok h
  have hmessages := congrArg (List.map Declaration.absoluteName) (messages_of_resolve hr)
  rw [List.map_map, List.map_map] at hmessages
  have hmessages : resolved.messages.map (·.absoluteName) = schema.messages.map (·.absoluteName) := hmessages
  rw [(resolve_eq_ok_iff.1 hr).1, hmessages, hc.enumNames, hc.messageNames, List.nodup_append_comm]
  exact ((ofFiles_ok_iff files).1 ⟨schema, h⟩).2.2

theorem package_eq_of_mem {schema : Schema} {target : Target} {d : Declaration}
    (hd : d ∈ (schema.package target).declarations) : d.package = target.package := by
  rcases List.mem_append.1 hd with hd | hd
  · obtain ⟨e, he, rfl⟩ := List.mem_map.1 hd
    exact (Schema.mem_package_enums.1 he).2
  · obtain ⟨m, hm, rfl⟩ := List.mem_map.1 hd
    exact (Schema.mem_package_messages.1 hm).2

/-- within a package, full names tell declarations apart as absolute names do -/
theorem fullNames_nodup {schema : Schema} (target : Target)
    (h : (schema.enums.map (·.absoluteName) ++ schema.messages.map (·.absoluteName)).Nodup) :
    ((schema.package target).declarations.map (·.fullName)).Nodup := by
  have hsublist : ((schema.package target).declarations.map (·.absoluteName)).Sublist
      (schema.enums.map (·.absoluteName) ++ schema.messages.map (·.absoluteName)) := by
    rw [Package.declarations, List.map_append, List.map_map, List.map_map]
    exact (List.filter_sublist.map _).append (List.filter_sublist.map _)
  have habsolute : (schema.package target).declarations.map (·.absoluteName) =
      ((schema.package target).declarations.map (·.fullName)).map (Name.absolute target.package) := by
    rw [List.map_map]
    refine List.map_congr_left fun d hd => ?_
    rw [Declaration.absoluteName, package_eq_of_mem hd]
    rfl
  have hnodup := h.sublist hsublist
  rw [habsolute] at hnodup
  exact hnodup.of_map _

/-! ## Words -/

/-- what is written for the declarations tells them apart exactly as the words of their full names do -/
def ToldByWords {α : Type} (written : α → String) (declaration : α → Declaration) (l : List α) : Prop :=
  (∀ a ∈ l, ∀ b ∈ l, written a = written b ↔
    SnakeCase.words (declaration a).fullName = SnakeCase.words (declaration b).fullName) ∧
  ((l.map written).Nodup ↔ (l.map fun a => SnakeCase.words (declaration a).fullName).Nodup)

theorem toldByWords_of_typeName {α : Type} {written : α → String} {declaration : α → Declaration}
    (h : ∀ a b, written a = written b ↔ (declaration a).typeName = (declaration b).typeName) (l : List α) :
    ToldByWords written declaration l := by
  have hwords : ∀ a b, written a = written b ↔
      SnakeCase.words (declaration a).fullName = SnakeCase.words (declaration b).fullName :=
    fun a b => (h a b).trans SnakeCase.snakeCase_eq_iff
  refine ⟨fun a _ b _ => hwords a b, ?_⟩
  rw [List.Nodup, List.Nodup, List.pairwise_map, List.pairwise_map]
  simp only [ne_eq, hwords]

/-- atoms between the same texts are told apart by their names -/
theorem quoted_eq_iff {before after a b : String} :
    before ++ Atom.quote a ++ after = before ++ Atom.quote b ++ after ↔ a = b := by
  rw [String.append_left_inj, String.append_right_inj]
  exact Atom.quote_injective.eq_iff

/-! ## Outputs -/

/-- the outputs of the package are made of these definitions: of a record for each message, and of a type for each
declaration -/
structure Package.WrittenAs (p : Package) (records : List Header.Definition)
    (enums messages : List TypeModule.Definition) : Prop where
  outputs : p.outputs =
    .ok [⟨p.headerPath, p.headerWith records⟩, ⟨p.modulePath, p.typeModuleWith enums messages⟩]
  records : records.map (·.declaration) = p.messages.map (·.toDeclaration)
  types : (enums ++ messages).map (·.declaration) = p.declarations

theorem Header.declarations_of_defined {home : String} {messages : List MessageDecl} {records : List Header.Definition}
    (h : List.Forall₂ (Header.Defined home) messages records) :
    records.map (·.declaration) = messages.map (·.toDeclaration) := by
  induction h with
  | nil => rfl
  | cons hd _ ih => rw [List.map_cons, List.map_cons, hd.declaration, ih]

theorem exists_writtenAs {names : List String} {files : List Descriptor.File} {request : ResolvedRequest}
    (h : ResolvedRequest.ofBatch names files = .ok request) :
    ∃ records enums messages, request.package.WrittenAs records enums messages := by
  obtain ⟨text, hheader⟩ := header_of_ofBatch h request.target
  obtain ⟨records, hrecords, rfl⟩ := Package.header_eq_ok_iff.1 hheader
  refine ⟨records, request.package.enumDefinitions, request.package.messageDefinitions, ?_,
    Header.declarations_of_defined hrecords, request.package.definitions_declaration⟩
  rw [← Package.typeModule_eq, Package.outputs, ResolvedRequest.package, hheader]
  rfl

/-- **When type names coincide.** The declarations of a request's package have distinct full names. Two of them get the
same type name exactly when their full names consist of the same words; so all type names are distinct exactly when no
two full names do. The same is so of the record definitions in the header, which are those of the messages, and of the
entries in export lists and the type definitions in the type module, which are those of all declarations. -/
theorem typeName_eq_iff_words {names : List String} {files : List Descriptor.File} {request : ResolvedRequest}
    (h : ResolvedRequest.ofBatch names files = .ok request) :
    (request.package.declarations.map (·.fullName)).Nodup ∧
      (∀ d ∈ request.package.declarations, ∀ d' ∈ request.package.declarations,
        d.typeName = d'.typeName ↔ SnakeCase.words d.fullName = SnakeCase.words d'.fullName) ∧
      ((request.package.declarations.map (·.typeName)).Nodup ↔
        (request.package.declarations.map fun d => SnakeCase.words d.fullName).Nodup) ∧
      ∃ records enums messages, request.package.WrittenAs records enums messages ∧
        ToldByWords Header.Definition.head (·.declaration) records ∧
        ToldByWords TypeModule.Definition.entry (·.declaration) (enums ++ messages) ∧
        ToldByWords TypeModule.Definition.head (·.declaration) (enums ++ messages) := by
  obtain ⟨_, declared, hdeclared, hresolve⟩ := ofBatch_eq_ok_iff.1 h
  obtain ⟨records, enums, messages, hwritten⟩ := exists_writtenAs h
  have htypes : ToldByWords Declaration.typeName id request.package.declarations :=
    toldByWords_of_typeName (fun _ _ => Iff.rfl) _
  obtain ⟨hpairs, hnodup⟩ := htypes
  refine ⟨fullNames_nodup request.target (nodup_of_resolve hdeclared hresolve), hpairs, hnodup, records, enums,
    messages, hwritten, ?_, ?_, ?_⟩
  · exact toldByWords_of_typeName (fun _ _ => quoted_eq_iff) records
  · exact toldByWords_of_typeName (fun _ _ => quoted_eq_iff) (enums ++ messages)
  · exact toldByWords_of_typeName (fun _ _ => quoted_eq_iff) (enums ++ messages)

theorem typeName_eq_iff_words_sample : ∃ request,
    ResolvedRequest.ofBatch ["shop/order.proto"] sampleFiles = .ok request ∧
      (request.package.declarations.map (·.fullName)).Nodup ∧ (request.package.declarations.map (·.typeName)).Nodup ∧
      request.package.declarations.map (·.typeName) =
        ["order_state", "order_line_unit", "refund_reason", "order", "order_line", "order_note", "refund"] ∧
      ∃ records enums messages, request.package.WrittenAs records enums messages ∧
        ((enums ++ messages).map (·.entry)).Nodup := by
  obtain ⟨request, h, hwords, htypes⟩ := exists_ok_of_check
    (x := ResolvedRequest.ofBatch ["shop/order.proto"] sampleFiles)
    (P := fun request => (request.package.declarations.map fun d => SnakeCase.words d.fullName).Nodup ∧
      request.package.declarations.map (·.typeName) =
        ["order_state", "order_line_unit", "refund_reason", "order", "order_line", "order_note", "refund"])
    (by decide +kernel)
  obtain ⟨hfull, _, hiff, records, enums, messages, hwritten, _, hentries, _⟩ := typeName_eq_iff_words h
  have hsame := congrArg (List.map fun d => SnakeCase.words d.fullName) hwritten.types
  rw [List.map_map] at hsame
  exact ⟨request, h, hfull, hiff.2 hwords, htypes, records, enums, messages, hwritten,
    hentries.2.2 (hsame ▸ hwords)⟩

/-- three ways to write the same words -/
def foldedFiles : List Descriptor.File := [
  { name := "p/a.proto"
    package := "p"
    messages := [{ name := "Foo", nested := [{ name := "Bar" }] }, { name := "FooBar" }]
    enums := [{ name := "foo_bar", values := [⟨"ZERO", 0⟩] }] }]

/-- **Distinct declarations may share a type name**: a request that passes all checks can still name two records, and an
enum, the same. Its header defines one record twice, and its type module one type three times. -/
theorem typeNames_not_distinct :
    (∃ request, ResolvedRequest.ofBatch ["p/a.proto"] foldedFiles = .ok request ∧
      request.package.declarations.map (·.fullName) = ["foo_bar", "Foo", "Foo.Bar", "FooBar"] ∧
      request.package.enums.map (·.typeName) = ["foo_bar"] ∧
      request.package.messages.map (·.typeName) = ["foo", "foo_bar", "foo_bar"] ∧
      ¬(request.package.declarations.map (·.typeName)).Nodup) ∧
    ∃ out, outputsFor ["p/a.proto"] foldedFiles = .ok out ∧ out.map (·.content) = [
      "%%% Generated from protobuf package p.\n%%% DO NOT EDIT.\n\n" ++
        "%% Generated for message type Foo.\n-record(foo, \x7b\x7d).\n\n" ++
        "%% Generated for message type Foo.Bar.\n-record(foo_bar, \x7b\x7d).\n\n" ++
        "%% Generated for message type FooBar.\n-record(foo_bar, \x7b\x7d).\n",
      "%%% Generated from protobuf package p.\n%%% DO NOT EDIT.\n\n-module(p).\n\n-include(\"p.hrl\").\n\n" ++
        "-export_type([\n  foo_bar/0\n]).\n\n-export_type([\n  foo/0,\n  foo_bar/0,\n  foo_bar/0\n]).\n\n" ++
        "%% Generated for enum type foo_bar.\n-type foo_bar() :: zero.\n\n" ++
        "%% Generated for message type Foo.\n-type foo() :: #foo\x7b\x7d.\n\n" ++
        "%% Generated for message type Foo.Bar.\n-type foo_bar() :: #foo_bar\x7b\x7d.\n\n" ++
        "%% Generated for message type FooBar.\n-type foo_bar() :: #foo_bar\x7b\x7d.\n"] := by
  constructor
  · apply exists_ok_of_check
    decide +kernel
  · apply exists_ok_of_check
    decide +kernel

end ErlangRecords
