/-
Headers can be read back: the text of a header determines the package and its records.

All names in code are quoted as atoms; only the package and the full names of messages stand in comments. Where they are
made of identifiers, they hold no line break, and the reader of `ErlangRecords.Proofs.HeaderReading` applies.

- `Request.Named`: the names of a request are identifiers.
- `Package.contents?`: what the header of a package should say.
- `isSlotType_of_typed`: the types of slots are among those that are read.
- `read_header`: a header is read as what it should say.
- `header_read_back`: so two requests with one header have the same package and records.
-/
import ErlangRecords.Proofs.HeaderReading
import ErlangRecords.Proofs.Layout
import ErlangRecords.Proofs.Refusals

namespace ErlangRecords

open Descriptor (File)

/-! ## Names -/

/-- an identifier of the schema language: an ASCII letter or underscore, then also digits -/
def isIdentifier : List Char → Bool
  | [] => false
  | c :: rest => (c.isAlpha || c = '_') && rest.all fun d => d.isAlphanum || d = '_'

/-- packages are made of identifiers, and the names of messages are identifiers, at every depth -/
structure Request.Named (request : Request) : Prop where
  package : ∀ file ∈ request.files, file.package = "" ∨
    ∀ component ∈ Text.splitOn '.' file.package.toList, isIdentifier component = true
  message : ∀ file ∈ request.files, ∀ m, file.Declares m → isIdentifier m.name.toList = true

theorem break_not_mem_of_isIdentifier {name : List Char} (h : isIdentifier name = true) : '\n' ∉ name := by
  intro hbreak
  cases name with
  | nil => cases hbreak
  | cons c rest =>
    simp only [isIdentifier, Bool.and_eq_true, List.all_eq_true] at h
    rcases List.mem_cons.1 hbreak with rfl | hrest
    · exact absurd h.1 (by decide)
    · exact absurd (h.2 _ hrest) (by decide)

theorem mem_intercalate {α : Type} {a : α} {separator : List α} {parts : List (List α)}
    (h : a ∈ separator.intercalate parts) : a ∈ separator ∨ ∃ part ∈ parts, a ∈ part := by
  induction parts with
  | nil => cases h
  | cons first others ih =>
    cases others with
    | nil => exact Or.inr ⟨first, List.mem_cons_self, by simpa using h⟩
    | cons second others =>
      rw [List.intercalate_cons_cons, List.mem_append, List.mem_append] at h
      rcases h with (hfirst | hseparator) | hothers
      · exact Or.inr ⟨first, List.mem_cons_self, hfirst⟩
      · exact Or.inl hseparator
      · rcases ih hothers with hseparator | ⟨part, hpart, hin⟩
        · exact Or.inl hseparator
        · exact Or.inr ⟨part, List.mem_cons_of_mem _ hpart, hin⟩

/-- identifiers with dots between them make no line break -/
theorem break_not_mem_intercalate {parts : List (List Char)} (h : ∀ part ∈ parts, isIdentifier part = true) :
    '\n' ∉ ['.'].intercalate parts := by
  intro hbreak
  rcases mem_intercalate hbreak with hdot | ⟨part, hpart, hin⟩
  · exact absurd hdot (by decide)
  · exact break_not_mem_of_isIdentifier (h part hpart) hin

theorem Request.Named.break_not_mem_package {request : Request} (h : request.Named) {file : File}
    (hfile : file ∈ request.files) : '\n' ∉ file.package.toList := by
  rcases h.package file hfile with hempty | hcomponents
  · rw [hempty]
    exact List.not_mem_nil
  · rw [← Text.intercalate_splitOn '.' file.package.toList]
    exact break_not_mem_intercalate hcomponents

/-- every name on the path of a listed message is that of a declared one -/
theorem exists_declares_of_mem_path {files : List File} {i : Nat} {e : Place × Descriptor.Message}
    (he : (batchMessages files)[i]? = some e) {name : String} (hname : name ∈ e.1.path) :
    ∃ file ∈ files, ∃ m, file.Declares m ∧ m.name = name := by
  -- the message around one is listed before it, and the rest of the path is the path of that message
  induction i using Nat.strong_induction_on generalizing e with
  | _ i ih =>
    obtain ⟨file, hfile, hdeclares⟩ := mem_batchMessages_iff.1 ⟨e.1, List.mem_of_getElem? he⟩
    rcases batchMessages_stands he with ⟨number, top, _, k, _, hplace⟩ | ⟨j, around, hj, haround, k, _, hplace⟩
    · rw [hplace] at hname
      rw [List.mem_singleton.1 hname]
      exact ⟨file, hfile, e.2, hdeclares, rfl⟩
    · rw [hplace] at hname
      rcases List.mem_cons.1 hname with rfl | hname
      · exact ⟨file, hfile, e.2, hdeclares, rfl⟩
      · exact ih j hj haround hname

theorem Request.Named.break_not_mem_fullName {request : Request} (h : request.Named) {resolved : Schema}
    (hfrom : ResolvedFrom request.files resolved) {m : MessageDecl} (hm : m ∈ resolved.messages) :
    '\n' ∉ m.fullName.toList := by
  obtain ⟨i, hm⟩ := List.getElem?_of_mem hm
  obtain ⟨e, he, _, hname⟩ := hfrom.listed hm
  have hdot : ".".toList = ['.'] := rfl
  rw [hname, Name.dotted, String.toList_intercalate, hdot]
  apply break_not_mem_intercalate
  intro part hpart
  obtain ⟨name, hin, rfl⟩ := List.mem_map.1 hpart
  obtain ⟨file, hfile, d, hdeclares, rfl⟩ := exists_declares_of_mem_path he (List.mem_reverse.1 hin)
  exact h.message file hfile d hdeclares

/-! ## The types of slots -/

theorem isValue_of_value {schema : Schema} {package : String} {f : FieldDecl} {v : FieldValue}
    (hv : f.value schema package = .ok v) : v.type.IsValue := by
  by_cases henum : f.kind = .enum
  · obtain ⟨_, e, _, _, _, rfl⟩ := (FieldDecl.value_enum_eq_ok_iff henum).1 hv
    exact .named _ e.typeName
  · by_cases hmessage : f.kind = .message
    · obtain ⟨_, m, _, rfl⟩ := (FieldDecl.value_message_eq_ok_iff hmessage).1 hv
      exact .named _ m.typeName
    · cases scalarValue_of_value henum hmessage hv with
      | boolean => exact .boolean
      | float => exact .float
      | signed bits => exact .range _ _
      | unsigned bits => exact .range _ _
      | iodata => exact .iodata

theorem isSlotType_typingOf (f : FieldDecl) {v : FieldValue} (h : v.type.IsValue) :
    (f.typingOf v).slotType.IsSlotType := by
  have hoptional : (TypeExpr.optional v.type).IsSlotType := by
    apply TypeExpr.IsSlotType.union
    intro t ht
    rw [List.mem_singleton.1 ht]
    exact .value h
  unfold FieldDecl.typingOf
  cases f.cardinality with
  | repeated => exact .list h
  | optional => exact hoptional
  | required =>
    dsimp only
    split
    · exact hoptional
    · exact .value h

/-- **The types of slots** in a resolved batch are of the sorts that can be read. -/
theorem isSlotType_of_typed {schema : Schema} {m : MessageDecl} (h : m.Typed schema) {slot : RecordSlot}
    (hslot : slot ∈ m.slots) {type : TypeExpr} {default : Literal} (htyping : slot.typing = some (type, default)) :
    type.IsSlotType := by
  rcases MessageDecl.mem_slots hslot with ⟨f, hf, rfl⟩ | ⟨o, ho, rfl⟩
  · obtain ⟨v, hv, _, heq⟩ := h.field f hf
    simp only [RecordSlot.typing, heq, Option.map_some, Option.some.injEq, Prod.mk.injEq] at htyping
    rw [← htyping.1]
    exact isSlotType_typingOf f (isValue_of_value hv)
  · obtain ⟨alternatives, hall, heq⟩ := h.oneof o ho
    simp only [RecordSlot.typing, heq, Option.map_some, Option.some.injEq, Prod.mk.injEq] at htyping
    rw [← htyping.1]
    apply TypeExpr.IsSlotType.union
    intro t ht
    obtain ⟨position, _, f, typing, hf, htyping, rfl⟩ := mem_right_of_forall₂ hall ht
    obtain ⟨v, hv, _, heq⟩ := h.field f (List.mem_of_getElem? hf)
    rw [htyping, Option.some.injEq] at heq
    subst heq
    rw [typingOf_valueType]
    exact .tagged f.name (isValue_of_value hv)

/-! ## What a header should say -/

namespace Header

/-- what a header of the module `home` says of a slot that is resolved -/
def entryOf? (home : String) (slot : RecordSlot) : Option Entry :=
  slot.typing.map fun (type, default) => ⟨slot.name, default.render, type.qualify home⟩

/-- what it says of a message whose slots are all resolved -/
def recordOf? (home : String) (m : MessageDecl) : Option Record :=
  (m.slots.mapM (entryOf? home)).map fun entries => ⟨m.fullName, m.typeName, entries⟩

variable {home : String} {m : MessageDecl} {d : Definition}

theorem recordOf?_of_defined (h : Defined home m d) : recordOf? home m = some d.contents := by
  have hentries : m.slots.mapM (entryOf? home) = some (d.lines.map Line.entry) := by
    rw [mapM_eq_some_iff, List.forall₂_map_right_iff]
    refine h.lines.imp fun slot line hline => ?_
    obtain ⟨typing, htyping, rfl⟩ := Option.map_eq_some_iff.1 hline
    rw [entryOf?, htyping]
    rfl
  rw [recordOf?, hentries, Definition.contents, h.declaration]
  rfl

theorem readable_of_defined {schema : Schema} (htyped : m.Typed schema) (hname : '\n' ∉ m.fullName.toList)
    (h : Defined home m d) : d.Readable := by
  constructor
  case fullName =>
    rw [h.declaration]
    exact hname
  case lines =>
    intro line hline
    obtain ⟨slot, hslot, hslotLine⟩ := (mem_iff_of_forall₂_some h.lines).1 hline
    obtain ⟨⟨type, default⟩, htyping, rfl⟩ := Option.map_eq_some_iff.1 hslotLine
    exact ⟨home, type, isSlotType_of_typed htyped hslot htyping, rfl⟩

end Header

/-- the package, and for each message in order the full name, the name of the record, and the name, default and type of
every slot; there is none if some slot is not resolved -/
def Package.contents? (p : Package) : Option Header.Contents :=
  (p.messages.mapM (Header.recordOf? p.moduleName)).map fun records => ⟨p.name, records⟩

/-! ## Headers of requests -/

/-- the package of a request is that of one of its files -/
theorem exists_file_of_target {names : List String} {files : List File} {target : Target}
    (h : Request.validate names files = .ok target) : ∃ file ∈ files, file.package = target.package := by
  obtain ⟨inputs, hinputs, htarget, _⟩ := Request.validate_eq_ok_iff.1 h
  cases inputs with
  | nil => cases htarget
  | cons first rest =>
    exact ⟨first, Request.mem_of_selectFiles hinputs List.mem_cons_self,
      Request.package_of_commonTarget htarget List.mem_cons_self⟩

/-- **A header is read as what it should say.** -/
theorem read_header {request : Request} (hnamed : request.Named) {path header : String} {module : OutputFile}
    (h : request.outputs = .ok [⟨path, header⟩, module]) :
    ∃ resolved contents, ResolvedRequest.ofBatch request.filesToGenerate request.files = .ok resolved ∧
      resolved.package.contents? = some contents ∧ Header.read header = some contents := by
  obtain ⟨resolved, definitions, hbatch, hfrom, hdefinitions, hout⟩ := exists_definitions_of_outputs h
  have hheader : header = resolved.package.headerWith definitions :=
    congrArg OutputFile.content (List.cons.inj hout).1
  have hpackage : '\n' ∉ resolved.package.name.toList := by
    obtain ⟨file, hfile, heq⟩ := exists_file_of_target (ofBatch_eq_ok_iff.1 hbatch).1
    have hname : resolved.package.name = file.package := heq.symm
    rw [hname]
    exact hnamed.break_not_mem_package hfile
  have hreadable : ∀ d ∈ definitions, d.Readable := by
    intro d hd
    obtain ⟨m, _, hm, hdefined⟩ := mem_right_of_forall₂ hdefinitions hd
    have hin : m ∈ resolved.schema.messages := (List.mem_filter.1 hm).1
    exact Header.readable_of_defined (hfrom.typed m hin) (hnamed.break_not_mem_fullName hfrom hin) hdefined
  have hrecords : resolved.package.messages.mapM (Header.recordOf? resolved.package.moduleName) =
      some (definitions.map Header.Definition.contents) := by
    rw [mapM_eq_some_iff, List.forall₂_map_right_iff]
    exact hdefinitions.imp fun m d hd => Header.recordOf?_of_defined hd.2
  refine ⟨resolved, ⟨resolved.package.name, definitions.map Header.Definition.contents⟩, hbatch, ?_, ?_⟩
  · rw [Package.contents?, hrecords]
    rfl
  · rw [hheader]
    exact read_headerWith hpackage hreadable

/-- **Headers can be read back.** Take two requests with outputs whose packages and messages are named by identifiers;
fields, oneofs and enum values may bear any names. If their headers are one text, they say the same: they have the same
package and the same records, one after the other, with the same full names, record names and slots, and each slot has
the same name, default and type. All of it is what `Header.read` reads in the text. -/
theorem header_read_back {request other : Request} {path path' header : String} {module module' : OutputFile}
    (h : request.outputs = .ok [⟨path, header⟩, module]) (h' : other.outputs = .ok [⟨path', header⟩, module'])
    (hnamed : request.Named) (hnamed' : other.Named) :
    ∃ resolved resolved' contents,
      ResolvedRequest.ofBatch request.filesToGenerate request.files = .ok resolved ∧
      ResolvedRequest.ofBatch other.filesToGenerate other.files = .ok resolved' ∧
      resolved.package.contents? = some contents ∧ resolved'.package.contents? = some contents ∧
      Header.read header = some contents := by
  obtain ⟨resolved, contents, hbatch, hcontents, hread⟩ := read_header hnamed h
  obtain ⟨resolved', contents', hbatch', hcontents', hread'⟩ := read_header hnamed' h'
  have hsame : contents = contents' := Option.some.inj (hread.symm.trans hread')
  subst hsame
  exact ⟨resolved, resolved', contents, hbatch, hbatch', hcontents, hcontents', hread⟩

/-- names are checked where the messages of a batch are listed -/
theorem named_of_listed {request : Request}
    (hpackage : ∀ file ∈ request.files, file.package = "" ∨
      ∀ component ∈ Text.splitOn '.' file.package.toList, isIdentifier component = true)
    (hmessage : ∀ e ∈ batchMessages request.files, isIdentifier e.2.name.toList = true) : request.Named := by
  refine ⟨hpackage, fun file hfile m hdeclares => ?_⟩
  obtain ⟨p, hp⟩ := mem_batchMessages_iff.2 ⟨file, hfile, hdeclares⟩
  exact hmessage (p, m) hp

/-- the sample request with its files in the other order -/
def swappedRequest : Request := { sampleRequest with files := sampleFiles.reverse }

theorem header_read_back_sample : ∃ path path' header module module' resolved resolved' contents,
    sampleRequest.outputs = .ok [⟨path, header⟩, module] ∧ swappedRequest.outputs = .ok [⟨path', header⟩, module'] ∧
    ResolvedRequest.ofBatch sampleRequest.filesToGenerate sampleRequest.files = .ok resolved ∧
    ResolvedRequest.ofBatch swappedRequest.filesToGenerate swappedRequest.files = .ok resolved' ∧
    resolved.package.contents? = some contents ∧ resolved'.package.contents? = some contents ∧
    Header.read header = some contents ∧ contents.package = "shop" ∧
    contents.records.map (fun r => (r.fullName, r.entries.map (·.name))) =
      [("Order", ["lines", "state", "payment"]), ("Order.Line", ["order", "unit"]), ("Order.Note", []),
        ("Refund", [])] := by
  obtain ⟨out, h, hother⟩ := exists_ok_of_check (x := sampleRequest.outputs)
    (P := fun out => (swappedRequest.outputs.toOption.any fun out' =>
      decide (out'.head?.map (·.content) = out.head?.map (·.content))) = true) (by decide +kernel)
  obtain ⟨out', h', hsame⟩ := exists_ok_of_check hother
  obtain ⟨checked, hchecked, hsays⟩ := exists_ok_of_check
    (x := ResolvedRequest.ofBatch sampleRequest.filesToGenerate sampleRequest.files)
    (P := fun resolved => resolved.package.contents?.map (fun contents =>
      (contents.package, contents.records.map fun r => (r.fullName, r.entries.map (·.name)))) =
        some ("shop", [("Order", ["lines", "state", "payment"]), ("Order.Line", ["order", "unit"]), ("Order.Note", []),
          ("Refund", [])])) (by decide +kernel)
  have hnamed : sampleRequest.Named := named_of_listed (by decide +kernel) (by decide +kernel)
  have hswapped : swappedRequest.Named := named_of_listed (by decide +kernel) (by decide +kernel)
  obtain ⟨_, _, _, _, _, rfl⟩ := exists_definitions_of_outputs h
  obtain ⟨_, _, _, _, _, rfl⟩ := exists_definitions_of_outputs h'
  have hheader := Option.some.inj hsame
  dsimp only at hheader
  rw [hheader] at h'
  obtain ⟨resolved, resolved', contents, hbatch, hbatch', hcontents, hcontents', hread⟩ :=
    header_read_back h h' hnamed hswapped
  have hresolved : checked = resolved := Except.ok.inj (hchecked.symm.trans hbatch)
  rw [hresolved, hcontents, Option.map_some, Option.some.injEq, Prod.mk.injEq] at hsays
  exact ⟨_, _, _, _, _, resolved, resolved', contents, h, h', hbatch, hbatch', hcontents, hcontents', hread, hsays⟩

end ErlangRecords
