/-
Files without a package.

A file need not say of which package it is, as long as it is not asked for: the module that is generated has its name
from the package. Other files may refer to what it declares all the same. Their package differs from its own, so the
reference is written with a module, and the module of no package is the empty atom.

- `askable_iff`, `generated_iff`: which packages one can ask for.
- `empty_module_iff`: which lines of a header name the empty module.
- `modules_generated_unless_empty`: every other module that a header names can be generated.
- `empty_module_written`: a header that names the empty one.
-/
import ErlangRecords.Proofs.References
import ErlangRecords.Proofs.Refusals
import ErlangRecords.Proofs.Renderable

namespace ErlangRecords

/-! ## Empty names -/

namespace SnakeCase

theorem write_ne_nil (before : Option Char) (c : Char) (after : Option Char) : write before c after ≠ [] := by
  unfold write
  split
  · split <;> simp
  · simp

theorem convert_eq_nil_iff {before : Option Char} {cs : List Char} : convert before cs = [] ↔ cs = [] := by
  cases cs with
  | nil => simp [convert]
  | cons c rest => simp [convert, write_ne_nil]

/-- only the empty name gives an empty identifier -/
theorem snakeCase_eq_empty_iff {name : String} : snakeCase name = "" ↔ name = "" := by
  rw [snakeCase, String.ofList_eq_empty_iff, convert_eq_nil_iff, List.map_eq_nil_iff, String.toList_eq_nil_iff]

end SnakeCase

/-! ## Packages to ask for -/

/-- some files share the package, and can be asked for at once -/
def Askable (package : String) : Prop :=
  ∃ inputs target, Request.commonTarget inputs = .ok target ∧ target.package = package

/-- some request for files of the package has outputs -/
def Generated (package : String) : Prop :=
  ∃ (request : Request) (resolved : ResolvedRequest) (out : List OutputFile),
    ResolvedRequest.ofBatch request.filesToGenerate request.files = .ok resolved ∧
      resolved.target.package = package ∧ request.outputs = .ok out

/-- a request for a file that declares nothing -/
def bareRequest (package : String) : Request where
  filesToGenerate := ["bare.proto"]
  files := [{ name := "bare.proto", package }]

theorem ofBatch_bareRequest {package : String} (h : package ≠ "") :
    ResolvedRequest.ofBatch (bareRequest package).filesToGenerate (bareRequest package).files =
      .ok ⟨⟨package, directoryOf "bare.proto"⟩, {}⟩ := by
  have hselected : Request.selectFiles (bareRequest package).filesToGenerate (bareRequest package).files =
      .ok (bareRequest package).files := by
    simp [Request.selectFiles, bareRequest, bind, Except.bind, pure, Except.pure]
  have htarget : Request.commonTarget (bareRequest package).files = .ok ⟨package, directoryOf "bare.proto"⟩ := by
    simp [Request.commonTarget, bareRequest, h, bind, Except.bind, pure, Except.pure]
  have hplain : ∀ file ∈ (bareRequest package).files, file.Plain := Request.plain_iff.2 ⟨rfl, rfl⟩
  exact ofBatch_eq_ok_iff.2 ⟨Request.validate_eq_ok_iff.2 ⟨_, hselected, htarget, hplain⟩, {}, rfl, rfl⟩

theorem generated_of_ne_empty {package : String} (h : package ≠ "") : Generated package := by
  have hbatch := ofBatch_bareRequest h
  obtain ⟨header, hout⟩ := outputsFor_of_ok hbatch
  exact ⟨bareRequest package, _, _, hbatch, rfl, outputs_eq_ok_iff.2 ⟨⟨_, rfl⟩, hout⟩⟩

theorem Generated.askable {package : String} (h : Generated package) : Askable package := by
  obtain ⟨request, resolved, out, hbatch, hpackage, -⟩ := h
  obtain ⟨inputs, -, htarget, -⟩ := Request.validate_eq_ok_iff.1 (ofBatch_eq_ok_iff.1 hbatch).1
  exact ⟨inputs, resolved.target, htarget, hpackage⟩

/-- **Which packages one can ask for**: those with a name. -/
theorem askable_iff {package : String} : Askable package ↔ package ≠ "" := by
  constructor
  · rintro ⟨inputs, target, htarget, rfl⟩
    exact (Request.commonTarget_eq_ok_iff.1 htarget).2.2
  · intro h
    exact Generated.askable (generated_of_ne_empty h)

/-- each of them is generated for some request -/
theorem generated_iff {package : String} : Generated package ↔ package ≠ "" :=
  ⟨fun h => askable_iff.1 h.askable, generated_of_ne_empty⟩

/-! ## References to files without a package -/

theorem mem_fields_of_held {m : MessageDecl} {slot : RecordSlot} (hslot : slot ∈ m.slots) {f : FieldDecl}
    (hf : f ∈ m.scope slot) : f ∈ m.fields := by
  rcases MessageDecl.mem_slots hslot with ⟨g, hg, rfl⟩ | ⟨o, _, rfl⟩
  · exact List.mem_singleton.1 hf ▸ hg
  · obtain ⟨position, _, hat⟩ := List.mem_filterMap.1 hf
    exact List.mem_of_getElem? hat

/-- the user types of a value that a slot holds are among those of the slot -/
theorem mem_userTypes_of_held {schema : Schema} {m : MessageDecl} (h : m.Typed schema) {slot : RecordSlot}
    (hslot : slot ∈ m.slots) {type : TypeExpr} {default : Literal} (htyping : slot.typing = some (type, default))
    {f : FieldDecl} (hf : f ∈ m.scope slot) {v : FieldValue} (hv : f.value schema m.package = .ok v)
    {user : Option String × String} (huser : user ∈ v.type.userTypes) : user ∈ type.userTypes := by
  obtain ⟨w, hw, _, hfield⟩ := h.field f (mem_fields_of_held hslot hf)
  cases hv.symm.trans hw
  rcases MessageDecl.mem_slots hslot with ⟨g, _, rfl⟩ | ⟨o, ho, rfl⟩
  · cases List.mem_singleton.1 hf
    simp only [RecordSlot.typing, hfield, Option.map_some, Option.some.injEq, Prod.mk.injEq] at htyping
    rw [← htyping.1, userTypes_typingOf]
    exact huser
  · obtain ⟨alternatives, hall, heq⟩ := h.oneof o ho
    simp only [RecordSlot.typing, heq, Option.map_some, Option.some.injEq, Prod.mk.injEq] at htyping
    obtain ⟨position, hposition, hat⟩ := List.mem_filterMap.1 hf
    obtain ⟨_, halternative, f', typing, hat', htyping', rfl⟩ := mem_right_of_forall₂ hall.flip hposition
    cases hat.symm.trans hat'
    cases hfield.symm.trans htyping'
    rw [← htyping.1, TypeExpr.userTypes, TypeExpr.userTypesOfAll_eq_flatMap, List.flatMap_cons]
    refine List.mem_append_right _ (List.mem_flatMap.2 ⟨_, halternative, ?_⟩)
    rwa [TypeExpr.userTypes, typingOf_valueType]

/-- the value of a field is a reference to the declaration to which the field refers -/
theorem RefersTo.value_type {files : List Descriptor.File} {schema : Schema} (h : ResolvedFrom files schema)
    {target : Target} {f : FieldDecl} {d : Declaration} (hrefers : RefersTo (schema.package target) f d) {home : String}
    {v : FieldValue} (hv : f.value schema home = .ok v) : d.package = target.package ∧ v.type = d.reference home := by
  cases hrefers with
  | @enum e hkind he hname =>
    obtain ⟨hin, hpackage⟩ := Schema.mem_package_enums.1 he
    obtain ⟨position, e', first, hfind, _, rfl⟩ := (FieldDecl.value_enum_eq_ok_iff hkind).1 hv
    obtain ⟨hfound, he'⟩ := Schema.enum?_eq_some_iff.1 hfind
    obtain ⟨i, hi⟩ := List.getElem?_of_mem hin
    -- one name denotes one position, so this is the enum that was found
    have hindexed := (h.enum_indexed f.typeName i).2 ⟨e, hi, hname⟩
    cases hfound.symm.trans hindexed
    cases hi.symm.trans he'
    exact ⟨hpackage, rfl⟩
  | @message m hkind hm hname =>
    obtain ⟨hin, hpackage⟩ := Schema.mem_package_messages.1 hm
    obtain ⟨position, m', hfind, rfl⟩ := (FieldDecl.value_message_eq_ok_iff hkind).1 hv
    obtain ⟨hfound, hm'⟩ := Schema.message?_eq_some_iff.1 hfind
    obtain ⟨i, hi⟩ := List.getElem?_of_mem hin
    have hindexed := (h.message_indexed f.typeName i).2 ⟨m, hi, hname⟩
    cases hfound.symm.trans hindexed
    cases hi.symm.trans hm'
    exact ⟨hpackage, rfl⟩

/-- the user type is that of the declaration `d`; the module before it is empty exactly when `d` has no package, and
otherwise, and only then, it is that of a package one can ask for and generate -/
structure LeadsTo (request : ResolvedRequest) (f : FieldDecl) (user : Option String × String) (d : Declaration) :
    Prop where
  offered : Offered request f user d
  empty : user.1 = some "" ↔ d.package = ""
  askable : user.1 ≠ some "" ↔ Askable d.package
  generated : user.1 ≠ some "" ↔ Generated d.package

theorem leadsTo_of_offered {request : ResolvedRequest} {f : FieldDecl} {user : Option String × String}
    {d : Declaration} (h : Offered request f user d) : LeadsTo request f user d := by
  have hempty : user.1 = some "" ↔ d.package = "" := by
    rw [h.named, Option.some.injEq]
    exact SnakeCase.snakeCase_eq_empty_iff
  exact ⟨h, hempty, (not_congr hempty).trans askable_iff.symm, (not_congr hempty).trans generated_iff.symm⟩

/-- the field refers to a declaration of a file without a package -/
def RefersToNameless (schema : Schema) (f : FieldDecl) : Prop :=
  ∃ d directory, RefersTo (schema.package ⟨"", directory⟩) f d

/-- where all files have a package, no field does -/
theorem not_refersToNameless {schema : Schema} (henums : ∀ e ∈ schema.enums, e.package ≠ "")
    (hmessages : ∀ m ∈ schema.messages, m.package ≠ "") (f : FieldDecl) : ¬RefersToNameless schema f := by
  rintro ⟨d, directory, hrefers⟩
  cases hrefers with
  | @enum e _ he _ =>
    obtain ⟨hin, hpackage⟩ := Schema.mem_package_enums.1 he
    exact henums e hin hpackage
  | @message m _ hm _ =>
    obtain ⟨hin, hpackage⟩ := Schema.mem_package_messages.1 hm
    exact hmessages m hin hpackage

/-- the line is written with an empty module exactly when the slot holds a field that refers to a declaration without a
package -/
theorem empty_module_iff {files : List Descriptor.File} {request : ResolvedRequest}
    (h : ResolvedFrom files request.schema) (hnamed : request.target.package ≠ "") {m : MessageDecl}
    (hm : m ∈ request.package.messages) {slot : RecordSlot} (hslot : slot ∈ m.slots) {line : Header.Line}
    (hline : Header.line? request.package.moduleName slot = some line) :
    (∃ user ∈ line.type.userTypes, user.1 = some "") ↔ ∃ f ∈ m.scope slot, RefersToNameless request.schema f := by
  constructor
  · rintro ⟨user, huser, hempty⟩
    obtain ⟨f, hf, d, hd⟩ := offered_of_line h hm hslot hline huser
    have hpackage : d.package = "" := (leadsTo_of_offered hd).empty.1 hempty
    exact ⟨f, hf, d, ".", hpackage ▸ hd.refers "."⟩
  · rintro ⟨f, hf, d, directory, hrefers⟩
    obtain ⟨hin, hpackage⟩ := Schema.mem_package_messages.1 hm
    obtain ⟨⟨type, default⟩, htyping, rfl⟩ := Option.map_eq_some_iff.1 hline
    obtain ⟨v, hv, _⟩ := (h.typed m hin).field f (mem_fields_of_held hslot hf)
    obtain ⟨hnameless, htype⟩ := hrefers.value_type h hv
    have hforeign : d.package ≠ m.package := by
      rw [hnameless, hpackage]
      exact hnamed.symm
    have huser : (some d.moduleName, d.typeName) ∈ v.type.userTypes := by
      rw [htype, Declaration.reference, if_neg hforeign]
      exact List.mem_singleton_self _
    have hempty : d.moduleName = "" := SnakeCase.snakeCase_eq_empty_iff.2 hnameless
    refine ⟨(some d.moduleName, d.typeName), ?_, congrArg some hempty⟩
    rw [TypeExpr.userTypes_qualify]
    exact List.mem_map.2 ⟨_, mem_userTypes_of_held (h.typed m hin) hslot htyping hf hv huser, rfl⟩

/-! ## The header -/

/-- every user type in a line of the definition leads to the declaration of a field, and is written with an empty module
only where it must -/
structure LeadsToIn (request : ResolvedRequest) (m : MessageDecl) (d : Header.Definition) : Prop where
  declaration : d.declaration = m.toDeclaration
  lines : List.Forall₂ (fun slot line =>
    (∀ user ∈ line.type.userTypes, ∃ f ∈ m.scope slot, ∃ d, LeadsTo request f user d) ∧
      ((∃ user ∈ line.type.userTypes, user.1 = some "") ↔ ∃ f ∈ m.scope slot, RefersToNameless request.schema f))
    m.slots d.lines

/-- the module before the user type is that of a package some request generates -/
def OfGenerated (user : Option String × String) : Prop :=
  ∃ package, user.1 = some (moduleName package) ∧ Generated package

theorem LeadsTo.ofGenerated_iff {request : ResolvedRequest} {f : FieldDecl} {user : Option String × String}
    {d : Declaration} (h : LeadsTo request f user d) : OfGenerated user ↔ user.1 ≠ some "" := by
  constructor
  · rintro ⟨package, hmodule, hgenerated⟩ hempty
    have hpackage : package = "" := SnakeCase.snakeCase_eq_empty_iff.1 (Option.some.inj (hmodule.symm.trans hempty))
    exact generated_iff.1 hgenerated hpackage
  · intro hne
    exact ⟨d.package, congrArg Prod.fst h.offered.named, h.generated.1 hne⟩

theorem leadsToIn_of_defined {files : List Descriptor.File} {request : ResolvedRequest}
    (h : ResolvedFrom files request.schema) (hnamed : request.target.package ≠ "") {m : MessageDecl}
    (hm : m ∈ request.package.messages) {d : Header.Definition} (hd : Header.Defined request.package.moduleName m d) :
    LeadsToIn request m d := by
  refine ⟨hd.declaration, ((List.forall₂_and_left _ _).2 ⟨fun slot hslot => hslot, hd.lines⟩).imp ?_⟩
  intro slot line ⟨hslot, hline⟩
  refine ⟨fun user huser => ?_, empty_module_iff h hnamed hm hslot hline⟩
  obtain ⟨f, hf, d, hd⟩ := offered_of_line h hm hslot hline huser
  exact ⟨f, hf, d, leadsTo_of_offered hd⟩

/-- the lines of the definition name generated modules only, unless a slot holds a field that rules it out -/
theorem LeadsToIn.ofGenerated_iff {request : ResolvedRequest} {m : MessageDecl} {d : Header.Definition}
    (h : LeadsToIn request m d) :
    (∀ line ∈ d.lines, ∀ user ∈ line.type.userTypes, OfGenerated user) ↔
      ∀ slot ∈ m.slots, ∀ f ∈ m.scope slot, ¬RefersToNameless request.schema f := by
  constructor
  · intro hall slot hslot f hf hnameless
    obtain ⟨line, hline, hleads, hempty⟩ := mem_right_of_forall₂ h.lines.flip hslot
    obtain ⟨user, huser, hmodule⟩ := hempty.2 ⟨f, hf, hnameless⟩
    obtain ⟨_, _, _, hd⟩ := hleads user huser
    exact hd.ofGenerated_iff.1 (hall line hline user huser) hmodule
  · intro hnone line hline user huser
    obtain ⟨slot, hslot, hleads, hempty⟩ := mem_right_of_forall₂ h.lines hline
    obtain ⟨_, _, _, hd⟩ := hleads user huser
    refine hd.ofGenerated_iff.2 fun hmodule => ?_
    obtain ⟨f, hf, hnameless⟩ := hempty.1 ⟨user, huser, hmodule⟩
    exact hnone slot hslot f hf hnameless

/-- **Modules named in a header.** When a request has outputs, the header is a sequence of record definitions in which
every user type is that of a declaration to which a field in its slot refers. A declaration of a file with a package is
written with a module that is not empty and that some request generates; one of a file without a package is written with
the empty module, which no request can ask for. So every module named is one that can be generated exactly when no field
in a slot refers to a declaration without a package. -/
theorem modules_generated_unless_empty {request : Request} {out : List OutputFile} (h : request.outputs = .ok out) :
    ∃ resolved definitions, ResolvedRequest.ofBatch request.filesToGenerate request.files = .ok resolved ∧
      out = [⟨resolved.package.headerPath, resolved.package.headerWith definitions⟩,
        ⟨resolved.package.modulePath, resolved.package.typeModule⟩] ∧
      List.Forall₂ (LeadsToIn resolved) resolved.package.messages definitions ∧
      ((∀ d ∈ definitions, ∀ line ∈ d.lines, ∀ user ∈ line.type.userTypes, OfGenerated user) ↔
        ∀ m ∈ resolved.package.messages, ∀ slot ∈ m.slots, ∀ f ∈ m.scope slot,
          ¬RefersToNameless resolved.schema f) := by
  obtain ⟨resolved, definitions, hbatch, hfrom, hdefinitions, hout⟩ := exists_definitions_of_outputs h
  obtain ⟨_, _, htarget, _⟩ := Request.validate_eq_ok_iff.1 (ofBatch_eq_ok_iff.1 hbatch).1
  have hleads : List.Forall₂ (LeadsToIn resolved) resolved.package.messages definitions :=
    hdefinitions.imp fun m d hd => leadsToIn_of_defined hfrom (Request.commonTarget_eq_ok_iff.1 htarget).2.2 hd.1 hd.2
  refine ⟨resolved, definitions, hbatch, hout, hleads, ?_, ?_⟩
  · intro hall m hm
    obtain ⟨d, hd, hin⟩ := mem_right_of_forall₂ hleads.flip hm
    exact hin.ofGenerated_iff.1 (hall d hd)
  · intro hnone d hd
    obtain ⟨m, hm, hin⟩ := mem_right_of_forall₂ hleads hd
    exact hin.ofGenerated_iff.2 (hnone m hm)

theorem modules_generated_unless_empty_sample : ∃ out resolved definitions, sampleRequest.outputs = .ok out ∧
    ResolvedRequest.ofBatch sampleRequest.filesToGenerate sampleRequest.files = .ok resolved ∧
    writtenUserTypes resolved.package = sampleUserTypes ∧
    out = [⟨resolved.package.headerPath, resolved.package.headerWith definitions⟩,
      ⟨resolved.package.modulePath, resolved.package.typeModule⟩] ∧
    ∀ d ∈ definitions, ∀ line ∈ d.lines, ∀ user ∈ line.type.userTypes, OfGenerated user := by
  obtain ⟨out, h, _⟩ := exists_ok_of_check (x := sampleRequest.outputs) (P := fun _ => True) (by decide +kernel)
  obtain ⟨checked, hchecked, htypes, henums, hmessages⟩ := exists_ok_of_check
    (x := ResolvedRequest.ofBatch sampleRequest.filesToGenerate sampleRequest.files)
    (P := fun resolved => writtenUserTypes resolved.package = sampleUserTypes ∧
      (∀ e ∈ resolved.schema.enums, e.package ≠ "") ∧ ∀ m ∈ resolved.schema.messages, m.package ≠ "")
    (by decide +kernel)
  obtain ⟨resolved, definitions, hbatch, hout, _, hgenerated⟩ := modules_generated_unless_empty h
  cases hchecked.symm.trans hbatch
  refine ⟨out, _, definitions, h, hbatch, htypes, hout, hgenerated.2 fun m _ slot _ f _ => ?_⟩
  exact not_refersToNameless henums hmessages f

/-- a user of a package refers to a thing of none -/
def namelessRequest : Request where
  filesToGenerate := ["p/user.proto"]
  files := [
    { name := "p/user.proto"
      package := "p"
      messages := [{
        name := "User"
        fields := [{ name := "thing", number := 1, label := some 1, type := some 11, typeName := ".Thing" }] }] },
    { name := "root.proto", messages := [{ name := "Thing" }] }]

/-- **A header may name the empty module**, which is that of no package one can ask for. -/
theorem empty_module_written :
    (∃ out, namelessRequest.outputs = .ok out ∧ out[0]? = some ⟨"p/p.hrl",
      "%%% Generated from protobuf package p.\n%%% DO NOT EDIT.\n\n%% Generated for message type User.\n" ++
        "-record(user, \x7b\n  thing = undefined :: undefined | '':thing()\n\x7d).\n"⟩) ∧
      ∀ package, moduleName package = "" → ¬Askable package := by
  constructor
  · apply exists_ok_of_check
    decide +kernel
  · intro package hmodule haskable
    exact askable_iff.1 haskable (SnakeCase.snakeCase_eq_empty_iff.1 hmodule)

end ErlangRecords
