/-
Generated text: what stands in a header and in a type module.

- `outputs_eq_ok_iff`: when a request has outputs, and which.
- `header_eq_ok_iff`: a header is a sequence of record definitions, one for each message, with a line for every slot.
- `exists_definitions_of_outputs`: the resolved batch and the record definitions behind the outputs of a request.
- `typeModule_eq`: a type module is a sequence of type definitions, one for each declaration, and exports them.
- `Exports`, `Defines`, `offered_of_mem`: the types that a text exports and defines; in a type module these are those of
  all declarations.
-/
import ErlangRecords.Generation
import ErlangRecords.Proofs.Typed

namespace ErlangRecords

/-! ## Texts in texts -/

/-- `part` stands somewhere in `whole` -/
def Occurs (part whole : String) : Prop := part.toList <:+: whole.toList

theorem occurs_refl (text : String) : Occurs text text := List.infix_refl _

theorem Occurs.append_right {part whole : String} (h : Occurs part whole) (after : String) :
    Occurs part (whole ++ after) := by
  rw [Occurs, String.toList_append]
  exact h.trans (List.prefix_append _ _).isInfix

theorem Occurs.append_left {part whole : String} (h : Occurs part whole) (before : String) :
    Occurs part (before ++ whole) := by
  rw [Occurs, String.toList_append]
  exact h.trans (List.suffix_append _ _).isInfix

theorem Occurs.join {part whole : String} {parts : List String} (h : Occurs part whole) (hin : whole ∈ parts) :
    Occurs part (String.join parts) := by
  obtain ⟨before, after, rfl⟩ := List.append_of_mem hin
  rw [String.join_append, String.join_cons]
  exact (h.append_right _).append_left _

/-! ## The outputs of a request -/

theorem mapError_eq_ok {ε ε' α : Type} {f : ε → ε'} {x : Except ε α} {a : α} : x.mapError f = .ok a ↔ x = .ok a := by
  cases x <;> simp [Except.mapError]

/-- a request is resolved when it passes all checks and its batch can be resolved -/
theorem ofBatch_eq_ok_iff {names : List String} {files : List Descriptor.File} {resolved : ResolvedRequest} :
    ResolvedRequest.ofBatch names files = .ok resolved ↔ Request.validate names files = .ok resolved.target ∧
      ∃ declared, Schema.ofFiles files = .ok declared ∧ declared.resolve = .ok resolved.schema := by
  obtain ⟨target, schema⟩ := resolved
  simp only [ResolvedRequest.ofBatch, bind_eq_ok, pure, Except.pure, Except.ok.injEq, ResolvedRequest.mk.injEq]
  constructor
  · rintro ⟨_, htarget, declared, hdeclared, _, hschema, rfl, rfl⟩
    exact ⟨htarget, declared, hdeclared, hschema⟩
  · rintro ⟨htarget, declared, hdeclared, hschema⟩
    exact ⟨target, htarget, declared, hdeclared, schema, hschema, rfl, rfl⟩

theorem resolvedFrom_of_ofBatch {names : List String} {files : List Descriptor.File} {resolved : ResolvedRequest}
    (h : ResolvedRequest.ofBatch names files = .ok resolved) : ResolvedFrom files resolved.schema := by
  obtain ⟨_, declared, hdeclared, hresolve⟩ := ofBatch_eq_ok_iff.1 h
  exact resolvedFrom_of_ok hdeclared hresolve

/-- the outputs for a batch are the header and the type module of the package asked for -/
theorem outputsFor_eq_ok_iff {names : List String} {files : List Descriptor.File} {out : List OutputFile} :
    outputsFor names files = .ok out ↔ ∃ resolved header, ResolvedRequest.ofBatch names files = .ok resolved ∧
      resolved.package.header = .ok header ∧
      out = [⟨resolved.package.headerPath, header⟩, ⟨resolved.package.modulePath, resolved.package.typeModule⟩] := by
  simp only [outputsFor, Package.outputs, bind_eq_ok, mapError_eq_ok, pure, Except.pure, Except.ok.injEq,
    eq_comm (b := out), exists_and_left]

/-- the parameter plays no part beyond being readable -/
theorem outputs_eq_ok_iff {request : Request} {out : List OutputFile} :
    request.outputs = .ok out ↔ (∃ settings, Settings.ofParameter request.parameter = .ok settings) ∧
      outputsFor request.filesToGenerate request.files = .ok out := by
  simp only [Request.outputs, bind_eq_ok, mapError_eq_ok, exists_and_right]

/-! ## The header -/

namespace Header

/-- a line of a record definition: the name of a slot, its default, and its type as it is written -/
structure Line where
  name : String
  default : Literal
  type : TypeExpr
deriving DecidableEq, Repr

def Line.text (line : Line) : String :=
  "  " ++ Atom.quote line.name ++ " = " ++ line.default.render ++ " :: " ++ line.type.render

/-- the record definition of a declaration -/
structure Definition where
  declaration : Declaration
  lines : List Line
deriving DecidableEq, Repr

/-- what the definition of the record opens with -/
def Definition.head (d : Definition) : String := "-record(" ++ Atom.quote d.declaration.typeName ++ ", \x7b"

/-- what stands between the braces -/
def slotsText (lines : List Line) : String :=
  if lines = [] then "" else "\n" ++ ",\n".intercalate (lines.map Line.text) ++ "\n"

def Definition.text (d : Definition) : String :=
  "%% Generated for message type " ++ d.declaration.fullName ++ ".\n" ++ d.head ++ slotsText d.lines ++ "\x7d).\n"

/-- the line of a slot that is resolved, in a header of the module `home` -/
def line? (home : String) (slot : RecordSlot) : Option Line :=
  slot.typing.map fun typing => ⟨slot.name, typing.2, typing.1.qualify home⟩

/-- the definition is that of the message's record: a line for every slot, in order -/
structure Defined (home : String) (m : MessageDecl) (d : Definition) : Prop where
  declaration : d.declaration = m.toDeclaration
  lines : List.Forall₂ (fun slot line => line? home slot = some line) m.slots d.lines

theorem slotLine_eq_ok_iff {home message text : String} {slot : RecordSlot} :
    slotLine home message slot = .ok text ↔ ∃ line, line? home slot = some line ∧ text = line.text := by
  unfold slotLine line?
  cases slot.typing with
  | none => simp
  | some typing => simp [Line.text, eq_comm (b := text)]

theorem recordText_eq (d : Definition) :
    recordText d.declaration.fullName d.declaration.typeName (d.lines.map Line.text) = d.text := by
  have hcut : ".\n-record(" = ".\n" ++ "-record(" := by decide
  unfold recordText Definition.text Definition.head slotsText
  rewrite [hcut]
  simp only [List.isEmpty_iff, List.map_eq_nil_iff, String.append_assoc, -String.reduceAppend]

theorem record_eq_ok_iff {home text : String} {m : MessageDecl} :
    record home m = .ok text ↔ ∃ d, Defined home m d ∧ text = d.text := by
  simp only [record, bind_eq_ok, mapM_eq_ok_iff, slotLine_eq_ok_iff, pure, Except.pure, Except.ok.injEq]
  constructor
  · rintro ⟨texts, htexts, rfl⟩
    obtain ⟨lines, hlines, rfl⟩ := exists_map_of_forall₂ htexts
    exact ⟨⟨m.toDeclaration, lines⟩, ⟨rfl, hlines⟩, recordText_eq ⟨m.toDeclaration, lines⟩⟩
  · rintro ⟨d, hd, rfl⟩
    refine ⟨d.lines.map Line.text, ?_, ?_⟩
    · rw [List.forall₂_map_right_iff]
      exact hd.lines.imp fun slot line hline => ⟨line, hline, rfl⟩
    · rw [← recordText_eq, hd.declaration]

end Header

namespace Package

/-- the header with the given record definitions -/
def headerWith (p : Package) (definitions : List Header.Definition) : String :=
  "%%% Generated from protobuf package " ++ p.name ++ ".\n%%% DO NOT EDIT.\n" ++
    String.join (definitions.map fun d => "\n" ++ d.text)

theorem headerText_eq (p : Package) (definitions : List Header.Definition) :
    openingComment p.name ++ String.join ((definitions.map Header.Definition.text).map ("\n" ++ ·)) =
      p.headerWith definitions := by
  unfold openingComment headerWith
  rw [List.map_map]
  rfl

/-- **A header is a sequence of record definitions**, one for each message of the package. -/
theorem header_eq_ok_iff {p : Package} {text : String} :
    p.header = .ok text ↔ ∃ definitions, List.Forall₂ (Header.Defined p.moduleName) p.messages definitions ∧
      text = p.headerWith definitions := by
  simp only [header, bind_eq_ok, mapM_eq_ok_iff, Header.record_eq_ok_iff, pure, Except.pure, Except.ok.injEq]
  constructor
  · rintro ⟨records, hrecords, rfl⟩
    obtain ⟨definitions, hdefinitions, rfl⟩ := exists_map_of_forall₂ hrecords
    refine ⟨definitions, hdefinitions, ?_⟩
    exact headerText_eq p definitions
  · rintro ⟨definitions, hdefinitions, rfl⟩
    refine ⟨definitions.map Header.Definition.text, ?_, ?_⟩
    · rw [List.forall₂_map_right_iff]
      exact hdefinitions.imp fun m d hd => ⟨d, hd, rfl⟩
    · exact headerText_eq p definitions

end Package

/-- what stands behind the outputs of a request: a resolved batch, and a record definition for each message -/
theorem exists_definitions_of_outputs {request : Request} {out : List OutputFile} (h : request.outputs = .ok out) :
    ∃ resolved definitions, ResolvedRequest.ofBatch request.filesToGenerate request.files = .ok resolved ∧
      ResolvedFrom request.files resolved.schema ∧
      List.Forall₂ (fun m d => m ∈ resolved.package.messages ∧ Header.Defined resolved.package.moduleName m d)
        resolved.package.messages definitions ∧
      out = [⟨resolved.package.headerPath, resolved.package.headerWith definitions⟩,
        ⟨resolved.package.modulePath, resolved.package.typeModule⟩] := by
  obtain ⟨_, h⟩ := outputs_eq_ok_iff.1 h
  obtain ⟨resolved, header, hbatch, hheader, rfl⟩ := outputsFor_eq_ok_iff.1 h
  obtain ⟨definitions, hdefinitions, rfl⟩ := Package.header_eq_ok_iff.1 hheader
  have hmembers := (List.forall₂_and_left _ _).2
    ⟨fun m (hm : m ∈ resolved.package.messages) => hm, hdefinitions⟩
  exact ⟨resolved, definitions, hbatch, resolvedFrom_of_ofBatch hbatch, hmembers, rfl⟩

/-! ## The type module -/

/-- all that gets a type in the type module -/
def Package.declarations (p : Package) : List Declaration :=
  p.enums.map (·.toDeclaration) ++ p.messages.map (·.toDeclaration)

namespace TypeModule

/-- a type that a type module exports and defines -/
structure Definition where
  sort : String
  declaration : Declaration
  type : TypeExpr
deriving DecidableEq, Repr

/-- the name under which it is exported and defined -/
def Definition.name (d : Definition) : String := d.declaration.typeName

/-- its entry in an export list; a type of a declaration has no parameters -/
def Definition.entry (d : Definition) : String := "  " ++ Atom.quote d.name ++ "/0"

/-- what the definition of the type opens with -/
def Definition.head (d : Definition) : String := "-type " ++ Atom.quote d.name ++ "() :: "

def Definition.text (d : Definition) : String :=
  "%% Generated for " ++ d.sort ++ " type " ++ d.declaration.fullName ++ ".\n" ++ (d.head ++ d.type.render ++ ".\n")

/-- the attribute that exports the given types; entries stand on lines of their own -/
def exported (definitions : List Definition) : String :=
  if definitions = [] then "-export_type([]).\n"
  else "-export_type([\n" ++ ",\n".intercalate (definitions.map (·.entry)) ++ "\n]).\n"

/-- an export list in the text has an entry for the type `name` -/
def Exports (text name : String) : Prop :=
  ∃ names : List String, name ∈ names ∧ Occurs
    ("-export_type([\n" ++ ",\n".intercalate (names.map fun name => "  " ++ Atom.quote name ++ "/0") ++ "\n]).\n") text

/-- the text defines the type `name` -/
def Defines (text name : String) : Prop :=
  ∃ type : TypeExpr, Occurs ("-type " ++ Atom.quote name ++ "() :: " ++ type.render ++ ".\n") text

theorem exportList_eq (definitions : List Definition) :
    exportList (definitions.map (·.name)) = exported definitions := by
  have hentries : (definitions.map (·.name)).map (fun name => "  " ++ Atom.quote name ++ "/0") =
      definitions.map (·.entry) := by
    rw [List.map_map]
    rfl
  unfold exportList exported
  rw [hentries]
  by_cases hempty : definitions = []
  · rw [if_pos hempty, if_pos (by simp [hempty])]
    decide
  · have hopen : "-export_type([\n" = "-export_type([" ++ "\n" := by decide
    have hclose : "\n]).\n" = "\n" ++ "]).\n" := by decide
    rw [if_neg hempty, if_neg (by simpa using hempty)]
    rewrite [hopen, hclose]
    simp only [String.append_assoc, -String.reduceAppend]

theorem typeDefinition_eq (d : Definition) : typeDefinition d.sort d.declaration d.type = d.text := by
  have hcut : ".\n-type " = ".\n" ++ "-type " := by decide
  unfold typeDefinition Definition.text Definition.head
  rewrite [hcut]
  simp only [String.append_assoc, -String.reduceAppend]
  rfl

theorem exports_exported {definitions : List Definition} {d : Definition} (hd : d ∈ definitions) :
    Exports (exported definitions) d.name := by
  refine ⟨definitions.map (·.name), List.mem_map_of_mem hd, ?_⟩
  rw [exported, if_neg (List.ne_nil_of_mem hd), List.map_map]
  exact occurs_refl _

theorem defines_text (d : Definition) : Defines d.text d.name := ⟨d.type, (occurs_refl _).append_left _⟩

/-- what a part of a text offers, the text does -/
theorem Exports.of_occurs {part text name : String} (h : Exports part name) (hpart : Occurs part text) :
    Exports text name := by
  obtain ⟨names, hname, hlist⟩ := h
  exact ⟨names, hname, hlist.trans hpart⟩

theorem Defines.of_occurs {part text name : String} (h : Defines part name) (hpart : Occurs part text) :
    Defines text name := by
  obtain ⟨type, hdefined⟩ := h
  exact ⟨type, hdefined.trans hpart⟩

end TypeModule

namespace Package

open TypeModule (Definition exported Exports Defines)

def enumDefinitions (p : Package) : List Definition := p.enums.map fun e => ⟨"enum", e.toDeclaration, e.typeExpr⟩

def messageDefinitions (p : Package) : List Definition :=
  p.messages.map fun m => ⟨"message", m.toDeclaration, .record m.typeName⟩

/-- the type module that exports and defines the given types -/
def typeModuleWith (p : Package) (enums messages : List Definition) : String :=
  "%%% Generated from protobuf package " ++ p.name ++ ".\n%%% DO NOT EDIT.\n" ++
    "\n-module(" ++ Atom.quote p.moduleName ++ ").\n" ++
    "\n-include(\"" ++ p.moduleName ++ ".hrl\").\n" ++
    "\n" ++ exported enums ++
    "\n" ++ exported messages ++
    String.join ((enums ++ messages).map fun d => "\n" ++ d.text)

/-- **A type module exports and defines** the types of the declarations, enums first. -/
theorem typeModule_eq (p : Package) : p.typeModule = p.typeModuleWith p.enumDefinitions p.messageDefinitions := by
  have henums : p.enums.map (fun e => "\n" ++ TypeModule.enumType e) =
      p.enumDefinitions.map fun d => "\n" ++ d.text := by
    rw [enumDefinitions, List.map_map]
    refine List.map_congr_left fun e _ => ?_
    rw [TypeModule.enumType, TypeModule.typeDefinition_eq ⟨"enum", e.toDeclaration, e.typeExpr⟩]
    rfl
  have hmessages : p.messages.map (fun m => "\n" ++ TypeModule.messageType m) =
      p.messageDefinitions.map fun d => "\n" ++ d.text := by
    rw [messageDefinitions, List.map_map]
    refine List.map_congr_left fun m _ => ?_
    rw [TypeModule.messageType, TypeModule.typeDefinition_eq ⟨"message", m.toDeclaration, .record m.typeName⟩]
    rfl
  have hnames : p.enumDefinitions.map (·.name) = p.enums.map (·.typeName) ∧
      p.messageDefinitions.map (·.name) = p.messages.map (·.typeName) := by
    rw [enumDefinitions, messageDefinitions, List.map_map, List.map_map]
    exact ⟨rfl, rfl⟩
  unfold typeModule openingComment typeModuleWith
  rw [henums, hmessages, ← hnames.1, ← hnames.2, TypeModule.exportList_eq, TypeModule.exportList_eq, List.map_append,
    String.join_append, ← String.append_assoc]

theorem definitions_declaration (p : Package) :
    (p.enumDefinitions ++ p.messageDefinitions).map (·.declaration) = p.declarations := by
  rw [List.map_append, enumDefinitions, messageDefinitions, List.map_map, List.map_map]
  rfl

theorem occurs_exported (p : Package) (enums messages : List Definition) :
    Occurs (exported enums) (p.typeModuleWith enums messages) ∧
      Occurs (exported messages) (p.typeModuleWith enums messages) := by
  unfold typeModuleWith
  constructor
  · exact ((((occurs_refl _).append_left _).append_right _).append_right _).append_right _
  · exact ((occurs_refl _).append_left _).append_right _

theorem occurs_definition (p : Package) {enums messages : List Definition} {d : Definition}
    (hd : d ∈ enums ++ messages) : Occurs d.text (p.typeModuleWith enums messages) :=
  (((occurs_refl d.text).append_left "\n").join (List.mem_map_of_mem (f := fun d => "\n" ++ d.text) hd)).append_left _

/-- **All types are offered**: each stands in an export list and is defined. -/
theorem offered_of_mem_definitions (p : Package) {enums messages : List Definition} {d : Definition}
    (hd : d ∈ enums ++ messages) :
    Exports (p.typeModuleWith enums messages) d.name ∧ Defines (p.typeModuleWith enums messages) d.name := by
  refine ⟨?_, (TypeModule.defines_text d).of_occurs (p.occurs_definition hd)⟩
  rcases List.mem_append.1 hd with henum | hmessage
  · exact (TypeModule.exports_exported henum).of_occurs (p.occurs_exported enums messages).1
  · exact (TypeModule.exports_exported hmessage).of_occurs (p.occurs_exported enums messages).2

theorem offered_of_mem {p : Package} {d : Declaration} (hd : d ∈ p.declarations) :
    Exports p.typeModule d.typeName ∧ Defines p.typeModule d.typeName := by
  rw [← definitions_declaration] at hd
  obtain ⟨definition, hdefinition, rfl⟩ := List.mem_map.1 hd
  rw [typeModule_eq]
  exact p.offered_of_mem_definitions hdefinition

end Package

/-! ## A sample request -/

/-- the files of a shop are asked for, those of the parties it refers to are not -/
def sampleRequest : Request where
  filesToGenerate := ["shop/order.proto"]
  files := sampleFiles

end ErlangRecords
