/-
When a header can be written.

The one thing that can go wrong while a header is written is a slot without a type. Resolution gives a type to every
field and every oneof, so each package of a resolved batch has a header, and no entry point ends in such a slot.

- `fault?_header`: the fault of a header is the complaint about its first slot without a type.
- `header_of_resolvedFrom`: a resolved batch has no such slot.
- `outcome_outputs`: what becomes of a request.
- `header_renderable`: no entry point comes upon such a slot; and which packages made by hand have no header.
-/
import ErlangRecords.Endpoint
import ErlangRecords.Proofs.FirstFault
import ErlangRecords.Proofs.Layout
import ErlangRecords.Proofs.Written

namespace ErlangRecords

/-! ## The first slot without a type -/

/-- the complaint about a slot of the message `message`, if it has no type -/
def RecordSlot.complaint? (message : String) (slot : RecordSlot) : Option UnresolvedSlot :=
  if slot.typing = none then some ⟨slot.name, message⟩ else none

/-- the complaint is about a slot of the message, and the slots before it have types -/
def MessageDecl.FirstUntyped (m : MessageDecl) (u : UnresolvedSlot) : Prop :=
  ∃ before slot after, m.slots = before ++ slot :: after ∧ (∀ earlier ∈ before, earlier.typing ≠ none) ∧
    slot.typing = none ∧ u = ⟨slot.name, m.fullName⟩

/-- the complaint is about a message of the package, and all slots of the messages before it have types -/
def Package.FirstUntyped (p : Package) (u : UnresolvedSlot) : Prop :=
  ∃ before m after, p.messages = before ++ m :: after ∧
    (∀ earlier ∈ before, ∀ slot ∈ earlier.slots, slot.typing ≠ none) ∧ m.FirstUntyped u

section

variable {message : String} {slot : RecordSlot} {u : UnresolvedSlot} {p : Package}

theorem complaint?_eq_none_iff : slot.complaint? message = none ↔ slot.typing ≠ none := by
  simp [RecordSlot.complaint?]

theorem complaint?_eq_some_iff :
    slot.complaint? message = some u ↔ slot.typing = none ∧ u = ⟨slot.name, message⟩ := by
  simp [RecordSlot.complaint?, eq_comm (b := u)]

theorem fault?_slotLine (home : String) : fault? (Header.slotLine home message slot) = slot.complaint? message := by
  unfold Header.slotLine RecordSlot.complaint?
  cases slot.typing <;> rfl

theorem fault?_record (home : String) (m : MessageDecl) :
    fault? (Header.record home m) = m.slots.findSome? (·.complaint? m.fullName) := by
  rw [Header.record, fault?_bind_pure, fault?_mapM]
  simp only [fault?_slotLine]

/-- **The fault of a header** is the complaint about its first slot without a type. -/
theorem fault?_header (p : Package) :
    fault? p.header = p.messages.findSome? fun m => m.slots.findSome? (·.complaint? m.fullName) := by
  rw [Package.header, fault?_bind_pure, fault?_mapM]
  simp only [fault?_record]

theorem exists_header_iff : (∃ text, p.header = .ok text) ↔ ∀ m ∈ p.messages, ∀ slot ∈ m.slots, slot.typing ≠ none := by
  rw [← fault?_eq_none_iff, fault?_header]
  simp only [List.findSome?_eq_none_iff, complaint?_eq_none_iff]

theorem header_eq_error_iff : p.header = .error u ↔ p.FirstUntyped u := by
  rw [← fault?_eq_some_iff, fault?_header]
  apply findSome?_eq_some_iff_first
  · intro m _
    simp only [List.findSome?_eq_none_iff, complaint?_eq_none_iff]
  · intro m _ u
    exact findSome?_eq_some_iff_first (fun _ _ => complaint?_eq_none_iff) fun _ _ _ => complaint?_eq_some_iff

/-- the error reaches the outputs, and is told by a text that names the slot and its message -/
theorem outputs_of_header_error (h : p.header = .error u) : p.outputs = .error u ∧
    (GenerationError.unresolved u).message =
      "generation error: field '" ++ u.slot ++ "' of message " ++ u.message ++ " has no resolved type" := by
  constructor
  · rw [Package.outputs, h]
    rfl
  · have hcut : "generation error: field '" = "generation error: " ++ "field '" := by decide
    unfold GenerationError.message UnresolvedSlot.text
    rewrite [hcut]
    simp only [String.append_assoc, -String.reduceAppend]

theorem exists_error_iff : (∃ u, p.header = .error u) ↔ ∃ m ∈ p.messages, ∃ slot ∈ m.slots, slot.typing = none := by
  have hfails : (∃ u, p.header = .error u) ↔ ¬∃ text, p.header = .ok text := by
    cases p.header <;> simp
  rw [hfails, exists_header_iff]
  simp only [not_forall, not_not, exists_prop]

end

/-! ## Resolved batches -/

/-- the slots of a message with all typings have types -/
theorem MessageDecl.Typed.slot {schema : Schema} {m : MessageDecl} (h : m.Typed schema) {slot : RecordSlot}
    (hslot : slot ∈ m.slots) : slot.typing ≠ none := by
  rcases MessageDecl.mem_slots hslot with ⟨f, hf, rfl⟩ | ⟨o, ho, rfl⟩
  · obtain ⟨v, _, _, htyping⟩ := h.field f hf
    simp [RecordSlot.typing, htyping]
  · obtain ⟨alternatives, _, htyping⟩ := h.oneof o ho
    simp [RecordSlot.typing, htyping]

/-- **Every package of a resolved batch** has a header. -/
theorem header_of_resolvedFrom {files : List Descriptor.File} {schema : Schema} (h : ResolvedFrom files schema)
    (target : Target) : ∃ text, (schema.package target).header = .ok text := by
  rw [exists_header_iff]
  intro m hm slot hslot
  have hin : m ∈ schema.messages := (List.mem_filter.1 hm).1
  exact (h.typed m hin).slot hslot

theorem header_of_ofBatch {names : List String} {files : List Descriptor.File} {request : ResolvedRequest}
    (h : ResolvedRequest.ofBatch names files = .ok request) (target : Target) :
    ∃ text, (request.schema.package target).header = .ok text :=
  header_of_resolvedFrom (resolvedFrom_of_ofBatch h) target

/-! ## Entry points -/

theorem outputsFor_of_error {names : List String} {files : List Descriptor.File} {e : SchemaFault}
    (h : ResolvedRequest.ofBatch names files = .error e) : outputsFor names files = .error (.schema e) := by
  rw [outputsFor, h]
  rfl

/-- once a request is resolved, nothing can fail -/
theorem outputsFor_of_ok {names : List String} {files : List Descriptor.File} {resolved : ResolvedRequest}
    (h : ResolvedRequest.ofBatch names files = .ok resolved) :
    ∃ header, outputsFor names files =
      .ok [⟨resolved.package.headerPath, header⟩, ⟨resolved.package.modulePath, resolved.package.typeModule⟩] := by
  obtain ⟨header, hheader⟩ := header_of_ofBatch h resolved.target
  exact ⟨header, outputsFor_eq_ok_iff.2 ⟨resolved, header, h, hheader, rfl⟩⟩

/-- what can become of a request: the parameter is unreadable, the batch is refused, or there are two files -/
inductive Request.Outcome (request : Request) : Except GenerationError (List OutputFile) → Prop
  | parameter {e : ParameterError} (h : Settings.ofParameter request.parameter = .error e) :
      Outcome request (.error (.parameter e))
  | schema {settings : Settings} {e : SchemaFault} (hparameter : Settings.ofParameter request.parameter = .ok settings)
      (h : ResolvedRequest.ofBatch request.filesToGenerate request.files = .error e) :
      Outcome request (.error (.schema e))
  | generated {settings : Settings} {resolved : ResolvedRequest} {header : String}
      (hparameter : Settings.ofParameter request.parameter = .ok settings)
      (h : ResolvedRequest.ofBatch request.filesToGenerate request.files = .ok resolved) :
      Outcome request (.ok [⟨resolved.package.headerPath, header⟩,
        ⟨resolved.package.modulePath, resolved.package.typeModule⟩])

/-- **What becomes of a request.** -/
theorem outcome_outputs (request : Request) : request.Outcome request.outputs := by
  rw [Request.outputs]
  cases hparameter : Settings.ofParameter request.parameter with
  | error e => exact .parameter hparameter
  | ok settings =>
    have hrest : ((Except.ok settings : Except ParameterError Settings).mapError GenerationError.parameter >>= fun _ =>
        outputsFor request.filesToGenerate request.files) = outputsFor request.filesToGenerate request.files := rfl
    rw [hrest]
    cases hbatch : ResolvedRequest.ofBatch request.filesToGenerate request.files with
    | error e =>
      rw [outputsFor_of_error hbatch]
      exact .schema hparameter hbatch
    | ok resolved =>
      obtain ⟨header, hout⟩ := outputsFor_of_ok hbatch
      rw [hout]
      exact .generated hparameter hbatch

theorem outputs_ne_unresolved (request : Request) (u : UnresolvedSlot) : request.outputs ≠ .error (.unresolved u) := by
  intro h
  have houtcome := outcome_outputs request
  rw [h] at houtcome
  cases houtcome

theorem outputsFor_ne_unresolved (names : List String) (files : List Descriptor.File) (u : UnresolvedSlot) :
    outputsFor names files ≠ .error (.unresolved u) := by
  cases hbatch : ResolvedRequest.ofBatch names files with
  | error e => simp [outputsFor_of_error hbatch]
  | ok resolved =>
    obtain ⟨header, hout⟩ := outputsFor_of_ok hbatch
    simp [hout]

/-- no entry point comes upon a slot without a type; the answer to an encoded request is made from the outputs -/
structure NeverUntyped : Prop where
  outputs : ∀ (request : Request) (u : UnresolvedSlot), request.outputs ≠ .error (.unresolved u)
  set : ∀ input names u, outputsFromSet input names ≠ .error (.generation (.unresolved u))
  setFile : ∀ content names u, outputsFromSetFile content names ≠ .error (.generation (.unresolved u))
  answer : ∀ input output, answer input = .ok output → ∃ request, Request.read input = some request ∧
    output = request.response.write ∧ ∀ u, request.outputs ≠ .error (.unresolved u)

theorem outputsFromSet_ne_unresolved (input : List UInt8) (names : List String) (u : UnresolvedSlot) :
    outputsFromSet input names ≠ .error (.generation (.unresolved u)) := by
  unfold outputsFromSet
  split
  · simp
  · rename_i files _
    have hnever := outputsFor_ne_unresolved names files u
    cases h : outputsFor names files with
    | error e =>
      rw [h] at hnever
      simpa [Except.mapError] using hnever
    | ok out => simp [Except.mapError]

theorem neverUntyped : NeverUntyped := by
  refine ⟨outputs_ne_unresolved, outputsFromSet_ne_unresolved, ?_, ?_⟩
  · intro content names u
    cases content with
    | none => simp [outputsFromSetFile]
    | some input => exact outputsFromSet_ne_unresolved input names u
  · intro input output h
    unfold answer at h
    split at h
    · simp at h
    · rename_i request hread
      exact ⟨request, hread, (Except.ok.inj h).symm, outputs_ne_unresolved request⟩

/-- **Headers of resolved batches can be written; others fail at their first slot without a type.** Every package of a
batch that a request resolves has a header, so no entry point comes upon a slot without a type. A package made by hand
has no header exactly when some slot of some message has no type; the error is about the first such slot of the first
such message, which its text names, and there are no outputs then. The slots of a message are its fields outside every
oneof and its oneofs that are not synthetic. -/
theorem header_renderable :
    (∀ names files request, ResolvedRequest.ofBatch names files = .ok request →
      ∀ target, ∃ text, (request.schema.package target).header = .ok text) ∧
    NeverUntyped ∧
    (∀ p : Package, ((∃ u, p.header = .error u) ↔ ∃ m ∈ p.messages, ∃ slot ∈ m.slots, slot.typing = none) ∧
      (∀ u, p.header = .error u ↔ p.FirstUntyped u) ∧
      ∀ u, p.header = .error u → p.outputs = .error u ∧ (GenerationError.unresolved u).message =
        "generation error: field '" ++ u.slot ++ "' of message " ++ u.message ++ " has no resolved type") ∧
    ∀ (m : MessageDecl) (slot : RecordSlot), slot ∈ m.slots ↔
      (∃ f ∈ m.fields, f.oneof = none ∧ slot = .field f) ∨ ∃ o ∈ m.oneofs, o.synthetic = false ∧ slot = .oneof o := by
  refine ⟨fun names files request h => header_of_ofBatch h, neverUntyped, fun p => ⟨exists_error_iff, ?_, ?_⟩, ?_⟩
  · exact fun u => header_eq_error_iff
  · exact fun u => outputs_of_header_error
  · exact fun m slot => MessageDecl.mem_slots_iff

/-- fields of two messages; `lost` has no type, but no slot either, since there is no oneof 3 -/
def rawPackage : Package where
  name := "raw"
  moduleName := "raw"
  directory := "."
  messages := [
    { file := "raw.proto", package := "raw", name := "Stock", fullName := "Stock"
      fields := [
        { name := "lost", number := 1, cardinality := .optional, kind := .int32, typeName := "", oneof := some 3 }]
      oneofs := [{ owner := 0, name := "hidden", synthetic := true }] },
    { file := "raw.proto", package := "raw", name := "Rate", fullName := "Rate"
      fields := [
        { name := "value", number := 1, cardinality := .required, kind := .float, typeName := ""
          typing := some ⟨.float, .float, .floatZero⟩ },
        { name := "unit", number := 2, cardinality := .required, kind := .string, typeName := "" }]
      oneofs := [{ owner := 1, name := "period" }] }]
  enums := []

theorem header_renderable_sample :
    (∃ request, ResolvedRequest.ofBatch sampleRequest.filesToGenerate sampleRequest.files = .ok request ∧
      (∃ text, request.package.header = .ok text) ∧
      ∃ text, (request.schema.package ⟨"party", "shop"⟩).header = .ok text) ∧
    rawPackage.header = .error ⟨"unit", "Rate"⟩ ∧ rawPackage.outputs = .error ⟨"unit", "Rate"⟩ := by
  obtain ⟨resolved, failing, hand, _⟩ := header_renderable
  constructor
  · obtain ⟨request, h, _⟩ := exists_ok_of_check
      (x := ResolvedRequest.ofBatch sampleRequest.filesToGenerate sampleRequest.files) (P := fun _ => True)
      (by decide +kernel)
    exact ⟨request, h, resolved _ _ _ h _, resolved _ _ _ h _⟩
  · have hheader : rawPackage.header = .error ⟨"unit", "Rate"⟩ := by
      apply ((hand rawPackage).2.1 _).2
      refine ⟨[rawPackage.messages[0]], rawPackage.messages[1], [], rfl, by decide, ?_⟩
      exact ⟨[rawPackage.messages[1].slots[0]], rawPackage.messages[1].slots[1], _, rfl, by decide, by decide,
        by decide⟩
    exact ⟨hheader, ((hand rawPackage).2.2 _ hheader).1⟩

end ErlangRecords
