/-
Answers: a request gets both files or an error, never a part.

- `allOrNothing`: what the response to a request holds.
- `answer_all_or_nothing`: and what the bytes of the answer say when they are read back.
-/
import ErlangRecords.Proofs.Renderable
import ErlangRecords.Proofs.WireRoundTrip

namespace ErlangRecords

/-! ## Responses -/

/-- the response holds an error and no files, or the two outputs and no error; and which error there is when -/
structure Request.AllOrNothing (request : Request) : Prop where
  features : request.response.supportedFeatures = 1
  outcome :
    (∃ message, request.response.error = some message ∧ message ≠ "" ∧ request.response.files = []) ∨
      request.response.error = none ∧ request.outputs = .ok request.response.files ∧
        ∃ base header module, request.response.files = [⟨base ++ ".hrl", header⟩, ⟨base ++ ".erl", module⟩]
  fails : request.response.error ≠ none ↔ (∃ e, Settings.ofParameter request.parameter = .error e) ∨
    ∃ e, ResolvedRequest.ofBatch request.filesToGenerate request.files = .error e
  parameter : ∀ e, Settings.ofParameter request.parameter = .error e → request.response.error = some e.message
  /-- the batch is looked at only when the parameter is readable -/
  schema : ∀ settings e, Settings.ofParameter request.parameter = .ok settings →
    ResolvedRequest.ofBatch request.filesToGenerate request.files = .error e →
      request.response.error = some ("schema error: " ++ e.message)

section

variable {request : Request}

theorem response_of_ok {files : List OutputFile} (h : request.outputs = .ok files) :
    request.response = { supportedFeatures := 1, files } := by
  rw [Request.response, h]
  rfl

theorem response_of_error {e : GenerationError} (h : request.outputs = .error e) :
    request.response = { error := some e.message, supportedFeatures := 1 } := by
  rw [Request.response, h]
  rfl

/-- the two paths of a package differ in the extension -/
theorem exists_base (p : Package) : ∃ base, p.headerPath = base ++ ".hrl" ∧ p.modulePath = base ++ ".erl" := by
  have hdot : ∀ base extension : String, base ++ "." ++ extension = base ++ ("." ++ extension) :=
    fun _ _ => String.append_assoc
  exact ⟨_, hdot _ "hrl", hdot _ "erl"⟩

theorem append_ne_empty {before : String} (h : before ≠ "") (after : String) : before ++ after ≠ "" :=
  fun hempty => h (String.append_eq_empty_iff.1 hempty).1

theorem parameterMessage_ne_empty (e : ParameterError) : e.message ≠ "" := by
  have hopening : "invalid parameter '" ≠ "" := by decide
  exact append_ne_empty (append_ne_empty (append_ne_empty hopening _) _) _

theorem schemaMessage_ne_empty (e : SchemaFault) : "schema error: " ++ e.message ≠ "" := by
  have hopening : "schema error: " ≠ "" := by decide
  exact append_ne_empty hopening _

/-- **All or nothing.** -/
theorem allOrNothing (request : Request) : request.AllOrNothing := by
  -- the three ways a request can end; in each, the other two are excluded by what was read before
  have houtcome := outcome_outputs request
  generalize hout : request.outputs = out at houtcome
  cases houtcome with
  | @parameter e hparameter =>
    have hresponse := response_of_error hout
    have herror : request.response.error = some e.message := by
      rw [hresponse]
      rfl
    constructor
    case features => rw [hresponse]
    case outcome => exact Or.inl ⟨_, herror, parameterMessage_ne_empty e, by rw [hresponse]⟩
    case fails => simp [hresponse, hparameter]
    case parameter =>
      intro e' h
      rw [hparameter, Except.error.injEq] at h
      rw [herror, h]
    case schema =>
      intro settings e' h
      rw [hparameter] at h
      cases h
  | @schema settings e hparameter hbatch =>
    have hresponse := response_of_error hout
    have herror : request.response.error = some ("schema error: " ++ e.message) := by
      rw [hresponse]
      rfl
    constructor
    case features => rw [hresponse]
    case outcome => exact Or.inl ⟨_, herror, schemaMessage_ne_empty e, by rw [hresponse]⟩
    case fails => simp [hresponse, hbatch]
    case parameter =>
      intro e' h
      rw [hparameter] at h
      cases h
    case schema =>
      intro settings' e' _ h
      rw [hbatch, Except.error.injEq] at h
      rw [herror, h]
  | @generated settings resolved header hparameter hbatch =>
    have hresponse := response_of_ok hout
    obtain ⟨base, hheader, hmodule⟩ := exists_base resolved.package
    constructor
    case features => rw [hresponse]
    case outcome =>
      refine Or.inr ⟨by rw [hresponse], by rw [hout, hresponse], base, header, resolved.package.typeModule, ?_⟩
      rw [hresponse, ← hheader, ← hmodule]
    case fails => simp [hresponse, hparameter, hbatch]
    case parameter =>
      intro e h
      rw [hparameter] at h
      cases h
    case schema =>
      intro settings' e _ h
      rw [hbatch] at h
      cases h

end

/-! ## Bytes -/

theorem answer_eq_error_iff {input : List UInt8} {e : InputError} :
    answer input = .error e ↔ Request.read input = none ∧ e = .undecodable .request := by
  unfold answer
  split
  · rename_i hread
    simp [hread, eq_comm (b := e)]
  · rename_i request hread
    simp [hread]

theorem answer_of_read {input : List UInt8} {request : Request} (h : Request.read input = some request) :
    answer input = .ok request.response.write := by
  rw [answer, h]

/-- **Answers say what they hold.** Input that cannot be read, and no other, gets no answer. The response to a request
that can be read is all or nothing: an error, or the header and the type module. The answer is read back as that
response, field by field. Counts of bytes are numbers of 64 bits on the wire, so this asks that 64 bits can count the
bytes of the answer; for more bytes than memory can address there is no such format. -/
theorem answer_all_or_nothing (input : List UInt8) :
    (∀ e, answer input = .error e ↔ Request.read input = none ∧ e = .undecodable .request) ∧
      ∀ request, Request.read input = some request → request.AllOrNothing ∧
        ∃ output, answer input = .ok output ∧
          (output.length < Wire.Varint.limit →
            Wire.readFields Wire.depthLimit .response output = some request.response.fields ∧
              Response.read output = some request.response) := by
  refine ⟨fun e => answer_eq_error_iff, fun request hread => ⟨allOrNothing request, _, answer_of_read hread, ?_⟩⟩
  intro hlength
  have hfeatures : request.response.supportedFeatures < Wire.Varint.limit := by
    rw [(allOrNothing request).features, Wire.Varint.limit]
    omega
  exact ⟨readFields_write_response hfeatures hlength, read_write_response hfeatures hlength⟩

/-- a request for the file `a.proto` of the package `p`, with one message `A` -/
def smallInput : List UInt8 :=
  [0x0a, 7, 97, 46, 112, 114, 111, 116, 111,
    0x7a, 17, 0x0a, 7, 97, 46, 112, 114, 111, 116, 111, 0x12, 1, 112, 0x22, 3, 0x0a, 1, 65]

theorem answer_all_or_nothing_small :
    ∃ request output, Request.read smallInput = some request ∧ answer smallInput = .ok output ∧
      Response.read output = some request.response ∧ request.response.error = none ∧
        request.response.files.map OutputFile.path = ["p.hrl", "p.erl"] := by
  have hcheck : ((Request.read smallInput).any fun request =>
      decide (request.response.write.length < Wire.Varint.limit ∧ request.response.error = none ∧
        request.response.files.map OutputFile.path = ["p.hrl", "p.erl"])) = true := by
    decide +kernel
  obtain ⟨request, hread, hchecked⟩ := (Option.any_eq_true _ _).1 hcheck
  obtain ⟨hlength, herror, hpaths⟩ := of_decide_eq_true hchecked
  obtain ⟨_, output, hanswer, hback⟩ := (answer_all_or_nothing smallInput).2 request hread
  have houtput : output = request.response.write := by
    rw [answer_of_read hread] at hanswer
    exact (Except.ok.inj hanswer).symm
  exact ⟨request, output, hread, hanswer, (hback (houtput ▸ hlength)).2, herror, hpaths⟩

end ErlangRecords
