/-
The descriptors behind a package, and which of them may declare what is refused.

The requested files are checked at every depth, and no others. The package holds the messages of all files that bear its
name. So where a file of the package is not asked for, the record of its message can have the default of the kind in the
place of the one declared.

- `BuiltFrom`: the descriptor behind a message of a resolved batch.
- `PlainWhereRequested`, `plain_where_requested`: what is known of the descriptors behind a package.
- `default_outside_request_replaced`: an explicit default that is not refused.
-/
import ErlangRecords.Proofs.Acceptance
import ErlangRecords.Proofs.Records

namespace ErlangRecords

open Descriptor (File Message)

/-! ## The descriptors behind a package -/

/-- the message of the resolved batch is built from the descriptor, which the file declares -/
def BuiltFrom (files : List File) (resolved : Schema) (m : MessageDecl) (file : File) (d : Message) : Prop :=
  ∃ (i number : Nat) (p : Place), resolved.messages[i]? = some m ∧ (batchMessages files)[i]? = some (p, d) ∧
    files[number]? = some file ∧ (p, d) ∈ messagesOf number file

namespace ResolvedFrom

variable {files : List File} {resolved : Schema}

/-- every message is built from a descriptor that is listed of a file -/
theorem exists_builtFrom (h : ResolvedFrom files resolved) {m : MessageDecl} (hm : m ∈ resolved.messages) :
    ∃ file d, BuiltFrom files resolved m file d := by
  obtain ⟨i, hm⟩ := List.getElem?_of_mem hm
  obtain ⟨e, he, _⟩ := h.listed hm
  obtain ⟨k, file, hfile, hlisted⟩ := mem_listFrom.1 (List.mem_of_getElem? he)
  rw [Nat.zero_add] at hlisted
  exact ⟨file, e.2, i, k, e.1, hm, he, hfile, hlisted⟩

/-- every descriptor has its message -/
theorem exists_of_declares (h : ResolvedFrom files resolved) {file : File} (hfile : file ∈ files) {d : Message}
    (hd : file.Declares d) : ∃ m ∈ resolved.messages, BuiltFrom files resolved m file d := by
  obtain ⟨k, hk⟩ := List.getElem?_of_mem hfile
  obtain ⟨p, hp⟩ : ∃ p, (p, d) ∈ messagesOf k file := mem_messagesOf_iff.2 hd
  obtain ⟨i, hi⟩ := List.getElem?_of_mem (mem_listFrom.2 ⟨k, file, hk, by rwa [Nat.zero_add]⟩ :
    (p, d) ∈ batchMessages files)
  obtain ⟨m', hm', _⟩ := h.collected.node i (p, d) hi
  rw [Schema.untyped, List.getElem?_map, Option.map_eq_some_iff] at hm'
  obtain ⟨m, hm, _⟩ := hm'
  exact ⟨m, List.mem_of_getElem? hm, i, k, p, hm, hi, hk, hp⟩

theorem of_builtFrom (h : ResolvedFrom files resolved) {m : MessageDecl} {file : File} {d : Message}
    (hm : BuiltFrom files resolved m file d) :
    file ∈ files ∧ file.Declares d ∧ m.package = file.package ∧ m.DeclaredBy d := by
  obtain ⟨i, k, p, hm, hi, hk, hp⟩ := hm
  obtain ⟨e, he, hpackage, _⟩ := h.listed hm
  obtain ⟨e', he', hdeclared⟩ := h.declaredBy hm
  rw [hi, Option.some.injEq] at he he'
  subst he he'
  exact ⟨List.mem_of_getElem? hk, mem_messagesOf_iff.1 ⟨p, hp⟩, hpackage.trans (file_of_mem_messagesOf hp).2, hdeclared⟩

end ResolvedFrom

/-- what is known of the descriptors behind the package of a request for some of the files -/
structure PlainWhereRequested (files inputs : List File) (request : ResolvedRequest) : Prop where
  requested : ∀ file ∈ inputs, file ∈ files ∧ file.package = request.target.package ∧ file.Plain
  /-- each message of the package is built from a descriptor -/
  built : ∀ m ∈ request.package.messages, ∃ file d, BuiltFrom files request.schema m file d
  /-- such a descriptor is declared by a file of the package, and by one that was asked for it is plain -/
  declared : ∀ m ∈ request.package.messages, ∀ file d, BuiltFrom files request.schema m file d →
    file ∈ files ∧ file.package = request.target.package ∧ file.Declares d ∧ m.DeclaredBy d ∧ (file ∈ inputs → d.Plain)
  /-- each descriptor that a file of the package declares has its message, whether the file was asked for or not -/
  emitted : ∀ file ∈ files, file.package = request.target.package → ∀ d, file.Declares d →
    ∃ m ∈ request.package.messages, BuiltFrom files request.schema m file d
  /-- so all descriptors are plain exactly when those are that the other files of the package declare -/
  plain_iff : (∀ m ∈ request.package.messages, ∀ file d, BuiltFrom files request.schema m file d → d.Plain) ↔
    ∀ file ∈ files, file.package = request.target.package → file ∉ inputs → ∀ d, file.Declares d → d.Plain

theorem plainWhereRequested_of_ok {files inputs : List File} {request : ResolvedRequest}
    (hinputs : ∀ file ∈ inputs, file ∈ files ∧ file.package = request.target.package ∧ file.Plain)
    (hfrom : ResolvedFrom files request.schema) : PlainWhereRequested files inputs request := by
  have hmessages : ∀ m, m ∈ request.package.messages ↔
      m ∈ request.schema.messages ∧ m.package = request.target.package := by
    intro m
    simp [ResolvedRequest.package, Schema.package]
  have hdeclared : ∀ m ∈ request.package.messages, ∀ file d, BuiltFrom files request.schema m file d →
      file ∈ files ∧ file.package = request.target.package ∧ file.Declares d ∧ m.DeclaredBy d ∧
        (file ∈ inputs → d.Plain) := by
    intro m hm file d hbuilt
    obtain ⟨hfile, hd, hpackage, hby⟩ := hfrom.of_builtFrom hbuilt
    exact ⟨hfile, hpackage.symm.trans ((hmessages m).1 hm).2, hd, hby, fun hin => (hinputs file hin).2.2.messages d hd⟩
  have hemitted : ∀ file ∈ files, file.package = request.target.package → ∀ d, file.Declares d →
      ∃ m ∈ request.package.messages, BuiltFrom files request.schema m file d := by
    intro file hfile hpackage d hd
    obtain ⟨m, hm, hbuilt⟩ := hfrom.exists_of_declares hfile hd
    exact ⟨m, (hmessages m).2 ⟨hm, (hfrom.of_builtFrom hbuilt).2.2.1.trans hpackage⟩, hbuilt⟩
  refine ⟨hinputs, fun m hm => hfrom.exists_builtFrom ((hmessages m).1 hm).1, hdeclared, hemitted, ?_, ?_⟩
  · intro hall file hfile hpackage _ d hd
    obtain ⟨m, hm, hbuilt⟩ := hemitted file hfile hpackage d hd
    exact hall m hm file d hbuilt
  · intro hothers m hm file d hbuilt
    obtain ⟨hfile, hpackage, hd, _, hplain⟩ := hdeclared m hm file d hbuilt
    by_cases hin : file ∈ inputs
    · exact hplain hin
    · exact hothers file hfile hpackage hin d hd

/-- **Nothing is approximated that a requested file declares.** A request for files that are found and agree, and that
declare an extension or an explicit default at any depth, ends in a fault that says so. After a request that is resolved
the messages of the package are those that the files of the package declare; the descriptors of the requested files are
plain, and all are exactly when those of the other files of the package are. -/
theorem plain_where_requested (names : List String) (files : List File) :
    (∀ inputs target, Request.selectFiles names files = .ok inputs → Request.commonTarget inputs = .ok target →
      (¬∀ file ∈ inputs, file.Plain) →
        ∃ fault, ResolvedRequest.ofBatch names files = .error fault ∧ fault.kind = .unsupportedFeature) ∧
      ∀ request, ResolvedRequest.ofBatch names files = .ok request →
        ∃ inputs, Request.selectFiles names files = .ok inputs ∧ PlainWhereRequested files inputs request := by
  constructor
  · intro inputs target hinputs htarget hplain
    obtain ⟨fault, hfault, hkind⟩ := Request.exists_refusal hinputs htarget hplain
    refine ⟨fault, ?_, hkind⟩
    rw [ResolvedRequest.ofBatch, hfault]
    rfl
  · intro request h
    obtain ⟨hvalid, declared, hdeclared, hresolve⟩ := ofBatch_eq_ok_iff.1 h
    obtain ⟨inputs, hinputs, htarget, hplain⟩ := Request.validate_eq_ok_iff.1 hvalid
    refine ⟨inputs, hinputs, plainWhereRequested_of_ok (fun file hfile => ?_) (resolvedFrom_of_ok hdeclared hresolve)⟩
    exact ⟨Request.mem_of_selectFiles hinputs hfile, Request.package_of_commonTarget htarget hfile, hplain file hfile⟩

def stockMessage : Message where
  name := "Stock"
  fields := [{ name := "level", number := 1, label := some 1, type := some 5, defaultValue := some "7" }]

def stockFile : File where
  name := "shop/stock.proto"
  package := "shop"
  messages := [stockMessage]

/-- a request for one file of a package of two -/
def splitRequest : Request where
  filesToGenerate := ["shop/refund.proto"]
  files := [{ name := "shop/refund.proto", package := "shop", messages := [sampleRefund] }, stockFile]

theorem plain_where_requested_sample :
    (∃ request, ResolvedRequest.ofBatch sampleRequest.filesToGenerate sampleFiles = .ok request ∧
      ∃ inputs, Request.selectFiles sampleRequest.filesToGenerate sampleFiles = .ok inputs ∧
        PlainWhereRequested sampleFiles inputs request) ∧
      ∃ fault, ResolvedRequest.ofBatch ["shop/stock.proto"] splitRequest.files = .error fault ∧
        fault.kind = .unsupportedFeature := by
  constructor
  · obtain ⟨request, h, _⟩ := exists_ok_of_check
      (x := ResolvedRequest.ofBatch sampleRequest.filesToGenerate sampleFiles)
      (P := fun request => request.package.messages.length = 4) (by decide +kernel)
    exact ⟨request, h, (plain_where_requested _ _).2 request h⟩
  · refine (plain_where_requested _ _).1 [stockFile] ⟨"shop", "shop"⟩ rfl (by decide +kernel) fun hplain => ?_
    have hdefaults := ((hplain stockFile (by simp)).messages stockMessage (.here (by simp [stockFile]))).defaults
    simp [stockMessage] at hdefaults

/-- **What the other files declare is not refused**: the level of the stock has the default 7, but the record of the
stock, which the outputs hold although its file was not asked for, has the default 0. -/
theorem default_outside_request_replaced :
    (∃ request, ResolvedRequest.ofBatch splitRequest.filesToGenerate splitRequest.files = .ok request ∧
      ∃ m ∈ request.package.messages, ∃ d, BuiltFrom splitRequest.files request.schema m stockFile d ∧
        d.fields.map (fun f => (f.name, f.defaultValue)) = [("level", some "7")] ∧ ¬d.Plain) ∧
      ∃ out, splitRequest.outputs = .ok out ∧
        out.head?.map (·.content) = some ("%%% Generated from protobuf package shop.\n%%% DO NOT EDIT.\n\n" ++
          "%% Generated for message type Refund.\n-record(refund, \x7b\x7d).\n\n" ++
          "%% Generated for message type Stock.\n" ++
          "-record(stock, \x7b\n  level = 0 :: undefined | -2147483648..2147483647\n\x7d).\n") := by
  constructor
  · obtain ⟨request, h, hmessages⟩ := exists_ok_of_check
      (x := ResolvedRequest.ofBatch splitRequest.filesToGenerate splitRequest.files)
      (P := fun request => request.package.messages = request.schema.messages ∧ request.schema.messages.length = 2)
      (by decide +kernel)
    obtain ⟨hall, hlength⟩ := hmessages
    have hm := List.getElem?_eq_getElem (l := request.schema.messages) (i := 1) (by omega)
    have hin : request.schema.messages[1] ∈ request.package.messages := by
      rw [hall]
      exact List.mem_of_getElem? hm
    refine ⟨request, h, _, hin, stockMessage,
      ⟨1, 1, (Place.ofFile 1 stockFile).inner 0 "Stock", hm, rfl, rfl, List.mem_cons_self⟩, rfl, fun hplain => ?_⟩
    have hdefaults := hplain.defaults
    simp [stockMessage] at hdefaults
  · apply exists_ok_of_check
    decide +kernel

end ErlangRecords
