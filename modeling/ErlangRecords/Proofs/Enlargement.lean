/-
Files of other packages do not disturb the outputs of a package.

More files in a batch shift the positions of all declarations and put more names in the table. The outputs show neither:
the names of the smaller batch denote what they did, and the declarations of the package stand in the order they did.

- `Enlarged`: a batch with more files, put in anywhere.
- `package_of_enlarged`: a package of the enlarged batch is the same but for positions.
- `outputs_ignore_other_packages`: so are its outputs.
-/
import ErlangRecords.Proofs.Containment
import ErlangRecords.Proofs.Handles
import ErlangRecords.Proofs.OrderIndependence
import ErlangRecords.Proofs.Written

namespace ErlangRecords

open Descriptor (File Message Enum)

/-! ## More files -/

/-- the second batch is the first with files put in, at any positions, for each of which `Other` holds -/
inductive Enlarged (Other : File → Prop) : List File → List File → Prop
  | nil : Enlarged Other [] []
  | keep (file : File) {files files' : List File} (h : Enlarged Other files files') :
      Enlarged Other (file :: files) (file :: files')
  | insert {file : File} (hother : Other file) {files files' : List File} (h : Enlarged Other files files') :
      Enlarged Other files (file :: files')

namespace Enlarged

variable {Other : File → Prop} {files files' : List File}

theorem subset (h : Enlarged Other files files') : files ⊆ files' := by
  induction h with
  | nil => exact List.Subset.refl _
  | keep file _ ih => exact List.cons_subset_cons file ih
  | insert _ _ ih => exact List.subset_cons_of_subset _ ih

/-- all that is listed of the smaller batch is listed of the larger one -/
theorem contained (h : Enlarged Other files files') : Contained files files' := by
  have hflatMap : ∀ {β : Type} (listing : File → List β), files.flatMap listing ⊆ files'.flatMap listing := by
    intro β listing b hb
    obtain ⟨file, hfile, hb⟩ := List.mem_flatMap.1 hb
    exact List.mem_flatMap.2 ⟨file, h.subset hfile, hb⟩
  constructor
  · rw [batchMessages_bare, batchMessages_bare]
    exact hflatMap bareMessagesOf
  · rw [batchEnums_bare, batchEnums_bare]
    exact hflatMap bareEnumsOf

/-- a selection that takes nothing of the new files is the same from both batches, in the same order -/
theorem filter_flatMap {β : Type} {listing : File → List β} {select : β → Bool}
    (hselect : ∀ file, Other file → (listing file).filter select = []) (h : Enlarged Other files files') :
    (files'.flatMap listing).filter select = (files.flatMap listing).filter select := by
  induction h with
  | nil => rfl
  | keep file _ ih => rw [List.flatMap_cons, List.flatMap_cons, List.filter_append, List.filter_append, ih]
  | insert hother _ ih => rw [List.flatMap_cons, List.filter_append, hselect _ hother, List.nil_append, ih]

/-- a file of another name than the new ones is found as before -/
theorem find?_eq {name : String} (hname : ∀ file, Other file → file.name ≠ name) (h : Enlarged Other files files') :
    files'.find? (·.name == name) = files.find? (·.name == name) := by
  induction h with
  | nil => rfl
  | keep file _ ih => rw [List.find?_cons, List.find?_cons, ih]
  | insert hother _ ih => rw [List.find?_cons_of_neg (by simpa using hname _ hother), ih]

/-- a request that asks for no new file is checked as before -/
theorem validate_eq {names : List String} (hnames : ∀ file, Other file → file.name ∉ names)
    (h : Enlarged Other files files') : Request.validate names files' = Request.validate names files := by
  have hselect : Request.selectFiles names files' = Request.selectFiles names files := by
    unfold Request.selectFiles
    split
    · rfl
    · apply mapM_congr_mem
      intro name hname
      rw [h.find?_eq fun file hother heq => hnames file hother (heq ▸ hname)]
  unfold Request.validate
  rw [hselect]

end Enlarged

/-! ## The declarations of a package -/

theorem Collected.bareMessages {files : List File} {schema : Schema} (h : Collected files schema) :
    schema.messages.map (fun m => { m.toDeclaration with parent := none }) =
      (files.flatMap bareMessagesOf).map (·.1.declaration none) := by
  rw [h.messageDeclarations, ← batchMessages_bare, List.map_map]
  rfl

theorem Collected.bareEnums {files : List File} {schema : Schema} (h : Collected files schema) :
    schema.enums.map (fun e => { e.toDeclaration with parent := none }) =
      (files.flatMap bareEnumsOf).map (·.1.declaration none) := by
  rw [h.enumDeclarations, ← batchEnums_bare, List.map_map]
  rfl

section

variable {Other : File → Prop} {files files' : List File} {target : Target}
  (hother : ∀ file, Other file → file.package ≠ target.package) (h : Enlarged Other files files')

include hother h

/-- what is listed of the target's package is the same, in the same order -/
theorem declarations_of_enlarged {α : Type} {listing : File → List (Place × α)}
    (hpackage : ∀ file, ∀ e ∈ listing file, e.1.package = file.package) :
    ((files'.flatMap listing).map (·.1.declaration none)).filter (·.package == target.package) =
      ((files.flatMap listing).map (·.1.declaration none)).filter (·.package == target.package) := by
  rw [List.map_flatMap, List.map_flatMap]
  apply h.filter_flatMap
  intro file hfile
  rw [List.filter_eq_nil_iff]
  intro d hd
  obtain ⟨e, he, rfl⟩ := List.mem_map.1 hd
  have heq : (e.1.declaration none).package = file.package := hpackage file e he
  rw [heq, beq_iff_eq]
  exact hother file hfile

/-- declarations of the package, taken from lists that hold what is listed of each batch, have the same names -/
theorem names_of_enlarged {α δ : Type} {listing : File → List (Place × α)}
    (hpackage : ∀ file, ∀ e ∈ listing file, e.1.package = file.package) {declaration : δ → Declaration} {l l' : List δ}
    (hl : l.map (fun d => { declaration d with parent := none }) = (files.flatMap listing).map (·.1.declaration none))
    (hl' : l'.map (fun d => { declaration d with parent := none }) =
      (files'.flatMap listing).map (·.1.declaration none)) :
    (l.filter fun d => (declaration d).package == target.package).map (fun d => (declaration d).absoluteName) =
      (l'.filter fun d => (declaration d).package == target.package).map (fun d => (declaration d).absoluteName) := by
  have heq := declarations_of_enlarged hother h hpackage
  rw [← hl, ← hl', List.filter_map, List.filter_map] at heq
  have hnames := congrArg (List.map Declaration.absoluteName) heq
  rw [List.map_map, List.map_map] at hnames
  exact hnames.symm

variable {schema schema' resolved resolved' : Schema} (hschema : Schema.ofFiles files = .ok schema)
  (hschema' : Schema.ofFiles files' = .ok schema')

include hschema hschema'

/-- **The same package**: in the enlarged batch, the target's package differs in positions only. -/
theorem package_of_enlarged (hresolve : schema.resolve = .ok resolved) (hresolve' : schema'.resolve = .ok resolved') :
    (resolved.package target).erase = (resolved'.package target).erase := by
  have hextends := extends_of_contained hschema hschema' h.contained
  have hnames : ∀ {s r : Schema}, s.resolve = .ok r →
      (r.messages.filter (·.package == target.package)).map (·.absoluteName) =
        (s.messages.filter (·.package == target.package)).map (·.absoluteName) := by
    intro s r hr
    have hdeclarations := congrArg (fun ds : List Declaration =>
      (ds.filter (·.package == target.package)).map (·.absoluteName)) (messages_of_resolve hr)
    simp only [List.filter_map, List.map_map] at hdeclarations
    exact hdeclarations
  have hmessages : (resolved.messages.filter (·.package == target.package)).map (·.erase) =
      (resolved'.messages.filter (·.package == target.package)).map (·.erase) := by
    have hsame : (schema.messages.filter (·.package == target.package)).map (·.absoluteName) =
        (schema'.messages.filter (·.package == target.package)).map (·.absoluteName) :=
      names_of_enlarged hother h (fun file e => package_of_mem_bareMessagesOf) (collected_of_ok hschema).bareMessages
        (collected_of_ok hschema').bareMessages
    apply map_eq_map_of_key ((hnames hresolve).trans (hsame.trans (hnames hresolve').symm))
    intro m hm m' hm' hname
    exact (resolved_messages_agree hextends hresolve hresolve' (List.mem_filter.1 hm).1 (List.mem_filter.1 hm').1
      hname).erase_eq
  have henums : (resolved.enums.filter (·.package == target.package)).map (·.erase) =
      (resolved'.enums.filter (·.package == target.package)).map (·.erase) := by
    rw [(resolve_eq_ok_iff.1 hresolve).1, (resolve_eq_ok_iff.1 hresolve').1]
    have hsame : (schema.enums.filter (·.package == target.package)).map (·.absoluteName) =
        (schema'.enums.filter (·.package == target.package)).map (·.absoluteName) :=
      names_of_enlarged hother h (fun file e => package_of_mem_bareEnumsOf) (collected_of_ok hschema).bareEnums
        (collected_of_ok hschema').bareEnums
    apply map_eq_map_of_key hsame
    intro e he e' he' hname
    exact (hextends.enum e (List.mem_filter.1 he).1 e' (List.mem_filter.1 he').1 hname).erase_eq
  simp only [Schema.package, Package.erase, hmessages, henums]

end

/-! ## Outputs -/

/-- **Other packages do not matter.** Put any files of other packages, none of them asked for, into the batch of a
request that has outputs: if the larger batch can still be resolved, the outputs are the same to the letter. So they are
for all other names of files that are accepted on the larger batch and have the same package and directory. -/
theorem outputs_ignore_other_packages {request : Request} {out : List OutputFile} {resolved : ResolvedRequest}
    (hout : request.outputs = .ok out)
    (hbatch : ResolvedRequest.ofBatch request.filesToGenerate request.files = .ok resolved) {files' : List File}
    (h : Enlarged (fun file => file.package ≠ resolved.target.package ∧ file.name ∉ request.filesToGenerate)
      request.files files') (hfiles' : ∃ schema, resolvedBatch files' = .ok schema) :
    { request with files := files' }.outputs = .ok out ∧
      ∀ names resolved', ResolvedRequest.ofBatch names files' = .ok resolved' → resolved'.target = resolved.target →
        { request with filesToGenerate := names, files := files' }.outputs = .ok out := by
  obtain ⟨hparameter, hfor⟩ := outputs_eq_ok_iff.1 hout
  obtain ⟨htarget, schema, hschema, hresolve⟩ := ofBatch_eq_ok_iff.1 hbatch
  have hnames : ∀ names resolved', ResolvedRequest.ofBatch names files' = .ok resolved' →
      resolved'.target = resolved.target → outputsFor names files' = .ok out := by
    intro names resolved' hbatch' hsame
    obtain ⟨_, schema', hschema', hresolve'⟩ := ofBatch_eq_ok_iff.1 hbatch'
    have hpackage : resolved.package.erase = resolved'.package.erase := by
      unfold ResolvedRequest.package
      rw [hsame]
      exact package_of_enlarged (fun file hother => hother.1) h hschema hschema' hresolve hresolve'
    have houtputs : resolved'.package.outputs = resolved.package.outputs := by
      calc resolved'.package.outputs = resolved'.package.erase.outputs := (outputs_erase _).symm
        _ = resolved.package.erase.outputs := by rw [hpackage]
        _ = resolved.package.outputs := outputs_erase _
    rw [outputsFor, hbatch] at hfor
    rw [outputsFor, hbatch']
    simp only [Except.mapError, bind, Except.bind] at hfor ⊢
    rw [houtputs]
    exact hfor
  refine ⟨outputs_eq_ok_iff.2 ⟨hparameter, ?_⟩, ?_⟩
  · obtain ⟨schema', hfiles'⟩ := hfiles'
    obtain ⟨declared', hdeclared', hresolve'⟩ := bind_eq_ok.1 hfiles'
    apply hnames request.filesToGenerate ⟨resolved.target, schema'⟩ _ rfl
    rw [ofBatch_eq_ok_iff, h.validate_eq fun file hother => hother.2]
    exact ⟨htarget, declared', hdeclared', hresolve'⟩
  · intro names resolved' hbatch' hsame
    exact outputs_eq_ok_iff.2 ⟨hparameter, hnames names resolved' hbatch' hsame⟩

/-- `sampleFiles` with two files put in: one that refers to the shop, and one more of the package `party` -/
def sampleEnlarged : List File :=
  [{ name := "stock/item.proto"
     package := "stock"
     messages := [{
       name := "Item"
       fields := [{ name := "order", number := 1, label := some 1, type := some 11, typeName := ".shop.Order" }]
       enums := [{ name := "State", values := [⟨"IN", 0⟩, ⟨"OUT", 1⟩] }] }] },
    sampleShop [sampleOrder [sampleLine, { name := "Note" }], sampleRefund],
    { name := "party/company.proto", package := "party", messages := [{ name := "Company" }] },
    sampleParty]

theorem outputs_ignore_other_packages_sample : ∃ out, sampleRequest.outputs = .ok out ∧
    { sampleRequest with files := sampleEnlarged }.outputs = .ok out ∧
    { sampleRequest with
      filesToGenerate := ["shop/order.proto", "shop/order.proto"], files := sampleEnlarged }.outputs = .ok out := by
  obtain ⟨out, hout, _⟩ := exists_ok_of_check (x := sampleRequest.outputs) (P := fun _ => True) (by decide +kernel)
  obtain ⟨resolved, hbatch, htarget⟩ := exists_ok_of_check
    (x := ResolvedRequest.ofBatch sampleRequest.filesToGenerate sampleRequest.files)
    (P := fun resolved => resolved.target = ⟨"shop", "shop"⟩) (by decide +kernel)
  obtain ⟨schema, hschema, _⟩ := exists_ok_of_check (x := resolvedBatch sampleEnlarged) (P := fun _ => True)
    (by decide +kernel)
  obtain ⟨resolved', hbatch', htarget'⟩ := exists_ok_of_check
    (x := ResolvedRequest.ofBatch ["shop/order.proto", "shop/order.proto"] sampleEnlarged)
    (P := fun resolved => resolved.target = ⟨"shop", "shop"⟩) (by decide +kernel)
  have henlarged : Enlarged (fun file => file.package ≠ resolved.target.package ∧
      file.name ∉ sampleRequest.filesToGenerate) sampleRequest.files sampleEnlarged := by
    rw [htarget]
    exact .insert (by decide) (.keep _ (.insert (by decide) (.keep _ .nil)))
  obtain ⟨hsame, hnames⟩ := outputs_ignore_other_packages hout hbatch henlarged ⟨schema, hschema⟩
  exact ⟨out, hout, hsame, hnames _ resolved' hbatch' (htarget'.trans htarget.symm)⟩

end ErlangRecords
