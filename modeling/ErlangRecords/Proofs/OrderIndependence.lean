/-
The order of declarations plays no part.

- `agree_of_sameListings`: batches with the same declarations, in any order, are collected into schemas that agree by
  name.
- `resolution_ignores_order`: reordered batches are collected and resolved both or neither, and then agree by name.
-/
import ErlangRecords.Proofs.Containment
import ErlangRecords.Proofs.Reordering

namespace ErlangRecords

open Descriptor (File Message Enum)

/-! ## The same declarations -/

/-- the listings of the batches hold the same declarations, but for addresses -/
structure SameListings (files files' : List File) : Prop where
  messages : ((batchMessages files).map bareMessage).Perm ((batchMessages files').map bareMessage)
  enums : ((batchEnums files).map bareEnum).Perm ((batchEnums files').map bareEnum)

theorem SameListings.symm {files files' : List File} (h : SameListings files files') : SameListings files' files :=
  ⟨h.messages.symm, h.enums.symm⟩

theorem SameListings.contained {files files' : List File} (h : SameListings files files') : Contained files files' :=
  ⟨h.messages.subset, h.enums.subset⟩

theorem SameListings.messageNames {files files' : List File} (h : SameListings files files') :
    ((batchMessages files).map (·.1.absoluteName)).Perm ((batchMessages files').map (·.1.absoluteName)) := by
  have := h.messages.map (·.1.absoluteName)
  rwa [List.map_map, List.map_map] at this

theorem SameListings.enumNames {files files' : List File} (h : SameListings files files') :
    ((batchEnums files).map (·.1.absoluteName)).Perm ((batchEnums files').map (·.1.absoluteName)) := by
  have := h.enums.map (·.1.absoluteName)
  rwa [List.map_map, List.map_map] at this

/-- a batch is collected when one with the same declarations is -/
theorem SameListings.exists_ofFiles {files files' : List File} (h : SameListings files files')
    (hfiles : ∃ schema, Schema.ofFiles files = .ok schema) : ∃ schema, Schema.ofFiles files' = .ok schema := by
  obtain ⟨hbodies, hvalues, hnodup⟩ := (ofFiles_ok_iff files).1 hfiles
  refine (ofFiles_ok_iff files').2 ⟨fun e' he' => ?_, fun e' he' => ?_, ?_⟩
  · obtain ⟨e, he, hsame⟩ := List.mem_map.1 (h.messages.mem_iff.2 (List.mem_map_of_mem he'))
    have hbody : bodyOf e.2 = bodyOf e'.2 := congrArg (fun e => bodyOf e.2) hsame
    rw [← hbody]
    exact hbodies e he
  · obtain ⟨e, he, hsame⟩ := List.mem_map.1 (h.enums.mem_iff.2 (List.mem_map_of_mem he'))
    have hvalue : (bareEnum e).2 = (bareEnum e').2 := congrArg Prod.snd hsame
    change e.2 = e'.2 at hvalue
    rw [← hvalue]
    exact hvalues e he
  · exact (h.messageNames.append h.enumNames).nodup_iff.1 hnodup

/-! ## Collected schemas agree -/

/-- **Collected schemas agree** when the batches hold the same declarations. -/
theorem agree_of_sameListings {files files' : List File} {schema schema' : Schema}
    (h : Schema.ofFiles files = .ok schema) (h' : Schema.ofFiles files' = .ok schema')
    (hsame : SameListings files files') : AgreeByName schema schema' := by
  have hc := collected_of_ok h
  have hc' := collected_of_ok h'
  have hextends := extends_of_contained h h' hsame.contained
  have hback := extends_of_contained h' h hsame.symm.contained
  constructor
  case messageNames =>
    rw [hc.messageNames, hc'.messageNames]
    exact hsame.messageNames
  case enumNames =>
    rw [hc.enumNames, hc'.enumNames]
    exact hsame.enumNames
  case names =>
    intro name
    cases hget : schema.names.get? name with
    | some ref =>
      obtain ⟨ref', hget', href⟩ := hextends.name name ref hget
      rw [hget']
      exact .some href
    | none =>
      cases hget' : schema'.names.get? name with
      | none => exact .none
      | some ref' =>
        obtain ⟨ref, hget'', _⟩ := hback.name name ref' hget'
        rw [hget] at hget''
        cases hget''
  case message => exact hextends.message
  case enum => exact hextends.enum

/-! ## Reordered batches -/

/-- all declarations of a batch, resolved -/
def resolvedBatch (files : List File) : Except SchemaFault Schema := Schema.ofFiles files >>= Schema.resolve

theorem ReorderedFiles.sameListings {files files' : List File} (h : ReorderedFiles files files') :
    SameListings files files' :=
  ⟨batchMessages_perm h, batchEnums_perm h⟩

theorem SameListings.exists_resolvedBatch {files files' : List File} (h : SameListings files files')
    (hfiles : ∃ resolved, resolvedBatch files = .ok resolved) : ∃ resolved, resolvedBatch files' = .ok resolved := by
  obtain ⟨resolved, hresolved⟩ := hfiles
  obtain ⟨schema, hschema, hresolve⟩ := bind_eq_ok.1 hresolved
  obtain ⟨schema', hschema'⟩ := h.exists_ofFiles ⟨schema, hschema⟩
  obtain ⟨resolved', hresolve'⟩ := exists_resolve_of_agree (agree_of_sameListings hschema hschema' h) hresolve
  exact ⟨resolved', bind_eq_ok.2 ⟨schema', hschema', hresolve'⟩⟩

/-- **The order of declarations plays no part.** Batches with the same files in another order, and in them the same
messages and enums in another order at any depth, are collected and resolved both or neither; and then their schemas
hold the same absolute names, and under each the same declaration, with every handle denoting a declaration of the
same name. -/
theorem resolution_ignores_order {files files' : List File} (h : ReorderedFiles files files') :
    ((∃ resolved, resolvedBatch files = .ok resolved) ↔ ∃ resolved, resolvedBatch files' = .ok resolved) ∧
      ∀ resolved resolved', resolvedBatch files = .ok resolved → resolvedBatch files' = .ok resolved' →
        AgreeByName resolved resolved' := by
  have hsame := h.sameListings
  refine ⟨⟨hsame.exists_resolvedBatch, hsame.symm.exists_resolvedBatch⟩, fun resolved resolved' hr hr' => ?_⟩
  obtain ⟨schema, hschema, hresolve⟩ := bind_eq_ok.1 hr
  obtain ⟨schema', hschema', hresolve'⟩ := bind_eq_ok.1 hr'
  exact resolve_agrees (agree_of_sameListings hschema hschema' hsame) hresolve hresolve'

/-- `sampleFiles` with its files, the messages of one file and those inside one message the other way round -/
def sampleReordered : List File :=
  [sampleParty, sampleShop [sampleRefund, sampleOrder [{ name := "Note" }, sampleLine]]]

theorem reordered_sample : ReorderedFiles sampleFiles sampleReordered := by
  have horder : Reordered (sampleOrder [sampleLine, { name := "Note" }])
      (sampleOrder [{ name := "Note" }, sampleLine]) :=
    .intro (.swap _ _ []) (List.Perm.refl _)
  have hmessages : ReorderedMessages [sampleOrder [sampleLine, { name := "Note" }], sampleRefund]
      [sampleRefund, sampleOrder [{ name := "Note" }, sampleLine]] :=
    .trans (.cons horder (ReorderedMessages.refl _)) (.swap _ _ [])
  exact ⟨_, List.Perm.swap _ _ [], .cons (.refl _) (.cons ⟨rfl, rfl, hmessages, List.Perm.refl _, rfl⟩ .nil)⟩

theorem resolution_ignores_order_sample : ∃ resolved resolved', resolvedBatch sampleFiles = .ok resolved ∧
    resolvedBatch sampleReordered = .ok resolved' ∧ AgreeByName resolved resolved' ∧
    resolved.messages.map (·.fullName) = ["Order", "Order.Line", "Order.Note", "Refund", "Person"] ∧
    resolved'.messages.map (·.fullName) = ["Person", "Refund", "Order", "Order.Note", "Order.Line"] := by
  obtain ⟨resolved, h, hnames⟩ := exists_ok_of_check (x := resolvedBatch sampleFiles)
    (P := fun resolved => resolved.messages.map (·.fullName) =
      ["Order", "Order.Line", "Order.Note", "Refund", "Person"]) (by decide +kernel)
  obtain ⟨resolved', h', hnames'⟩ := exists_ok_of_check (x := resolvedBatch sampleReordered)
    (P := fun resolved => resolved.messages.map (·.fullName) =
      ["Person", "Refund", "Order", "Order.Note", "Order.Line"]) (by decide +kernel)
  exact ⟨resolved, resolved', h, h', (resolution_ignores_order reordered_sample).2 resolved resolved' h h', hnames,
    hnames'⟩

end ErlangRecords
