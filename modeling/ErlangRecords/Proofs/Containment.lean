/-
Batches that declare all that another batch does.

- `Contained`: the listings of one batch hold the declarations of the other, but for addresses.
- `extends_of_contained`: the schema collected from it then extends that of the other.
-/
import ErlangRecords.Proofs.Arena
import ErlangRecords.Proofs.Bare
import ErlangRecords.Proofs.ByName

namespace ErlangRecords

open Descriptor (File Message Enum)

/-! ## More declarations -/

/-- the listings of the second batch hold all declarations of the first, but for addresses -/
structure Contained (files files' : List File) : Prop where
  messages : (batchMessages files).map bareMessage ⊆ (batchMessages files').map bareMessage
  enums : (batchEnums files).map bareEnum ⊆ (batchEnums files').map bareEnum

theorem Contained.messageNames {files files' : List File} (h : Contained files files') :
    (batchMessages files).map (·.1.absoluteName) ⊆ (batchMessages files').map (·.1.absoluteName) := by
  have := List.map_subset (·.1.absoluteName) h.messages
  rwa [List.map_map, List.map_map] at this

theorem Contained.enumNames {files files' : List File} (h : Contained files files') :
    (batchEnums files).map (·.1.absoluteName) ⊆ (batchEnums files').map (·.1.absoluteName) := by
  have := List.map_subset (·.1.absoluteName) h.enums
  rwa [List.map_map, List.map_map] at this

/-- entries of one key, where one list holds what the other does, are the same -/
theorem eq_of_subset_of_key {α β γ : Type} (key : β → γ) {f : α → β} {l l' : List α} (h : l.map f ⊆ l'.map f)
    (hnodup : ((l'.map f).map key).Nodup) {a a' : α} (ha : a ∈ l) (ha' : a' ∈ l') (hkey : key (f a) = key (f a')) :
    f a = f a' :=
  List.inj_on_of_nodup_map hnodup (h (List.mem_map_of_mem ha)) (List.mem_map_of_mem ha') hkey

/-! ## Parents -/

theorem Collected.naming_message {files : List File} {schema : Schema} (h : Collected files schema) (i : Nat) :
    schema.naming.message i = ((batchMessages files)[i]?).map (·.1.absoluteName) := by
  rw [← List.getElem?_map, ← h.messageNames, List.getElem?_map, Schema.naming_message]

/-- the parent of a declaration is named by the rest of its path -/
theorem Collected.parent_name {files : List File} {schema : Schema} (h : Collected files schema) {α : Type}
    {name : α → String} {top : File → List α} {inside : Message → List α} {e : Place × α} {d : Declaration}
    (hd : Parented name top inside files schema e d) :
    (d.parent = none ∧ e.1.path.tail = []) ∨ ∃ j, d.parent = some j ∧ e.1.path.tail ≠ [] ∧
      schema.naming.message j = some e.1.outer.absoluteName := by
  cases hd with
  | top _ hin hparent =>
    obtain ⟨k, _, hplace⟩ := hin
    exact Or.inl ⟨hparent, by rw [hplace]; rfl⟩
  | nested haround hin _ hparent =>
    obtain ⟨k, _, hplace⟩ := hin
    refine Or.inr ⟨_, hparent, ?_, ?_⟩
    · rw [hplace]
      exact path_ne_nil haround
    · rw [h.naming_message, haround, hplace]
      rfl

/-- declarations that differ in their addresses have parents of one name -/
theorem sameParent {files files' : List File} {schema schema' : Schema} (h : Collected files schema)
    (h' : Collected files' schema') {α : Type} {name : α → String} {top : File → List α} {inside : Message → List α}
    {e e' : Place × α} {d d' : Declaration} (hd : Parented name top inside files schema e d)
    (hd' : Parented name top inside files' schema' e' d') (hbare : e.1.bare = e'.1.bare) :
    Option.Rel (SameMessageAt schema.naming schema'.naming) d.parent d'.parent := by
  have hpath : e.1.bare.path.tail = e'.1.bare.path.tail := by rw [hbare]
  have houter : e.1.bare.outer.absoluteName = e'.1.bare.outer.absoluteName := by rw [hbare]
  change e.1.path.tail = e'.1.path.tail at hpath
  change e.1.outer.absoluteName = e'.1.outer.absoluteName at houter
  rcases h.parent_name hd with ⟨hparent, htail⟩ | ⟨j, hparent, htail, hname⟩ <;>
    rcases h'.parent_name hd' with ⟨hparent', htail'⟩ | ⟨j', hparent', htail', hname'⟩
  · rw [hparent, hparent']
    exact .none
  · exact absurd (hpath ▸ htail) htail'
  · exact absurd (hpath ▸ htail') htail
  · rw [hparent, hparent']
    exact .some ⟨_, hname, by rw [houter]; exact hname'⟩

/-- the declarations that such places give agree by name -/
theorem sameDeclaration {files files' : List File} {schema schema' : Schema} (h : Collected files schema)
    (h' : Collected files' schema') {α : Type} {name : α → String} {top : File → List α} {inside : Message → List α}
    {e e' : Place × α} (hbare : e.1.bare = e'.1.bare)
    (hd : Parented name top inside files schema e (e.1.declaration (positionOf files e.1.outer)))
    (hd' : Parented name top inside files' schema' e' (e'.1.declaration (positionOf files' e'.1.outer))) :
    SameDeclaration schema.naming schema'.naming (e.1.declaration (positionOf files e.1.outer))
      (e'.1.declaration (positionOf files' e'.1.outer)) := by
  refine ⟨?_, sameParent h h' hd hd' hbare⟩
  have hplace : e.1.bare.declaration none = e'.1.bare.declaration none := by rw [hbare]
  exact hplace

/-! ## The larger schema -/

section

variable {files files' : List File} {schema schema' : Schema} (h : Collected files schema)
  (h' : Collected files' schema') (hin : Contained files files') (hnodup : (batchNames files').Nodup)

include h h' hin hnodup

theorem sameMessage_of_collected {m m' : MessageDecl} (hm : m ∈ schema.messages) (hm' : m' ∈ schema'.messages)
    (hname : m.absoluteName = m'.absoluteName) : SameMessage schema.naming schema'.naming m m' := by
  obtain ⟨i, hm⟩ := List.getElem?_of_mem hm
  obtain ⟨i', hm'⟩ := List.getElem?_of_mem hm'
  obtain ⟨e, he, hnode⟩ := h.of_message hm
  obtain ⟨e', he', hnode'⟩ := h'.of_message hm'
  have hparented := (h.parented_message he hm).1
  have hparented' := (h'.parented_message he' hm').1
  obtain ⟨body, hb, rfl⟩ := hnode
  obtain ⟨body', hb', rfl⟩ := hnode'
  -- both are listed with the same data, for no other message bears the name
  have hbare : bareMessage e = bareMessage e' := by
    refine eq_of_subset_of_key (fun e => e.1.absoluteName) hin.messages ?_ (List.mem_of_getElem? he)
      (List.mem_of_getElem? he') hname
    rw [List.map_map]
    exact (List.nodup_append.1 hnodup).1
  have hbody : bodyOf (bareMessage e).2 = bodyOf (bareMessage e').2 := by rw [hbare]
  change bodyOf e.2 = bodyOf e'.2 at hbody
  rw [hb, hb'] at hbody
  cases hbody
  refine ⟨sameDeclaration h h' (congrArg Prod.fst hbare) hparented hparented', ?_, ?_⟩
  · rw [List.forall₂_same]
    intro f hf
    refine ⟨rfl, ?_⟩
    rw [(fresh_of_bodyOf hb).target f hf]
    exact .none
  · rw [List.forall₂_map_left_iff, List.forall₂_map_right_iff, List.forall₂_same]
    refine fun o _ => ⟨rfl, e.1.absoluteName, ?_, ?_⟩
    · exact (h.naming_message i).trans (by rw [he]; rfl)
    · refine (h'.naming_message i').trans ?_
      rw [he']
      exact congrArg some hname.symm

theorem sameEnum_of_collected {d d' : EnumDecl} (hd : d ∈ schema.enums) (hd' : d' ∈ schema'.enums)
    (hname : d.absoluteName = d'.absoluteName) : SameEnum schema.naming schema'.naming d d' := by
  obtain ⟨e, he, rfl⟩ := h.of_enum hd
  obtain ⟨e', he', rfl⟩ := h'.of_enum hd'
  have hbare : bareEnum e = bareEnum e' := by
    refine eq_of_subset_of_key (fun e => e.1.absoluteName) hin.enums ?_ he he' hname
    rw [List.map_map]
    exact (List.nodup_append.1 hnodup).2.1
  refine ⟨sameDeclaration h h' (congrArg Prod.fst hbare) (h.parented_enum he) (h'.parented_enum he'), ?_⟩
  have hvalues : (bareEnum e).2 = (bareEnum e').2 := by rw [hbare]
  change e.2 = e'.2 at hvalues
  simp only [enumNode, EnumDecl.ofDescriptor, hvalues]

end

/-- among all those keys, each is found at some position -/
theorem exists_getElem?_of_subset {α : Type} {key : α → String} {l l' : List α} (h : l.map key ⊆ l'.map key)
    {i : Nat} {a : α} (ha : l[i]? = some a) : ∃ (j : Nat) (a' : α), l'[j]? = some a' ∧ key a' = key a := by
  obtain ⟨a', ha', hkey⟩ := List.mem_map.1 (h (List.mem_map_of_mem (List.mem_of_getElem? ha)))
  obtain ⟨j, hj⟩ := List.getElem?_of_mem ha'
  exact ⟨j, a', hj, hkey⟩

theorem sameRef_of_collected {files files' : List File} {schema schema' : Schema} (h : Collected files schema)
    (h' : Collected files' schema') (hin : Contained files files') {name : String} {ref : TypeRef}
    (hget : schema.names.get? name = some ref) :
    ∃ ref', schema'.names.get? name = some ref' ∧ SameRef schema.naming schema'.naming ref ref' := by
  cases ref with
  | message i =>
    have hnames : schema.messages.map (·.absoluteName) ⊆ schema'.messages.map (·.absoluteName) := by
      rw [h.messageNames, h'.messageNames]
      exact hin.messageNames
    obtain ⟨m, hm, rfl⟩ := (h.indexed.message name i).1 hget
    obtain ⟨j, m', hm', hname⟩ := exists_getElem?_of_subset hnames hm
    have hi : schema.naming.message i = some m.absoluteName := by rw [Schema.naming_message, hm, Option.map_some]
    have hj : schema'.naming.message j = some m.absoluteName := by
      rw [Schema.naming_message, hm', Option.map_some, hname]
    exact ⟨.message j, (h'.indexed.message _ j).2 ⟨m', hm', hname⟩, .message ⟨_, hi, hj⟩⟩
  | enum i =>
    have hnames : schema.enums.map (·.absoluteName) ⊆ schema'.enums.map (·.absoluteName) := by
      rw [h.enumNames, h'.enumNames]
      exact hin.enumNames
    obtain ⟨e, he, rfl⟩ := (h.indexed.enum name i).1 hget
    obtain ⟨j, e', he', hname⟩ := exists_getElem?_of_subset hnames he
    have hi : schema.naming.enum i = some e.absoluteName := by rw [Schema.naming_enum, he, Option.map_some]
    have hj : schema'.naming.enum j = some e.absoluteName := by
      rw [Schema.naming_enum, he', Option.map_some, hname]
    exact ⟨.enum j, (h'.indexed.enum _ j).2 ⟨e', he', hname⟩, .enum hi hj⟩

/-- **The larger batch** is collected into a schema that extends that of the smaller one. -/
theorem extends_of_contained {files files' : List File} {schema schema' : Schema}
    (h : Schema.ofFiles files = .ok schema) (h' : Schema.ofFiles files' = .ok schema')
    (hin : Contained files files') : ExtendsByName schema schema' := by
  have hnodup := ((ofFiles_ok_iff files').1 ⟨schema', h'⟩).2.2
  have hc := collected_of_ok h
  have hc' := collected_of_ok h'
  constructor
  case name => exact fun name ref hget => sameRef_of_collected hc hc' hin hget
  case message => exact fun m hm m' hm' hname => sameMessage_of_collected hc hc' hin hnodup hm hm' hname
  case enum => exact fun e he e' he' hname => sameEnum_of_collected hc hc' hin hnodup he he' hname

end ErlangRecords
