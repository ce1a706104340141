/-
Look-up by absolute name.

The name table and the two lists of declarations say the same: a name denotes a position exactly when the declaration
there bears it. Resolution changes neither side.

- `Indexed.message?_eq_some_iff`, `Indexed.enum?_eq_some_iff`: what a name finds; `Indexed.message?_eq_none_iff`,
  `Indexed.enum?_eq_none_iff`, `Indexed.get?_eq_none_iff`: which names find nothing.
- `SameDeclarations.indexed`: schemas with the same declarations have the same look-up.
- `LookupExact`, `lookup_exact`: look-up in a collected batch, and in the same batch resolved.
-/
import ErlangRecords.Proofs.Arena
import ErlangRecords.Proofs.InPlace

namespace ErlangRecords

open Descriptor (File)

/-! ## What a name finds -/

theorem exists_getElem?_iff {α : Type} {key : α → String} {l : List α} {i : Nat} {n : String} :
    (∃ a, l[i]? = some a ∧ key a = n) ↔ (l.map key)[i]? = some n := by
  rw [List.getElem?_map, Option.map_eq_some_iff]

theorem mem_map_iff_exists_getElem? {α : Type} {key : α → String} {l : List α} {n : String} :
    n ∈ l.map key ↔ ∃ (i : Nat) (a : α), l[i]? = some a ∧ key a = n := by
  simp only [exists_getElem?_iff, List.mem_iff_getElem?]

namespace Schema.Indexed

variable {schema : Schema} (h : schema.Indexed)

include h

theorem message?_eq_some_iff {n : String} {i : Nat} {m : MessageDecl} :
    schema.message? n = some (i, m) ↔ schema.messages[i]? = some m ∧ m.absoluteName = n := by
  rw [Schema.message?_eq_some_iff, h.message]
  constructor
  · rintro ⟨⟨m', hm', hname⟩, hm⟩
    rw [hm, Option.some.injEq] at hm'
    exact ⟨hm, hm' ▸ hname⟩
  · rintro ⟨hm, hname⟩
    exact ⟨⟨m, hm, hname⟩, hm⟩

theorem enum?_eq_some_iff {n : String} {i : Nat} {e : EnumDecl} :
    schema.enum? n = some (i, e) ↔ schema.enums[i]? = some e ∧ e.absoluteName = n := by
  rw [Schema.enum?_eq_some_iff, h.enum]
  constructor
  · rintro ⟨⟨e', he', hname⟩, he⟩
    rw [he, Option.some.injEq] at he'
    exact ⟨he, he' ▸ hname⟩
  · rintro ⟨he, hname⟩
    exact ⟨⟨e, he, hname⟩, he⟩

theorem message?_eq_none_iff {n : String} :
    schema.message? n = none ↔ n ∉ schema.messages.map (·.absoluteName) := by
  simp only [Option.eq_none_iff_forall_ne_some, Prod.forall, ne_eq, h.message?_eq_some_iff,
    mem_map_iff_exists_getElem?, not_exists]

theorem enum?_eq_none_iff {n : String} : schema.enum? n = none ↔ n ∉ schema.enums.map (·.absoluteName) := by
  simp only [Option.eq_none_iff_forall_ne_some, Prod.forall, ne_eq, h.enum?_eq_some_iff, mem_map_iff_exists_getElem?,
    not_exists]

/-- a name is unknown exactly when no declaration bears it -/
theorem get?_eq_none_iff {n : String} :
    schema.names.get? n = none ↔ n ∉ schema.messages.map (·.absoluteName) ++ schema.enums.map (·.absoluteName) := by
  rw [List.mem_append, mem_map_iff_exists_getElem?, mem_map_iff_exists_getElem?]
  constructor
  · rintro hnone (⟨i, hi⟩ | ⟨i, hi⟩)
    · rw [(h.message n i).2 hi] at hnone
      cases hnone
    · rw [(h.enum n i).2 hi] at hnone
      cases hnone
  · intro hfree
    cases hget : schema.names.get? n with
    | none => rfl
    | some ref =>
      cases ref with
      | message i => exact absurd (Or.inl ⟨i, (h.message n i).1 hget⟩) hfree
      | enum i => exact absurd (Or.inr ⟨i, (h.enum n i).1 hget⟩) hfree

/-- no name finds both a message and an enum -/
theorem message?_or_enum?_eq_none (n : String) : schema.message? n = none ∨ schema.enum? n = none := by
  cases hm : schema.message? n with
  | none => exact Or.inl rfl
  | some found =>
    right
    obtain ⟨hget, _⟩ := Schema.message?_eq_some_iff.1 hm
    rw [h.enum?_eq_none_iff, mem_map_iff_exists_getElem?]
    rintro ⟨i, hi⟩
    rw [(h.enum n i).2 hi] at hget
    cases hget

end Schema.Indexed

theorem SameDeclarations.messageNames {s schema : Schema} (hs : SameDeclarations s schema) :
    s.messages.map (·.absoluteName) = schema.messages.map (·.absoluteName) := by
  have hnames := congrArg (List.map Declaration.absoluteName) hs.messages
  rwa [List.map_map, List.map_map] at hnames

/-- schemas that differ in the fields and oneofs of their messages only have the same look-up -/
theorem SameDeclarations.indexed {s schema : Schema} (hs : SameDeclarations s schema) (h : schema.Indexed) :
    s.Indexed := by
  constructor
  · intro n i
    rw [hs.names, h.message, exists_getElem?_iff, exists_getElem?_iff, hs.messageNames]
  · intro n i
    rw [hs.names, hs.enums, h.enum]

/-! ## Batches -/

/-- look-up in the schema of a batch finds exactly its declarations, each under its own name and at its own position -/
structure LookupExact (files : List File) (schema : Schema) : Prop where
  message : ∀ n i, schema.names.get? n = some (.message i) ↔
    ∃ m, schema.messages[i]? = some m ∧ m.absoluteName = n
  enum : ∀ n i, schema.names.get? n = some (.enum i) ↔ ∃ e, schema.enums[i]? = some e ∧ e.absoluteName = n
  /-- no two declarations of the two lists together bear one name -/
  distinct : (schema.messages.map (·.absoluteName) ++ schema.enums.map (·.absoluteName)).Nodup
  findMessage : ∀ i m, schema.messages[i]? = some m → schema.message? m.absoluteName = some (i, m)
  findEnum : ∀ i e, schema.enums[i]? = some e → schema.enum? e.absoluteName = some (i, e)
  oneSort : ∀ n, schema.message? n = none ∨ schema.enum? n = none
  /-- the names that are unknown are those the batch does not declare -/
  unknown : ∀ n, schema.names.get? n = none ↔ n ∉ batchNames files

theorem lookupExact_of_indexed {files : List File} {schema : Schema} (h : schema.Indexed)
    (hnames : schema.messages.map (·.absoluteName) ++ schema.enums.map (·.absoluteName) = batchNames files)
    (hnodup : (batchNames files).Nodup) : LookupExact files schema := by
  constructor
  case message => exact h.message
  case enum => exact h.enum
  case distinct => rwa [hnames]
  case findMessage => exact fun i m hm => h.message?_eq_some_iff.2 ⟨hm, rfl⟩
  case findEnum => exact fun i e he => h.enum?_eq_some_iff.2 ⟨he, rfl⟩
  case oneSort => exact h.message?_or_enum?_eq_none
  case unknown => exact fun n => by rw [h.get?_eq_none_iff, hnames]

/-- **Look-up is exact.** Once a batch is collected, a name denotes a position exactly when the declaration there bears
it, and the names that denote nothing are those the batch does not declare. All this holds, with the same answers, once
the batch is resolved. -/
theorem lookup_exact {files : List File} {schema : Schema} (h : Schema.ofFiles files = .ok schema) :
    LookupExact files schema ∧ ∀ resolved, schema.resolve = .ok resolved →
      LookupExact files resolved ∧ (∀ n, resolved.names.get? n = schema.names.get? n) ∧
        (∀ n, resolved.enum? n = schema.enum? n) ∧
          ∀ n, (resolved.message? n).map (fun found => (found.1, found.2.toDeclaration)) =
            (schema.message? n).map fun found => (found.1, found.2.toDeclaration) := by
  have hc := collected_of_ok h
  have hnodup := ((ofFiles_ok_iff files).1 ⟨schema, h⟩).2.2
  have hnames : schema.messages.map (·.absoluteName) ++ schema.enums.map (·.absoluteName) = batchNames files := by
    rw [hc.messageNames, hc.enumNames, batchNames]
  refine ⟨lookupExact_of_indexed hc.indexed hnames hnodup, fun resolved hr => ?_⟩
  have hsame := sameDeclarations_of_resolve hr
  have hnames' : resolved.messages.map (·.absoluteName) ++ resolved.enums.map (·.absoluteName) = batchNames files := by
    rw [hsame.messageNames, hsame.enums, hnames]
  refine ⟨lookupExact_of_indexed (hsame.indexed hc.indexed) hnames' hnodup, fun n => by rw [hsame.names], fun n => ?_,
    hsame.message?⟩
  rw [Schema.enum?, Schema.enum?, hsame.names, hsame.enums]

/-- a nested message, a top-level enum, and a local name that nothing bears by itself -/
def sampleQueries : List String := [".shop.Order.Line", ".party.Role", ".shop.Line"]

theorem lookup_exact_sample : ∃ schema resolved, Schema.ofFiles sampleFiles = .ok schema ∧
    schema.resolve = .ok resolved ∧ LookupExact sampleFiles schema ∧ LookupExact sampleFiles resolved ∧
    sampleQueries.map resolved.names.get? = [some (.message 1), some (.enum 3), none] := by
  obtain ⟨schema, h, hresolves⟩ := exists_ok_of_check (x := Schema.ofFiles sampleFiles)
    (P := fun schema => (schema.resolve.toOption.any fun resolved =>
      decide (sampleQueries.map resolved.names.get? = [some (.message 1), some (.enum 3), none])) = true)
    (by decide +kernel)
  obtain ⟨resolved, hr, hget⟩ := exists_ok_of_check hresolves
  exact ⟨schema, resolved, h, hr, (lookup_exact h).1, ((lookup_exact h).2 resolved hr).1, hget⟩

end ErlangRecords
