/-
Insertions: what adding one declaration to a schema does, and what that keeps.

- `insertMessage_eq_ok_iff`, `insertEnum_eq_ok_iff`: an insertion succeeds exactly on a sound declaration with a new
  name; it puts the declaration at the end of its list and its name in front of the table.
- `Indexed`: the name table finds exactly the declarations of the two lists, each under its own name; every insertion
  keeps it.
- `foldlM_insert_iff`: a run of insertions succeeds exactly when all declarations are sound and all names are new.
-/
import Mathlib.Data.List.Nodup
import Mathlib.Tactic.Tauto
import ErlangRecords.Proofs.Body

namespace ErlangRecords

open Descriptor (File Message Enum)

/-! ## One insertion -/

namespace Schema

theorem insertMessage_eq_ok_iff {schema after : Schema} {d : Declaration} {m : Message} :
    schema.insertMessage d m = .ok after ↔ ∃ body, bodyOf m = .ok body ∧ schema.names.get? d.absoluteName = none ∧
      after =
        { schema with
          messages := schema.messages ++
            [{ d with fields := body.1, oneofs := body.2.map (·.ownedBy schema.messages.length) }]
          names := ⟨(d.absoluteName, .message schema.messages.length) :: schema.names.entries⟩ } := by
  unfold insertMessage
  simp only [atPlace_eq_ok, bind_eq_ok, ofDescriptor_eq_ok_iff, NameTable.insert_eq_ok_iff, pure, Except.pure,
    Except.ok.injEq]
  constructor
  · rintro ⟨decl, ⟨body, hb, rfl⟩, names, ⟨hnew, rfl⟩, rfl⟩
    exact ⟨body, hb, hnew, rfl⟩
  · rintro ⟨body, hb, hnew, rfl⟩
    exact ⟨_, ⟨body, hb, rfl⟩, _, ⟨hnew, rfl⟩, rfl⟩

theorem insertEnum_eq_ok_iff {schema after : Schema} {d : Declaration} {e : Enum} :
    schema.insertEnum d e = .ok after ↔ e.values ≠ [] ∧ schema.names.get? d.absoluteName = none ∧
      after =
        { schema with
          enums := schema.enums ++ [EnumDecl.ofDescriptor d e]
          names := ⟨(d.absoluteName, .enum schema.enums.length) :: schema.names.entries⟩ } := by
  have hempty : (EnumDecl.ofDescriptor d e).values.isEmpty = true ↔ e.values = [] := by
    simp [EnumDecl.ofDescriptor]
  simp only [insertEnum, atPlace_eq_ok, hempty]
  split
  · simp [*]
  · simp only [bind_eq_ok, NameTable.insert_eq_ok_iff, pure, Except.pure, Except.ok.injEq]
    constructor
    · rintro ⟨names, ⟨hnew, rfl⟩, rfl⟩
      exact ⟨‹_›, hnew, rfl⟩
    · rintro ⟨_, hnew, rfl⟩
      exact ⟨_, ⟨hnew, rfl⟩, rfl⟩

/-! ## The table finds the declarations -/

/-- the name table holds exactly the declarations, each under its own name -/
structure Indexed (schema : Schema) : Prop where
  message : ∀ n i, schema.names.get? n = some (.message i) ↔
    ∃ m, schema.messages[i]? = some m ∧ m.absoluteName = n
  enum : ∀ n i, schema.names.get? n = some (.enum i) ↔ ∃ e, schema.enums[i]? = some e ∧ e.absoluteName = n

theorem indexed_empty : Indexed {} := by
  constructor <;> simp [NameTable.get?]

/-- one more declaration at the end: found at its position under its name -/
theorem keyed_snoc {α : Type} (key : α → String) (l : List α) (a : α) (n : String) (i : Nat) :
    (∃ x, (l ++ [a])[i]? = some x ∧ key x = n) ↔
      (∃ x, l[i]? = some x ∧ key x = n) ∨ (i = l.length ∧ key a = n) := by
  rcases Nat.lt_trichotomy i l.length with hi | rfl | hi
  · simp [List.getElem?_append_left hi, Nat.ne_of_lt hi]
  · simp
  · rw [List.getElem?_append_right (by omega), List.getElem?_eq_none (l := l) (by omega),
      List.getElem?_eq_none (by simp; omega)]
    simp only [reduceCtorEq, false_and, exists_false, false_or, false_iff, not_and]
    omega

theorem insertMessage_indexed {schema after : Schema} {d : Declaration} {m : Message} (hs : Indexed schema)
    (h : schema.insertMessage d m = .ok after) : Indexed after := by
  obtain ⟨body, _, hnew, rfl⟩ := insertMessage_eq_ok_iff.1 h
  constructor
  · intro n i
    rw [keyed_snoc (fun m : MessageDecl => m.absoluteName), NameTable.get?_cons, ← hs.message]
    by_cases hn : n = d.absoluteName
    · subst hn
      simp [hnew, eq_comm]
    · simp [hn, Ne.symm hn]
  · intro n i
    rw [NameTable.get?_cons, ← hs.enum]
    by_cases hn : n = d.absoluteName
    · subst hn
      simp [hnew]
    · simp [hn]

theorem insertEnum_indexed {schema after : Schema} {d : Declaration} {e : Enum} (hs : Indexed schema)
    (h : schema.insertEnum d e = .ok after) : Indexed after := by
  obtain ⟨_, hnew, rfl⟩ := insertEnum_eq_ok_iff.1 h
  constructor
  · intro n i
    rw [NameTable.get?_cons, ← hs.message]
    by_cases hn : n = d.absoluteName
    · subst hn
      simp [hnew]
    · simp [hn]
  · intro n i
    rw [keyed_snoc (fun e : EnumDecl => e.absoluteName), NameTable.get?_cons, ← hs.enum]
    by_cases hn : n = d.absoluteName
    · subst hn
      simp [hnew, EnumDecl.ofDescriptor, eq_comm]
    · simp [hn, Ne.symm hn, EnumDecl.ofDescriptor]

/-! ## Runs of insertions -/

/-- **Success of a run.** Where a step succeeds exactly on a sound element with a name that is still free, and takes
that name, a run succeeds exactly when all elements are sound, their names are distinct, and none was taken before. -/
theorem foldlM_insert_iff {α : Type} {step : Schema → α → Except SchemaFault Schema} {name : α → String}
    {Sound : α → Prop}
    (hok : ∀ s a, (∃ s', step s a = .ok s') ↔ Sound a ∧ s.names.get? (name a) = none)
    (hget : ∀ s a s', step s a = .ok s' → ∀ n, s'.names.get? n = none ↔ n ≠ name a ∧ s.names.get? n = none)
    (as : List α) (s : Schema) :
    (∃ s', as.foldlM step s = .ok s') ↔
      (∀ a ∈ as, Sound a) ∧ (as.map name).Nodup ∧ ∀ a ∈ as, s.names.get? (name a) = none := by
  induction as generalizing s with
  | nil => simp [pure, Except.pure]
  | cons a as ih =>
    simp only [List.foldlM_cons, bind_eq_ok, List.forall_mem_cons, List.map_cons, List.nodup_cons, List.mem_map,
      not_exists, not_and]
    constructor
    · rintro ⟨s', s1, h1, h2⟩
      obtain ⟨hsound, hfree⟩ := (hok s a).1 ⟨s1, h1⟩
      obtain ⟨hs, hnd, hfrees⟩ := (ih s1).1 ⟨s', h2⟩
      have hrest : ∀ b ∈ as, name b ≠ name a ∧ s.names.get? (name b) = none :=
        fun b hb => (hget s a s1 h1 _).1 (hfrees b hb)
      exact ⟨⟨hsound, hs⟩, ⟨fun b hb => (hrest b hb).1, hnd⟩, hfree, fun b hb => (hrest b hb).2⟩
    · rintro ⟨⟨hsound, hs⟩, ⟨hne, hnd⟩, hfree, hfrees⟩
      obtain ⟨s1, h1⟩ := (hok s a).2 ⟨hsound, hfree⟩
      obtain ⟨s', h2⟩ :=
        (ih s1).2 ⟨hs, hnd, fun b hb => (hget s a s1 h1 _).2 ⟨hne b hb, hfrees b hb⟩⟩
      exact ⟨s', s1, h1, h2⟩

/-- after a run, the names taken are those of its elements and those taken before -/
theorem get?_foldlM_insert {α : Type} {step : Schema → α → Except SchemaFault Schema} {name : α → String}
    (hget : ∀ s a s', step s a = .ok s' → ∀ n, s'.names.get? n = none ↔ n ≠ name a ∧ s.names.get? n = none)
    {as : List α} {s s' : Schema} (h : as.foldlM step s = .ok s') (n : String) :
    s'.names.get? n = none ↔ n ∉ as.map name ∧ s.names.get? n = none := by
  induction as generalizing s with
  | nil =>
    cases h
    simp
  | cons a as ih =>
    rw [List.foldlM_cons, bind_eq_ok] at h
    obtain ⟨s1, h1, h2⟩ := h
    rw [ih h2, hget s a s1 h1, List.map_cons, List.mem_cons, not_or]
    tauto

end Schema

end ErlangRecords
