/-
The name table: absolute names with the declarations they denote.

Messages and enums share one key space. The first insertion of a name wins: a second one fails and leaves the table as
it was. Declarations are given by position, see `ErlangRecords.Schema`.
-/
import ErlangRecords.SchemaFault

namespace ErlangRecords

/-- a declaration of the batch, by sort and position -/
inductive TypeRef where
  | message (position : Nat)
  | enum (position : Nat)
deriving DecidableEq, Repr

/-- the entries, newest first, no name twice -/
structure NameTable where
  entries : List (String × TypeRef) := []
deriving DecidableEq, Repr

namespace NameTable

/-- the declaration a name denotes -/
def get? (table : NameTable) (name : String) : Option TypeRef := table.entries.lookup name

/-- enters a declaration under its name, unless the name is taken; the table is written where it stands -/
def insertInPlace (name : String) (target : TypeRef) : EStateM SchemaFault NameTable Unit := do
  let table ← get
  match table.get? name with
  | some _ => throw (.nameCollision name)
  | none => set (⟨(name, target) :: table.entries⟩ : NameTable)

/-- the table with one more declaration -/
def insert (table : NameTable) (name : String) (target : TypeRef) : Except SchemaFault NameTable :=
  match (insertInPlace name target).run table with
  | .ok _ after => .ok after
  | .error fault _ => .error fault

/-- the look-up comes before the write, so a fault leaves the table as it was -/
theorem run_insertInPlace (table : NameTable) (name : String) (target : TypeRef) :
    (insertInPlace name target).run table =
      match table.get? name with
      | some _ => .error (.nameCollision name) table
      | none => .ok () ⟨(name, target) :: table.entries⟩ := by
  unfold insertInPlace
  rw [EStateM.run_bind, EStateM.run_get]
  dsimp only
  cases table.get? name <;> rfl

theorem insert_of_none {table : NameTable} {name : String} (target : TypeRef) (h : table.get? name = none) :
    table.insert name target = .ok ⟨(name, target) :: table.entries⟩ := by
  simp only [insert, run_insertInPlace, h]

theorem insert_of_some {table : NameTable} {name : String} {old : TypeRef} (target : TypeRef)
    (h : table.get? name = some old) : table.insert name target = .error (.nameCollision name) := by
  simp only [insert, run_insertInPlace, h]

theorem insert_eq_ok_iff {table after : NameTable} {name : String} {target : TypeRef} :
    table.insert name target = .ok after ↔ table.get? name = none ∧ after = ⟨(name, target) :: table.entries⟩ := by
  cases h : table.get? name with
  | none => rw [insert_of_none target h]; simp [eq_comm]
  | some old => rw [insert_of_some target h]; simp

theorem get?_cons (table : NameTable) (name other : String) (target : TypeRef) :
    (⟨(name, target) :: table.entries⟩ : NameTable).get? other =
      if other = name then some target else table.get? other := by
  rw [get?, List.lookup_cons]
  by_cases h : other = name
  · have : (other == name) = true := by simpa using h
    rw [this, if_pos h]
  · have : (other == name) = false := by simpa using h
    rw [this, if_neg h]
    rfl

/-- the position of the message a name denotes -/
def message? (table : NameTable) (name : String) : Option Nat :=
  match table.get? name with
  | some (.message position) => some position
  | _ => none

/-- the position of the enum a name denotes -/
def enum? (table : NameTable) (name : String) : Option Nat :=
  match table.get? name with
  | some (.enum position) => some position
  | _ => none

theorem message?_eq_some_iff {table : NameTable} {name : String} {position : Nat} :
    table.message? name = some position ↔ table.get? name = some (.message position) := by
  unfold message?
  split <;> simp_all

theorem enum?_eq_some_iff {table : NameTable} {name : String} {position : Nat} :
    table.enum? name = some position ↔ table.get? name = some (.enum position) := by
  unfold enum?
  split <;> simp_all

end NameTable

end ErlangRecords
