/-
What a name table holds after any use of it.

A table is filled by insertions, and may be looked into at any time between them. The first insertion under a name is
the only one that counts: every later one is refused, of whatever sort its declaration is, and leaves the table as it
was. So a name denotes what was first inserted under it, and look-ups of one sort find it only if it is of that sort.

- `Operation.perform`: one use of a table; `after`, `outcome`: a table that was used, and what comes of one use more.
- `get?_perform`: what a use does to the look-up of a name; `get?_after`: what all of them did.
- `get?_after_eq_some_iff`, `taken_iff`: a name denotes what was first inserted under it, and is taken from then on.
- `first_write_wins`: all this, after any uses.
-/
import ErlangRecords.NameTable
import ErlangRecords.Proofs.FirstFault

namespace ErlangRecords.NameTable

/-! ## Uses of a table -/

inductive Operation where
  | insert (name : String) (target : TypeRef)
  | get (name : String)
  | message (name : String)
  | enum (name : String)
deriving DecidableEq, Repr

/-- what comes of an operation -/
inductive Outcome where
  | entered
  | refused (fault : SchemaFault)
  | declaration (found : Option TypeRef)
  | position (found : Option Nat)
deriving DecidableEq, Repr

/-- performs an operation on a table, which it may change -/
def Operation.perform (table : NameTable) : Operation → Outcome × NameTable
  | .insert name target =>
    match (insertInPlace name target).run table with
    | .ok _ after => (.entered, after)
    | .error fault after => (.refused fault, after)
  | .get name => (.declaration (table.get? name), table)
  | .message name => (.position (table.message? name), table)
  | .enum name => (.position (table.enum? name), table)

/-- an empty table after some operations -/
def after (ops : List Operation) : NameTable := ops.foldl (fun table op => (op.perform table).2) {}

/-- what comes of an operation after others -/
def outcome (before : List Operation) (op : Operation) : Outcome := (op.perform (after before)).1

/-- the first insertion under the name, of either sort, is that of `target` -/
def FirstInsertion (ops : List Operation) (name : String) (target : TypeRef) : Prop :=
  ∃ front back, ops = front ++ .insert name target :: back ∧ ∀ other, .insert name other ∉ front

/-- an insertion under the name has succeeded -/
def Taken (ops : List Operation) (name : String) : Prop :=
  ∃ front target back, ops = front ++ .insert name target :: back ∧ outcome front (.insert name target) = .entered

/-! ## One use -/

/-- what an operation inserts under the name -/
def Operation.target? (name : String) : Operation → Option TypeRef
  | .insert other target => if name = other then some target else none
  | _ => none

section

variable {table : NameTable} {ops : List Operation} {op : Operation} {name : String} {target : TypeRef}

theorem target?_eq_none_iff : op.target? name = none ↔ ∀ other, op ≠ .insert name other := by
  cases op with
  | insert other target => simp [Operation.target?, eq_comm]
  | get _ | message _ | enum _ => simp [Operation.target?]

theorem target?_eq_some_iff : op.target? name = some target ↔ op = .insert name target := by
  cases op with
  | insert other target' => simp [Operation.target?, eq_comm]
  | get _ | message _ | enum _ => simp [Operation.target?]

theorem perform_insert_of_none (target : TypeRef) (h : table.get? name = none) :
    (Operation.insert name target).perform table = (.entered, ⟨(name, target) :: table.entries⟩) := by
  simp only [Operation.perform, run_insertInPlace, h]

theorem perform_insert_of_some {old : TypeRef} (target : TypeRef) (h : table.get? name = some old) :
    (Operation.insert name target).perform table = (.refused (.nameCollision name), table) := by
  simp only [Operation.perform, run_insertInPlace, h]

/-- **One use** lets every name denote what it denoted, and only one that denoted nothing what is inserted under it. -/
theorem get?_perform (table : NameTable) (op : Operation) (name : String) :
    (op.perform table).2.get? name = (table.get? name).or (op.target? name) := by
  cases op with
  | insert other target =>
    cases hother : table.get? other with
    | none =>
      rw [perform_insert_of_none target hother, get?_cons, Operation.target?]
      split
      · rename_i hname
        rw [hname, hother]
        rfl
      · rw [Option.or_none]
    | some old =>
      rw [perform_insert_of_some target hother, Operation.target?]
      split
      · rename_i hname
        rw [hname, hother]
        rfl
      · rw [Option.or_none]
  | get _ | message _ | enum _ => exact (Option.or_none).symm

/-! ## Any uses -/

theorem get?_foldl (table : NameTable) (ops : List Operation) (name : String) :
    (ops.foldl (fun table op => (op.perform table).2) table).get? name =
      (table.get? name).or (ops.findSome? (·.target? name)) := by
  induction ops generalizing table with
  | nil => exact (Option.or_none).symm
  | cons op ops ih => rw [List.foldl_cons, ih, get?_perform, Option.or_assoc, findSome?_cons_eq_or]

theorem get?_after (ops : List Operation) (name : String) : (after ops).get? name = ops.findSome? (·.target? name) :=
  get?_foldl {} ops name

/-- **A name denotes what was first inserted under it.** -/
theorem get?_after_eq_some_iff : (after ops).get? name = some target ↔ FirstInsertion ops name target := by
  rw [get?_after, findSome?_eq_some_iff_first (fun _ _ => target?_eq_none_iff) fun _ _ _ => target?_eq_some_iff]
  constructor
  · rintro ⟨front, _, back, rfl, hfront, rfl⟩
    exact ⟨front, back, rfl, fun other hin => hfront _ hin other rfl⟩
  · rintro ⟨front, back, rfl, hfront⟩
    exact ⟨front, _, back, rfl, fun op hin other heq => hfront other (heq ▸ hin), rfl⟩

theorem get?_after_eq_none_iff : (after ops).get? name = none ↔ ∀ target, .insert name target ∉ ops := by
  rw [get?_after, List.findSome?_eq_none_iff]
  simp only [target?_eq_none_iff]
  exact ⟨fun h target hin => h _ hin target rfl, fun h op hin target heq => h target (heq ▸ hin)⟩

theorem outcome_insert (ops : List Operation) (name : String) (target : TypeRef) :
    outcome ops (.insert name target) =
      if (after ops).get? name = none then .entered else .refused (.nameCollision name) := by
  unfold outcome
  cases hname : (after ops).get? name with
  | none => rw [perform_insert_of_none target hname, if_pos rfl]
  | some old => rw [perform_insert_of_some target hname, if_neg (by simp)]

/-- **A name is taken** from the first insertion under it on, which succeeds. -/
theorem taken_iff : Taken ops name ↔ (after ops).get? name ≠ none := by
  constructor
  · rintro ⟨front, target, back, rfl, _⟩ hnone
    exact get?_after_eq_none_iff.1 hnone target (by simp)
  · intro hsome
    obtain ⟨target, htarget⟩ := Option.ne_none_iff_exists'.1 hsome
    obtain ⟨front, back, rfl, hfront⟩ := get?_after_eq_some_iff.1 htarget
    exact ⟨front, target, back, rfl, by rw [outcome_insert, if_pos (get?_after_eq_none_iff.2 hfront)]⟩

/-- an insertion that is refused leaves the table as it was -/
theorem after_refused {fault : SchemaFault} (h : outcome ops (.insert name target) = .refused fault) :
    after (ops ++ [.insert name target]) = after ops := by
  rw [after, List.foldl_append, ← after]
  cases hname : (after ops).get? name with
  | none =>
    rw [outcome_insert, if_pos hname] at h
    cases h
  | some old =>
    change ((Operation.insert name target).perform (after ops)).2 = after ops
    rw [perform_insert_of_some target hname]

end

/-! ## All of it -/

/-- the table after these operations, and what comes of the next one -/
structure FirstWriteWins (ops : List Operation) : Prop where
  refused : ∀ name target fault,
    outcome ops (.insert name target) = .refused fault ↔ Taken ops name ∧ fault = .nameCollision name
  entered : ∀ name target, outcome ops (.insert name target) = .entered ↔ ¬Taken ops name
  /-- after an insertion that is refused, everything comes out as it would have without it -/
  kept : ∀ name target fault, outcome ops (.insert name target) = .refused fault →
    ∀ op, outcome (ops ++ [.insert name target]) op = outcome ops op
  get : ∀ name target, (after ops).get? name = some target ↔ FirstInsertion ops name target
  missing : ∀ name, (after ops).get? name = none ↔ ∀ target, .insert name target ∉ ops
  message : ∀ name position, (after ops).message? name = some position ↔ FirstInsertion ops name (.message position)
  enum : ∀ name position, (after ops).enum? name = some position ↔ FirstInsertion ops name (.enum position)

/-- **The first write wins.** After any insertions into an empty table, with any look-ups between them, an insertion is
refused exactly when one under the same name has succeeded, with the name in the fault, and is as good as none then. A
name denotes the declaration that was first inserted under it, and none if there was no insertion; as a message or as
an enum it is found if it was inserted as such, and otherwise it is not. -/
theorem first_write_wins (ops : List Operation) : FirstWriteWins ops where
  refused name target fault := by
    rw [outcome_insert, taken_iff]
    split
    · simp_all
    · simp_all [eq_comm]
  entered name target := by
    rw [outcome_insert, taken_iff]
    split <;> simp_all
  kept name target fault h op := by
    rw [outcome, after_refused h, outcome]
  get name target := get?_after_eq_some_iff
  missing name := get?_after_eq_none_iff
  message name position := by
    rw [message?_eq_some_iff, get?_after_eq_some_iff]
  enum name position := by
    rw [enum?_eq_some_iff, get?_after_eq_some_iff]

-- an enum does not get the name of a message, nor is the message found as an enum
example : let ops : List Operation := [.insert "a" (.message 3), .get "b", .insert "a" (.enum 0)]
    outcome (ops.take 2) (.insert "a" (.enum 0)) = .refused (.nameCollision "a") ∧
      outcome ops (.message "a") = .position (some 3) ∧ outcome ops (.enum "a") = .position none := by decide

end ErlangRecords.NameTable
