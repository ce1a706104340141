/-
Runs of operations on a workspace.

Files are edited, and from time to time a schema is made of them or the one made last is resolved. An operation that
fails changes nothing, so a workspace holds the schema of the files as they were when one could last be made of them,
and resolved the one that was held when that last succeeded. Files only ever change by edits; adding some and declaring
again keeps all that was declared before.

- `Operation`, `step`, `run`: operations as data, one after the other, with the empty workspace for a start.
- `run_eq_some_iff`: what a run holds is what was last found.
- `step_declare`, `step_resolve`: the operations on schemas, whether they succeed or not.
- `declared_run_iff`, `resolved_run_iff`: the schemas that a run holds; `resolvedFrom_of_run`: where one is from.
- `files_run`: the files are those of the edits alone; `popFile_addFile`: a file is added and dropped again.
- `declared_continues`: files added between two declarations.
-/
import Mathlib.Data.List.Induction
import ErlangRecords.Proofs.Appending
import ErlangRecords.Proofs.Typed
import ErlangRecords.Workspace

namespace ErlangRecords

namespace Workspace

/-! ## Runs -/

inductive Operation where
  | addFile (file : Descriptor.File)
  | popFile
  | addMessage (position : Nat) (m : Descriptor.Message)
  | addEnum (position : Nat) (e : Descriptor.Enum)
  | addField (position message : Nat) (f : Descriptor.Field)
  | declare
  | resolve

/-- the operation is on files -/
def Operation.edits : Operation → Bool
  | .declare | .resolve => false
  | _ => true

/-- what stands after the operation; where it fails, that is what stood before -/
def step (w : Workspace) : Operation → Workspace
  | .addFile file => w.addFile file
  | .popFile => w.popFile
  | .addMessage position m => w.addMessage position m
  | .addEnum position e => w.addEnum position e
  | .addField position message f => w.addField position message f
  | .declare => w.declare.toOption.getD w
  | .resolve => w.resolve.toOption.getD w

def run (ops : List Operation) : Workspace := ops.foldl step {}

theorem run_concat (ops : List Operation) (op : Operation) : run (ops ++ [op]) = (run ops).step op :=
  List.foldl_concat step {} op ops

/-! ## What is held -/

/-- where something stands in a list with one more element at its end: it is that element, or stands before it -/
theorem concat_eq_append_cons_iff {α : Type} {l before after : List α} {a last : α} :
    l ++ [last] = before ++ a :: after ↔
      (before = l ∧ a = last ∧ after = []) ∨ ∃ init, l = before ++ a :: init ∧ after = init ++ [last] := by
  constructor
  · intro h
    rcases List.eq_nil_or_concat after with rfl | ⟨init, b, rfl⟩
    · obtain ⟨rfl, hlast⟩ := List.append_inj' h rfl
      exact .inl ⟨rfl, (List.cons.inj hlast).1.symm, rfl⟩
    · rw [List.concat_eq_append, ← List.cons_append, ← List.append_assoc] at h
      obtain ⟨rfl, hlast⟩ := List.append_inj' h rfl
      exact .inr ⟨init, rfl, by rw [List.concat_eq_append, hlast]⟩
  · rintro (⟨rfl, rfl, rfl⟩ | ⟨init, rfl, rfl⟩)
    · rfl
    · rw [List.append_assoc, List.cons_append]

/-- **What a run holds** is what was last found in it, if an operation that finds nothing leaves what is held alone. -/
theorem run_eq_some_iff {α : Type} {held : Workspace → Option α} {finds : Workspace → Operation → Option α}
    (hempty : held {} = none) (hstep : ∀ w op, held (w.step op) = (finds w op).or (held w)) {ops : List Operation}
    {a : α} : held (run ops) = some a ↔
      ∃ before op after, ops = before ++ op :: after ∧ finds (run before) op = some a ∧
        ∀ between later rest, after = between ++ later :: rest →
          finds (run (before ++ op :: between)) later = none := by
  -- from the last operation backwards: either it finds something, or what is held was held before it
  induction ops using List.reverseRecOn with
  | nil =>
    have hnone : held (run []) = none := hempty
    simp [hnone]
  | append_singleton ops last ih =>
    rw [run_concat, hstep]
    simp only [concat_eq_append_cons_iff]
    cases hlast : finds (run ops) last with
    | some b =>
      rw [Option.some_or, Option.some.injEq]
      constructor
      · rintro rfl
        exact ⟨ops, last, [], .inl ⟨rfl, rfl, rfl⟩, hlast, by simp⟩
      · rintro ⟨before, op, after, ⟨rfl, rfl, rfl⟩ | ⟨init, rfl, rfl⟩, hfinds, hlater⟩
        · exact Option.some.inj (hlast.symm.trans hfinds)
        · rw [hlater init last [] rfl] at hlast
          cases hlast
    | none =>
      rw [Option.none_or, ih]
      constructor
      · rintro ⟨before, op, after, rfl, hfinds, hlater⟩
        refine ⟨before, op, after ++ [last], .inr ⟨after, rfl, rfl⟩, hfinds, fun between later rest hafter => ?_⟩
        rcases concat_eq_append_cons_iff.1 hafter with ⟨rfl, rfl, rfl⟩ | ⟨init, rfl, _⟩
        · exact hlast
        · exact hlater between later init rfl
      · rintro ⟨before, op, after, ⟨rfl, rfl, rfl⟩ | ⟨init, rfl, rfl⟩, hfinds, hlater⟩
        · rw [hfinds] at hlast
          cases hlast
        · refine ⟨before, op, init, rfl, hfinds, ?_⟩
          rintro between later rest rfl
          exact hlater between later (rest ++ [last]) (by simp)

/-! ## Schemas -/

/-- the schema that an operation makes of the files -/
def declares (w : Workspace) : Operation → Option Schema
  | .declare => (Schema.ofFiles w.files).toOption
  | _ => none

/-- the schema that an operation resolves -/
def resolves (w : Workspace) : Operation → Option Schema
  | .resolve => w.declared.bind fun schema => schema.resolve.toOption
  | _ => none

theorem step_declare (w : Workspace) :
    w.step .declare = { w with declared := (w.declares .declare).or w.declared } := by
  unfold step declare declares
  cases Schema.ofFiles w.files <;> rfl

theorem step_resolve (w : Workspace) :
    w.step .resolve = { w with resolved := (w.resolves .resolve).or w.resolved } := by
  obtain ⟨files, declared, resolved⟩ := w
  cases declared with
  | none => rfl
  | some schema =>
    unfold step resolve resolves
    dsimp only [Option.bind_some]
    cases schema.resolve <;> rfl

theorem declared_step (w : Workspace) (op : Operation) : (w.step op).declared = (w.declares op).or w.declared := by
  cases op with
  | declare => rw [step_declare]
  | resolve =>
    rw [step_resolve]
    rfl
  | _ => rfl

theorem resolved_step (w : Workspace) (op : Operation) : (w.step op).resolved = (w.resolves op).or w.resolved := by
  cases op with
  | declare =>
    rw [step_declare]
    rfl
  | resolve => rw [step_resolve]
  | _ => rfl

section

variable {w : Workspace} {op : Operation} {ops : List Operation} {schema : Schema}

theorem toOption_eq_some_iff {ε α : Type} {x : Except ε α} {a : α} : x.toOption = some a ↔ x = .ok a := by
  cases x <;> simp [Except.toOption]

theorem declares_eq_some_iff : w.declares op = some schema ↔ op = .declare ∧ Schema.ofFiles w.files = .ok schema := by
  cases op <;> simp [declares, toOption_eq_some_iff]

theorem resolves_eq_some_iff : w.resolves op = some schema ↔
    op = .resolve ∧ ∃ declared, w.declared = some declared ∧ declared.resolve = .ok schema := by
  cases op <;> simp [resolves, Option.bind_eq_some_iff, toOption_eq_some_iff]

/-- **The schema held** is that of the files as they were when one was last made of them. -/
theorem declared_run_iff : (run ops).declared = some schema ↔
    ∃ before after, ops = before ++ .declare :: after ∧ Schema.ofFiles (run before).files = .ok schema ∧
      ∀ between rest, after = between ++ .declare :: rest →
        ∀ other, Schema.ofFiles (run (before ++ .declare :: between)).files ≠ .ok other := by
  rw [run_eq_some_iff rfl declared_step]
  simp only [Option.eq_none_iff_forall_ne_some, ne_eq, declares_eq_some_iff, not_and]
  constructor
  · rintro ⟨before, _, after, hops, ⟨rfl, hmade⟩, hlater⟩
    exact ⟨before, after, hops, hmade, fun between rest hafter other => hlater between _ rest hafter other rfl⟩
  · rintro ⟨before, after, hops, hmade, hlater⟩
    refine ⟨before, .declare, after, hops, ⟨rfl, hmade⟩, ?_⟩
    rintro between _ rest hafter other rfl
    exact hlater between rest hafter other

/-- **The resolved schema held** is that of the schema held when one was last resolved. -/
theorem resolved_run_iff : (run ops).resolved = some schema ↔
    ∃ before after, ops = before ++ .resolve :: after ∧
      (∃ declared, (run before).declared = some declared ∧ declared.resolve = .ok schema) ∧
      ∀ between rest, after = between ++ .resolve :: rest →
        ∀ declared, (run (before ++ .resolve :: between)).declared = some declared →
          ∀ other, declared.resolve ≠ .ok other := by
  rw [run_eq_some_iff rfl resolved_step]
  simp only [Option.eq_none_iff_forall_ne_some, ne_eq, resolves_eq_some_iff, not_and, not_exists]
  constructor
  · rintro ⟨before, _, after, hops, ⟨rfl, hresolved⟩, hlater⟩
    exact ⟨before, after, hops, hresolved,
      fun between rest hafter declared hdeclared other => hlater between _ rest hafter other rfl declared hdeclared⟩
  · rintro ⟨before, after, hops, hresolved, hlater⟩
    refine ⟨before, .resolve, after, hops, ⟨rfl, hresolved⟩, ?_⟩
    rintro between _ rest hafter other rfl declared hdeclared
    exact hlater between rest hafter declared hdeclared other

/-- a schema that is resolved in a run is one of files that stood in it, resolved -/
theorem resolvedFrom_of_run (h : (run ops).resolved = some schema) :
    ∃ before, before <+: ops ∧ ResolvedFrom (run before).files schema := by
  obtain ⟨front, after, rfl, ⟨declared, hdeclared, hresolve⟩, _⟩ := resolved_run_iff.1 h
  obtain ⟨before, between, rfl, hmade, _⟩ := declared_run_iff.1 hdeclared
  refine ⟨before, ?_, resolvedFrom_of_ok hmade hresolve⟩
  rw [List.append_assoc]
  exact List.prefix_append _ _

end

/-! ## Files -/

theorem files_step_of_not_edits {w : Workspace} {op : Operation} (h : op.edits = false) :
    (w.step op).files = w.files := by
  cases op with
  | declare => rw [step_declare]
  | resolve => rw [step_resolve]
  | _ => cases h

/-- an edit looks at files only -/
theorem files_step_of_edits {w w' : Workspace} {op : Operation} (h : op.edits = true) (hfiles : w.files = w'.files) :
    (w.step op).files = (w'.step op).files := by
  cases op with
  | declare | resolve => cases h
  | addFile file => exact congrArg (· ++ [file]) hfiles
  | popFile => exact congrArg List.dropLast hfiles
  | addMessage position _ | addEnum position _ | addField position _ _ =>
    exact congrArg (List.modify · position _) hfiles

/-- **The files of a run** are those of its edits alone. -/
theorem files_run (ops : List Operation) : (run ops).files = (run (ops.filter (·.edits))).files := by
  induction ops using List.reverseRecOn with
  | nil => rfl
  | append_singleton ops op ih =>
    rw [run_concat, List.filter_append]
    cases hop : op.edits with
    | true =>
      have hkept : [op].filter (·.edits) = [op] := by simp [hop]
      rw [hkept, run_concat]
      exact files_step_of_edits hop ih
    | false =>
      have hdropped : [op].filter (·.edits) = [] := by simp [hop]
      rw [hdropped, List.append_nil, files_step_of_not_edits hop, ih]

/-- a file that is added can be dropped again, with all that was put in it -/
theorem popFile_addFile (w : Workspace) (file : Descriptor.File) : (w.addFile file).popFile = w := by
  unfold addFile popFile
  rw [List.dropLast_concat]

theorem files_addFiles (ops : List Operation) (later : List Descriptor.File) :
    (run (ops ++ later.map .addFile)).files = (run ops).files ++ later := by
  induction later using List.reverseRecOn with
  | nil => rw [List.map_nil, List.append_nil, List.append_nil]
  | append_singleton later file ih =>
    rw [List.map_append, List.map_singleton, ← List.append_assoc, run_concat, ← List.append_assoc, ← ih]
    rfl

/-- **Files added between two declarations** leave all that was declared where it is: if the second succeeds, so did the
first, and its schema is the beginning of the other. -/
theorem declared_continues {ops : List Operation} {later : List Descriptor.File} {schema : Schema}
    (h : Schema.ofFiles (run (ops ++ [.declare] ++ later.map .addFile)).files = .ok schema) :
    (run (ops ++ [.declare] ++ later.map .addFile ++ [.declare])).declared = some schema ∧
      ∃ first, (run (ops ++ [.declare])).declared = some first ∧ schema.Continues first := by
  constructor
  · rw [run_concat, declared_step, declares_eq_some_iff.2 ⟨rfl, h⟩, Option.some_or]
  · rw [files_addFiles, run_concat, files_step_of_not_edits rfl] at h
    obtain ⟨first, hfirst⟩ := exists_ofFiles_of_append h
    refine ⟨first, ?_, continues_of_collected (collected_of_ok hfirst) (collected_of_ok h)⟩
    rw [run_concat, declared_step, declares_eq_some_iff.2 ⟨rfl, hfirst⟩, Option.some_or]

end Workspace

end ErlangRecords
