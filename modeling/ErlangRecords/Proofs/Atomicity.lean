/-
One field, resolved where it stands.

A field is written in two places, its target and its typing, and the first of these before the second is known. Still a
fault leaves no trace: all that can fail comes before the first write. What is written depends on nothing that was
written before, so a field may be resolved again, and whatever it bore at first.

- `Schema.entriesInRange`, `inRange_of_entries`: how to tell that all look-ups are in range.
- `run_eq_ok_iff`, `run_eq_error_iff`: how resolution of a field ends, and what the field is then.
- `resolve_again`: a resolved field is left as it is.
- `resolveInPlace_all_or_nothing`: all this, of any field and any schema.
-/
import ErlangRecords.Proofs.Dangling

namespace ErlangRecords

/-! ## Look-ups in range -/

/-- every entry of the name table is a position of the schema -/
def Schema.entriesInRange (schema : Schema) : Bool :=
  schema.names.entries.all fun entry =>
    match entry.2 with
    | .message position => position < schema.messages.length
    | .enum position => position < schema.enums.length

theorem inRange_of_entries {schema : Schema} (h : schema.entriesInRange = true) : InRange schema := by
  have hentry : ∀ name ref, schema.names.get? name = some ref → (name, ref) ∈ schema.names.entries := by
    intro name ref hget
    obtain ⟨before, after, heq, _⟩ := List.lookup_eq_some_iff.1 hget
    rw [heq]
    exact List.mem_append_right _ List.mem_cons_self
  have hall := List.all_eq_true.1 h
  constructor
  · intro name position hname
    have hin := hall _ (hentry _ _ (NameTable.message?_eq_some_iff.1 hname))
    exact of_decide_eq_true hin
  · intro name position hname
    have hin := hall _ (hentry _ _ (NameTable.enum?_eq_some_iff.1 hname))
    exact of_decide_eq_true hin

namespace FieldDecl

/-! ## How resolution ends -/

section

variable {schema : Schema} {package : String} {f g : FieldDecl} {fault : SchemaFault}

theorem run_eq_ok_iff : (resolveInPlace schema package).run f = .ok () g ↔ ∃ v, f.value schema package = .ok v ∧
    g = { f with target := v.target <|> f.target, typing := some (f.typingOf v) } := by
  rw [run_resolveInPlace]
  cases f.value schema package with
  | ok v => simp [eq_comm]
  | error fault => simp

/-- a fault is that of the look-ups, and nothing has been written -/
theorem run_eq_error_iff : (resolveInPlace schema package).run f = .error fault g ↔
    f.value schema package = .error fault ∧ g = f := by
  rw [run_resolveInPlace]
  cases f.value schema package with
  | ok v => simp
  | error fault' => simp [eq_comm (a := f)]

/-- the run that succeeds is the one whose result is kept -/
theorem resolve_eq_ok_iff_run :
    f.resolve schema package = .ok g ↔ (resolveInPlace schema package).run f = .ok () g := by
  rw [FieldDecl.resolve_eq_ok_iff, run_eq_ok_iff]

/-! ## Resolution once more -/

/-- target and typing play no part in the value, and the typing of a value is that of any such field -/
theorem run_stale {v : FieldValue} (hv : f.value schema package = .ok v) (target : Option TypeRef)
    (typing : Option FieldTyping) : (resolveInPlace schema package).run { f with target, typing } =
      .ok () { f with target := v.target <|> target, typing := some (f.typingOf v) } :=
  run_eq_ok_iff.2 ⟨v, hv, rfl⟩

/-- **A resolved field stays as it is** when it is resolved again. -/
theorem run_again (h : (resolveInPlace schema package).run f = .ok () g) :
    (resolveInPlace schema package).run g = .ok () g := by
  obtain ⟨v, hv, rfl⟩ := run_eq_ok_iff.1 h
  have htarget : (v.target <|> (v.target <|> f.target)) = (v.target <|> f.target) := by
    cases v.target <;> rfl
  rw [run_stale hv, htarget]

theorem resolve_again (h : f.resolve schema package = .ok g) : g.resolve schema package = .ok g :=
  resolve_eq_ok_iff_run.2 (run_again (resolve_eq_ok_iff_run.1 h))

/-! ## All of it -/

/-- the field `f` was resolved where it stood and is now `g` -/
structure Rewritten (schema : Schema) (package : String) (f g : FieldDecl) : Prop where
  /-- nothing but target and typing is written -/
  kept : { g with target := f.target, typing := f.typing } = f
  typed : ∃ typing, g.typing = some typing
  enum : f.kind = .enum →
    ∃ position, schema.names.enum? f.typeName = some position ∧ g.target = some (.enum position)
  message : f.kind = .message →
    ∃ position, schema.names.message? f.typeName = some position ∧ g.target = some (.message position)
  other : f.kind ≠ .enum → f.kind ≠ .message → g.target = f.target
  /-- whatever target and typing the field had before, its typing is the one it has now -/
  stale : ∀ target typing, ∃ g', (resolveInPlace schema package).run { f with target, typing } = .ok () g' ∧
    g'.typing = g.typing
  again : (resolveInPlace schema package).run g = .ok () g

theorem rewritten_of_run (h : (resolveInPlace schema package).run f = .ok () g) : Rewritten schema package f g := by
  have hagain := run_again h
  obtain ⟨v, hv, rfl⟩ := run_eq_ok_iff.1 h
  constructor
  case kept => rfl
  case typed => exact ⟨_, rfl⟩
  case enum =>
    intro hkind
    obtain ⟨position, e, first, hfind, _, rfl⟩ := (value_enum_eq_ok_iff hkind).1 hv
    exact ⟨position, NameTable.enum?_eq_some_iff.2 (Schema.enum?_eq_some_iff.1 hfind).1, rfl⟩
  case message =>
    intro hkind
    obtain ⟨position, m, hfind, rfl⟩ := (value_message_eq_ok_iff hkind).1 hv
    exact ⟨position, NameTable.message?_eq_some_iff.2 (Schema.message?_eq_some_iff.1 hfind).1, rfl⟩
  case other =>
    intro henum hmessage
    simp [(value_of_scalar henum hmessage hv).1]
  case stale => exact fun target typing => ⟨_, run_stale hv target typing, rfl⟩
  case again => exact hagain

end

/-- **All or nothing.** Where names denote positions in range, resolution of a field fails exactly when one of five
things stands in its way, with the fault for it, and leaves the field as it was, whatever it bore. Otherwise it writes
the typing, which does not depend on what was there before, and for a field that holds an enum or a message the
declaration looked up as its target; nothing else changes, and to resolve the field again changes nothing. -/
theorem resolveInPlace_all_or_nothing {schema : Schema} (hrange : InRange schema) (package : String) (f : FieldDecl) :
    (∀ fault g, (resolveInPlace schema package).run f = .error fault g ↔ f.Obstacle schema fault ∧ g = f) ∧
      ∀ g, (resolveInPlace schema package).run f = .ok () g → Rewritten schema package f g := by
  refine ⟨fun fault g => ?_, fun g => rewritten_of_run⟩
  rw [run_eq_error_iff, value_eq_error_iff hrange]

/-- an enum, one that has lost its values, and a message -/
def colorSchema : Schema where
  messages := [{ file := "p/a.proto", package := "p", name := "Point", fullName := "Point" }]
  enums := [
    { file := "p/a.proto", package := "p", name := "Color", fullName := "Color", values := [⟨"GREEN", 1⟩, ⟨"RED", 0⟩] },
    { file := "p/a.proto", package := "p", name := "Void", fullName := "Void" }]
  names := ⟨[(".p.Void", .enum 1), (".p.Color", .enum 0), (".p.Point", .message 0)]⟩

/-- a field of an enum with a target and a typing that are not its own -/
def staleField (typeName : String) : FieldDecl where
  name := "shade"
  number := 1
  cardinality := .optional
  kind := .enum
  typeName := typeName
  target := some (.message 0)
  typing := some ⟨.float, .list .float, .emptyList⟩

theorem resolveInPlace_all_or_nothing_sample :
    (∃ g, (resolveInPlace colorSchema "p").run (staleField ".p.Color") = .ok () g ∧ g.target = some (.enum 0) ∧
      g.typing = some ⟨.named none "color", .optional (.named none "color"), .atom "green"⟩ ∧
      Rewritten colorSchema "p" (staleField ".p.Color") g) ∧
    (resolveInPlace colorSchema "p").run (staleField ".p.Void") = .error (.emptyEnum "Void") (staleField ".p.Void") ∧
    (resolveInPlace colorSchema "p").run (staleField ".p.Point") =
      .error (.unknownType "enum" ".p.Point" "shade") (staleField ".p.Point") := by
  have hrange : InRange colorSchema := inRange_of_entries (by decide)
  have hvoid := (resolveInPlace_all_or_nothing hrange "p" (staleField ".p.Void")).1
  have hpoint := (resolveInPlace_all_or_nothing hrange "p" (staleField ".p.Point")).1
  refine ⟨?_, (hvoid _ _).2 ⟨?_, rfl⟩, (hpoint _ _).2 ⟨.unknownEnum rfl (by decide +kernel), rfl⟩⟩
  · obtain ⟨g, hg, htarget, htyping⟩ := exists_ok_of_check (x := (staleField ".p.Color").resolve colorSchema "p")
      (P := fun g => g.target = some (.enum 0) ∧
        g.typing = some ⟨.named none "color", .optional (.named none "color"), .atom "green"⟩) (by decide +kernel)
    have hrun := resolve_eq_ok_iff_run.1 hg
    exact ⟨g, hrun, htarget, htyping, (resolveInPlace_all_or_nothing hrange "p" _).2 g hrun⟩
  · exact .emptyEnum (e := colorSchema.enums[1]) rfl (by decide +kernel : _ = some 1) rfl rfl

end FieldDecl

end ErlangRecords
