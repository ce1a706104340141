/-
Reading headers: what a header says is read back from its text.

What a header says of a slot is the name, the text of the default, and the type, where every user type names its module.
Names of packages and messages stand in comments, which end with their line; so they must hold no line break.

- `readDefault_append`, `readEntry_append`, `readRecord_append`: defaults, slots and records are read back.
- `read_headerWith`: so are headers.
-/
import ErlangRecords.Proofs.TypeReading
import ErlangRecords.Proofs.Written

namespace ErlangRecords

namespace Header

/-! ## What a header says -/

/-- a slot: its name, the text of its default, and its type -/
structure Entry where
  name : String
  default : String
  type : TypeExpr
deriving DecidableEq, Repr

structure Record where
  fullName : String
  typeName : String
  entries : List Entry
deriving DecidableEq, Repr

structure Contents where
  package : String
  records : List Record
deriving DecidableEq, Repr

def Line.entry (line : Line) : Entry := ⟨line.name, line.default.render, line.type⟩

def Definition.contents (d : Definition) : Record :=
  ⟨d.declaration.fullName, d.declaration.typeName, d.lines.map Line.entry⟩

/-! ## Readers -/

/-- the text of a default: an atom, or all up to the next blank -/
def readDefault (cs : List Char) : Option (String × List Char) :=
  match Atom.read cs with
  | some (name, rest) => some (Atom.quote name, rest)
  | none => some (String.ofList (cs.takeWhile (· ≠ ' ')), cs.dropWhile (· ≠ ' '))

def readEntry (cs : List Char) : Option (Entry × List Char) := do
  let cs ← skip "  " cs
  let (name, cs) ← Atom.read cs
  let cs ← skip " = " cs
  let (default, cs) ← readDefault cs
  let cs ← skip " :: " cs
  let (type, cs) ← TypeExpr.readSlotType cs
  return (⟨name, default, type⟩, cs)

/-- the slots of a record: none, or those on the lines that follow -/
def readEntries (cs : List Char) : Option (List Entry × List Char) :=
  match skip "\n" cs with
  | none => some ([], cs)
  | some cs => do
    let (first, cs) ← readEntry cs
    let others := many ",\n" readEntry cs
    let cs ← skip "\n" others.2
    return (first :: others.1, cs)

def readRecord (cs : List Char) : Option (Record × List Char) := do
  let cs ← skip "%% Generated for message type " cs
  let (fullName, cs) ← sentence cs
  let cs ← skip "-record(" cs
  let (typeName, cs) ← Atom.read cs
  let cs ← skip ", \x7b" cs
  let (entries, cs) ← readEntries cs
  let cs ← skip "\x7d).\n" cs
  return (⟨fullName, typeName, entries⟩, cs)

/-- what a header says; nothing may be left over -/
def read (text : String) : Option Contents := do
  let cs ← skip "%%% Generated from protobuf package " text.toList
  let (package, cs) ← sentence cs
  let cs ← skip "%%% DO NOT EDIT.\n" cs
  let records := many "\n" readRecord cs
  if records.2 = [] then some ⟨package, records.1⟩ else none

/-! ## Slots -/

section

variable {rest : List Char}

/-- a text without blanks that opens no atom -/
theorem readDefault_run {text : String} (hread : ∀ rest, Atom.read (text.toList ++ rest) = none)
    (hblank : ' ' ∉ text.toList) (rest : List Char) :
    readDefault (text.toList ++ ' ' :: rest) = some (text, ' ' :: rest) := by
  have htext : ∀ c ∈ text.toList, decide (c ≠ ' ') = true := by
    intro c hc
    simpa using fun heq : c = ' ' => hblank (heq ▸ hc)
  have hrest : ∀ c ∈ (' ' :: rest).head?, decide (c ≠ ' ') = false := by simp
  rw [readDefault, hread, takeWhile_append_of_stop htext hrest, dropWhile_append_of_stop htext hrest,
    String.ofList_toList]

theorem readDefault_atom (name : String) (rest : List Char) :
    readDefault ((Atom.quote name).toList ++ ' ' :: rest) = some (Atom.quote name, ' ' :: rest) := by
  rw [readDefault, Atom.read_quote name (Atom.ends_cons (by decide) rest)]

/-- **Defaults are read back.** -/
theorem readDefault_append (default : Literal) (rest : List Char) :
    readDefault (default.render.toList ++ ' ' :: rest) = some (default.render, ' ' :: rest) := by
  have hzero : ∀ rest, Atom.read ("0.0".toList ++ rest) = none := fun rest =>
    Atom.read_eq_none (by decide) (by decide) _
  have hlist : ∀ rest, Atom.read ("[]".toList ++ rest) = none := fun rest =>
    Atom.read_eq_none (by decide) (by decide) _
  cases default with
  | integer value => exact readDefault_run (read_int_eq_none value) (blank_not_mem_int value) rest
  | floatZero => exact readDefault_run hzero (by decide) rest
  | emptyList => exact readDefault_run hlist (by decide) rest
  | boolean value =>
    cases value with
    | true => exact readDefault_atom "true" rest
    | false => exact readDefault_atom "false" rest
  | undefined => exact readDefault_atom "undefined" rest
  | atom name => exact readDefault_atom name rest

/-- the type of the line is that of a slot -/
def Line.OfSlot (line : Line) : Prop := ∃ home type, TypeExpr.IsSlotType type ∧ line.type = type.qualify home

theorem readEntry_append {line : Line} (h : line.OfSlot) (hends : TypeExpr.EndsLine rest) :
    readEntry (line.text.toList ++ rest) = some (line.entry, rest) := by
  obtain ⟨home, type, htype, heq⟩ := h
  have hopen : line.text.toList ++ rest = "  ".toList ++ ((Atom.quote line.name).toList ++ (" = ".toList ++
      (line.default.render.toList ++ (" :: ".toList ++ ((type.qualify home).render.toList ++ rest))))) := by
    simp [Line.text, heq]
  have hname : ∀ cs, Atom.read ((Atom.quote line.name).toList ++ (" = ".toList ++ cs)) =
      some (line.name, " = ".toList ++ cs) := fun cs => Atom.read_quote line.name (Atom.ends_cons (by decide) _)
  have hdefault : ∀ cs, readDefault (line.default.render.toList ++ (" :: ".toList ++ cs)) =
      some (line.default.render, " :: ".toList ++ cs) := fun cs => readDefault_append line.default _
  simp only [hopen, readEntry, skip_append, hname, hdefault, htype.read hends, Option.bind_eq_bind, Option.bind_some]
  rw [Line.entry, heq]
  rfl

/-! ## Records -/

theorem readEntries_append {lines : List Line} (h : ∀ line ∈ lines, line.OfSlot) (rest : List Char) :
    readEntries ((slotsText lines).toList ++ ("\x7d).\n".toList ++ rest)) =
      some (lines.map Line.entry, "\x7d).\n".toList ++ rest) := by
  cases lines with
  | nil => rfl
  | cons first others =>
    obtain ⟨hfirst, hothers⟩ := List.forall_mem_cons.1 h
    have hopen : (slotsText (first :: others)).toList ++ ("\x7d).\n".toList ++ rest) =
        "\n".toList ++ (first.text.toList ++ ((others.flatMap fun line => ",\n".toList ++ line.text.toList) ++
          ("\n".toList ++ ("\x7d).\n".toList ++ rest)))) := by
      rw [slotsText, List.map_cons, if_neg (by simp), String.toList_append, String.toList_append,
        toList_intercalate_cons]
      simp only [List.flatMap_map, List.append_assoc]
    have hcomma : ∀ cs, TypeExpr.EndsLine (",\n".toList ++ cs) := by
      intro cs c hc
      cases hc
      exact Or.inl rfl
    have hbreak : ∀ cs, TypeExpr.EndsLine ("\n".toList ++ cs) := by
      intro cs c hc
      cases hc
      exact Or.inr rfl
    have hmany : many ",\n" readEntry ((others.flatMap fun line => ",\n".toList ++ line.text.toList) ++
        ("\n".toList ++ ("\x7d).\n".toList ++ rest))) =
          (others.map Line.entry, "\n".toList ++ ("\x7d).\n".toList ++ rest)) :=
      many_append hcomma (fun line hline _ hends => readEntry_append (hothers line hline) hends) (hbreak _) rfl
    rw [hopen, readEntries, skip_append]
    dsimp only
    rw [readEntry_append hfirst (after_items hcomma (hbreak _) others)]
    simp only [Option.bind_eq_bind, Option.bind_some, hmany, skip_append]
    rfl

/-- what holds of the definitions in a header: the full name goes in a line, and the types are those of slots -/
structure Definition.Readable (d : Definition) : Prop where
  fullName : '\n' ∉ d.declaration.fullName.toList
  lines : ∀ line ∈ d.lines, line.OfSlot

/-- **Records are read back.** -/
theorem readRecord_append {d : Definition} (h : d.Readable) (rest : List Char) :
    readRecord (d.text.toList ++ rest) = some (d.contents, rest) := by
  -- the printed text, cut where the reader cuts it
  have hopen : d.text.toList ++ rest = "%% Generated for message type ".toList ++
      (d.declaration.fullName.toList ++ ".\n".toList ++ ("-record(".toList ++
        ((Atom.quote d.declaration.typeName).toList ++ (", \x7b".toList ++
          ((slotsText d.lines).toList ++ ("\x7d).\n".toList ++ rest)))))) := by
    unfold Definition.text Definition.head
    simp only [String.toList_append, List.append_assoc]
  have hname : ∀ cs, Atom.read ((Atom.quote d.declaration.typeName).toList ++ (", \x7b".toList ++ cs)) =
      some (d.declaration.typeName, ", \x7b".toList ++ cs) := fun cs => Atom.read_quote _ (Atom.ends_cons (by decide) _)
  simp only [hopen, readRecord, skip_append, sentence_append h.fullName, hname, readEntries_append h.lines,
    Option.bind_eq_bind, Option.bind_some]
  rfl

end

end Header

/-! ## Headers -/

/-- **Headers are read back.** -/
theorem read_headerWith {p : Package} (hpackage : '\n' ∉ p.name.toList) {definitions : List Header.Definition}
    (h : ∀ d ∈ definitions, d.Readable) :
    Header.read (p.headerWith definitions) = some ⟨p.name, definitions.map Header.Definition.contents⟩ := by
  have hopen : (p.headerWith definitions).toList = "%%% Generated from protobuf package ".toList ++
      (p.name.toList ++ ".\n".toList ++ ("%%% DO NOT EDIT.\n".toList ++
        ((definitions.flatMap fun d => "\n".toList ++ d.text.toList) ++ []))) := by
    have hcut : ".\n%%% DO NOT EDIT.\n".toList = ".\n".toList ++ "%%% DO NOT EDIT.\n".toList := rfl
    unfold Package.headerWith
    simp only [String.toList_append, List.append_assoc]
    rw [hcut]
    simp only [String.toList_append, String.toList_join, List.flatMap_map, List.append_assoc, List.append_nil]
  have hmany : many "\n" Header.readRecord ((definitions.flatMap fun d => "\n".toList ++ d.text.toList) ++ []) =
      (definitions.map Header.Definition.contents, []) :=
    -- a record ends by itself, so anything may come after it
    many_append (P := fun _ => True) (fun _ => trivial) (fun d hd rest _ => Header.readRecord_append (h d hd) rest)
      trivial rfl
  simp only [Header.read, hopen, skip_append, sentence_append hpackage, hmany, Option.bind_eq_bind, Option.bind_some,
    if_true]

end ErlangRecords
