/-
Files at the end of a batch.

What a batch declares is collected before all that later files declare: its messages and enums keep their positions, and
each of its names denotes what it did. So a field that could be resolved is resolved to the same, and what goes wrong
in the longer batch only goes wrong in a message of a later file.

- `listFrom_append`, `positionOf_append`: the listings of the longer batch begin with those of the shorter, and places
  keep their positions.
- `Continues`: a schema that begins with another; `continues_of_collected`: so does that of the longer batch.
- `value_of_continues`, `resolve_of_continues`: what the shorter schema resolves, the longer one does, to the same.
- `DeclaredLater`: a message that a later file declares; `appending_conservative`: all this, of a batch.
-/
import ErlangRecords.Proofs.Dangling
import ErlangRecords.Proofs.Nesting

namespace ErlangRecords

open Descriptor (File Message Enum)

/-! ## Listings -/

theorem listFrom_append {α : Type} (listing : Nat → File → List α) (number : Nat) (files later : List File) :
    listFrom listing number (files ++ later) =
      listFrom listing number files ++ listFrom listing (number + files.length) later := by
  induction files generalizing number with
  | nil => rfl
  | cons file rest ih =>
    rw [List.cons_append, listFrom, listFrom, ih, List.append_assoc, List.length_cons, Nat.add_right_comm,
      Nat.add_assoc]

section

variable (files later : List File)

theorem batchMessages_append :
    batchMessages (files ++ later) = batchMessages files ++ listFrom messagesOf files.length later := by
  rw [batchMessages, listFrom_append, Nat.zero_add, batchMessages]

theorem batchEnums_append :
    batchEnums (files ++ later) = batchEnums files ++ listFrom enumsOf files.length later := by
  rw [batchEnums, listFrom_append, Nat.zero_add, batchEnums]

/-- the names of the shorter batch are among those of the longer, in order -/
theorem batchNames_sublist : List.Sublist (batchNames files) (batchNames (files ++ later)) := by
  rw [batchNames, batchNames, batchMessages_append, batchEnums_append, List.map_append, List.map_append]
  exact (List.sublist_append_left _ _).append (List.sublist_append_left _ _)

end

/-- a listed message keeps its position -/
theorem positionOf_append {files : List File} {e : Place × Message} (he : e ∈ batchMessages files)
    (later : List File) : positionOf (files ++ later) e.1 = positionOf files e.1 := by
  obtain ⟨i, hi⟩ := List.getElem?_of_mem he
  have hlonger : (batchMessages (files ++ later))[i]? = some e := by
    rw [batchMessages_append, List.getElem?_append_left (List.getElem?_eq_some_iff.1 hi).1, hi]
  rw [positionOf_getElem hi, positionOf_getElem hlonger]

/-- what stands at the top of a file has no message around it, and what stands inside a listed message has the same -/
theorem positionOf_outer_append {files : List File} {α : Type} (name : α → String) (top : File → List α)
    (inside : Message → List α) {e : Place × α} (later : List File)
    (h : (∃ (number : Nat) (file : File), StandsIn name (.ofFile number file) (top file) e) ∨
      ∃ around ∈ batchMessages files, StandsIn name around.1 (inside around.2) e) :
    positionOf (files ++ later) e.1.outer = positionOf files e.1.outer := by
  rcases h with ⟨number, file, k, _, hplace⟩ | ⟨around, haround, k, _, hplace⟩
  · rw [hplace, Place.outer_inner, positionOf_ofFile, positionOf_ofFile]
  · rw [hplace, Place.outer_inner, positionOf_append haround]

theorem positionOf_outer_message {files : List File} {e : Place × Message} (he : e ∈ batchMessages files)
    (later : List File) : positionOf (files ++ later) e.1.outer = positionOf files e.1.outer := by
  obtain ⟨i, hi⟩ := List.getElem?_of_mem he
  apply positionOf_outer_append Message.name File.messages Message.nested
  rcases batchMessages_stands hi with ⟨number, file, _, hin⟩ | ⟨j, around, _, haround, hin⟩
  · exact Or.inl ⟨number, file, hin⟩
  · exact Or.inr ⟨around, List.mem_of_getElem? haround, hin⟩

theorem positionOf_outer_enum {files : List File} {e : Place × Enum} (he : e ∈ batchEnums files)
    (later : List File) : positionOf (files ++ later) e.1.outer = positionOf files e.1.outer := by
  apply positionOf_outer_append Enum.name File.enums Message.enums
  rcases batchEnums_stand he with ⟨number, file, _, hin⟩ | ⟨around, haround, hin⟩
  · exact Or.inl ⟨number, file, hin⟩
  · exact Or.inr ⟨around, haround, hin⟩

/-! ## Schemas that go on -/

/-- the schema begins with the first one: the same declarations at the same positions, under the same names -/
structure Schema.Continues (schema first : Schema) : Prop where
  messages : first.messages <+: schema.messages
  enums : first.enums <+: schema.enums
  names : ∀ name ref, first.names.get? name = some ref → schema.names.get? name = some ref

theorem getElem?_of_initial {α : Type} {l l' : List α} (h : l <+: l') {i : Nat} {a : α} (ha : l[i]? = some a) :
    l'[i]? = some a := by
  obtain ⟨hi, rfl⟩ := List.getElem?_eq_some_iff.1 ha
  exact List.prefix_iff_getElem?.1 h i hi

/-- where the lists of declarations go on, the table finds what it did -/
theorem Schema.Indexed.continues {schema first : Schema} (h : schema.Indexed) (hfirst : first.Indexed)
    (hmessages : first.messages <+: schema.messages) (henums : first.enums <+: schema.enums) :
    schema.Continues first := by
  refine ⟨hmessages, henums, fun name ref hget => ?_⟩
  cases ref with
  | message i =>
    obtain ⟨m, hm, hname⟩ := (hfirst.message name i).1 hget
    exact (h.message name i).2 ⟨m, getElem?_of_initial hmessages hm, hname⟩
  | enum i =>
    obtain ⟨e, he, hname⟩ := (hfirst.enum name i).1 hget
    exact (h.enum name i).2 ⟨e, getElem?_of_initial henums he, hname⟩

/-- what a listed message becomes hangs on the position of the message around it only -/
theorem MessageNode.unique {pos pos' : Place → Option Nat} {e : Place × Message} {i : Nat} {m m' : MessageDecl}
    (h : MessageNode pos e i m) (h' : MessageNode pos' e i m') (hpos : pos e.1.outer = pos' e.1.outer) : m = m' := by
  obtain ⟨body, hbody, rfl⟩ := h
  obtain ⟨body', hbody', rfl⟩ := h'
  rw [hbody, Except.ok.injEq] at hbody'
  rw [hbody', hpos]

section

variable {files later : List File} {schema first : Schema}

theorem messages_continue (hfirst : Collected files first) (h : Collected (files ++ later) schema) :
    first.messages <+: schema.messages := by
  rw [List.prefix_iff_getElem?]
  intro i hi
  obtain ⟨e, he, hnode⟩ := hfirst.of_message (List.getElem?_eq_getElem hi)
  have hlonger : (batchMessages (files ++ later))[i]? = some e :=
    getElem?_of_initial (batchMessages_append files later ▸ List.prefix_append _ _) he
  obtain ⟨m, hm, hnode'⟩ := h.node i e hlonger
  rw [hm, hnode'.unique hnode (positionOf_outer_message (List.mem_of_getElem? he) later)]

theorem enums_continue (hfirst : Collected files first) (h : Collected (files ++ later) schema) :
    first.enums <+: schema.enums := by
  have hsame : (batchEnums files).map (enumNode (positionOf (files ++ later))) =
      (batchEnums files).map (enumNode (positionOf files)) := by
    apply List.map_congr_left
    intro e he
    rw [enumNode, enumNode, positionOf_outer_enum he]
  rw [h.enums, hfirst.enums, batchEnums_append, List.map_append, hsame]
  exact List.prefix_append _ _

/-- **The longer batch** is collected into a schema that begins with that of the shorter. -/
theorem continues_of_collected (hfirst : Collected files first) (h : Collected (files ++ later) schema) :
    schema.Continues first :=
  h.indexed.continues hfirst.indexed (messages_continue hfirst h) (enums_continue hfirst h)

/-- what is wrong with a batch is wrong with a longer one -/
theorem exists_ofFiles_of_append (h : Schema.ofFiles (files ++ later) = .ok schema) :
    ∃ first, Schema.ofFiles files = .ok first := by
  obtain ⟨hmessages, henums, hnames⟩ := (ofFiles_ok_iff (files ++ later)).1 ⟨schema, h⟩
  refine (ofFiles_ok_iff files).2 ⟨fun e he => hmessages e ?_, fun e he => henums e ?_, ?_⟩
  · rw [batchMessages_append]
    exact List.mem_append_left _ he
  · rw [batchEnums_append]
    exact List.mem_append_left _ he
  · exact hnames.sublist (batchNames_sublist files later)

end

/-! ## Resolution -/

section

variable {schema first : Schema} (h : schema.Continues first)

include h

/-- **Values are kept**: each look-up that the field needs has the same answer. -/
theorem value_of_continues {package : String} {f : FieldDecl} {v : FieldValue} (hv : f.value first package = .ok v) :
    f.value schema package = .ok v := by
  by_cases henum : f.kind = .enum
  · obtain ⟨position, e, value, hfind, hvalue, rfl⟩ := (FieldDecl.value_enum_eq_ok_iff henum).1 hv
    obtain ⟨hname, he⟩ := Schema.enum?_eq_some_iff.1 hfind
    have hfind' := Schema.enum?_eq_some_iff.2 ⟨h.names _ _ hname, getElem?_of_initial h.enums he⟩
    exact (FieldDecl.value_enum_eq_ok_iff henum).2 ⟨position, e, value, hfind', hvalue, rfl⟩
  · by_cases hmessage : f.kind = .message
    · obtain ⟨position, m, hfind, rfl⟩ := (FieldDecl.value_message_eq_ok_iff hmessage).1 hv
      obtain ⟨hname, hm⟩ := Schema.message?_eq_some_iff.1 hfind
      have hfind' := Schema.message?_eq_some_iff.2 ⟨h.names _ _ hname, getElem?_of_initial h.messages hm⟩
      exact (FieldDecl.value_message_eq_ok_iff hmessage).2 ⟨position, m, hfind', rfl⟩
    · exact (FieldDecl.value_of_scalar henum hmessage hv).2 schema

theorem resolve_message_of_continues {m r : MessageDecl} (hr : m.resolve first = .ok r) : m.resolve schema = .ok r := by
  obtain ⟨fields, hfields, rfl⟩ := MessageDecl.resolve_eq_ok_iff.1 hr
  refine MessageDecl.resolve_eq_ok_iff.2 ⟨fields, hfields.imp fun f g hg => ?_, rfl⟩
  obtain ⟨v, hv, rfl⟩ := FieldDecl.resolve_eq_ok_iff.1 hg
  exact FieldDecl.resolve_eq_ok_iff.2 ⟨v, value_of_continues h hv, rfl⟩

/-- **Resolution goes on**: of two schemas that are both resolved, the longer one still begins with the first. -/
theorem resolve_of_continues {resolved resolvedFirst : Schema} (hfirst : first.resolve = .ok resolvedFirst)
    (hr : schema.resolve = .ok resolved) : resolved.Continues resolvedFirst := by
  obtain ⟨henums, hnames, hmessages⟩ := resolve_eq_ok_iff.1 hr
  obtain ⟨henums', hnames', hmessages'⟩ := resolve_eq_ok_iff.1 hfirst
  constructor
  case messages =>
    rw [List.prefix_iff_getElem?]
    intro i hi
    obtain ⟨m, hm, hresolve⟩ := getElem?_of_forall₂ hmessages'.flip (List.getElem?_eq_getElem hi)
    obtain ⟨r, hri, hresolve'⟩ := getElem?_of_forall₂ hmessages (getElem?_of_initial h.messages hm)
    rw [resolve_message_of_continues h hresolve, Except.ok.injEq] at hresolve'
    rw [hri, hresolve']
  case enums =>
    rw [henums, henums']
    exact h.enums
  case names =>
    rw [hnames, hnames']
    exact h.names

end

/-! ## Batches -/

/-- the message stands after those of `files` in the schema of the longer batch, and is made from the descriptor, which
the later file declares -/
structure DeclaredLater (files later : List File) (schema : Schema) (m : MessageDecl) (file : File) (d : Message) :
    Prop where
  appended : file ∈ later
  declares : file.Declares d
  node : ∃ i p, (batchMessages files).length ≤ i ∧ schema.messages[i]? = some m ∧
    (batchMessages (files ++ later))[i]? = some (p, d) ∧ MessageNode (positionOf (files ++ later)) (p, d) i m

theorem exists_declaredLater {files later : List File} {schema : Schema} (h : Collected (files ++ later) schema)
    {i : Nat} {m : MessageDecl} (hm : schema.messages[i]? = some m) (hi : (batchMessages files).length ≤ i) :
    ∃ file d, DeclaredLater files later schema m file d := by
  obtain ⟨⟨p, d⟩, he, hnode⟩ := h.of_message hm
  have hlater := he
  rw [batchMessages_append, List.getElem?_append_right hi] at hlater
  obtain ⟨k, file, hfile, hlisted⟩ := mem_listFrom.1 (List.mem_of_getElem? hlater)
  exact ⟨file, d, List.mem_of_getElem? hfile, mem_messagesOf_iff.1 ⟨p, hlisted⟩, i, p, hi, hm, he, hnode⟩

/-- **Appending files is conservative.** When the longer batch is collected, so is the shorter, and the schema of the
longer one begins with that of the shorter. Once both are resolved it still does. Where only the shorter one is, the
first field of the longer batch that cannot be resolved is one of a message that a later file declares. -/
theorem appending_conservative {files later : List File} {schema : Schema}
    (h : Schema.ofFiles (files ++ later) = .ok schema) :
    ∃ first, Schema.ofFiles files = .ok first ∧ schema.Continues first ∧
      ∀ resolvedFirst, first.resolve = .ok resolvedFirst →
        (∀ resolved, schema.resolve = .ok resolved → resolved.Continues resolvedFirst) ∧
          ∀ fault, schema.resolve = .error fault → ∃ m file d f cause, DeclaredLater files later schema m file d ∧
            FirstOffence (files ++ later) schema m f cause ∧ fault = resolutionFault m f cause := by
  obtain ⟨first, hfirst⟩ := exists_ofFiles_of_append h
  have hc := collected_of_ok h
  have hcFirst := collected_of_ok hfirst
  have hcontinues := continues_of_collected hcFirst hc
  refine ⟨first, hfirst, hcontinues, fun resolvedFirst hr => ⟨fun resolved => resolve_of_continues hcontinues hr, ?_⟩⟩
  intro fault hfault
  obtain ⟨m, f, cause, hoffends, rfl⟩ := hc.resolve_eq_error_iff.1 hfault
  obtain ⟨before, after, hsplit, _⟩ := hoffends.message
  obtain ⟨front, back, hfields, _⟩ := hoffends.field
  have hm : schema.messages[before.length]? = some m := by simp [hsplit]
  -- a message of the shorter batch is resolved there, and so in the longer one
  have hlater : (batchMessages files).length ≤ before.length := by
    rw [← hcFirst.length]
    by_contra hlt
    rw [Nat.not_le] at hlt
    have hin := List.getElem?_eq_getElem hlt
    rw [getElem?_of_initial hcontinues.messages hin, Option.some.injEq] at hm
    obtain ⟨r, _, hresolve⟩ := getElem?_of_forall₂ (resolve_eq_ok_iff.1 hr).2.2 hin
    have hpasses := fault?_eq_none_iff.2 ⟨r, resolve_message_of_continues hcontinues (hm ▸ hresolve)⟩
    have hresolvable := (fault?_message_eq_none_iff (hc.free m (by simp [hsplit]))).1 hpasses f (by simp [hfields])
    exact resolvable_iff.1 hresolvable cause hoffends.offence
  obtain ⟨file, d, hdeclared⟩ := exists_declaredLater hc hm hlater
  exact ⟨m, file, d, f, cause, hdeclared, hoffends, rfl⟩

/-- a file to append, with a field that refers to a message by the name given -/
def sampleLog (typeName : String) : File where
  name := "log/entry.proto"
  package := "log"
  messages := [
    { name := "Log"
      nested := [
        { name := "Entry"
          fields := [{ name := "order", number := 1, label := some 1, type := some 11, typeName }]
          enums := [{ name := "Level", values := [⟨"INFO", 0⟩] }] }] }]

theorem appending_conservative_sample :
    (∃ schema resolved first resolvedFirst, Schema.ofFiles (sampleFiles ++ [sampleLog ".shop.Order"]) = .ok schema ∧
      schema.resolve = .ok resolved ∧ Schema.ofFiles sampleFiles = .ok first ∧ first.resolve = .ok resolvedFirst ∧
        resolved.Continues resolvedFirst ∧ resolvedFirst.messages.length = 5 ∧ resolved.messages.length = 7) ∧
      ∃ schema fault, Schema.ofFiles (sampleFiles ++ [sampleLog ".shop.Ordre"]) = .ok schema ∧
        schema.resolve = .error fault ∧ ∃ m file d f cause,
          DeclaredLater sampleFiles [sampleLog ".shop.Ordre"] schema m file d ∧
            FirstOffence (sampleFiles ++ [sampleLog ".shop.Ordre"]) schema m f cause ∧
              fault = resolutionFault m f cause := by
  obtain ⟨first, hfirst, hresolves⟩ := exists_ok_of_check (x := Schema.ofFiles sampleFiles)
    (P := fun first => (first.resolve.toOption.any fun resolved => decide (resolved.messages.length = 5)) = true)
    (by decide +kernel)
  obtain ⟨resolvedFirst, hr, hlength⟩ := exists_ok_of_check hresolves
  constructor
  · obtain ⟨schema, h, hresolves'⟩ := exists_ok_of_check
      (x := Schema.ofFiles (sampleFiles ++ [sampleLog ".shop.Order"]))
      (P := fun schema => (schema.resolve.toOption.any fun resolved => decide (resolved.messages.length = 7)) = true)
      (by decide +kernel)
    obtain ⟨resolved, hr', hlength'⟩ := exists_ok_of_check hresolves'
    obtain ⟨first', hfirst', _, hconservative⟩ := appending_conservative h
    rw [hfirst, Except.ok.injEq] at hfirst'
    subst hfirst'
    exact ⟨schema, resolved, first, resolvedFirst, h, hr', hfirst, hr, (hconservative resolvedFirst hr).1 resolved hr',
      hlength, hlength'⟩
  · obtain ⟨schema, h, hfails⟩ := exists_ok_of_check (x := Schema.ofFiles (sampleFiles ++ [sampleLog ".shop.Ordre"]))
      (P := fun schema => (fault? schema.resolve).isSome = true) (by decide +kernel)
    obtain ⟨fault, hfault⟩ := Option.isSome_iff_exists.1 hfails
    have herror := fault?_eq_some_iff.1 hfault
    obtain ⟨first', hfirst', _, hconservative⟩ := appending_conservative h
    rw [hfirst, Except.ok.injEq] at hfirst'
    subst hfirst'
    exact ⟨schema, fault, h, herror, (hconservative resolvedFirst hr).2 fault herror⟩

end ErlangRecords
