/-
The meaning of types: which terms belong to them, and that defaults do.

A user type means what the declaration does to which a field refers: one of an enum's atoms, or a record of a message.
The name alone would not do, since two declarations of a package may have one type name; the handle of the field tells
which of them is meant.

- `Inhabits`, `IsRecord`: terms of a type, and records of a message, whose slots hold terms of their types.
- `value_inhabits`, `typingOf_inhabits`: the default of a field.
- `default_inhabits`: the default of every slot belongs to the type of the slot.
-/
import ErlangRecords.Proofs.Layout
import ErlangRecords.Proofs.Typed

namespace ErlangRecords

open Descriptor (File)

/-! ## Terms -/

/-- terms of the language, as far as types tell them apart -/
inductive Term where
  | integer (value : Int)
  /-- a double, by its bits -/
  | float (bits : UInt64)
  | atom (name : String)
  | binary (bytes : List UInt8)
  | nil
  | cons (head tail : Term)
  | tuple (elements : List Term)
deriving Repr

namespace Term

/-- binaries, and lists of bytes and such data, which may end in a binary -/
inductive IsIodata : Term → Prop
  | binary (bytes : List UInt8) : IsIodata (.binary bytes)
  | nil : IsIodata .nil
  | byte (b : UInt8) {tail : Term} (h : IsIodata tail) : IsIodata (.cons (.integer b.toNat) tail)
  | cons {head tail : Term} (hhead : IsIodata head) (htail : IsIodata tail) : IsIodata (.cons head tail)

def boolean (value : Bool) : Term := .atom (if value then "true" else "false")

def undefined : Term := .atom "undefined"

end Term

/-- the term that a literal writes; `0.0` has no bit set -/
def Literal.term : Literal → Term
  | .integer value => .integer value
  | .floatZero => .float 0
  | .boolean value => .boolean value
  | .emptyList => .nil
  | .undefined => .undefined
  | .atom name => .atom name

/-! ## Types -/

mutual

/-- the term belongs to the type, in which user types are references of the fields in `scope`; a tag picks the field of
its name -/
inductive Inhabits (schema : Schema) : List FieldDecl → TypeExpr → Term → Prop
  | range {scope : List FieldDecl} {min max i : Int} (hmin : min ≤ i) (hmax : i ≤ max) :
      Inhabits schema scope (.range min max) (.integer i)
  | boolean {scope : List FieldDecl} (value : Bool) : Inhabits schema scope .boolean (.boolean value)
  | float {scope : List FieldDecl} (bits : UInt64) : Inhabits schema scope .float (.float bits)
  | iodata {scope : List FieldDecl} {t : Term} (h : t.IsIodata) : Inhabits schema scope .iodata t
  | undefined {scope : List FieldDecl} : Inhabits schema scope .undefined .undefined
  | atom {scope : List FieldDecl} (name : String) : Inhabits schema scope (.atom name) (.atom name)
  | nil {scope : List FieldDecl} {value : TypeExpr} : Inhabits schema scope (.list value) .nil
  | cons {scope : List FieldDecl} {value : TypeExpr} {head tail : Term} (hhead : Inhabits schema scope value head)
      (htail : Inhabits schema scope (.list value) tail) : Inhabits schema scope (.list value) (.cons head tail)
  | tagged {scope : List FieldDecl} {tag : String} {value : TypeExpr} {t : Term}
      (h : Inhabits schema (scope.filter (·.name == tag)) value t) :
      Inhabits schema scope (.tagged tag value) (.tuple [.atom tag, t])
  | union {scope : List FieldDecl} {members : List TypeExpr} {member : TypeExpr} {t : Term} (hin : member ∈ members)
      (h : Inhabits schema scope member t) : Inhabits schema scope (.union members) t
  /-- the atoms of the enum that a field refers to -/
  | enum {scope : List FieldDecl} {f : FieldDecl} {position : Nat} {e : EnumDecl} {package : String}
      {qualifier : Option String} {name : String} {t : Term} (hf : f ∈ scope)
      (htarget : f.target = some (.enum position)) (he : schema.enums[position]? = some e)
      (hname : e.reference package = .named qualifier name) (h : Inhabits schema [] e.typeExpr t) :
      Inhabits schema scope (.named qualifier name) t
  /-- the records of the message that a field refers to -/
  | message {scope : List FieldDecl} {f : FieldDecl} {position : Nat} {m : MessageDecl} {package : String}
      {qualifier : Option String} {name : String} {t : Term} (hf : f ∈ scope)
      (htarget : f.target = some (.message position)) (hm : schema.messages[position]? = some m)
      (hname : m.reference package = .named qualifier name) (h : IsRecord schema m t) :
      Inhabits schema scope (.named qualifier name) t
  | record {scope : List FieldDecl} {m : MessageDecl} {t : Term} (hm : m ∈ schema.messages)
      (h : IsRecord schema m t) : Inhabits schema scope (.record m.typeName) t

/-- the term is a record of the message -/
inductive IsRecord (schema : Schema) : MessageDecl → Term → Prop
  | mk {m : MessageDecl} {values : List Term} (h : SlotsHold schema m m.slots values) :
      IsRecord schema m (.tuple (.atom m.typeName :: values))

/-- the terms belong to the types of the slots, one to each -/
inductive SlotsHold (schema : Schema) : MessageDecl → List RecordSlot → List Term → Prop
  | nil {m : MessageDecl} : SlotsHold schema m [] []
  | cons {m : MessageDecl} {slot : RecordSlot} {typing : TypeExpr × Literal} {t : Term} {slots : List RecordSlot}
      {values : List Term} (htyping : slot.typing = some typing)
      (h : Inhabits schema (m.scope slot) typing.1 t) (hrest : SlotsHold schema m slots values) :
      SlotsHold schema m (slot :: slots) (t :: values)

end

/-! ## The default of a field -/

section

variable {schema : Schema} {package : String} {f : FieldDecl} {v : FieldValue}

/-- an atom of an enum is one of the alternatives of its type -/
theorem atom_mem_typeExpr {e : EnumDecl} {value : EnumValueDecl} (h : value ∈ e.values) :
    ∃ alternatives, e.typeExpr = .union alternatives ∧ .atom value.atom ∈ alternatives :=
  ⟨_, rfl, List.mem_map_of_mem h⟩

/-- an integer type holds zero -/
theorem zero_inhabits_signed (scope : List FieldDecl) (bits : Nat) :
    Inhabits schema scope (.signed bits) (.integer 0) := by
  have hhalf : 0 < 1 <<< (bits - 1) := by
    rw [Nat.one_shiftLeft]
    exact Nat.two_pow_pos _
  apply Inhabits.range
  · omega
  · omega

theorem zero_inhabits_unsigned (scope : List FieldDecl) (bits : Nat) :
    Inhabits schema scope (.unsigned bits) (.integer 0) := by
  have hcount : 0 < 1 <<< bits := by
    rw [Nat.one_shiftLeft]
    exact Nat.two_pow_pos _
  apply Inhabits.range
  · exact Int.le_refl 0
  · omega

/-- the default of an enum field is the first atom of the enum that its handle denotes -/
theorem enum_default (hkind : f.kind = .enum) (hv : f.value schema package = .ok v) :
    ∃ position e first, v.target = some (.enum position) ∧ schema.enum? f.typeName = some (position, e) ∧
      e.values.head? = some first ∧ v.type = e.reference package ∧ v.default = .atom first.atom := by
  obtain ⟨position, e, first, hfind, hfirst, rfl⟩ := (FieldDecl.value_enum_eq_ok_iff hkind).1 hv
  exact ⟨position, e, first, rfl, hfind, hfirst, rfl, rfl⟩

/-- **The default of a value** belongs to its type, unless the field holds a message. -/
theorem value_inhabits (hv : f.value schema package = .ok v) (htarget : f.target = v.target)
    (hmessage : f.kind ≠ .message) : Inhabits schema [f] v.type v.default.term := by
  by_cases henum : f.kind = .enum
  · obtain ⟨position, e, first, hposition, hfind, hfirst, htype, hdefault⟩ := enum_default henum hv
    have he := (Schema.enum?_eq_some_iff.1 hfind).2
    obtain ⟨alternatives, halternatives, hin⟩ := atom_mem_typeExpr (List.mem_of_mem_head? hfirst)
    rw [htype, hdefault]
    apply Inhabits.enum List.mem_cons_self (htarget.trans hposition) he rfl
    rw [halternatives]
    exact .union hin (.atom first.atom)
  · cases scalarValue_of_value henum hmessage hv with
    | boolean => exact .boolean false
    | float => exact .float 0
    | signed bits => exact zero_inhabits_signed [f] bits
    | unsigned bits => exact zero_inhabits_unsigned [f] bits
    | iodata => exact .iodata .nil

/-- a default belongs to the type of the slot: it is the empty list, `undefined`, or the default of a value -/
theorem typingOf_inhabits (hv : f.value schema package = .ok v) (htarget : f.target = v.target) :
    Inhabits schema [f] (f.typingOf v).slotType (f.typingOf v).default.term := by
  have hoptional : ∀ t, Inhabits schema [f] v.type t → Inhabits schema [f] (.optional v.type) t := fun t h =>
    .union (List.mem_cons_of_mem _ List.mem_cons_self) h
  by_cases hmessage : f.kind = .message
  · obtain ⟨position, m, _, rfl⟩ := (FieldDecl.value_message_eq_ok_iff hmessage).1 hv
    have hundefined : ∀ t, Inhabits schema [f] (.optional t) .undefined := fun t =>
      .union List.mem_cons_self .undefined
    unfold FieldDecl.typingOf
    cases f.cardinality with
    | repeated => exact .nil
    | optional => exact hundefined _
    | required =>
      simp only [hmessage, if_true]
      exact hundefined _
  · have hvalue := value_inhabits hv htarget hmessage
    unfold FieldDecl.typingOf
    cases f.cardinality with
    | repeated => exact .nil
    | optional => exact hoptional _ hvalue
    | required =>
      simp only [hmessage, if_false]
      exact hvalue

end

/-! ## The defaults of a record -/

/-- the default of a slot that is resolved -/
def RecordSlot.default? (slot : RecordSlot) : Option Term := slot.typing.map fun typing => typing.2.term

/-- the default of an enum field is the first value of the enum it refers to, an alternative of that enum's type -/
def FieldDecl.DefaultsToEnum (schema : Schema) (f : FieldDecl) : Prop :=
  ∃ position e first alternatives, f.target = some (.enum position) ∧ schema.enums[position]? = some e ∧
    e.absoluteName = f.typeName ∧ e.values.head? = some first ∧ f.typing.map (·.default) = some (.atom first.atom) ∧
    e.typeExpr = .union alternatives ∧ .atom first.atom ∈ alternatives

/-- the defaults of the message's record belong to the types of their slots -/
structure DefaultsInhabit (schema : Schema) (m : MessageDecl) : Prop where
  slot : ∀ slot ∈ m.slots, ∃ type default, slot.typing = some (type, default) ∧
    Inhabits schema (m.scope slot) type default.term
  /-- so the record of all defaults is a record of the message -/
  record : ∃ values, m.slots.mapM RecordSlot.default? = some values ∧
    IsRecord schema m (.tuple (.atom m.typeName :: values))
  enum : ∀ f ∈ m.fields, f.kind = .enum → f.cardinality ≠ .repeated → f.DefaultsToEnum schema

/-- terms that belong to the types of slots, one after the other -/
theorem slotsHold_of_forall {schema : Schema} {m : MessageDecl} {slots : List RecordSlot}
    (h : ∀ slot ∈ slots, ∃ type default, slot.typing = some (type, default) ∧
      Inhabits schema (m.scope slot) type default.term) :
    ∃ values, slots.mapM RecordSlot.default? = some values ∧ SlotsHold schema m slots values := by
  induction slots with
  | nil => exact ⟨[], rfl, .nil⟩
  | cons slot slots ih =>
    obtain ⟨⟨type, default, htyping, hhere⟩, hrest⟩ := List.forall_mem_cons.1 h
    obtain ⟨values, hvalues, hhold⟩ := ih hrest
    refine ⟨default.term :: values, ?_, .cons htyping hhere hhold⟩
    simp [List.mapM_cons, RecordSlot.default?, htyping, hvalues]

theorem slot_inhabits {schema : Schema} {m : MessageDecl} (h : m.Typed schema) {slot : RecordSlot}
    (hslot : slot ∈ m.slots) :
    ∃ type default, slot.typing = some (type, default) ∧ Inhabits schema (m.scope slot) type default.term := by
  rcases MessageDecl.mem_slots hslot with ⟨f, hf, rfl⟩ | ⟨o, ho, rfl⟩
  · obtain ⟨v, hv, htarget, htyping⟩ := h.field f hf
    refine ⟨(f.typingOf v).slotType, (f.typingOf v).default, ?_, typingOf_inhabits hv htarget⟩
    rw [RecordSlot.typing, htyping]
    rfl
  · obtain ⟨alternatives, _, htyping⟩ := h.oneof o ho
    refine ⟨.union (.undefined :: alternatives), .undefined, ?_, .union List.mem_cons_self .undefined⟩
    rw [RecordSlot.typing, htyping]
    rfl

/-- **Every default belongs to its type.** Once a batch is resolved, every slot of every record has a type and a default
that is a term of this type; for a single enum field, it is an alternative of the type of the very enum that the handle
of the field denotes. -/
theorem default_inhabits {files : List File} {schema resolved : Schema} (h : Schema.ofFiles files = .ok schema)
    (hr : schema.resolve = .ok resolved) : ∀ m ∈ resolved.messages, DefaultsInhabit resolved m := by
  have hfrom := resolvedFrom_of_ok h hr
  intro m hm
  have htyped := hfrom.typed m hm
  constructor
  case slot => exact fun slot hslot => slot_inhabits htyped hslot
  case record =>
    obtain ⟨values, hvalues, hhold⟩ := slotsHold_of_forall fun slot hslot => slot_inhabits htyped hslot
    exact ⟨values, hvalues, .mk hhold⟩
  case enum =>
    intro f hf hkind hcardinality
    obtain ⟨v, hv, htarget, htyping⟩ := htyped.field f hf
    obtain ⟨position, e, first, hposition, hfind, hfirst, _, hdefault⟩ := enum_default hkind hv
    obtain ⟨alternatives, halternatives, hin⟩ := atom_mem_typeExpr (List.mem_of_mem_head? hfirst)
    obtain ⟨hname, he⟩ := Schema.enum?_eq_some_iff.1 hfind
    obtain ⟨e', he', habsolute⟩ := (hfrom.enum_indexed f.typeName position).1 hname
    rw [he] at he'
    cases he'
    have hslot : (f.typingOf v).default = v.default := by
      unfold FieldDecl.typingOf
      cases hc : f.cardinality with
      | repeated => exact absurd hc hcardinality
      | optional => rfl
      | required => rfl
    refine ⟨position, e, first, alternatives, htarget.trans hposition, he, habsolute, hfirst, ?_, halternatives, hin⟩
    rw [htyping, Option.map_some, hslot, hdefault]

/-- the defaults of all records -/
def printedDefaults (schema : Schema) : List (List (Option String)) :=
  schema.messages.map fun m => m.slots.map fun slot => slot.typing.map fun typing => typing.2.render

theorem default_inhabits_sample : ∃ schema resolved, Schema.ofFiles sampleFiles = .ok schema ∧
    schema.resolve = .ok resolved ∧ (∀ m ∈ resolved.messages, DefaultsInhabit resolved m) ∧
    printedDefaults resolved = [[some "[]", some "open", some "undefined"], [some "undefined", some "kilo"], [], [],
      [some "undefined"]] := by
  obtain ⟨schema, h, hresolve⟩ := exists_ok_of_check (x := Schema.ofFiles sampleFiles)
    (P := fun schema => (schema.resolve.toOption.any fun resolved => decide (printedDefaults resolved =
      [[some "[]", some "open", some "undefined"], [some "undefined", some "kilo"], [], [],
        [some "undefined"]])) = true) (by decide +kernel)
  obtain ⟨resolved, hresolved, hprinted⟩ := exists_ok_of_check hresolve
  exact ⟨schema, resolved, h, hresolved, default_inhabits h hresolved, hprinted⟩

end ErlangRecords
