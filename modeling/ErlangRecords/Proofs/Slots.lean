/-
The slots of a record, exactly.

Whatever the fields and oneofs of a message refer to, its record has one slot for each field outside every oneof and one
for each oneof that is not synthetic, and these stand in one order only: a field where it is declared, a oneof where its
first member is, and the oneofs without members at the end.

- `LaidOut`, `slots_eq_iff`: what the slots are for, and that they are determined by it.
- `slots_skip`: a field of a oneof that has no slot, or is not declared, changes nothing.
- `slotNames_nodup`, `length_slots`: the names of the slots, and how many there are.
- `slots_exact`: all this, of any message.
-/
import Mathlib.Data.List.Perm.Lattice
import ErlangRecords.Proofs.Faults
import ErlangRecords.Proofs.Layout

namespace ErlangRecords

namespace MessageDecl

/-! ## What determines the slots -/

/-- the slots are for the fields and oneofs given by reference: for each field outside every oneof, for each oneof that
is not synthetic, and for nothing else, in the order in which these stand -/
structure LaidOut (m : MessageDecl) (refs : List SlotRef) (slots : List RecordSlot) : Prop where
  slots : List.Forall₂ (fun ref slot => m.slot? ref = some slot) refs slots
  field : ∀ i, .field i ∈ refs ↔ ∃ f, m.fields[i]? = some f ∧ f.oneof = none
  oneof : ∀ k, .oneof k ∈ refs ↔ ∃ o, m.oneofs[k]? = some o ∧ o.synthetic = false
  ordered : refs.Pairwise fun ref ref' => m.standing ref < m.standing ref'

section

variable {m : MessageDecl}

theorem laidOut_slots (m : MessageDecl) : m.LaidOut m.layout m.slots where
  slots := m.slots_layout
  field _ := mem_layout_field
  oneof _ := mem_layout_oneof.trans hasSlot_iff
  ordered := m.layout_ordered

theorem LaidOut.mem_iff {refs refs' : List SlotRef} {slots slots' : List RecordSlot} (h : m.LaidOut refs slots)
    (h' : m.LaidOut refs' slots') (ref : SlotRef) : ref ∈ refs ↔ ref ∈ refs' := by
  cases ref with
  | field i => rw [h.field, h'.field]
  | oneof k => rw [h.oneof, h'.oneof]

/-- **The order is forced**: slots that are laid out are those of the record. -/
theorem slots_eq_iff {slots : List RecordSlot} : slots = m.slots ↔ ∃ refs, m.LaidOut refs slots := by
  constructor
  · rintro rfl
    exact ⟨m.layout, m.laidOut_slots⟩
  · rintro ⟨refs, h⟩
    have hrefs : refs = m.layout := eq_of_ordered h.ordered m.layout_ordered (h.mem_iff m.laidOut_slots)
    have hslots := mapM_eq_some_iff.2 h.slots
    rw [hrefs, mapM_eq_some_iff.2 m.slots_layout, Option.some.injEq] at hslots
    exact hslots.symm

/-! ## Fields without a slot -/

theorem slotsFrom_skip {oneofs : List OneofDecl} {f : FieldDecl} {k : Nat} (hk : f.oneof = some k)
    (hslot : ∀ o, oneofs[k]? = some o → o.synthetic = true) (before after : List FieldDecl) (placed : List Nat) :
    RecordLayout.slotsFrom oneofs placed (before ++ f :: after) =
      RecordLayout.slotsFrom oneofs placed (before ++ after) := by
  induction before generalizing placed with
  | nil =>
    simp only [List.nil_append, RecordLayout.slotsFrom, hk]
    cases ho : oneofs[k]? with
    | none => rfl
    | some o => simp [hslot o ho]
  | cons g before ih =>
    rw [List.cons_append, List.cons_append, RecordLayout.slotsFrom, RecordLayout.slotsFrom]
    simp only [ih]

/-- **Nothing comes of such a field**: the record is that of the message without it. -/
theorem slots_skip {before after : List FieldDecl} {f : FieldDecl} {k : Nat} (hfields : m.fields = before ++ f :: after)
    (hk : f.oneof = some k) (hslot : ∀ o, m.oneofs[k]? = some o → o.synthetic = true) :
    m.slots = { m with fields := before ++ after }.slots := by
  rw [slots, slots, hfields]
  exact slotsFrom_skip hk hslot before after []

/-! ## Names and number -/

/-- the number of a slot among the fields and the oneofs that follow them -/
def nameIndex (m : MessageDecl) : SlotRef → Nat
  | .field i => i
  | .oneof k => m.fields.length + k

/-- the names of the fields, and those of the oneofs -/
def bodyNames (m : MessageDecl) : List String := m.fields.map (·.name) ++ m.oneofs.map (·.name)

theorem bodyNames_of_slot {ref : SlotRef} {slot : RecordSlot} (h : m.slot? ref = some slot) :
    m.bodyNames[m.nameIndex ref]? = some slot.name := by
  cases ref with
  | field i =>
    obtain ⟨f, hf, rfl⟩ := Option.map_eq_some_iff.1 h
    have hi : i < (m.fields.map (·.name)).length := by
      rw [List.length_map]
      exact (List.getElem?_eq_some_iff.1 hf).1
    rw [bodyNames, nameIndex, List.getElem?_append_left hi, List.getElem?_map, hf]
    rfl
  | oneof k =>
    obtain ⟨o, ho, rfl⟩ := Option.map_eq_some_iff.1 h
    rw [bodyNames, nameIndex, List.getElem?_append_right (by simp), List.length_map, Nat.add_sub_cancel_left,
      List.getElem?_map, ho]
    rfl

/-- slots that denote something have numbers of their own -/
theorem nameIndex_inj {ref ref' : SlotRef} {slot slot' : RecordSlot} (h : m.slot? ref = some slot)
    (h' : m.slot? ref' = some slot') (heq : m.nameIndex ref = m.nameIndex ref') : ref = ref' := by
  have hfield : ∀ {i : Nat} {slot : RecordSlot}, m.slot? (.field i) = some slot → i < m.fields.length := by
    intro i slot h
    obtain ⟨f, hf, _⟩ := Option.map_eq_some_iff.1 h
    exact (List.getElem?_eq_some_iff.1 hf).1
  cases ref with
  | field i =>
    cases ref' with
    | field j => exact congrArg SlotRef.field heq
    | oneof k =>
      have := hfield h
      simp only [nameIndex] at heq
      omega
  | oneof k =>
    cases ref' with
    | field j =>
      have := hfield h'
      simp only [nameIndex] at heq
      omega
    | oneof l =>
      simp only [nameIndex, Nat.add_left_cancel_iff] at heq
      rw [heq]

/-- distinct names of fields and oneofs make distinct names of slots -/
theorem slotNames_nodup (h : m.bodyNames.Nodup) : (m.slots.map RecordSlot.name).Nodup := by
  have hnames : List.Forall₂ (fun i name => m.bodyNames[i]? = some name) (m.layout.map m.nameIndex)
      (m.slots.map RecordSlot.name) := by
    rw [List.forall₂_map_left_iff, List.forall₂_map_right_iff]
    exact m.slots_layout.imp fun _ _ => bodyNames_of_slot
  refine nodup_of_positions hnames (m.layout_nodup.map_on fun ref href ref' href' heq => ?_) h
  obtain ⟨slot, _, hslot⟩ := mem_right_of_forall₂ m.slots_layout.flip href
  obtain ⟨slot', _, hslot'⟩ := mem_right_of_forall₂ m.slots_layout.flip href'
  exact nameIndex_inj hslot hslot' heq

/-- for each field outside every oneof, and then for each oneof that is not synthetic -/
def slotRefs (m : MessageDecl) : List SlotRef :=
  (positions (·.oneof.isNone) m.fields).map .field ++ (positions (!·.synthetic) m.oneofs).map .oneof

theorem slotRefs_nodup (m : MessageDecl) : m.slotRefs.Nodup := by
  refine List.nodup_append.2 ⟨?_, ?_, ?_⟩
  · exact (positions_nodup _ _).map fun _ _ heq => SlotRef.field.inj heq
  · exact (positions_nodup _ _).map fun _ _ heq => SlotRef.oneof.inj heq
  · intro ref href ref' href' heq
    obtain ⟨i, _, rfl⟩ := List.mem_map.1 href
    obtain ⟨k, _, rfl⟩ := List.mem_map.1 href'
    cases heq

theorem mem_slotRefs {ref : SlotRef} : ref ∈ m.slotRefs ↔ ref ∈ m.layout := by
  cases ref with
  | field i => simp [slotRefs, mem_positions, mem_layout_field]
  | oneof k => simp [slotRefs, mem_positions, mem_layout_oneof, hasSlot_iff]

/-- **How many slots there are.** -/
theorem length_slots (m : MessageDecl) :
    m.slots.length = m.fields.countP (·.oneof.isNone) + m.oneofs.countP (!·.synthetic) := by
  have hperm : m.slotRefs.Perm m.layout :=
    (List.perm_ext_iff_of_nodup m.slotRefs_nodup m.layout_nodup).2 fun _ => mem_slotRefs
  rw [← m.slots_layout.length_eq, ← hperm.length_eq, slotRefs, List.length_append, List.length_map, List.length_map,
    length_positions, length_positions]

end

/-! ## All of it -/

/-- **The slots of a record, exactly.** A list of slots is that of the record exactly when it has one slot for each
field outside every oneof, one for each oneof that is not synthetic, and no other, a field in its place, a oneof in that
of its first member, and the oneofs without members after all fields, in order. So a field that refers to no declared
oneof or to a synthetic one plays no part, there are as many slots as such fields and oneofs, and where fields and
oneofs have distinct names, so have the slots. -/
theorem slots_exact (m : MessageDecl) :
    (∀ slots, slots = m.slots ↔ ∃ refs, m.LaidOut refs slots) ∧
      (∀ before f after k, m.fields = before ++ f :: after → f.oneof = some k →
        (∀ o, m.oneofs[k]? = some o → o.synthetic = true) → m.slots = { m with fields := before ++ after }.slots) ∧
      m.slots.length = m.fields.countP (·.oneof.isNone) + m.oneofs.countP (!·.synthetic) ∧
      ((m.fields.map (·.name) ++ m.oneofs.map (·.name)).Nodup → (m.slots.map RecordSlot.name).Nodup) :=
  ⟨fun _ => slots_eq_iff, fun _ _ _ _ hfields hk hslot => slots_skip hfields hk hslot, m.length_slots, slotNames_nodup⟩

/-- fields of a oneof, of a synthetic one, of none and of one that is not declared, and a oneof without members -/
def strayMessage : MessageDecl where
  file := "p/a.proto"
  package := "p"
  name := "A"
  fullName := "A"
  fields := [("lost", some 7), ("id", none), ("card", some 2), ("hint", some 1), ("note", none), ("cash", some 2)].map
    fun (name, oneof) => { name, number := 1, cardinality := .optional, kind := .int32, typeName := "", oneof }
  oneofs := [{ owner := 0, name := "empty" }, { owner := 0, name := "_hint", synthetic := true },
    { owner := 0, name := "pay", members := [2, 5] }]

theorem slots_exact_sample : strayMessage.slots.map RecordSlot.name = ["id", "pay", "note", "empty"] ∧
    strayMessage.slots.length = 4 ∧ (strayMessage.slots.map RecordSlot.name).Nodup ∧
    strayMessage.slots = { strayMessage with fields := strayMessage.fields.tail }.slots ∧
    ∃ refs, strayMessage.LaidOut refs strayMessage.slots := by
  obtain ⟨hslots, hskip, hlength, hnames⟩ := slots_exact strayMessage
  refine ⟨by decide, hlength.trans (by decide), hnames (by decide), ?_, (hslots _).1 rfl⟩
  exact hskip [] _ strayMessage.fields.tail 7 rfl rfl (by decide)

end MessageDecl

end ErlangRecords
