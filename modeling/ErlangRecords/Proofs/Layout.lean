/-
Record layout by position.

The walk over the fields carries a list of the oneofs that have their slot. Here the layout is said without it: the
field at a position opens the slot of its oneof exactly when no earlier field is a member there.

- `slots_layout`: the walk yields exactly the slots of the layout, in order.
- `mem_layout_field`, `mem_layout_oneof`, `mem_slots_iff`: which fields and oneofs have a slot.
- `standing`, `layout_ordered`: where each slot stands; `layout_nodup`: no field or oneof has two.
- `held_nodup`, `mem_held_iff`: a field is held by at most one slot, and by one exactly when it stands outside every
  oneof or is a member of a oneof with a slot.
-/
import Mathlib.Data.List.Nodup
import Mathlib.Tactic.Tauto
import ErlangRecords.Proofs.Related
import ErlangRecords.RecordLayout

namespace ErlangRecords

/-- what a slot of a record is for: the field, or the oneof, at a position -/
inductive SlotRef where
  | field (position : Nat)
  | oneof (position : Nat)
deriving DecidableEq, Repr

/-- some of the fields is a member of the oneof at a position -/
def anyMember (fields : List FieldDecl) (k : Nat) : Bool := fields.any fun f => f.oneof == some k

theorem anyMember_iff {fields : List FieldDecl} {k : Nat} :
    anyMember fields k = true ↔ ∃ f ∈ fields, f.oneof = some k := by
  simp [anyMember]

namespace MessageDecl

/-! ## The layout -/

/-- the oneof at a position is declared and not synthetic -/
def hasSlot (m : MessageDecl) (k : Nat) : Bool := (m.oneofs[k]?).any fun o => !o.synthetic

/-- the slot that stands where the field at a position does: its own, or that of the oneof it is the first member of -/
def slotAt? (m : MessageDecl) (position : Nat) (f : FieldDecl) : Option SlotRef :=
  match f.oneof with
  | none => some (.field position)
  | some k => if m.hasSlot k && !anyMember (m.fields.take position) k then some (.oneof k) else none

/-- the slots of oneofs without members -/
def memberlessSlots (m : MessageDecl) : List SlotRef :=
  m.oneofs.zipIdx.filterMap fun (o, k) => if o.synthetic || anyMember m.fields k then none else some (.oneof k)

/-- the slots of the record, in order -/
def layout (m : MessageDecl) : List SlotRef :=
  m.fields.zipIdx.filterMap (fun e => m.slotAt? e.2 e.1) ++ m.memberlessSlots

/-- the slot of the record that the layout speaks of -/
def slot? (m : MessageDecl) : SlotRef → Option RecordSlot
  | .field position => (m.fields[position]?).map .field
  | .oneof k => (m.oneofs[k]?).map .oneof

/-- the fields that a slot holds -/
def scope (m : MessageDecl) : RecordSlot → List FieldDecl
  | .field f => [f]
  | .oneof o => o.members.filterMap (m.fields[·]?)

/-! ## The walk -/

section

variable {m : MessageDecl}

theorem hasSlot_iff {k : Nat} : m.hasSlot k = true ↔ ∃ o, m.oneofs[k]? = some o ∧ o.synthetic = false := by
  simp [hasSlot, Option.any_eq_true]

/-- the oneofs left at the end of the walk are those without members, when those `placed` are the ones met -/
theorem unplaced_denoted {placed : List Nat}
    (hplaced : ∀ k, k ∈ placed ↔ m.hasSlot k = true ∧ anyMember m.fields k = true) :
    List.Forall₂ (fun ref slot => m.slot? ref = some slot) m.memberlessSlots
      (RecordLayout.unplaced m.oneofs placed) := by
  refine forall₂_filterMap ?_
  rintro ⟨o, k⟩ hin
  have ho : m.oneofs[k]? = some o := List.mk_mem_zipIdx_iff_getElem?.1 hin
  have hmet : (o.synthetic || placed.contains k) = (o.synthetic || anyMember m.fields k) := by
    cases hs : o.synthetic with
    | true => rfl
    | false =>
      have hslot : m.hasSlot k = true := hasSlot_iff.2 ⟨o, ho, hs⟩
      rw [Bool.eq_iff_iff, Bool.false_or, List.contains_iff_mem, hplaced]
      simp [hslot]
  simp only [hmet]
  split
  · exact .none
  · exact .some (by simp [slot?, ho])

/-- **The walk, step by step.** After the fields `done`, with the oneofs met so far in `placed`, the rest of the walk
yields the rest of the layout. -/
theorem slotsFrom_denoted {done rest : List FieldDecl} {placed : List Nat} (hfields : m.fields = done ++ rest)
    (hplaced : ∀ k, k ∈ placed ↔ m.hasSlot k = true ∧ anyMember done k = true) :
    List.Forall₂ (fun ref slot => m.slot? ref = some slot)
      ((rest.zipIdx done.length).filterMap (fun e => m.slotAt? e.2 e.1) ++ m.memberlessSlots)
      (RecordLayout.slotsFrom m.oneofs placed rest) := by
  induction rest generalizing done placed with
  | nil =>
    rw [List.append_nil] at hfields
    exact unplaced_denoted (hfields ▸ hplaced)
  | cons f rest ih =>
    have hnext : m.fields = (done ++ [f]) ++ rest := by rw [hfields, List.append_assoc]; rfl
    have hhere : m.fields[done.length]? = some f := by rw [hfields]; simp
    have hdone : m.fields.take done.length = done := by rw [hfields, List.take_left]
    have hlength : done.length + 1 = (done ++ [f]).length := by simp
    have hmet : ∀ k, anyMember (done ++ [f]) k = (anyMember done k || f.oneof == some k) := by
      intro k
      simp [anyMember]
    rw [List.zipIdx_cons, List.filterMap_cons, RecordLayout.slotsFrom, hlength]
    cases hf : f.oneof with
    | none =>
      have hslot : m.slotAt? done.length f = some (.field done.length) := by simp [slotAt?, hf]
      simp only [hslot, List.cons_append]
      refine .cons (by simp [slot?, hhere]) (ih hnext ?_)
      intro k
      rw [hplaced, hmet, hf]
      simp
    | some k =>
      by_cases hopens : m.hasSlot k = true ∧ anyMember done k = false
      · obtain ⟨hslot, hfirst⟩ := hopens
        obtain ⟨o, ho, hs⟩ := hasSlot_iff.1 hslot
        have hnew : placed.contains k = false := by
          rw [Bool.eq_false_iff, ne_eq, List.contains_iff_mem, hplaced]
          simp [hfirst]
        have hat : m.slotAt? done.length f = some (.oneof k) := by simp [slotAt?, hf, hdone, hslot, hfirst]
        simp only [hat, ho, hs, hnew, Bool.or_self, Bool.false_eq_true, if_false, List.cons_append]
        refine .cons (by simp [slot?, ho]) (ih hnext ?_)
        intro k'
        rw [List.mem_cons, hplaced, hmet, hf]
        by_cases hk : k' = k
        · simp [hk, hslot]
        · simp [hk, Ne.symm hk]
      · have hat : m.slotAt? done.length f = none := by
          simp only [slotAt?, hf, hdone]
          rw [if_neg (by simpa using hopens)]
        have hkept : ∀ k', k' ∈ placed ↔ m.hasSlot k' = true ∧ anyMember (done ++ [f]) k' = true := by
          intro k'
          rw [hplaced, hmet, hf]
          by_cases hk : k' = k
          · subst hk
            simp only [not_and, Bool.not_eq_false] at hopens
            simp only [BEq.rfl, Bool.or_true, and_true]
            exact ⟨fun h => h.1, fun h => ⟨h, hopens h⟩⟩
          · simp [Ne.symm hk]
        have hrest := ih hnext hkept
        simp only [hat]
        split
        · exact hrest
        · rename_i o ho
          have hskip : (o.synthetic || placed.contains k) = true := by
            cases hs : o.synthetic with
            | true => rfl
            | false =>
              have hslot : m.hasSlot k = true := hasSlot_iff.2 ⟨o, ho, hs⟩
              simp only [hslot, true_and, Bool.not_eq_false] at hopens
              rw [Bool.false_or, List.contains_iff_mem, hplaced]
              exact ⟨hslot, hopens⟩
          rw [if_pos hskip]
          exact hrest

/-- **The walk yields the layout.** -/
theorem slots_layout (m : MessageDecl) : List.Forall₂ (fun ref slot => m.slot? ref = some slot) m.layout m.slots := by
  have hstart : ∀ k, k ∈ ([] : List Nat) ↔ m.hasSlot k = true ∧ anyMember [] k = true := fun k => by simp [anyMember]
  exact slotsFrom_denoted (List.nil_append m.fields).symm hstart

/-! ## Which slots there are -/

theorem slotAt?_eq_field_iff {position i : Nat} {f : FieldDecl} :
    m.slotAt? i f = some (.field position) ↔ f.oneof = none ∧ position = i := by
  unfold slotAt?
  cases f.oneof with
  | none => simp [eq_comm]
  | some k => simp

theorem slotAt?_eq_oneof_iff {i k : Nat} {f : FieldDecl} :
    m.slotAt? i f = some (.oneof k) ↔
      f.oneof = some k ∧ m.hasSlot k = true ∧ anyMember (m.fields.take i) k = false := by
  unfold slotAt?
  cases f.oneof with
  | none => simp
  | some k' =>
    by_cases hk : k' = k
    · subst hk
      simp
    · simp [hk]

theorem mem_memberlessSlots {ref : SlotRef} :
    ref ∈ m.memberlessSlots ↔ ∃ k, ref = .oneof k ∧ m.hasSlot k = true ∧ anyMember m.fields k = false := by
  simp only [memberlessSlots, List.mem_filterMap, Prod.exists, List.mk_mem_zipIdx_iff_getElem?]
  constructor
  · rintro ⟨o, k, ho, hk⟩
    split at hk
    · cases hk
    · cases hk
      simp only [Bool.or_eq_true, not_or, Bool.not_eq_true] at *
      exact ⟨k, rfl, hasSlot_iff.2 ⟨o, ho, by tauto⟩, by tauto⟩
  · rintro ⟨k, rfl, hslot, hnone⟩
    obtain ⟨o, ho, hs⟩ := hasSlot_iff.1 hslot
    exact ⟨o, k, ho, by simp [hs, hnone]⟩

theorem mem_layout {ref : SlotRef} :
    ref ∈ m.layout ↔ (∃ i f, m.fields[i]? = some f ∧ m.slotAt? i f = some ref) ∨ ref ∈ m.memberlessSlots := by
  simp only [layout, List.mem_append, List.mem_filterMap, Prod.exists, List.mk_mem_zipIdx_iff_getElem?]
  exact or_congr_left ⟨fun ⟨f, i, hf, h⟩ => ⟨i, f, hf, h⟩, fun ⟨i, f, hf, h⟩ => ⟨f, i, hf, h⟩⟩

theorem mem_layout_field {position : Nat} :
    .field position ∈ m.layout ↔ ∃ f, m.fields[position]? = some f ∧ f.oneof = none := by
  simp only [mem_layout, slotAt?_eq_field_iff, mem_memberlessSlots]
  constructor
  · rintro (⟨i, f, hf, hnone, rfl⟩ | ⟨k, heq, _⟩)
    · exact ⟨f, hf, hnone⟩
    · cases heq
  · rintro ⟨f, hf, hnone⟩
    exact Or.inl ⟨position, f, hf, hnone, rfl⟩

/-- the first member of a oneof is the one without members before it -/
theorem findIdx?_member_iff {i k : Nat} :
    m.fields.findIdx? (·.oneof == some k) = some i ↔
      ∃ f, m.fields[i]? = some f ∧ f.oneof = some k ∧ anyMember (m.fields.take i) k = false := by
  simp only [List.findIdx?_eq_some_iff_getElem, ← Bool.not_eq_true, anyMember_iff, List.mem_take_iff_getElem]
  constructor
  · rintro ⟨hi, hk, hfirst⟩
    refine ⟨_, List.getElem?_eq_getElem hi, by simpa using hk, ?_⟩
    rintro ⟨_, ⟨j, hj, rfl⟩, hjk⟩
    exact hfirst j (by omega) (by simpa using hjk)
  · rintro ⟨f, hf, hk, hfirst⟩
    obtain ⟨hi, rfl⟩ := List.getElem?_eq_some_iff.1 hf
    refine ⟨hi, by simpa using hk, fun j hj hjk => hfirst ⟨_, ⟨j, by omega, rfl⟩, by simpa using hjk⟩⟩

/-- where a oneof has members, one of them is the first -/
theorem exists_first_member {k : Nat} (h : anyMember m.fields k = true) :
    ∃ (i : Nat) (f : FieldDecl), m.fields[i]? = some f ∧ f.oneof = some k ∧
      anyMember (m.fields.take i) k = false := by
  rw [anyMember, ← List.findIdx?_isSome] at h
  obtain ⟨i, hi⟩ := Option.isSome_iff_exists.1 h
  exact ⟨i, findIdx?_member_iff.1 hi⟩

theorem mem_layout_oneof {k : Nat} : .oneof k ∈ m.layout ↔ m.hasSlot k = true := by
  simp only [mem_layout, slotAt?_eq_oneof_iff, mem_memberlessSlots]
  constructor
  · rintro (⟨_, _, _, _, hslot, _⟩ | ⟨_, heq, hslot, _⟩)
    · exact hslot
    · cases heq
      exact hslot
  · intro hslot
    cases hmember : anyMember m.fields k with
    | true =>
      obtain ⟨i, f, hf, hk, hfirst⟩ := exists_first_member hmember
      exact Or.inl ⟨i, f, hf, hk, hslot, hfirst⟩
    | false => exact Or.inr ⟨k, rfl, hslot, hmember⟩

/-- **The slots of a record** are its fields outside every oneof, and its oneofs that are not synthetic. -/
theorem mem_slots_iff {slot : RecordSlot} :
    slot ∈ m.slots ↔ (∃ f ∈ m.fields, f.oneof = none ∧ slot = .field f) ∨
      ∃ o ∈ m.oneofs, o.synthetic = false ∧ slot = .oneof o := by
  rw [mem_iff_of_forall₂_some m.slots_layout]
  constructor
  · rintro ⟨ref, href, hdenoted⟩
    cases ref with
    | field position =>
      obtain ⟨f, hf, hnone⟩ := mem_layout_field.1 href
      rw [slot?, hf, Option.map_some, Option.some.injEq] at hdenoted
      exact Or.inl ⟨f, List.mem_of_getElem? hf, hnone, hdenoted.symm⟩
    | oneof k =>
      obtain ⟨o, ho, hs⟩ := hasSlot_iff.1 (mem_layout_oneof.1 href)
      rw [slot?, ho, Option.map_some, Option.some.injEq] at hdenoted
      exact Or.inr ⟨o, List.mem_of_getElem? ho, hs, hdenoted.symm⟩
  · rintro (⟨f, hf, hnone, rfl⟩ | ⟨o, ho, hs, rfl⟩)
    · obtain ⟨i, hi⟩ := List.getElem?_of_mem hf
      exact ⟨.field i, mem_layout_field.2 ⟨f, hi, hnone⟩, by rw [slot?, hi]; rfl⟩
    · obtain ⟨k, hk⟩ := List.getElem?_of_mem ho
      exact ⟨.oneof k, mem_layout_oneof.2 (hasSlot_iff.2 ⟨o, hk, hs⟩), by rw [slot?, hk]; rfl⟩

/-- a slot of the record is one of its fields, or one of its oneofs -/
theorem mem_slots {slot : RecordSlot} (h : slot ∈ m.slots) :
    (∃ f ∈ m.fields, slot = .field f) ∨ ∃ o ∈ m.oneofs, slot = .oneof o :=
  (mem_slots_iff.1 h).imp (fun ⟨f, hf, _, heq⟩ => ⟨f, hf, heq⟩) fun ⟨o, ho, _, heq⟩ => ⟨o, ho, heq⟩

/-! ## The order of the slots -/

/-- where a slot stands: that of a field with the field, that of a oneof with its first member, and those of oneofs
without members after all fields, in the order of the oneofs -/
def standing (m : MessageDecl) : SlotRef → Nat
  | .field position => position
  | .oneof k => (m.fields.findIdx? (·.oneof == some k)).getD (m.fields.length + k)

/-- a slot that a field opens stands with the field -/
theorem standing_of_slotAt? {i : Nat} {f : FieldDecl} {ref : SlotRef} (hf : m.fields[i]? = some f)
    (h : m.slotAt? i f = some ref) : m.standing ref = i := by
  cases ref with
  | field position => exact (slotAt?_eq_field_iff.1 h).2
  | oneof k =>
    obtain ⟨hmember, _, hfirst⟩ := slotAt?_eq_oneof_iff.1 h
    rw [standing, findIdx?_member_iff.2 ⟨f, hf, hmember, hfirst⟩, Option.getD_some]

theorem standing_of_memberless {k : Nat} (h : anyMember m.fields k = false) :
    m.standing (.oneof k) = m.fields.length + k := by
  have hindex : m.fields.findIdx? (·.oneof == some k) = none := by
    rw [List.findIdx?_eq_none_iff]
    simpa [anyMember] using h
  rw [standing, hindex, Option.getD_none]

/-- **The slots stand in order.** -/
theorem layout_ordered (m : MessageDecl) : m.layout.Pairwise fun ref ref' => m.standing ref < m.standing ref' := by
  refine List.pairwise_append.2 ⟨?_, ?_, ?_⟩
  · rw [List.pairwise_filterMap, List.pairwise_iff_getElem]
    intro i j hi hj hij ref href ref' href'
    rw [List.length_zipIdx] at hi hj
    simp only [List.getElem_zipIdx, Nat.zero_add] at href href'
    rwa [standing_of_slotAt? (List.getElem?_eq_getElem hi) href,
      standing_of_slotAt? (List.getElem?_eq_getElem hj) href']
  · rw [memberlessSlots, List.pairwise_filterMap, List.pairwise_iff_getElem]
    intro i j hi hj hij ref href ref' href'
    simp only [List.getElem_zipIdx, Nat.zero_add, Option.ite_none_left_eq_some, Bool.or_eq_true, not_or,
      Bool.not_eq_true, Option.some.injEq] at href href'
    obtain ⟨⟨_, hnone⟩, rfl⟩ := href
    obtain ⟨⟨_, hnone'⟩, rfl⟩ := href'
    rw [standing_of_memberless hnone, standing_of_memberless hnone']
    omega
  · intro ref href ref' href'
    obtain ⟨k, rfl, _, hnone⟩ := mem_memberlessSlots.1 href'
    obtain ⟨⟨f, i⟩, hin, hat⟩ := List.mem_filterMap.1 href
    have hf := List.mk_mem_zipIdx_iff_getElem?.1 hin
    rw [standing_of_slotAt? hf hat, standing_of_memberless hnone]
    have := (List.getElem?_eq_some_iff.1 hf).1
    omega

/-- **No two slots are for the same.** -/
theorem layout_nodup (m : MessageDecl) : m.layout.Nodup := nodup_of_ordered m.layout_ordered

/-! ## Which fields the slots hold -/

/-- positions of the fields that a slot holds -/
def heldBy (m : MessageDecl) : SlotRef → List Nat
  | .field position => [position]
  | .oneof k => (m.oneofs[k]?).elim [] (·.members)

/-- positions of the fields held by the slots of the record, slot by slot -/
def held (m : MessageDecl) : List Nat := m.layout.flatMap m.heldBy

/-- fields and oneofs say the same of who belongs to whom -/
structure Membered (m : MessageDecl) : Prop where
  declared : ∀ f ∈ m.fields, ∀ k, f.oneof = some k → ∃ o, m.oneofs[k]? = some o
  members : ∀ (k : Nat) (o : OneofDecl), m.oneofs[k]? = some o →
    ∀ i, i ∈ o.members ↔ ∃ f, m.fields[i]? = some f ∧ f.oneof = some k
  nodup : ∀ o ∈ m.oneofs, o.members.Nodup

/-- a slot of the record holds a field exactly when it is the field's own, or that of the oneof of the field -/
theorem mem_heldBy_iff (h : m.Membered) {ref : SlotRef} (href : ref ∈ m.layout) {i : Nat} :
    i ∈ m.heldBy ref ↔ ∃ f, m.fields[i]? = some f ∧ ref = (f.oneof.elim (.field i) .oneof) := by
  cases ref with
  | field position =>
    obtain ⟨f, hf, hnone⟩ := mem_layout_field.1 href
    simp only [heldBy, List.mem_singleton]
    constructor
    · rintro rfl
      exact ⟨f, hf, by simp [hnone]⟩
    · rintro ⟨g, hg, heq⟩
      cases hk : g.oneof <;> simp [hk] at heq
      exact heq.symm
  | oneof k =>
    obtain ⟨o, ho, _⟩ := hasSlot_iff.1 (mem_layout_oneof.1 href)
    simp only [heldBy, ho, Option.elim_some, h.members k o ho]
    refine exists_congr fun f => and_congr_right fun _ => ?_
    cases f.oneof <;> simp [eq_comm]

/-- **No field is held twice.** -/
theorem held_nodup (h : m.Membered) : m.held.Nodup := by
  refine List.nodup_flatMap.2 ⟨fun ref href => ?_, ?_⟩
  · cases ref with
    | field position => exact List.nodup_singleton position
    | oneof k =>
      obtain ⟨o, ho, _⟩ := hasSlot_iff.1 (mem_layout_oneof.1 href)
      simpa [heldBy, ho] using h.nodup o (List.mem_of_getElem? ho)
  · refine m.layout_nodup.pairwise_of_forall_ne fun ref href ref' href' hne i hi hi' => hne ?_
    obtain ⟨f, hf, rfl⟩ := (mem_heldBy_iff h href).1 hi
    obtain ⟨f', hf', rfl⟩ := (mem_heldBy_iff h href').1 hi'
    rw [hf] at hf'
    cases hf'
    rfl

/-- **Which fields are held**: those outside every oneof, and those of the oneofs that have a slot. -/
theorem mem_held_iff (h : m.Membered) {i : Nat} :
    i ∈ m.held ↔ ∃ f, m.fields[i]? = some f ∧ ∀ k, f.oneof = some k → m.hasSlot k = true := by
  simp only [held, List.mem_flatMap]
  constructor
  · rintro ⟨ref, href, hi⟩
    obtain ⟨f, hf, rfl⟩ := (mem_heldBy_iff h href).1 hi
    refine ⟨f, hf, fun k hk => ?_⟩
    rw [hk] at href
    exact mem_layout_oneof.1 href
  · rintro ⟨f, hf, hslot⟩
    have href : (f.oneof.elim (.field i) .oneof : SlotRef) ∈ m.layout := by
      cases hk : f.oneof with
      | none => exact mem_layout_field.2 ⟨f, hf, hk⟩
      | some k => exact mem_layout_oneof.2 (hslot k hk)
    exact ⟨_, href, (mem_heldBy_iff h href).2 ⟨f, hf, rfl⟩⟩

end

end MessageDecl

end ErlangRecords
