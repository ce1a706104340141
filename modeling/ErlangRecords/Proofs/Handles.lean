/-
Rendering looks at no position.

The handle of a field, the owner of a oneof and the parent of a declaration are positions in a schema. The texts of a
package are the same without them, so they do not show where in the batch a declaration was found.

- `Package.erase`, `outputs_erase`: a package without positions, and what is rendered from it.
- `SameMessage.erase_eq`, `SameEnum.erase_eq`: declarations that agree by name differ in positions only.
-/
import ErlangRecords.Generation
import ErlangRecords.Proofs.ByName

namespace ErlangRecords

/-! ## Without positions -/

def FieldDecl.erase (f : FieldDecl) : FieldDecl := { f with target := none }

def OneofDecl.erase (o : OneofDecl) : OneofDecl := { o with owner := 0 }

def Declaration.erase (d : Declaration) : Declaration := { d with parent := none }

def RecordSlot.erase : RecordSlot → RecordSlot
  | .field f => .field f.erase
  | .oneof o => .oneof o.erase

def MessageDecl.erase (m : MessageDecl) : MessageDecl :=
  { m.toDeclaration.erase with fields := m.fields.map (·.erase), oneofs := m.oneofs.map (·.erase) }

def EnumDecl.erase (e : EnumDecl) : EnumDecl := { e.toDeclaration.erase with values := e.values }

def Package.erase (p : Package) : Package :=
  { p with messages := p.messages.map (·.erase), enums := p.enums.map (·.erase) }

/-! ## Records -/

theorem unplaced_erase (oneofs : List OneofDecl) (placed : List Nat) :
    RecordLayout.unplaced (oneofs.map (·.erase)) placed = (RecordLayout.unplaced oneofs placed).map (·.erase) := by
  rw [RecordLayout.unplaced, RecordLayout.unplaced, List.zipIdx_map, List.filterMap_map, List.map_filterMap]
  apply List.filterMap_congr
  rintro ⟨o, k⟩ _
  simp only [Function.comp_apply, Prod.map_apply, id_eq]
  have hsynthetic : o.erase.synthetic = o.synthetic := rfl
  rw [hsynthetic]
  split <;> rfl

/-- the walk over the fields reads which oneof each belongs to, and which oneofs are synthetic -/
theorem slotsFrom_erase (oneofs : List OneofDecl) (placed : List Nat) (fields : List FieldDecl) :
    RecordLayout.slotsFrom (oneofs.map (·.erase)) placed (fields.map (·.erase)) =
      (RecordLayout.slotsFrom oneofs placed fields).map (·.erase) := by
  induction fields generalizing placed with
  | nil => exact unplaced_erase oneofs placed
  | cons f rest ih =>
    have honeof : f.erase.oneof = f.oneof := rfl
    rw [List.map_cons, RecordLayout.slotsFrom, RecordLayout.slotsFrom, honeof]
    cases f.oneof with
    | none =>
      simp only [ih, List.map_cons]
      rfl
    | some k =>
      simp only [List.getElem?_map]
      cases oneofs[k]? with
      | none => exact ih placed
      | some o =>
        have hsynthetic : o.erase.synthetic = o.synthetic := rfl
        simp only [Option.map_some, hsynthetic, ih]
        split
        · rfl
        · rfl

theorem slots_erase (m : MessageDecl) : m.erase.slots = m.slots.map (·.erase) := slotsFrom_erase m.oneofs [] m.fields

theorem slotLine_erase (home message : String) (slot : RecordSlot) :
    Header.slotLine home message slot.erase = Header.slotLine home message slot := by
  cases slot <;> rfl

theorem record_erase (home : String) (m : MessageDecl) : Header.record home m.erase = Header.record home m := by
  have hlines : m.erase.slots.mapM (Header.slotLine home m.fullName) =
      m.slots.mapM (Header.slotLine home m.fullName) := by
    rw [slots_erase, List.mapM_map]
    congr 1
    funext slot
    exact slotLine_erase home m.fullName slot
  unfold Header.record
  exact congrArg (· >>= fun lines => pure (Header.recordText m.fullName m.typeName lines)) hlines

/-! ## Packages -/

theorem header_erase (p : Package) : p.erase.header = p.header := by
  have hrecords : p.erase.messages.mapM (Header.record p.moduleName) =
      p.messages.mapM (Header.record p.moduleName) := by
    rw [Package.erase, List.mapM_map]
    congr 1
    funext m
    exact record_erase p.moduleName m
  unfold Package.header
  exact congrArg (· >>= fun records =>
    pure (Package.openingComment p.name ++ String.join (records.map ("\n" ++ ·)))) hrecords

theorem typeModule_erase (p : Package) : p.erase.typeModule = p.typeModule := by
  simp only [Package.typeModule, Package.erase, List.map_map]
  rfl

/-- **No position shows** in the outputs of a package. -/
theorem outputs_erase (p : Package) : p.erase.outputs = p.outputs := by
  unfold Package.outputs
  rw [header_erase, typeModule_erase]
  rfl

/-! ## Agreement by name -/

section

variable {n n' : Naming}

theorem SameMessage.erase_eq {m m' : MessageDecl} (h : SameMessage n n' m m') : m.erase = m'.erase := by
  have hdeclaration : m.toDeclaration.erase = m'.toDeclaration.erase := h.declaration.data
  have hfields : m.fields.map (·.erase) = m'.fields.map (·.erase) :=
    map_eq_map_of_forall₂ (fun f f' hf => hf.data) h.fields
  have honeofs : m.oneofs.map (·.erase) = m'.oneofs.map (·.erase) :=
    map_eq_map_of_forall₂ (fun o o' ho => ho.data) h.oneofs
  rw [MessageDecl.erase, MessageDecl.erase, hdeclaration, hfields, honeofs]

theorem SameEnum.erase_eq {e e' : EnumDecl} (h : SameEnum n n' e e') : e.erase = e'.erase := by
  have hdeclaration : e.toDeclaration.erase = e'.toDeclaration.erase := h.declaration.data
  rw [EnumDecl.erase, EnumDecl.erase, hdeclaration, h.values]

end

end ErlangRecords
