/-
References: every user type of a header is defined somewhere.

Where the packages of a field and of the declaration it names differ, resolution puts the module of the latter before
the type. The header puts its own module before all other user types. Both agree with the export lists, which are made
of the declarations of one package each.

- `userTypes_qualify`: what the header does to the user types of an expression.
- `value_refers`: the user types in the type of a field.
- `references_closed`: the module of every user type in a header exports and defines it.
-/
import ErlangRecords.Proofs.AtomTexts
import ErlangRecords.Proofs.Layout
import ErlangRecords.Proofs.Written

namespace ErlangRecords

/-! ## User types -/

namespace TypeExpr

mutual

/-- the user types in an expression, in order, each with its module, if it has one -/
def userTypes : TypeExpr → List (Option String × String)
  | .named qualifier name => [(qualifier, name)]
  | .list value => userTypes value
  | .tagged _ value => userTypes value
  | .union members => userTypesOfAll members
  | _ => []

def userTypesOfAll : List TypeExpr → List (Option String × String)
  | [] => []
  | t :: ts => userTypes t ++ userTypesOfAll ts

end

theorem userTypesOfAll_eq_flatMap (ts : List TypeExpr) : userTypesOfAll ts = ts.flatMap userTypes := by
  induction ts with
  | nil => rfl
  | cons t ts ih => rw [userTypesOfAll, ih, List.flatMap_cons]

/-- the user type with `home` for its module, if it has none -/
def atHome (home : String) (user : Option String × String) : Option String × String :=
  (some (user.1.getD home), user.2)

mutual

/-- **Qualification** gives every user type a module and keeps those that are there. -/
theorem userTypes_qualify (home : String) (t : TypeExpr) :
    (t.qualify home).userTypes = t.userTypes.map (atHome home) := by
  match t with
  | .named none _ | .named (some _) _ => rfl
  | .range _ _ | .boolean | .float | .iodata | .undefined | .atom _ | .record _ => rfl
  | .list value => exact userTypes_qualify home value
  | .tagged _ value => exact userTypes_qualify home value
  | .union members => exact userTypesOfAll_qualify home members

theorem userTypesOfAll_qualify (home : String) (ts : List TypeExpr) :
    userTypesOfAll (qualifyMembers home ts) = (userTypesOfAll ts).map (atHome home) := by
  match ts with
  | [] => rfl
  | t :: ts =>
    rw [qualifyMembers, userTypesOfAll, userTypesOfAll, List.map_append, userTypes_qualify home t,
      userTypesOfAll_qualify home ts]

end

theorem userTypes_optional (t : TypeExpr) : (optional t).userTypes = t.userTypes := by
  rw [optional, userTypes, userTypesOfAll_eq_flatMap]
  simp [userTypes]

end TypeExpr

/-! ## Fields -/

/-- among the declarations of the package, the field refers to `d`: an enum or a message, as its kind says, under its
type name -/
inductive RefersTo (p : Package) (f : FieldDecl) : Declaration → Prop
  | enum {e : EnumDecl} (hkind : f.kind = .enum) (he : e ∈ p.enums) (hname : e.absoluteName = f.typeName) :
      RefersTo p f e.toDeclaration
  | message {m : MessageDecl} (hkind : f.kind = .message) (hm : m ∈ p.messages) (hname : m.absoluteName = f.typeName) :
      RefersTo p f m.toDeclaration

theorem RefersTo.mem_declarations {p : Package} {f : FieldDecl} {d : Declaration} (h : RefersTo p f d) :
    d ∈ p.declarations := by
  cases h with
  | enum _ he => exact List.mem_append_left _ (List.mem_map_of_mem he)
  | message _ hm => exact List.mem_append_right _ (List.mem_map_of_mem hm)

/-- a declaration that a field refers to is offered by the type module of its package -/
theorem RefersTo.offered {p : Package} {f : FieldDecl} {d : Declaration} (h : RefersTo p f d) :
    TypeModule.Exports p.typeModule d.typeName ∧ TypeModule.Defines p.typeModule d.typeName :=
  Package.offered_of_mem h.mem_declarations

/-- the slot of a field has the user types of its value -/
theorem userTypes_typingOf (f : FieldDecl) (v : FieldValue) : (f.typingOf v).slotType.userTypes = v.type.userTypes := by
  unfold FieldDecl.typingOf
  cases f.cardinality with
  | repeated => rfl
  | optional => exact TypeExpr.userTypes_optional v.type
  | required =>
    dsimp only
    split
    · exact TypeExpr.userTypes_optional v.type
    · rfl

/-- **The user types of a field** are references to the declaration it names, which stands in its own package. -/
theorem value_refers {files : List Descriptor.File} {schema : Schema} (h : ResolvedFrom files schema) {package : String}
    {f : FieldDecl} {v : FieldValue} (hv : f.value schema package = .ok v) {user : Option String × String}
    (huser : user ∈ v.type.userTypes) :
    ∃ d : Declaration, user = (if d.package = package then none else some d.moduleName, d.typeName) ∧
      ∀ directory, RefersTo (schema.package ⟨d.package, directory⟩) f d := by
  by_cases henum : f.kind = .enum
  · obtain ⟨position, e, first, hfind, _, rfl⟩ := (FieldDecl.value_enum_eq_ok_iff henum).1 hv
    obtain ⟨hname, he⟩ := Schema.enum?_eq_some_iff.1 hfind
    obtain ⟨e', he', habsolute⟩ := (h.enum_indexed f.typeName position).1 hname
    rw [he] at he'
    cases he'
    refine ⟨e.toDeclaration, List.mem_singleton.1 huser, fun directory => .enum henum ?_ habsolute⟩
    exact Schema.mem_package_enums.2 ⟨List.mem_of_getElem? he, rfl⟩
  · by_cases hmessage : f.kind = .message
    · obtain ⟨position, m, hfind, rfl⟩ := (FieldDecl.value_message_eq_ok_iff hmessage).1 hv
      obtain ⟨hname, hm⟩ := Schema.message?_eq_some_iff.1 hfind
      obtain ⟨m', hm', habsolute⟩ := (h.message_indexed f.typeName position).1 hname
      rw [hm] at hm'
      cases hm'
      refine ⟨m.toDeclaration, List.mem_singleton.1 huser, fun directory => .message hmessage ?_ habsolute⟩
      exact Schema.mem_package_messages.2 ⟨List.mem_of_getElem? hm, rfl⟩
    · cases scalarValue_of_value henum hmessage hv <;> exact absurd huser List.not_mem_nil

/-! ## Slots -/

/-- every user type of a slot is one of a field that the slot holds -/
theorem exists_field_of_userType {schema : Schema} {m : MessageDecl} (h : m.Typed schema) {slot : RecordSlot}
    (hslot : slot ∈ m.slots) {type : TypeExpr} {default : Literal} (htyping : slot.typing = some (type, default))
    {user : Option String × String} (huser : user ∈ type.userTypes) :
    ∃ f ∈ m.scope slot, ∃ v, f.value schema m.package = .ok v ∧ user ∈ v.type.userTypes := by
  rcases MessageDecl.mem_slots hslot with ⟨f, hf, rfl⟩ | ⟨o, ho, rfl⟩
  · obtain ⟨v, hv, _, heq⟩ := h.field f hf
    simp only [RecordSlot.typing, heq, Option.map_some, Option.some.injEq, Prod.mk.injEq] at htyping
    rw [← htyping.1, userTypes_typingOf] at huser
    exact ⟨f, List.mem_cons_self, v, hv, huser⟩
  · obtain ⟨alternatives, hall, heq⟩ := h.oneof o ho
    simp only [RecordSlot.typing, heq, Option.map_some, Option.some.injEq, Prod.mk.injEq] at htyping
    rw [← htyping.1, TypeExpr.userTypes, TypeExpr.userTypesOfAll_eq_flatMap, List.flatMap_cons] at huser
    obtain ⟨alternative, halternative, huser⟩ := List.mem_flatMap.1 huser
    obtain ⟨position, hposition, f, typing, hf, htyping, rfl⟩ := mem_right_of_forall₂ hall halternative
    obtain ⟨v, hv, _, heq⟩ := h.field f (List.mem_of_getElem? hf)
    rw [htyping, Option.some.injEq] at heq
    subst heq
    rw [TypeExpr.userTypes, typingOf_valueType] at huser
    exact ⟨f, List.mem_filterMap.2 ⟨position, hposition, hf⟩, v, hv, huser⟩

/-! ## The header -/

/-- the user type is that of the declaration `d` to which the field refers, and the module before it is the one that
exports and defines it; for a declaration of the package asked for, this is the module that is generated -/
structure Offered (request : ResolvedRequest) (f : FieldDecl) (user : Option String × String) (d : Declaration) :
    Prop where
  named : user = (some d.moduleName, d.typeName)
  text : (TypeExpr.named user.1 user.2).render = Atom.quote d.moduleName ++ ":" ++ Atom.quote d.typeName ++ "()"
  /-- what is written, here and in the type module, denotes the names -/
  atoms : Atom.Denotes (Atom.quote d.moduleName) d.moduleName ∧ Atom.Denotes (Atom.quote d.typeName) d.typeName
  refers : ∀ directory, RefersTo (request.schema.package ⟨d.package, directory⟩) f d
  module : ∀ directory, (request.schema.package ⟨d.package, directory⟩).moduleName = d.moduleName
  exported : ∀ directory, TypeModule.Exports (request.schema.package ⟨d.package, directory⟩).typeModule d.typeName
  defined : ∀ directory, TypeModule.Defines (request.schema.package ⟨d.package, directory⟩).typeModule d.typeName
  own : d.package = request.target.package → d.moduleName = request.package.moduleName ∧
    TypeModule.Exports request.package.typeModule d.typeName ∧ TypeModule.Defines request.package.typeModule d.typeName

/-- every user type in a line of the definition is offered where it says -/
def OfferedIn (request : ResolvedRequest) (m : MessageDecl) (d : Header.Definition) : Prop :=
  d.declaration = m.toDeclaration ∧
    List.Forall₂ (fun slot line => ∀ user ∈ line.type.userTypes, ∃ f ∈ m.scope slot, ∃ d, Offered request f user d)
      m.slots d.lines

theorem offered_of_userType {files : List Descriptor.File} {request : ResolvedRequest}
    (h : ResolvedFrom files request.schema) {f : FieldDecl} {v : FieldValue}
    (hv : f.value request.schema request.target.package = .ok v) {user : Option String × String}
    (huser : user ∈ v.type.userTypes) :
    ∃ d, Offered request f (TypeExpr.atHome request.package.moduleName user) d := by
  obtain ⟨d, rfl, hrefers⟩ := value_refers h hv huser
  have hnamed : TypeExpr.atHome request.package.moduleName
      (if d.package = request.target.package then none else some d.moduleName, d.typeName) =
        (some d.moduleName, d.typeName) := by
    by_cases hown : d.package = request.target.package
    · have hmodule : request.package.moduleName = d.moduleName := (congrArg moduleName hown).symm
      simp [TypeExpr.atHome, hown, hmodule]
    · simp [TypeExpr.atHome, hown]
  rw [hnamed]
  refine ⟨d, rfl, rfl, ⟨Atom.denotes_quote _, Atom.denotes_quote _⟩, hrefers, fun directory => rfl,
    fun directory => (hrefers directory).offered.1, fun directory => (hrefers directory).offered.2, ?_⟩
  intro hown
  have hpackage := hrefers request.target.directory
  rw [hown] at hpackage
  exact ⟨congrArg moduleName hown, hpackage.offered.1, hpackage.offered.2⟩

/-- the user types in a line of the header -/
theorem offered_of_line {files : List Descriptor.File} {request : ResolvedRequest}
    (h : ResolvedFrom files request.schema) {m : MessageDecl} (hm : m ∈ request.package.messages) {slot : RecordSlot}
    (hslot : slot ∈ m.slots) {line : Header.Line} (hline : Header.line? request.package.moduleName slot = some line)
    {written : Option String × String} (hwritten : written ∈ line.type.userTypes) :
    ∃ f ∈ m.scope slot, ∃ d, Offered request f written d := by
  obtain ⟨hin, hpackage⟩ := Schema.mem_package_messages.1 hm
  obtain ⟨⟨type, default⟩, htyping, rfl⟩ := Option.map_eq_some_iff.1 hline
  rw [TypeExpr.userTypes_qualify] at hwritten
  obtain ⟨user, huser, rfl⟩ := List.mem_map.1 hwritten
  obtain ⟨f, hf, v, hv, hvalue⟩ := exists_field_of_userType (h.typed m hin) hslot htyping huser
  rw [hpackage] at hv
  exact ⟨f, hf, offered_of_userType h hv hvalue⟩

theorem offeredIn_of_defined {files : List Descriptor.File} {request : ResolvedRequest}
    (h : ResolvedFrom files request.schema) {m : MessageDecl} (hm : m ∈ request.package.messages)
    {d : Header.Definition} (hd : Header.Defined request.package.moduleName m d) : OfferedIn request m d := by
  refine ⟨hd.declaration, ((List.forall₂_and_left _ _).2 ⟨fun slot hslot => hslot, hd.lines⟩).imp ?_⟩
  intro slot line ⟨hslot, hline⟩ written hwritten
  exact offered_of_line h hm hslot hline hwritten

/-- **References are closed.** When a request has outputs, the header is a sequence of record definitions in which every
user type names its module. It is the type of the declaration to which a field in its slot refers, of the sort the
field's kind says; and the type module of that declaration's package, which has the name written, exports and defines
it. For declarations of the package asked for, this is the other output. -/
theorem references_closed {request : Request} {out : List OutputFile} (h : request.outputs = .ok out) :
    ∃ resolved definitions, ResolvedRequest.ofBatch request.filesToGenerate request.files = .ok resolved ∧
      out = [⟨resolved.package.headerPath, resolved.package.headerWith definitions⟩,
        ⟨resolved.package.modulePath, resolved.package.typeModule⟩] ∧
      List.Forall₂ (OfferedIn resolved) resolved.package.messages definitions := by
  obtain ⟨resolved, definitions, hbatch, hfrom, hdefinitions, hout⟩ := exists_definitions_of_outputs h
  exact ⟨resolved, definitions, hbatch, hout, hdefinitions.imp fun m d hd => offeredIn_of_defined hfrom hd.1 hd.2⟩

/-- the user types of each record of a package, as its header writes them -/
def writtenUserTypes (p : Package) : List (List (Option String × String)) :=
  p.messages.map fun m => (m.slots.filterMap (Header.line? p.moduleName)).flatMap (·.type.userTypes)

/-- the third reference is to another package -/
def sampleUserTypes : List (List (Option String × String)) :=
  [[(some "shop", "order_line"), (some "shop", "order_state"), (some "party", "person")],
    [(some "shop", "order"), (some "shop", "order_line_unit")], [], []]

theorem references_closed_sample : ∃ out resolved definitions, sampleRequest.outputs = .ok out ∧
    ResolvedRequest.ofBatch sampleRequest.filesToGenerate sampleRequest.files = .ok resolved ∧
    writtenUserTypes resolved.package = sampleUserTypes ∧
    out = [⟨resolved.package.headerPath, resolved.package.headerWith definitions⟩,
      ⟨resolved.package.modulePath, resolved.package.typeModule⟩] ∧
    List.Forall₂ (OfferedIn resolved) resolved.package.messages definitions := by
  obtain ⟨out, h, _⟩ := exists_ok_of_check (x := sampleRequest.outputs) (P := fun _ => True) (by decide +kernel)
  obtain ⟨checked, hchecked, htypes⟩ := exists_ok_of_check
    (x := ResolvedRequest.ofBatch sampleRequest.filesToGenerate sampleRequest.files)
    (P := fun resolved => writtenUserTypes resolved.package = sampleUserTypes) (by decide +kernel)
  obtain ⟨resolved, definitions, hbatch, hout, hoffered⟩ := references_closed h
  have hsame : checked = resolved := Except.ok.inj (hchecked.symm.trans hbatch)
  exact ⟨out, resolved, definitions, h, hbatch, hsame ▸ htypes, hout, hoffered⟩

end ErlangRecords
