/-
Two schemas that agree by name: what resolution makes of them agrees by name too.

Positions differ from one batch to a reordered one, so a handle is compared by the absolute name of the declaration it
denotes in its own schema.

- `AgreeByName`: the same absolute names, and under each of them the same declaration but for positions.
- `ExtendsByName`, `resolved_messages_agree`: one of the schemas may declare more, which the other does not notice.
- `resolve_agrees`: resolution keeps agreement, and does not fail on one of the two only.
-/
import ErlangRecords.Proofs.InPlace

namespace ErlangRecords

/-! ## Agreement -/

/-- the absolute names at the positions of a schema -/
structure Naming where
  message : Nat → Option String
  enum : Nat → Option String

def Schema.naming (schema : Schema) : Naming where
  message i := (schema.messages[i]?).map (·.absoluteName)
  enum i := (schema.enums[i]?).map (·.absoluteName)

theorem Schema.naming_message (schema : Schema) (i : Nat) :
    schema.naming.message i = (schema.messages[i]?).map (·.absoluteName) := rfl

theorem Schema.naming_enum (schema : Schema) (i : Nat) :
    schema.naming.enum i = (schema.enums[i]?).map (·.absoluteName) := rfl

/-- one message by name -/
def SameMessageAt (n n' : Naming) (i j : Nat) : Prop := ∃ name, n.message i = some name ∧ n'.message j = some name

/-- one declaration by sort and name -/
inductive SameRef (n n' : Naming) : TypeRef → TypeRef → Prop
  | message {i j : Nat} (h : SameMessageAt n n' i j) : SameRef n n' (.message i) (.message j)
  | enum {i j : Nat} {name : String} (h : n.enum i = some name) (h' : n'.enum j = some name) :
      SameRef n n' (.enum i) (.enum j)

structure SameDeclaration (n n' : Naming) (d d' : Declaration) : Prop where
  data : { d with parent := none } = { d' with parent := none }
  parent : Option.Rel (SameMessageAt n n') d.parent d'.parent

structure SameField (n n' : Naming) (f f' : FieldDecl) : Prop where
  data : { f with target := none } = { f' with target := none }
  target : Option.Rel (SameRef n n') f.target f'.target

structure SameOneof (n n' : Naming) (o o' : OneofDecl) : Prop where
  data : { o with owner := 0 } = { o' with owner := 0 }
  owner : SameMessageAt n n' o.owner o'.owner

structure SameMessage (n n' : Naming) (m m' : MessageDecl) : Prop where
  declaration : SameDeclaration n n' m.toDeclaration m'.toDeclaration
  fields : List.Forall₂ (SameField n n') m.fields m'.fields
  oneofs : List.Forall₂ (SameOneof n n') m.oneofs m'.oneofs

structure SameEnum (n n' : Naming) (e e' : EnumDecl) : Prop where
  declaration : SameDeclaration n n' e.toDeclaration e'.toDeclaration
  values : e.values = e'.values

/-- the schemas differ only in the positions of their declarations -/
structure AgreeByName (s s' : Schema) : Prop where
  messageNames : (s.messages.map (·.absoluteName)).Perm (s'.messages.map (·.absoluteName))
  enumNames : (s.enums.map (·.absoluteName)).Perm (s'.enums.map (·.absoluteName))
  /-- each name denotes the same in both, or nothing in either -/
  names : ∀ name, Option.Rel (SameRef s.naming s'.naming) (s.names.get? name) (s'.names.get? name)
  message : ∀ m ∈ s.messages, ∀ m' ∈ s'.messages, m.absoluteName = m'.absoluteName →
    SameMessage s.naming s'.naming m m'
  enum : ∀ e ∈ s.enums, ∀ e' ∈ s'.enums, e.absoluteName = e'.absoluteName → SameEnum s.naming s'.naming e e'

/-- what the first schema declares, the second declares too; they differ in positions, and the second may declare
more -/
structure ExtendsByName (s s' : Schema) : Prop where
  name : ∀ (name : String) (ref : TypeRef), s.names.get? name = some ref →
    ∃ ref', s'.names.get? name = some ref' ∧ SameRef s.naming s'.naming ref ref'
  message : ∀ m ∈ s.messages, ∀ m' ∈ s'.messages, m.absoluteName = m'.absoluteName →
    SameMessage s.naming s'.naming m m'
  enum : ∀ e ∈ s.enums, ∀ e' ∈ s'.enums, e.absoluteName = e'.absoluteName → SameEnum s.naming s'.naming e e'

theorem AgreeByName.extends {s s' : Schema} (h : AgreeByName s s') : ExtendsByName s s' := by
  refine ⟨?_, h.message, h.enum⟩
  intro name ref hget
  have hrel := h.names name
  rw [hget] at hrel
  cases hget' : s'.names.get? name with
  | none =>
    rw [hget'] at hrel
    cases hrel
  | some ref' =>
    rw [hget'] at hrel
    cases hrel with
    | some href => exact ⟨ref', rfl, href⟩

/-! ## References -/

section

variable {s s' : Schema} {n n' : Naming}

theorem SameDeclaration.reference {d d' : Declaration} (h : SameDeclaration n n' d d') (package : String) :
    d.reference package = d'.reference package := by
  have hdata := h.data
  simp only [Declaration.mk.injEq, true_and] at hdata
  obtain ⟨_, hpackage, _, hfull⟩ := hdata
  simp only [Declaration.reference, Declaration.moduleName, Declaration.typeName, hpackage, hfull]

theorem SameRef.of_message {i : Nat} {ref : TypeRef} {m : MessageDecl} (h : SameRef s.naming s'.naming (.message i) ref)
    (hm : s.messages[i]? = some m) :
    ∃ (j : Nat) (m' : MessageDecl), ref = .message j ∧ s'.messages[j]? = some m' ∧
      m.absoluteName = m'.absoluteName := by
  cases h with
  | message hat =>
    obtain ⟨name, hi, hj⟩ := hat
    obtain ⟨m', hm', hname'⟩ := Option.map_eq_some_iff.1 hj
    rw [Schema.naming_message, hm, Option.map_some] at hi
    exact ⟨_, m', rfl, hm', (Option.some.inj hi).trans hname'.symm⟩

theorem SameRef.of_enum {i : Nat} {ref : TypeRef} {e : EnumDecl} (h : SameRef s.naming s'.naming (.enum i) ref)
    (he : s.enums[i]? = some e) :
    ∃ (j : Nat) (e' : EnumDecl), ref = .enum j ∧ s'.enums[j]? = some e' ∧ e.absoluteName = e'.absoluteName := by
  cases h with
  | enum hi hj =>
    obtain ⟨e', he', hname'⟩ := Option.map_eq_some_iff.1 hj
    rw [Schema.naming_enum, he, Option.map_some] at hi
    exact ⟨_, e', rfl, he', (Option.some.inj hi).trans hname'.symm⟩

theorem ExtendsByName.enum? (h : ExtendsByName s s') {name : String} {i : Nat} {e : EnumDecl}
    (he : s.enum? name = some (i, e)) :
    ∃ j e', s'.enum? name = some (j, e') ∧ SameRef s.naming s'.naming (.enum i) (.enum j) ∧
      SameEnum s.naming s'.naming e e' := by
  obtain ⟨hname, hi⟩ := Schema.enum?_eq_some_iff.1 he
  obtain ⟨ref, hname', href⟩ := h.name _ _ hname
  obtain ⟨j, e', rfl, hj, hsame⟩ := href.of_enum hi
  exact ⟨j, e', Schema.enum?_eq_some_iff.2 ⟨hname', hj⟩, href,
    h.enum e (List.mem_of_getElem? hi) e' (List.mem_of_getElem? hj) hsame⟩

theorem ExtendsByName.message? (h : ExtendsByName s s') {name : String} {i : Nat} {m : MessageDecl}
    (hm : s.message? name = some (i, m)) :
    ∃ j m', s'.message? name = some (j, m') ∧ SameRef s.naming s'.naming (.message i) (.message j) ∧
      SameMessage s.naming s'.naming m m' := by
  obtain ⟨hname, hi⟩ := Schema.message?_eq_some_iff.1 hm
  obtain ⟨ref, hname', href⟩ := h.name _ _ hname
  obtain ⟨j, m', rfl, hj, hsame⟩ := href.of_message hi
  exact ⟨j, m', Schema.message?_eq_some_iff.2 ⟨hname', hj⟩, href,
    h.message m (List.mem_of_getElem? hi) m' (List.mem_of_getElem? hj) hsame⟩

/-! ## Values and fields -/

theorem SameField.eq {f f' : FieldDecl} (h : SameField n n' f f') : f' = { f with target := f'.target } := by
  have hdata := h.data
  cases f
  cases f'
  simp only [FieldDecl.mk.injEq, true_and] at hdata ⊢
  tauto

structure SameValue (n n' : Naming) (v v' : FieldValue) : Prop where
  type : v.type = v'.type
  default : v.default = v'.default
  target : Option.Rel (SameRef n n') v.target v'.target

/-- the default of a field that holds an enum reads its values, that of another field reads no declaration -/
theorem value_agrees (h : ExtendsByName s s') {package : String} {f f' : FieldDecl} {v : FieldValue}
    (hf : SameField n n' f f') (hv : f.value s package = .ok v) :
    ∃ v', f'.value s' package = .ok v' ∧ SameValue s.naming s'.naming v v' := by
  rw [hf.eq]
  by_cases henum : f.kind = .enum
  · obtain ⟨i, e, first, hfind, hfirst, rfl⟩ := (FieldDecl.value_enum_eq_ok_iff henum).1 hv
    obtain ⟨j, e', hfind', href, hsame⟩ := h.enum? hfind
    have hfirst' : e'.defaultValue? = some first := by
      rw [← hfirst, EnumDecl.defaultValue?, EnumDecl.defaultValue?, hsame.values]
    exact ⟨_, (FieldDecl.value_enum_eq_ok_iff henum).2 ⟨j, e', first, hfind', hfirst', rfl⟩,
      hsame.declaration.reference package, rfl, .some href⟩
  · by_cases hmessage : f.kind = .message
    · obtain ⟨i, m, hfind, rfl⟩ := (FieldDecl.value_message_eq_ok_iff hmessage).1 hv
      obtain ⟨j, m', hfind', href, hsame⟩ := h.message? hfind
      exact ⟨_, (FieldDecl.value_message_eq_ok_iff hmessage).2 ⟨j, m', hfind', rfl⟩,
        hsame.declaration.reference package, rfl, .some href⟩
    · obtain ⟨htarget, hother⟩ := FieldDecl.value_of_scalar henum hmessage hv
      refine ⟨v, hother s', rfl, rfl, ?_⟩
      rw [htarget]
      exact .none

theorem Option.Rel.orElse {α β : Type} {r : α → β → Prop} {a a₂ : Option α} {b b₂ : Option β} (h : Option.Rel r a b)
    (h₂ : Option.Rel r a₂ b₂) : Option.Rel r (a <|> a₂) (b <|> b₂) := by
  cases h with
  | some h => exact .some h
  | none => exact h₂

theorem resolve_field_agrees (h : ExtendsByName s s') {package : String} {f f' r : FieldDecl}
    (hf : SameField s.naming s'.naming f f') (hr : f.resolve s package = .ok r) :
    ∃ r', f'.resolve s' package = .ok r' ∧ SameField s.naming s'.naming r r' := by
  obtain ⟨v, hv, rfl⟩ := FieldDecl.resolve_eq_ok_iff.1 hr
  obtain ⟨v', hv', hsame⟩ := value_agrees h hf hv
  refine ⟨_, FieldDecl.resolve_eq_ok_iff.2 ⟨v', hv', rfl⟩, ?_, ?_⟩
  · rw [hf.eq]
    simp only [FieldDecl.typingOf, hsame.type, hsame.default]
  · exact Option.Rel.orElse hsame.target hf.target

/-! ## Oneofs and messages -/

theorem SameField.alternative? {f f' : FieldDecl} (h : SameField n n' f f') : f.alternative? = f'.alternative? := by
  rw [h.eq]
  rfl

theorem resolve_oneof_agrees {fields fields' : List FieldDecl} {o o' : OneofDecl}
    (hf : List.Forall₂ (SameField n n') fields fields') (ho : SameOneof n n' o o') :
    SameOneof n n' (o.resolve fields) (o'.resolve fields') := by
  have halternative : ∀ position : Nat,
      (fields[position]?).bind FieldDecl.alternative? = (fields'[position]?).bind FieldDecl.alternative? := by
    intro position
    by_cases hlt : position < fields.length
    · have hlt' : position < fields'.length := hf.length_eq ▸ hlt
      rw [List.getElem?_eq_getElem hlt, List.getElem?_eq_getElem hlt']
      exact (hf.get hlt hlt').alternative?
    · have hge := Nat.le_of_not_lt hlt
      rw [List.getElem?_eq_none hge, List.getElem?_eq_none (hf.length_eq ▸ hge)]
  have hdata := ho.data
  simp only [OneofDecl.mk.injEq, true_and] at hdata
  obtain ⟨hname, hmembers, hsynthetic, _⟩ := hdata
  refine ⟨?_, ho.owner⟩
  simp only [OneofDecl.resolve, hname, hmembers, hsynthetic, halternative]

theorem resolve_message_agrees (h : ExtendsByName s s') {m m' r : MessageDecl}
    (hm : SameMessage s.naming s'.naming m m') (hr : m.resolve s = .ok r) :
    ∃ r', m'.resolve s' = .ok r' ∧ SameMessage s.naming s'.naming r r' := by
  obtain ⟨fields, hfields, rfl⟩ := MessageDecl.resolve_eq_ok_iff.1 hr
  have hpackage : m'.package = m.package := by
    have hdata := hm.declaration.data
    simp only [Declaration.mk.injEq, true_and] at hdata
    exact hdata.2.1.symm
  have hstep : ∀ f f' r, SameField s.naming s'.naming f f' → f.resolve s m.package = .ok r →
      ∃ r', f'.resolve s' m.package = .ok r' ∧ SameField s.naming s'.naming r r' := fun f f' r =>
    resolve_field_agrees h
  obtain ⟨fields', hfields', hsame⟩ := forall₂_related hstep hm.fields hfields
  refine ⟨m'.withBody fields' (m'.oneofs.map (·.resolve fields')), ?_, hm.declaration, hsame, ?_⟩
  · rw [MessageDecl.resolve_eq_ok_iff, hpackage]
    exact ⟨fields', hfields', rfl⟩
  · rw [MessageDecl.withBody, MessageDecl.withBody, List.forall₂_map_left_iff, List.forall₂_map_right_iff]
    exact hm.oneofs.imp fun o o' ho => resolve_oneof_agrees hsame ho

end

/-! ## Schemas -/

theorem naming_of_resolve {s r : Schema} (h : s.resolve = .ok r) : r.naming = s.naming := by
  have hmessages := messages_of_resolve h
  obtain ⟨henums, _, _⟩ := resolve_eq_ok_iff.1 h
  have hname : ∀ (schema : Schema) (i : Nat), (schema.messages[i]?).map (·.absoluteName) =
      ((schema.messages.map MessageDecl.toDeclaration)[i]?).map (·.absoluteName) := by
    intro schema i
    rw [List.getElem?_map, Option.map_map]
    rfl
  simp only [Schema.naming, hname, hmessages, henums]

/-- agreeing schemas are resolved both or neither -/
theorem exists_resolve_of_agree {s s' r : Schema} (h : AgreeByName s s') (hr : s.resolve = .ok r) :
    ∃ r', s'.resolve = .ok r' := by
  obtain ⟨_, _, hmessages⟩ := resolve_eq_ok_iff.1 hr
  have hall : ∀ m' ∈ s'.messages, ∃ r', m'.resolve s' = .ok r' := by
    intro m' hm'
    obtain ⟨m, hm, hname⟩ := List.mem_map.1 (h.messageNames.mem_iff.2 (List.mem_map_of_mem hm'))
    obtain ⟨i, hi, rfl⟩ := List.getElem_of_mem hm
    have hri := hmessages.get hi (hmessages.length_eq ▸ hi)
    obtain ⟨r', hr', _⟩ := resolve_message_agrees h.extends (h.message _ hm m' hm' hname) hri
    exact ⟨r', hr'⟩
  obtain ⟨messages', hmessages'⟩ := exists_forall₂ hall
  exact ⟨{ s' with messages := messages' }, resolve_eq_ok_iff.2 ⟨rfl, rfl, hmessages'⟩⟩

/-- messages of one name, resolved in a schema and in one that extends it -/
theorem resolved_messages_agree {s s' r r' : Schema} (h : ExtendsByName s s') (hr : s.resolve = .ok r)
    (hr' : s'.resolve = .ok r') {x x' : MessageDecl} (hx : x ∈ r.messages) (hx' : x' ∈ r'.messages)
    (hname : x.absoluteName = x'.absoluteName) : SameMessage s.naming s'.naming x x' := by
  obtain ⟨_, _, hmessages⟩ := resolve_eq_ok_iff.1 hr
  obtain ⟨_, _, hmessages'⟩ := resolve_eq_ok_iff.1 hr'
  obtain ⟨m, hm, hmx⟩ := mem_right_of_forall₂ hmessages hx
  obtain ⟨m', hm', hmx'⟩ := mem_right_of_forall₂ hmessages' hx'
  rw [MessageDecl.toDeclaration_of_resolve hmx, MessageDecl.toDeclaration_of_resolve hmx'] at hname
  obtain ⟨y, hy, hsame⟩ := resolve_message_agrees h (h.message m hm m' hm' hname) hmx
  rw [hmx'] at hy
  cases hy
  exact hsame

/-- **Resolution keeps agreement.** -/
theorem resolve_agrees {s s' r r' : Schema} (h : AgreeByName s s') (hr : s.resolve = .ok r)
    (hr' : s'.resolve = .ok r') : AgreeByName r r' := by
  obtain ⟨henums, hnames, _⟩ := resolve_eq_ok_iff.1 hr
  obtain ⟨henums', hnames', _⟩ := resolve_eq_ok_iff.1 hr'
  have hmessageNames : ∀ {s r : Schema}, s.resolve = .ok r →
      r.messages.map (·.absoluteName) = s.messages.map (·.absoluteName) := by
    intro s r hr
    have := congrArg (List.map Declaration.absoluteName) (messages_of_resolve hr)
    rwa [List.map_map, List.map_map] at this
  constructor
  case messageNames =>
    rw [hmessageNames hr, hmessageNames hr']
    exact h.messageNames
  case enumNames =>
    rw [henums, henums']
    exact h.enumNames
  case names =>
    rw [naming_of_resolve hr, naming_of_resolve hr', hnames, hnames']
    exact h.names
  case message =>
    intro x hx x' hx' hname
    rw [naming_of_resolve hr, naming_of_resolve hr']
    exact resolved_messages_agree h.extends hr hr' hx hx' hname
  case enum =>
    rw [naming_of_resolve hr, naming_of_resolve hr', henums, henums']
    exact h.enum

end ErlangRecords
