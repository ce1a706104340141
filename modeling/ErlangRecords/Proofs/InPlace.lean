/-
The loop over the messages resolves each of them against the schema as it was collected.

While the loop runs, the schema holds resolved messages, one hollow message and messages yet to be resolved. Resolution
reads nothing of another message but its declaration, so none of this shows.

- `SameDeclarations`, `value_congr`: what a field's value depends on.
- `FieldDecl.resolve_eq_ok_iff`, `MessageDecl.resolve_eq_ok_iff`: what a resolved field and a resolved message are.
- `resolveAt_eq`: one step, against the schema as collected.
- `foldlM_resolveAt_iff`: a run over distinct positions, in any order.
- `foldlM_resolveAt_perm_iff`: a loop that visits each position once; `resolve_eq_ok_iff`: the one that runs.
- `sameDeclarations_of_resolve`: no declaration moves.
-/
import ErlangRecords.Proofs.Faults
import ErlangRecords.Schema.Resolution

namespace ErlangRecords

/-! ## What resolution reads -/

/-- the schemas differ in nothing but the fields and oneofs of their messages -/
structure SameDeclarations (s schema : Schema) : Prop where
  enums : s.enums = schema.enums
  names : s.names = schema.names
  messages : s.messages.map MessageDecl.toDeclaration = schema.messages.map MessageDecl.toDeclaration

theorem SameDeclarations.refl (schema : Schema) : SameDeclarations schema schema := ⟨rfl, rfl, rfl⟩

theorem SameDeclarations.trans {s t u : Schema} (hst : SameDeclarations s t) (htu : SameDeclarations t u) :
    SameDeclarations s u :=
  ⟨hst.enums.trans htu.enums, hst.names.trans htu.names, hst.messages.trans htu.messages⟩

/-- a message takes the place of one with the same declaration -/
theorem sameDeclarations_set {s : Schema} {position : Nat} {m r : MessageDecl} (hm : s.messages[position]? = some m)
    (hr : r.toDeclaration = m.toDeclaration) :
    SameDeclarations { s with messages := s.messages.set position r } s := by
  refine ⟨rfl, rfl, ?_⟩
  apply List.ext_getElem?
  intro i
  rw [List.getElem?_map, List.getElem?_map, List.getElem?_set]
  split
  · rename_i hi
    subst hi
    have hlt := (List.getElem?_eq_some_iff.1 hm).1
    rw [if_pos hlt, hm, Option.map_some, Option.map_some, hr]
  · rfl

theorem message?_toDeclaration (schema : Schema) (name : String) :
    (schema.message? name).map (fun found => (found.1, found.2.toDeclaration)) =
      (schema.names.message? name).bind fun position =>
        ((schema.messages.map MessageDecl.toDeclaration)[position]?).map (position, ·) := by
  unfold Schema.message?
  cases schema.names.message? name with
  | none => rfl
  | some position =>
    rw [Option.bind_some, Option.bind_some, List.getElem?_map]
    cases schema.messages[position]? <;> rfl

/-- a name denotes a message at the same position, with the same declaration -/
theorem SameDeclarations.message? {s schema : Schema} (h : SameDeclarations s schema) (name : String) :
    (s.message? name).map (fun found => (found.1, found.2.toDeclaration)) =
      (schema.message? name).map fun found => (found.1, found.2.toDeclaration) := by
  rw [message?_toDeclaration, message?_toDeclaration, h.names, h.messages]

/-- **No field is read**: the value of a field is the same whatever the fields and oneofs of the messages. -/
theorem FieldDecl.value_congr {s schema : Schema} (h : SameDeclarations s schema) (package : String) (f : FieldDecl) :
    f.value s package = f.value schema package := by
  unfold FieldDecl.value
  cases f.kind with
  | enum =>
    have henum : s.enum? f.typeName = schema.enum? f.typeName := by rw [Schema.enum?, Schema.enum?, h.enums, h.names]
    rw [henum]
  | message =>
    have hmessage := h.message? f.typeName
    cases hs : s.message? f.typeName with
    | none =>
      rw [hs] at hmessage
      cases ht : schema.message? f.typeName with
      | none => rfl
      | some found => rw [ht] at hmessage; cases hmessage
    | some found =>
      rw [hs] at hmessage
      cases ht : schema.message? f.typeName with
      | none => rw [ht] at hmessage; cases hmessage
      | some found' =>
        rw [ht] at hmessage
        simp only [Option.map_some, Option.some.injEq, Prod.mk.injEq] at hmessage
        simp only [hmessage]
  | _ => rfl

/-- where the fields have the same values, they are resolved to the same, and so are the oneofs -/
theorem resolveBody_congr {s schema : Schema} {package : String} {fields : List FieldDecl}
    (h : ∀ f ∈ fields, f.value s package = f.value schema package) (oneofs : List OneofDecl) :
    resolveBody s package fields oneofs = resolveBody schema package fields oneofs := by
  unfold resolveBody
  rw [mapM_congr_mem fun f hf => by rw [FieldDecl.resolve_eq, h f hf, ← FieldDecl.resolve_eq]]

/-! ## One step -/

/-- the message with its fields and oneofs resolved against a schema -/
def MessageDecl.resolve (schema : Schema) (m : MessageDecl) : Except SchemaFault MessageDecl := do
  let body ← atPlace ("cannot resolve types in message \"" ++ m.fullName ++ "\" of package \"" ++ m.package ++ "\"")
    (resolveBody schema m.package m.fields m.oneofs)
  return m.withBody body.1 body.2

theorem MessageDecl.resolve_congr {s schema : Schema} {m : MessageDecl}
    (h : ∀ f ∈ m.fields, f.value s m.package = f.value schema m.package) : m.resolve s = m.resolve schema := by
  simp only [MessageDecl.resolve, resolveBody_congr h]

theorem FieldDecl.resolve_eq_ok_iff {schema : Schema} {package : String} {f g : FieldDecl} :
    f.resolve schema package = .ok g ↔ ∃ v, f.value schema package = .ok v ∧
      g = { f with target := v.target <|> f.target, typing := some (f.typingOf v) } := by
  simp only [FieldDecl.resolve_eq, bind_eq_ok, pure, Except.pure, Except.ok.injEq, eq_comm (b := g)]

theorem MessageDecl.resolve_eq_ok_iff {schema : Schema} {m r : MessageDecl} :
    m.resolve schema = .ok r ↔ ∃ fields,
      List.Forall₂ (fun f g => f.resolve schema m.package = .ok g) m.fields fields ∧
        r = m.withBody fields (m.oneofs.map (·.resolve fields)) := by
  have hplace : ∀ f g : FieldDecl,
      atPlace ("cannot resolve type of field \"" ++ f.name ++ "\"") (f.resolve schema m.package) = .ok g ↔
        f.resolve schema m.package = .ok g := fun _ _ => atPlace_eq_ok
  simp only [MessageDecl.resolve, resolveBody, bind_eq_ok, atPlace_eq_ok, mapM_eq_ok_iff, hplace, pure, Except.pure,
    Except.ok.injEq]
  constructor
  · rintro ⟨_, ⟨fields, hfields, rfl⟩, rfl⟩
    exact ⟨fields, hfields, rfl⟩
  · rintro ⟨fields, hfields, rfl⟩
    exact ⟨_, ⟨fields, hfields, rfl⟩, rfl⟩

theorem MessageDecl.toDeclaration_of_resolve {schema : Schema} {m r : MessageDecl} (h : m.resolve schema = .ok r) :
    r.toDeclaration = m.toDeclaration := by
  obtain ⟨fields, _, rfl⟩ := MessageDecl.resolve_eq_ok_iff.1 h
  rfl

/-- a step puts the message, resolved against the schema as collected, in its own place -/
theorem resolveAt_eq {s schema : Schema} (h : SameDeclarations s schema) {position : Nat} {m : MessageDecl}
    (hm : s.messages[position]? = some m) :
    s.resolveAt position = do
      let r ← m.resolve schema
      return { s with messages := s.messages.set position r } := by
  have hhollow := (sameDeclarations_set (r := m.withBody [] []) hm rfl).trans h
  unfold Schema.resolveAt MessageDecl.resolve
  rw [hm]
  simp only [resolveBody_congr fun f _ => FieldDecl.value_congr hhollow m.package f, bind_assoc]
  refine bind_congr_ok fun body _ => ?_
  have hback : (s.messages.set position (m.withBody [] [])).modify position (·.withBody body.1 body.2) =
      s.messages.set position (m.withBody body.1 body.2) := by
    apply List.ext_getElem?
    intro i
    rw [List.getElem?_modify, List.getElem?_set, List.getElem?_set]
    split
    · split <;> rfl
    · cases s.messages[i]? <;> rfl
  rw [hback]
  rfl

/-! ## Runs -/

/-- `out` is `s` with the messages at the given positions resolved against `schema`, and nothing else changed -/
structure ResolvedAt (schema : Schema) (positions : List Nat) (s out : Schema) : Prop where
  enums : out.enums = s.enums
  names : out.names = s.names
  length : out.messages.length = s.messages.length
  done : ∀ (i : Nat) (m : MessageDecl), i ∈ positions → s.messages[i]? = some m →
    ∃ r, m.resolve schema = .ok r ∧ out.messages[i]? = some r
  rest : ∀ i, i ∉ positions → out.messages[i]? = s.messages[i]?

/-- a schema with the messages resolved is determined -/
theorem ResolvedAt.unique {schema s out out' : Schema} {positions : List Nat} (h : ResolvedAt schema positions s out)
    (h' : ResolvedAt schema positions s out') : out = out' := by
  have hmessages : out.messages = out'.messages := by
    apply List.ext_getElem?
    intro i
    by_cases hi : i ∈ positions
    · cases hm : s.messages[i]? with
      | none =>
        have hlen := List.getElem?_eq_none_iff.1 hm
        rw [List.getElem?_eq_none (by rw [h.length]; exact hlen),
          List.getElem?_eq_none (by rw [h'.length]; exact hlen)]
      | some m =>
        obtain ⟨r, hr, hout⟩ := h.done i m hi hm
        obtain ⟨r', hr', hout'⟩ := h'.done i m hi hm
        rw [hr] at hr'
        rw [hout, hout', Except.ok.inj hr']
    · rw [h.rest i hi, h'.rest i hi]
  have henums := h.enums.trans h'.enums.symm
  have hnames := h.names.trans h'.names.symm
  cases out
  cases out'
  simp_all

theorem resolvedAt_nil (schema s : Schema) : ResolvedAt schema [] s s :=
  ⟨rfl, rfl, rfl, fun _ _ hi => absurd hi List.not_mem_nil, fun _ _ => rfl⟩

/-- a position with no message adds nothing -/
theorem resolvedAt_cons_none {schema s out : Schema} {p : Nat} {rest : List Nat} (hm : s.messages[p]? = none) :
    ResolvedAt schema (p :: rest) s out ↔ ResolvedAt schema rest s out := by
  constructor
  · intro h
    refine ⟨h.enums, h.names, h.length, fun i m hi => h.done i m (List.mem_cons_of_mem p hi), fun i hi => ?_⟩
    by_cases hip : i = p
    · rw [hip, hm, List.getElem?_eq_none_iff, h.length]
      exact List.getElem?_eq_none_iff.1 hm
    · exact h.rest i (by simp [hip, hi])
  · intro h
    refine ⟨h.enums, h.names, h.length, fun i m hi hmi => ?_, fun i hi => h.rest i fun h' => hi (.tail p h')⟩
    rcases List.mem_cons.1 hi with rfl | hi
    · rw [hm] at hmi
      cases hmi
    · exact h.done i m hi hmi

/-- the message at one position first, then those at the others -/
theorem resolvedAt_cons_some {schema s out : Schema} {p : Nat} {rest : List Nat} {m : MessageDecl}
    (hm : s.messages[p]? = some m) (hp : p ∉ rest) :
    ResolvedAt schema (p :: rest) s out ↔
      ∃ r, m.resolve schema = .ok r ∧ ResolvedAt schema rest { s with messages := s.messages.set p r } out := by
  have hlt := (List.getElem?_eq_some_iff.1 hm).1
  have hne : ∀ i ∈ rest, p ≠ i := fun i hi heq => hp (heq ▸ hi)
  constructor
  · intro h
    obtain ⟨r, hr, hout⟩ := h.done p m List.mem_cons_self hm
    refine ⟨r, hr, h.enums, h.names, ?_, fun i m' hi hmi => ?_, fun i hi => ?_⟩
    · rw [h.length, List.length_set]
    · rw [List.getElem?_set_ne (hne i hi)] at hmi
      exact h.done i m' (List.mem_cons_of_mem p hi) hmi
    · by_cases hip : i = p
      · rw [hip, hout, List.getElem?_set_self hlt]
      · rw [h.rest i (by simp [hip, hi]), List.getElem?_set_ne (Ne.symm hip)]
  · rintro ⟨r, hr, h⟩
    refine ⟨h.enums, h.names, ?_, fun i m' hi hmi => ?_, fun i hi => ?_⟩
    · rw [h.length, List.length_set]
    · rcases List.mem_cons.1 hi with rfl | hi
      · rw [hm] at hmi
        cases hmi
        exact ⟨r, hr, by rw [h.rest i hp, List.getElem?_set_self hlt]⟩
      · exact h.done i m' hi (by rw [List.getElem?_set_ne (hne i hi), hmi])
    · obtain ⟨hip, hi⟩ := not_or.1 fun h' => hi (List.mem_cons.2 h')
      rw [h.rest i hi, List.getElem?_set_ne (Ne.symm hip)]

/-- **A run over distinct positions** succeeds exactly when the messages there resolve against the schema as collected,
and puts them in their places. -/
theorem foldlM_resolveAt_iff {schema s out : Schema} {positions : List Nat} (hnodup : positions.Nodup)
    (hs : SameDeclarations s schema) :
    positions.foldlM Schema.resolveAt s = .ok out ↔ ResolvedAt schema positions s out := by
  -- a message that is still to be visited stands as it did at the start
  induction positions generalizing s with
  | nil =>
    refine ⟨fun h => ?_, fun h => ?_⟩
    · cases h
      exact resolvedAt_nil schema out
    · rw [h.unique (resolvedAt_nil schema s)]
      rfl
  | cons p rest ih =>
    obtain ⟨hp, hrest⟩ := List.nodup_cons.1 hnodup
    rw [List.foldlM_cons]
    cases hm : s.messages[p]? with
    | none =>
      have hstep : s.resolveAt p = .ok s := by
        unfold Schema.resolveAt
        rw [hm]
      rw [hstep, resolvedAt_cons_none hm]
      exact ih hrest hs
    | some m =>
      have hsame : ∀ r, m.resolve schema = .ok r →
          SameDeclarations { s with messages := s.messages.set p r } schema := fun r hr =>
        (sameDeclarations_set hm (MessageDecl.toDeclaration_of_resolve hr)).trans hs
      rw [resolveAt_eq hs hm, resolvedAt_cons_some hm hp, bind_assoc, bind_eq_ok]
      exact exists_congr fun r => and_congr_right fun hr => ih hrest (hsame r hr)

/-! ## The whole loop -/

/-- **Any order will do**: a loop that visits every position once resolves each message against the schema as
collected. -/
theorem foldlM_resolveAt_perm_iff {schema out : Schema} {order : List Nat}
    (horder : order.Perm (List.range schema.messages.length)) :
    order.foldlM Schema.resolveAt schema = .ok out ↔ out.enums = schema.enums ∧ out.names = schema.names ∧
      List.Forall₂ (fun m r => m.resolve schema = .ok r) schema.messages out.messages := by
  have hmem : ∀ i, i ∈ order ↔ i < schema.messages.length := fun i => by rw [horder.mem_iff, List.mem_range]
  rw [foldlM_resolveAt_iff (horder.nodup_iff.2 List.nodup_range) (.refl schema), List.forall₂_iff_get]
  simp only [List.get_eq_getElem]
  constructor
  · intro h
    refine ⟨h.enums, h.names, h.length.symm, fun i hi hi' => ?_⟩
    obtain ⟨r, hr, hout⟩ := h.done i _ ((hmem i).2 hi) (List.getElem?_eq_getElem hi)
    rw [List.getElem?_eq_getElem hi'] at hout
    rw [Option.some.inj hout, hr]
  · rintro ⟨henums, hnames, hlen, h⟩
    refine ⟨henums, hnames, hlen.symm, fun i m hi hm => ?_, fun i hi => ?_⟩
    · obtain ⟨hlt, rfl⟩ := List.getElem?_eq_some_iff.1 hm
      exact ⟨out.messages[i], h i hlt (hlen ▸ hlt), List.getElem?_eq_getElem (hlen ▸ hlt)⟩
    · have hle : schema.messages.length ≤ i := Nat.le_of_not_lt fun h' => hi ((hmem i).2 h')
      rw [List.getElem?_eq_none hle, List.getElem?_eq_none (hlen ▸ hle)]

theorem resolve_eq_ok_iff {schema out : Schema} :
    schema.resolve = .ok out ↔ out.enums = schema.enums ∧ out.names = schema.names ∧
      List.Forall₂ (fun m r => m.resolve schema = .ok r) schema.messages out.messages :=
  foldlM_resolveAt_perm_iff (List.Perm.refl _)

/-- resolution moves no declaration -/
theorem messages_of_resolve {s r : Schema} (h : s.resolve = .ok r) :
    r.messages.map MessageDecl.toDeclaration = s.messages.map MessageDecl.toDeclaration := by
  obtain ⟨_, _, hmessages⟩ := resolve_eq_ok_iff.1 h
  have hall : List.Forall₂ (· = ·) (s.messages.map MessageDecl.toDeclaration)
      (r.messages.map MessageDecl.toDeclaration) := by
    rw [List.forall₂_map_left_iff, List.forall₂_map_right_iff]
    exact hmessages.imp fun m r hr => (MessageDecl.toDeclaration_of_resolve hr).symm
  rw [List.forall₂_eq_eq_eq] at hall
  exact hall.symm

theorem sameDeclarations_of_resolve {s r : Schema} (h : s.resolve = .ok r) : SameDeclarations r s :=
  ⟨(resolve_eq_ok_iff.1 h).1, (resolve_eq_ok_iff.1 h).2.1, messages_of_resolve h⟩

end ErlangRecords
