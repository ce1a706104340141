/-
Qualification: every user type in an expression gets a module, and nothing else changes.

Expressions are compared part by part. A part is found at its address, the numbers on the way down to it, and two
expressions are alike when they have parts at the same addresses and the same things stand there, but for the modules
of user types.

- `part?_qualify`: the parts of a qualified expression are the qualified parts.
- `qualify_eq_self_iff`: the expressions that qualification leaves as they are.
- `alike_qualify`: what qualification changes.
- `qualify_eq_qualify_iff`: what it no longer tells apart.
- `qualify_once`: all this of every expression.
-/
import ErlangRecords.TypeExpr

namespace ErlangRecords

namespace TypeExpr

/-! ## Parts -/

/-- what an expression is put together from -/
def parts : TypeExpr → List TypeExpr
  | .list value => [value]
  | .tagged _ value => [value]
  | .union members => members
  | _ => []

/-- the part at an address; the empty address is that of the whole -/
def part? (t : TypeExpr) : List Nat → Option TypeExpr
  | [] => some t
  | i :: address => t.parts[i]?.bind (part? · address)

theorem sizeOf_lt_of_mem_parts {t part : TypeExpr} (h : part ∈ t.parts) : sizeOf part < sizeOf t := by
  cases t with
  | list value | tagged tag value =>
    rw [List.mem_singleton.1 h]
    simp only [list.sizeOf_spec, tagged.sizeOf_spec]
    omega
  | union members =>
    have hlt : sizeOf part < sizeOf members := List.sizeOf_lt_of_mem h
    simp only [union.sizeOf_spec]
    omega
  | _ => exact absurd h List.not_mem_nil

/-- a property that passes from the parts to the whole is one of all expressions -/
theorem of_parts {P : TypeExpr → Prop} (h : ∀ t : TypeExpr, (∀ part ∈ t.parts, P part) → P t) (t : TypeExpr) :
    P t :=
  h t fun part hpart =>
    have := sizeOf_lt_of_mem_parts hpart
    of_parts h part
termination_by sizeOf t

section

variable {home : String} {s t : TypeExpr}

theorem parts_qualify (home : String) (t : TypeExpr) : (t.qualify home).parts = t.parts.map (qualify home) := by
  cases t with
  | named qualifier name => cases qualifier <;> rfl
  | union members => exact qualifyMembers_eq_map home members
  | _ => rfl

theorem part?_qualify (home : String) (t : TypeExpr) (address : List Nat) :
    (t.qualify home).part? address = (t.part? address).map (qualify home) := by
  induction address generalizing t with
  | nil => rfl
  | cons i address ih =>
    rw [part?, part?, parts_qualify, List.getElem?_map, Option.bind_map, Option.map_bind]
    exact congrArg _ (funext fun part => ih part)

/-! ## User types without a module -/

/-- no user type in the expression lacks a module, at any depth -/
def Qualified (t : TypeExpr) : Prop := ∀ address name, t.part? address ≠ some (.named none name)

theorem Qualified.part (h : t.Qualified) {part : TypeExpr} (hpart : part ∈ t.parts) : part.Qualified := by
  obtain ⟨i, hi⟩ := List.getElem?_of_mem hpart
  intro address name hbare
  apply h (i :: address) name
  rw [part?, hi]
  exact hbare

theorem qualify_ne_bare (home : String) (t : TypeExpr) (name : String) : t.qualify home ≠ .named none name := by
  cases t with
  | named qualifier _ => cases qualifier <;> simp [qualify]
  | _ => simp [qualify]

theorem qualified_qualify (home : String) (t : TypeExpr) : (t.qualify home).Qualified := by
  intro address name h
  rw [part?_qualify, Option.map_eq_some_iff] at h
  obtain ⟨part, _, hbare⟩ := h
  exact qualify_ne_bare home part name hbare

/-- what is not a user type without a module is left as it is if all its parts are -/
theorem qualify_eq_self_of_parts (hbare : ∀ name, t ≠ .named none name)
    (h : ∀ part ∈ t.parts, part.qualify home = part) : t.qualify home = t := by
  cases t with
  | named qualifier name =>
    cases qualifier with
    | none => exact absurd rfl (hbare name)
    | some _ => rfl
  | list value | tagged tag value => rw [qualify, h value List.mem_cons_self]
  | union members =>
    have hmembers : members.map (qualify home) = members := (List.map_congr_left h).trans (List.map_id' members)
    rw [qualify, qualifyMembers_eq_map, hmembers]
  | _ => rfl

theorem Qualified.qualify_eq (h : t.Qualified) (home : String) : t.qualify home = t := by
  induction t using of_parts with
  | h t ih =>
    refine qualify_eq_self_of_parts (fun name hbare => h [] name (congrArg some hbare)) fun part hpart => ?_
    exact ih part hpart (h.part hpart)

/-- **What is left alone**: exactly the expressions in which every user type has a module. -/
theorem qualify_eq_self_iff : t.qualify home = t ↔ t.Qualified := by
  constructor
  · intro h
    rw [← h]
    exact qualified_qualify home t
  · exact fun h => h.qualify_eq home

/-! ## Expressions alike -/

/-- the same stands in front of the parts, and there are as many of them; the modules of user types are as `R` says -/
inductive SameHead (R : Option String → Option String → Prop) : TypeExpr → TypeExpr → Prop
  | range (min max : Int) : SameHead R (.range min max) (.range min max)
  | boolean : SameHead R .boolean .boolean
  | float : SameHead R .float .float
  | iodata : SameHead R .iodata .iodata
  | undefined : SameHead R .undefined .undefined
  | atom (name : String) : SameHead R (.atom name) (.atom name)
  | named {p q : Option String} (h : R p q) (name : String) : SameHead R (.named p name) (.named q name)
  | record (name : String) : SameHead R (.record name) (.record name)
  | list (v w : TypeExpr) : SameHead R (.list v) (.list w)
  | tagged (tag : String) (v w : TypeExpr) : SameHead R (.tagged tag v) (.tagged tag w)
  | union {ss ts : List TypeExpr} (h : ss.length = ts.length) : SameHead R (.union ss) (.union ts)

/-- there are parts at the same addresses, and at each the same stands in front -/
def Alike (R : Option String → Option String → Prop) (s t : TypeExpr) : Prop :=
  ∀ address, Option.Rel (SameHead R) (s.part? address) (t.part? address)

theorem SameHead.comp {R S T : Option String → Option String → Prop} (h : ∀ p q r, R p r → S q r → T p q)
    {s t u : TypeExpr} (hs : SameHead R s u) (ht : SameHead S t u) : SameHead T s t := by
  cases hs with
  | named hp name =>
    cases ht with
    | named hq => exact .named (h _ _ _ hp hq) name
  | union hss =>
    cases ht with
    | union hts => exact .union (hss.trans hts.symm)
  | _ =>
    cases ht
    constructor

theorem SameHead.memberCount_eq {R : Option String → Option String → Prop} (h : SameHead R s t) :
    s.memberCount = t.memberCount := by
  cases h with
  | union h => exact h
  | _ => rfl

/-- the head and the parts make the expression -/
theorem SameHead.eq_of_parts (h : SameHead Eq s t) (hparts : s.parts = t.parts) : s = t := by
  cases h with
  | named h name => rw [h]
  | list v w | tagged tag v w => rw [(List.cons.inj hparts).1]
  | union _ =>
    rw [parts, parts] at hparts
    rw [hparts]
  | _ => rfl

theorem Alike.parts {R : Option String → Option String → Prop} (h : Alike R s t) (i : Nat) :
    Option.Rel (Alike R) s.parts[i]? t.parts[i]? := by
  have hhere := h [i]
  cases hs : s.parts[i]? with
  | none =>
    cases ht : t.parts[i]? with
    | none => exact .none
    | some v => simp [part?, hs, ht] at hhere
  | some u =>
    cases ht : t.parts[i]? with
    | none => simp [part?, hs, ht] at hhere
    | some v =>
      refine .some fun address => ?_
      have hbelow := h (i :: address)
      rwa [part?, part?, hs, ht] at hbelow

/-- expressions alike in everything are equal -/
theorem Alike.eq (h : Alike Eq s t) : s = t := by
  induction s using of_parts generalizing t with
  | h s ih =>
    have hhead : SameHead Eq s t := by simpa [part?] using h []
    refine hhead.eq_of_parts (List.ext_getElem? fun i => ?_)
    have hpart := h.parts i
    generalize hs : s.parts[i]? = u at hpart ⊢
    generalize t.parts[i]? = v at hpart ⊢
    cases hpart with
    | none => rfl
    | some halike => rw [ih _ (List.mem_of_getElem? hs) halike]

theorem Alike.comp {R S T : Option String → Option String → Prop} (h : ∀ p q r, R p r → S q r → T p q)
    {u : TypeExpr} (hs : Alike R s u) (ht : Alike S t u) : Alike T s t := by
  intro address
  have hs := hs address
  have ht := ht address
  generalize s.part? address = v at hs ⊢
  generalize t.part? address = w at ht ⊢
  generalize u.part? address = x at hs ht
  cases hs with
  | none =>
    cases ht
    exact .none
  | some hs => cases ht with
    | some ht => exact .some (hs.comp h ht)

/-! ## Qualified expressions -/

/-- what qualification with `home` does to the module of a user type: a missing one is added, any other stays -/
inductive QualifiedBy (home : String) : Option String → Option String → Prop
  | added : QualifiedBy home none (some home)
  | kept (qualifier : String) : QualifiedBy home (some qualifier) (some qualifier)

/-- the same module, or `home` on one side and none on the other -/
inductive SameBut (home : String) : Option String → Option String → Prop
  | same (qualifier : Option String) : SameBut home qualifier qualifier
  | left : SameBut home none (some home)
  | right : SameBut home (some home) none

theorem sameHead_qualify (home : String) (t : TypeExpr) : SameHead (QualifiedBy home) t (t.qualify home) := by
  cases t with
  | named qualifier name =>
    cases qualifier with
    | none => exact .named .added name
    | some qualifier => exact .named (.kept qualifier) name
  | union members =>
    rw [qualify, qualifyMembers_eq_map]
    exact .union (List.length_map _).symm
  | _ => constructor

/-- **What qualification changes**: a missing module becomes `home`, and everything else stays as and where it is. -/
theorem alike_qualify (home : String) (t : TypeExpr) : Alike (QualifiedBy home) t (t.qualify home) := by
  intro address
  rw [part?_qualify]
  cases t.part? address with
  | none => exact .none
  | some part => exact .some (sameHead_qualify home part)

theorem SameHead.qualify (h : SameHead (SameBut home) s t) : SameHead Eq (s.qualify home) (t.qualify home) := by
  cases h with
  | @named p _ h name => cases h with
    | same => cases p <;> exact .named rfl name
    | left | right => exact .named rfl name
  | union h =>
    rw [TypeExpr.qualify, TypeExpr.qualify, qualifyMembers_eq_map, qualifyMembers_eq_map]
    exact .union (by simpa using h)
  | _ => constructor

/-- **What qualification no longer tells apart**: a user type without a module, and the same one of module `home`. -/
theorem qualify_eq_qualify_iff : s.qualify home = t.qualify home ↔ Alike (SameBut home) s t := by
  constructor
  · intro h
    have ht : Alike (QualifiedBy home) t (s.qualify home) := h ▸ alike_qualify home t
    refine (alike_qualify home s).comp (fun p q r hp hq => ?_) ht
    cases hp with
    | added => cases hq with
      | added => exact .same none
      | kept => exact .left
    | kept qualifier => cases hq with
      | added => exact .right
      | kept => exact .same _
  · intro h
    apply Alike.eq
    intro address
    rw [part?_qualify, part?_qualify]
    have hpart := h address
    generalize s.part? address = u at hpart ⊢
    generalize t.part? address = v at hpart ⊢
    cases hpart with
    | none => exact .none
    | some hhead => exact .some hhead.qualify

end

/-- what the expression is once it is qualified with `home` -/
structure QualifiedOnce (home : String) (t : TypeExpr) : Prop where
  complete : (t.qualify home).Qualified
  /-- no module is put before another -/
  again : ∀ other, (t.qualify home).qualify other = t.qualify home
  unchanged : t.qualify home = t ↔ t.Qualified
  kept : Alike (QualifiedBy home) t (t.qualify home)
  /-- unions keep their members, in front and at every depth -/
  members : ∀ address, ((t.qualify home).part? address).map memberCount = (t.part? address).map memberCount
  merged : ∀ u : TypeExpr, t.qualify home = u.qualify home ↔ Alike (SameBut home) t u

/-- **Qualification reaches everything, once.** No user type is left without a module, at any depth; a second
qualification, with whatever module, changes nothing, and so does the first exactly where there is nothing to do. Every
part stays at its address, with its constructor and all it holds, modules included, and with as many members. Two
expressions become the same one exactly when they differ in nothing but user types that have no module in one and the
module `home` in the other. -/
theorem qualify_once (home : String) (t : TypeExpr) : QualifiedOnce home t where
  complete := qualified_qualify home t
  again other := (qualified_qualify home t).qualify_eq other
  unchanged := qualify_eq_self_iff
  kept := alike_qualify home t
  members address := by
    rw [part?_qualify, Option.map_map]
    exact congrArg (Option.map · _) (funext fun part => (sameHead_qualify home part).memberCount_eq.symm)
  merged _ := qualify_eq_qualify_iff

-- below a list, a tag and a union inside a union; the module that is there stays
example : (TypeExpr.union [.list (.named none "a"), .union [.tagged "b" (.named none "b"), .record "c"],
      .named (some "post") "a"]).qualify "shop" =
    .union [.list (.named (some "shop") "a"), .union [.tagged "b" (.named (some "shop") "b"), .record "c"],
      .named (some "post") "a"] := rfl

end TypeExpr

end ErlangRecords
