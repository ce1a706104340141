/-
Reading types: the type of a record slot is read back from its text.

Among all type expressions only those are read that slots have: values, lists of values, and unions that open with
`undefined`, whose other members are values or pairs of a tag and a value. User types must name their modules.

- `readInt_append`: numbers are read back.
- `IsValue.read`: so are values.
- `IsSlotType.read`: so are all types of slots.
- `slotTypes_unambiguous`: slots with one text have one type.
-/
import ErlangRecords.Proofs.Reading
import ErlangRecords.TypeExpr

namespace ErlangRecords

/-! ## Numbers -/

/-- a number in decimal digits -/
def readNat (cs : List Char) : Option (Nat × List Char) :=
  let digits := cs.takeWhile Char.isDigit
  if digits = [] then none else some (Nat.ofDigitChars 10 digits 0, cs.dropWhile Char.isDigit)

/-- a number, with a minus sign when it is negative -/
def readInt : List Char → Option (Int × List Char)
  | '-' :: rest => (readNat rest).map fun (n, rest) => (-n, rest)
  | cs => (readNat cs).map fun (n, rest) => (n, rest)

section

variable {c : Char} {rest : List Char}

theorem isDigit_of_mem_toString {n : Nat} (h : c ∈ (toString n).toList) : c.isDigit = true := by
  rw [Nat.toString_eq_repr, Nat.toList_repr] at h
  exact Nat.isDigit_of_mem_toDigits (by decide) (by decide) h

theorem toString_nat_ne_nil (n : Nat) : (toString n).toList ≠ [] := by
  rw [Nat.toString_eq_repr, Nat.toList_repr]
  exact Nat.toDigits_ne_nil

theorem toString_negSucc (n : Nat) : (toString (Int.negSucc n)).toList = '-' :: (toString (n + 1)).toList := by
  have htext : toString (Int.negSucc n) = "-" ++ toString (n + 1) := rfl
  rw [htext, String.toList_append]
  rfl

/-- a digit opens no atom and is no sign -/
theorem opens_of_isDigit (h : c.isDigit = true) : c ≠ '\'' ∧ c ≠ '-' ∧ c.isLower = false := by
  refine ⟨?_, ?_, ?_⟩
  · rintro rfl
    exact absurd h (by decide)
  · rintro rfl
    exact absurd h (by decide)
  · obtain ⟨_, hdigit⟩ := Bool.and_eq_true_iff.1 h
    cases hlower : c.isLower with
    | false => rfl
    | true =>
      obtain ⟨hletter, _⟩ := Bool.and_eq_true_iff.1 hlower
      exact absurd (UInt32.le_trans (of_decide_eq_true hletter) (of_decide_eq_true hdigit)) (by decide)

theorem readNat_append (n : Nat) (hrest : ∀ c ∈ rest.head?, c.isDigit = false) :
    readNat ((toString n).toList ++ rest) = some (n, rest) := by
  have hdigits : ∀ c ∈ (toString n).toList, c.isDigit = true := fun c hc => isDigit_of_mem_toString hc
  rw [readNat, takeWhile_append_of_stop hdigits hrest, dropWhile_append_of_stop hdigits hrest,
    if_neg (toString_nat_ne_nil n), Nat.toString_eq_repr, Nat.toList_repr, Nat.ofDigitChars_ten_toDigits]

/-- **Numbers are read back.** -/
theorem readInt_append (i : Int) (hrest : ∀ c ∈ rest.head?, c.isDigit = false) :
    readInt ((toString i).toList ++ rest) = some (i, rest) := by
  cases i with
  | ofNat n =>
    have hread := readNat_append n hrest
    have hsigned : ∀ later, (toString n).toList ++ rest ≠ '-' :: later := by
      obtain ⟨c, digits, hlist⟩ := List.exists_cons_of_ne_nil (toString_nat_ne_nil n)
      have hdigit : c.isDigit = true := isDigit_of_mem_toString (hlist ▸ List.mem_cons_self)
      intro later heq
      rw [hlist] at heq
      exact (opens_of_isDigit hdigit).2.1 (List.cons.inj heq).1
    have hsame : toString (Int.ofNat n) = toString n := rfl
    rw [hsame, readInt.eq_2 _ (fun later h => hsigned later h), hread]
    rfl
  | negSucc n =>
    rw [toString_negSucc, List.cons_append, readInt, readNat_append (n + 1) hrest]
    rfl

/-- no atom opens like a number -/
theorem read_int_eq_none (i : Int) (rest : List Char) : Atom.read ((toString i).toList ++ rest) = none := by
  cases i with
  | ofNat n =>
    have hsame : toString (Int.ofNat n) = toString n := rfl
    obtain ⟨c, digits, hlist⟩ := List.exists_cons_of_ne_nil (toString_nat_ne_nil n)
    obtain ⟨hquote, _, hlower⟩ := opens_of_isDigit (isDigit_of_mem_toString (hlist ▸ List.mem_cons_self))
    rw [hsame, hlist, List.cons_append, Atom.read_eq_none hquote hlower]
  | negSucc n =>
    rw [toString_negSucc, List.cons_append, Atom.read_eq_none (by decide) (by decide)]

theorem blank_not_mem_int (i : Int) : ' ' ∉ (toString i).toList := by
  have hnat : ∀ n : Nat, ' ' ∉ (toString n).toList := fun n h => absurd (isDigit_of_mem_toString h) (by decide)
  cases i with
  | ofNat n => exact hnat n
  | negSucc n =>
    rw [toString_negSucc, List.mem_cons, not_or]
    exact ⟨by decide, hnat (n + 1)⟩

end

namespace TypeExpr

/-! ## Values -/

/-- a type that a field may hold one value of -/
inductive IsValue : TypeExpr → Prop
  | range (min max : Int) : IsValue (.range min max)
  | boolean : IsValue .boolean
  | float : IsValue .float
  | iodata : IsValue .iodata
  | named (qualifier : Option String) (name : String) : IsValue (.named qualifier name)

/-- a type of the language, by its name -/
def builtin? (name : String) : Option TypeExpr :=
  if name = "boolean" then some .boolean
  else if name = "float" then some .float
  else if name = "iodata" then some .iodata
  else none

def readRange (cs : List Char) : Option (TypeExpr × List Char) := do
  let (min, cs) ← readInt cs
  let cs ← skip ".." cs
  let (max, cs) ← readInt cs
  return (.range min max, cs)

def readValue (cs : List Char) : Option (TypeExpr × List Char) :=
  match Atom.read cs with
  | none => readRange cs
  | some (home, ':' :: cs) => do
    let (name, cs) ← Atom.read cs
    let cs ← skip "()" cs
    return (.named (some home) name, cs)
  | some (name, cs) => do
    let cs ← skip "()" cs
    let type ← builtin? name
    return (type, cs)

/-- the atom at the front of a value: none, a module, or the name of a type of the language -/
inductive Opening (rest : List Char) : TypeExpr → Option (String × List Char) → Prop
  | range (min max : Int) : Opening rest (.range min max) none
  | named (home name : String) :
      Opening rest (.named (some home) name) (some (home, ':' :: ((Atom.quote name).toList ++ ("()".toList ++ rest))))
  | builtin {name : String} {t : TypeExpr} (h : builtin? name = some t) :
      Opening rest t (some (name, "()".toList ++ rest))

section

variable {home : String} {t : TypeExpr} {rest : List Char}

theorem qualify_named (home : String) (qualifier : Option String) (name : String) :
    (named qualifier name).qualify home = .named (some (qualifier.getD home)) name := by
  cases qualifier <;> rfl

theorem builtin_opening {name : String} (hbare : Atom.isBare name = true) (hbuiltin : builtin? name = some t)
    (htext : t.render = name ++ "()") (rest : List Char) : Opening rest t (Atom.read (t.render.toList ++ rest)) := by
  have hread := Atom.read_word hbare (Atom.ends_cons (c := '(') (by decide) (')' :: rest))
  have hopen : t.render.toList ++ rest = name.toList ++ '(' :: ')' :: rest := by simp [htext]
  rw [hopen, hread]
  exact .builtin hbuiltin

theorem IsValue.opening (h : IsValue t) (home : String) (rest : List Char) :
    Opening rest (t.qualify home) (Atom.read ((t.qualify home).render.toList ++ rest)) := by
  cases h with
  | range min max =>
    have hopen : (render (.range min max)).toList ++ rest =
        (toString min).toList ++ ("..".toList ++ (toString max).toList ++ rest) := by simp [render]
    have hsame : qualify home (.range min max) = .range min max := rfl
    rw [hsame, hopen, read_int_eq_none]
    exact .range min max
  | named qualifier name =>
    rw [qualify_named]
    have hopen : (render (.named (some (qualifier.getD home)) name)).toList ++ rest =
        (Atom.quote (qualifier.getD home)).toList ++ ':' :: ((Atom.quote name).toList ++ ("()".toList ++ rest)) := by
      simp [render]
    rw [hopen, Atom.read_quote _ (Atom.ends_cons (by decide) _)]
    exact .named _ name
  | boolean => exact builtin_opening (by decide : Atom.isBare "boolean" = true) rfl rfl rest
  | float => exact builtin_opening (by decide : Atom.isBare "float" = true) rfl rfl rest
  | iodata => exact builtin_opening (by decide : Atom.isBare "iodata" = true) rfl rfl rest

theorem readRange_append (min max : Int) (hends : Atom.Ends rest) :
    readRange ((render (.range min max)).toList ++ rest) = some (.range min max, rest) := by
  have hmax : ∀ c ∈ rest.head?, c.isDigit = false := by
    intro c hc
    have htail := hends c hc
    simp only [Atom.isBareTail, Char.isAlphanum, Bool.or_eq_false_iff] at htail
    exact htail.1.1.2
  have hopen : (render (.range min max)).toList ++ rest =
      (toString min).toList ++ ("..".toList ++ ((toString max).toList ++ rest)) := by simp [render]
  have hmin : ∀ c ∈ ("..".toList ++ ((toString max).toList ++ rest)).head?, c.isDigit = false := by simp
  simp only [hopen, readRange, readInt_append min hmin, readInt_append max hmax, skip_append, Option.bind_eq_bind,
    Option.bind_some]
  rfl

theorem skip_parens (rest : List Char) : skip "()" ('(' :: ')' :: rest) = some rest := skip_append "()" rest

/-- **Values are read back.** -/
theorem IsValue.read (h : IsValue t) (hends : Atom.Ends rest) :
    readValue ((t.qualify home).render.toList ++ rest) = some (t.qualify home, rest) := by
  have hopening := h.opening home rest
  rw [readValue]
  -- the atom in front says which branch is taken and which type there is
  generalize hread : Atom.read ((t.qualify home).render.toList ++ rest) = opened at hopening ⊢
  generalize t.qualify home = t at hopening hread ⊢
  cases hopening with
  | range min max => exact readRange_append min max hends
  | named home name =>
    have hname := Atom.read_quote name (Atom.ends_cons (c := '(') (by decide) (')' :: rest))
    simp [hname, skip_parens]
  | builtin hbuiltin => simp [hbuiltin, skip_parens]

end

/-! ## Types of slots -/

/-- what may stand in a union beside `undefined` -/
inductive IsMember : TypeExpr → Prop
  | value {t : TypeExpr} (h : IsValue t) : IsMember t
  | tagged (tag : String) {value : TypeExpr} (h : IsValue value) : IsMember (.tagged tag value)

/-- the type of a slot -/
inductive IsSlotType : TypeExpr → Prop
  | value {t : TypeExpr} (h : IsValue t) : IsSlotType t
  | list {value : TypeExpr} (h : IsValue value) : IsSlotType (.list value)
  | union {members : List TypeExpr} (h : ∀ t ∈ members, IsMember t) : IsSlotType (.union (.undefined :: members))

def readTagged (cs : List Char) : Option (TypeExpr × List Char) := do
  let cs ← skip "\x7b" cs
  let (tag, cs) ← Atom.read cs
  let cs ← skip ", " cs
  let (value, cs) ← readValue cs
  let cs ← skip "\x7d" cs
  return (.tagged tag value, cs)

def readMember (cs : List Char) : Option (TypeExpr × List Char) := (readValue cs).or (readTagged cs)

/-- the rest of a list type, after the word `list` -/
def readList (cs : List Char) : Option (TypeExpr × List Char) := do
  let cs ← skip "(" cs
  let (value, cs) ← readValue cs
  let cs ← skip ")" cs
  return (.list value, cs)

/-- the rest of a union, after the word `undefined` -/
def readUnion (cs : List Char) : TypeExpr × List Char :=
  let members := many " | " readMember cs
  (.union (.undefined :: members.1), members.2)

def readSlotType (cs : List Char) : Option (TypeExpr × List Char) :=
  (readValue cs).or <| (Atom.read cs).bind fun (word, cs) =>
    if word = "undefined" then some (readUnion cs)
    else if word = "list" then readList cs
    else none

/-- the type of a slot is the last thing on its line -/
def EndsLine (rest : List Char) : Prop := ∀ c ∈ rest.head?, c = ',' ∨ c = '\n'

section

variable {home : String} {t : TypeExpr} {rest : List Char}

theorem EndsLine.ends (h : EndsLine rest) : Atom.Ends rest := by
  intro c hc
  rcases h c hc with rfl | rfl <;> decide

/-- no value opens with a brace -/
theorem readValue_brace (cs : List Char) : readValue ('{' :: cs) = none := by
  have hnumber : readRange ('{' :: cs) = none := by
    simp [readRange, readInt, readNat]
  rw [readValue, Atom.read_eq_none (by decide) (by decide)]
  exact hnumber

theorem IsMember.read (h : IsMember t) (hends : Atom.Ends rest) :
    readMember ((t.qualify home).render.toList ++ rest) = some (t.qualify home, rest) := by
  cases h with
  | value h =>
    rw [readMember, h.read hends, Option.some_or]
  | @tagged tag value h =>
    have hsame : (TypeExpr.tagged tag value).qualify home = .tagged tag (value.qualify home) := rfl
    have hopen : (TypeExpr.tagged tag (value.qualify home)).render.toList ++ rest =
        "\x7b".toList ++ ((Atom.quote tag).toList ++ (", ".toList ++ ((value.qualify home).render.toList ++
          ("\x7d".toList ++ rest)))) := by
      simp [render]
    have htag : ∀ cs, Atom.read ((Atom.quote tag).toList ++ (", ".toList ++ cs)) = some (tag, ", ".toList ++ cs) :=
      fun cs => Atom.read_quote tag (Atom.ends_cons (by decide) _)
    have hvalue : readValue ((value.qualify home).render.toList ++ ("\x7d".toList ++ rest)) =
        some (value.qualify home, "\x7d".toList ++ rest) := h.read (Atom.ends_cons (by decide) _)
    have hbrace : ∀ cs, readValue ("\x7b".toList ++ cs) = none := readValue_brace
    rw [hsame, hopen, readMember, hbrace]
    simp only [Option.none_or, readTagged, skip_append, htag, hvalue, Option.bind_eq_bind, Option.bind_some]
    rfl

/-- what opens with a name that has no parentheses after it is no value -/
theorem readValue_of_read {cs later : List Char} {name : String} (h : Atom.read cs = some (name, later))
    (hcolon : later.head? ≠ some ':') (hbuiltin : builtin? name = none) : readValue cs = none := by
  rw [readValue, h]
  split
  · rename_i heq
    cases heq
  · rename_i heq
    cases heq
    exact absurd rfl hcolon
  · rename_i heq
    cases heq
    simp [hbuiltin]

/-- the members of a union after the first one, as a header of the module `home` writes them -/
def laterMembers (home : String) (members : List TypeExpr) : List Char :=
  members.flatMap fun t => " | ".toList ++ (t.qualify home).render.toList

theorem readUnion_append {members : List TypeExpr} (h : ∀ t ∈ members, IsMember t) (hends : EndsLine rest) :
    readUnion (laterMembers home members ++ rest) =
      (.union (.undefined :: members.map (qualify home)), rest) := by
  have hlast : skip " | " rest = none := by
    cases rest with
    | nil => rfl
    | cons c rest =>
      rcases hends c rfl with rfl | rfl <;> rfl
  have hseparator : ∀ rest, Atom.Ends (" | ".toList ++ rest) := fun rest => Atom.ends_cons (by decide) _
  have hmembers : many " | " readMember (laterMembers home members ++ rest) = (members.map (qualify home), rest) :=
    many_append hseparator (fun t ht rest hends => (h t ht).read hends) hends.ends hlast
  rw [readUnion, hmembers]

theorem read_list {value : TypeExpr} (h : IsValue value) (rest : List Char) :
    readSlotType ((TypeExpr.list (value.qualify home)).render.toList ++ rest) =
      some (.list (value.qualify home), rest) := by
  have hopen : (TypeExpr.list (value.qualify home)).render.toList ++ rest =
      "list".toList ++ ("(".toList ++ ((value.qualify home).render.toList ++ (")".toList ++ rest))) := by
    simp [render]
  have hword : ∀ cs, Atom.read ("list".toList ++ ("(".toList ++ cs)) = some ("list", "(".toList ++ cs) :=
    fun cs => Atom.read_word (by decide) (Atom.ends_cons (by decide) _)
  have hvalue : readValue ((value.qualify home).render.toList ++ (")".toList ++ rest)) =
      some (value.qualify home, ")".toList ++ rest) := h.read (Atom.ends_cons (by decide) _)
  have hlist : readList ("(".toList ++ ((value.qualify home).render.toList ++ (")".toList ++ rest))) =
      some (.list (value.qualify home), rest) := by
    simp only [readList, skip_append, hvalue, Option.bind_eq_bind, Option.bind_some]
    rfl
  rw [hopen, readSlotType, readValue_of_read (hword _) (by simp) rfl, hword, Option.none_or, Option.bind_some]
  exact hlist

theorem read_union {members : List TypeExpr} (h : ∀ t ∈ members, IsMember t) (hends : EndsLine rest) :
    readSlotType ((TypeExpr.union (.undefined :: members.map (qualify home))).render.toList ++ rest) =
      some (.union (.undefined :: members.map (qualify home)), rest) := by
  have hopen : (TypeExpr.union (.undefined :: members.map (qualify home))).render.toList ++ rest =
      "undefined".toList ++ (laterMembers home members ++ rest) := by
    rw [render, renderMembers_eq_map, List.map_cons, toList_intercalate_cons, List.append_assoc]
    simp only [render, laterMembers, List.flatMap_map]
  have hhead : ∀ c ∈ (laterMembers home members ++ rest).head?, c = ' ' ∨ c = ',' ∨ c = '\n' := by
    apply after_items (P := fun cs => ∀ c ∈ cs.head?, c = ' ' ∨ c = ',' ∨ c = '\n')
    · intro cs c hc
      cases hc
      exact Or.inl rfl
    · exact fun c hc => Or.inr (hends c hc)
  have hcolon : (laterMembers home members ++ rest).head? ≠ some ':' := by
    intro heq
    exact absurd (hhead ':' heq) (by decide)
  have hword : Atom.read ("undefined".toList ++ (laterMembers home members ++ rest)) =
      some ("undefined", laterMembers home members ++ rest) := by
    apply Atom.read_word (by decide)
    intro c hc
    rcases hhead c hc with rfl | rfl | rfl <;> decide
  rw [hopen, readSlotType, readValue_of_read hword hcolon rfl, hword, Option.none_or, Option.bind_some,
    ← readUnion_append h hends]
  rfl

/-- **Types of slots are read back.** -/
theorem IsSlotType.read (h : IsSlotType t) (hends : EndsLine rest) :
    readSlotType ((t.qualify home).render.toList ++ rest) = some (t.qualify home, rest) := by
  cases h with
  | value h => rw [readSlotType, h.read hends.ends, Option.some_or]
  | list h => exact read_list h rest
  | @union members h =>
    have hqualify : (TypeExpr.union (.undefined :: members)).qualify home =
        .union (.undefined :: members.map (qualify home)) := by
      rw [qualify, qualifyMembers_eq_map]
      rfl
    rw [hqualify]
    exact read_union h hends

end

/-! ## Texts that agree -/

section

variable {s t : TypeExpr} {home home' : String} {rest rest' : List Char}

/-- on a line, the type of a slot ends in one place -/
theorem IsSlotType.append_inj (hs : IsSlotType s) (ht : IsSlotType t) (hends : EndsLine rest) (hends' : EndsLine rest')
    (h : (s.qualify home).render.toList ++ rest = (t.qualify home').render.toList ++ rest') :
    s.qualify home = t.qualify home' ∧ rest = rest' := by
  have hreadS : readSlotType ((s.qualify home).render.toList ++ rest) = some (s.qualify home, rest) := hs.read hends
  have hreadT : readSlotType ((s.qualify home).render.toList ++ rest) = some (t.qualify home', rest') := by
    rw [h]
    exact ht.read hends'
  exact Prod.mk.inj (Option.some.inj (hreadS.symm.trans hreadT))

/-- **The types of slots are unambiguous.** A slot holds a value, a list of values, or a union that opens with
`undefined` and goes on with values and pairs of a tag and a value, as many as there are; names, tags and modules are
any texts. When two such types, with a module before every user type, have the same text, they are the same type: the
same members in the same order, with the same modules, names, tags and bounds. It does not matter which user types had
a module before. -/
theorem slotTypes_unambiguous (hs : IsSlotType s) (ht : IsSlotType t)
    (h : (s.qualify home).render = (t.qualify home').render) : s.qualify home = t.qualify home' := by
  have hnil : EndsLine [] := by simp [EndsLine]
  have htexts : (s.qualify home).render.toList ++ [] = (t.qualify home').render.toList ++ [] := by rw [h]
  exact (hs.append_inj ht hnil hnil htexts).1

/-- a union whose names and tags spell what unions are written with -/
def spellingUnion (home : Option String) : TypeExpr :=
  .union [.undefined, .tagged "undefined | \x7b'a\\', b()\x7d" (.named home "list(x)"), .tagged "undefined" .boolean,
    .tagged "end" (.named (some "it's") "boolean"), .tagged "" (.range (-3) 12)]

/-- such a union, with and without the module of the header -/
theorem slotTypes_unambiguous_sample : ∃ s t : TypeExpr, s.IsSlotType ∧ t.IsSlotType ∧ s ≠ t ∧
    (s.qualify "post").render =
      "undefined | \x7b'undefined | \x7b\\'a\\\\\\', b()\x7d', post:'list(x)'()\x7d | " ++
      "\x7bundefined, boolean()\x7d | \x7b'end', 'it\\'s':boolean()\x7d | \x7b'', -3..12\x7d" ∧
    (s.qualify "post").render = (t.qualify "post").render ∧ s.qualify "post" = t.qualify "post" := by
  have hslot : ∀ home, (spellingUnion home).IsSlotType := by
    intro home
    apply IsSlotType.union
    simp only [List.forall_mem_cons]
    exact ⟨.tagged _ (.named _ _), .tagged _ .boolean, .tagged _ (.named _ _), .tagged _ (.range _ _), by simp⟩
  have htexts : ((spellingUnion none).qualify "post").render =
      ((spellingUnion (some "post")).qualify "post").render := by decide +kernel
  exact ⟨spellingUnion none, spellingUnion (some "post"), hslot _, hslot _, by decide +kernel, by decide +kernel,
    htexts, slotTypes_unambiguous (hslot _) (hslot _) htexts⟩

-- other types are ambiguous: the atom of absence, a union inside a union, a user type without a module
example : (TypeExpr.atom "undefined").render = TypeExpr.undefined.render ∧
    (TypeExpr.union [.undefined, .union [.float, .iodata]]).render =
      (TypeExpr.union [.undefined, .float, .iodata]).render ∧
    (TypeExpr.named none "boolean").render = TypeExpr.boolean.render := by decide +kernel

end

end TypeExpr

end ErlangRecords
