/-
What snake case adds to a name.

Every character of a name has one in its identifier, a dot an underscore and a capital its small letter. What is added
are underscores, each right before a capital, where a word begins that the name does not set off itself. So an
identifier is its own identifier, and the name can be read from it but for case, dots and underscores.

- `toList_snakeCase`: an identifier is the name, folded, with underscores where the marks say.
- `filter_spaced`: what is left of it without underscores.
- `snakeCase_eq_self_iff`: the names that are identifiers already.
- `addedTo_marks`: where the marks are.
- `snakeCase_normal`: all this of every name.
-/
import ErlangRecords.Proofs.Identifiers

namespace ErlangRecords

namespace SnakeCase

/-! ## Characters -/

/-- a character as it stands in the identifier -/
def fold (c : Char) : Char := (separator c).toLower

theorem separator_ne_dot (c : Char) : separator c ≠ '.' := by
  unfold separator
  split
  · decide
  · assumption

theorem separator_eq_underscore_iff {c : Char} : separator c = '_' ↔ c = '.' ∨ c = '_' := by
  unfold separator
  split <;> simp_all

/-- what does not tell dots and underscores apart sees no difference -/
theorem apply_separator {p : Char → Bool} (h : p '_' = p '.') (c : Char) : p (separator c) = p c := by
  unfold separator
  split
  · rename_i hc
    rw [hc, h]
  · rfl

theorem isUpper_separator (c : Char) : (separator c).isUpper = c.isUpper := apply_separator rfl c

theorem isLower_separator (c : Char) : (separator c).isLower = c.isLower := apply_separator rfl c

theorem isUpper_fold (c : Char) : (fold c).isUpper = false := Char.isUpper_toLower_eq_false _

theorem fold_ne_dot (c : Char) : fold c ≠ '.' := fun h => separator_ne_dot c ((toLower_eq_iff rfl).1 h)

theorem fold_eq_underscore_iff {c : Char} : fold c = '_' ↔ c = '.' ∨ c = '_' :=
  (toLower_eq_iff rfl).trans separator_eq_underscore_iff

theorem fold_of_ne {c : Char} (h : c ≠ '.') : fold c = c.toLower := by rw [fold, separator, if_neg h]

/-! ## Marks -/

/-- for each character of a text that continues `before`, whether an underscore is added before it -/
def marks (before : Option Char) : List Char → List Bool
  | [] => []
  | c :: rest => (c.isUpper && startsWord before rest.head?) :: marks (some c) rest

/-- the folded text, with an underscore before every character that is marked -/
def spaced (cs : List Char) (marked : List Bool) : List Char :=
  (cs.zip marked).flatMap fun (c, mark) => if mark then ['_', fold c] else [fold c]

theorem length_marks (before : Option Char) (cs : List Char) : (marks before cs).length = cs.length := by
  induction cs generalizing before with
  | nil => rfl
  | cons c rest ih => rw [marks, List.length_cons, List.length_cons, ih]

theorem convert_eq_spaced (before : Option Char) (cs : List Char) :
    convert before (cs.map separator) = spaced cs (marks before (cs.map separator)) := by
  induction cs generalizing before with
  | nil => rfl
  | cons c rest ih =>
    rw [List.map_cons, convert, marks, spaced, List.zip_cons_cons, List.flatMap_cons, ih]
    congr 1
    unfold write fold
    by_cases hc : (separator c).isUpper
    · simp [hc]
    · simp [hc, Char.toLower_eq_of_not_isUpper hc]

theorem getElem?_marks_zero (cs : List Char) : (marks none cs)[0]? ≠ some true := by
  cases cs <;> simp [marks, startsWord]

/-- a mark stands before a capital that begins a word there -/
theorem getElem?_marks_succ {before : Option Char} {cs : List Char} {i : Nat} :
    (marks before cs)[i + 1]? = some true ↔
      ∃ p c, cs[i]? = some p ∧ cs[i + 1]? = some c ∧ c.isUpper = true ∧ startsWord (some p) cs[i + 2]? = true := by
  induction i generalizing before cs with
  | zero =>
    match cs with
    | [] => simp [marks]
    | [c] => simp [marks]
    | p :: c :: rest => simp [marks, List.head?_eq_getElem?]
  | succ i ih =>
    cases cs with
    | nil => simp [marks]
    | cons c rest => simp [marks, ih]

/-! ## The identifier -/

section

variable {cs : List Char} {marked : List Bool}

/-- without underscores, a text with underscores added and one without them are the same -/
theorem filter_spaced_eq_fold (h : marked.length = cs.length) :
    (spaced cs marked).filter (· ≠ '_') = (cs.map fold).filter (· ≠ '_') := by
  induction cs generalizing marked with
  | nil => rfl
  | cons c rest ih =>
    obtain ⟨mark, later, rfl⟩ := List.exists_cons_of_length_eq_add_one h
    have hrest := ih (by simpa using h)
    have hmark : (if mark then ['_', fold c] else [fold c]).filter (· ≠ '_') = [fold c].filter (· ≠ '_') := by
      cases mark <;> simp
    rw [spaced, List.zip_cons_cons, List.flatMap_cons, List.filter_append, ← spaced, hrest, hmark, ← List.filter_append]
    rfl

theorem filter_spaced (h : marked.length = cs.length) :
    (spaced cs marked).filter (· ≠ '_') = (cs.filter fun c => c ≠ '.' ∧ c ≠ '_').map Char.toLower := by
  have hseparators : ∀ c, decide (fold c ≠ '_') = decide (c ≠ '.' ∧ c ≠ '_') := by
    simp [fold_eq_underscore_iff]
  rw [filter_spaced_eq_fold h, List.filter_map, Function.comp_def]
  simp only [hseparators]
  refine List.map_congr_left fun c hc => fold_of_ne ?_
  simp only [List.mem_filter, decide_eq_true_eq] at hc
  exact hc.2.1

theorem mem_spaced {d : Char} (h : d ∈ spaced cs marked) : d = '_' ∨ ∃ c ∈ cs, d = fold c := by
  obtain ⟨⟨c, mark⟩, hc, hd⟩ := List.mem_flatMap.1 h
  have hmem := (List.of_mem_zip hc).1
  cases mark with
  | false => exact Or.inr ⟨c, hmem, List.mem_singleton.1 hd⟩
  | true =>
    rcases List.mem_cons.1 hd with hd | hd
    · exact Or.inl hd
    · exact Or.inr ⟨c, hmem, List.mem_singleton.1 hd⟩

/-- where there are no capitals nothing is written but the characters -/
theorem convert_of_not_isUpper (before : Option Char) (h : ∀ c ∈ cs, c.isUpper = false) : convert before cs = cs := by
  induction cs generalizing before with
  | nil => rfl
  | cons c rest ih =>
    obtain ⟨hc, hrest⟩ := List.forall_mem_cons.1 h
    rw [convert, ih _ hrest, write, hc]
    rfl

end

theorem toList_snakeCase (name : String) :
    (snakeCase name).toList = spaced name.toList (marks none (name.toList.map separator)) := by
  rw [snakeCase, String.toList_ofList, convert_eq_spaced]

/-- no capital and no dot -/
def IsPlain (name : String) : Prop := ∀ c ∈ name.toList, c.isUpper = false ∧ c ≠ '.'

theorem isPlain_snakeCase (name : String) : IsPlain (snakeCase name) := by
  intro c hc
  rw [toList_snakeCase] at hc
  rcases mem_spaced hc with rfl | ⟨d, _, rfl⟩
  · decide
  · exact ⟨isUpper_fold d, fold_ne_dot d⟩

/-- **Identifiers** are the names without capitals and dots. -/
theorem snakeCase_eq_self_iff {name : String} : snakeCase name = name ↔ IsPlain name := by
  constructor
  · intro h
    rw [← h]
    exact isPlain_snakeCase name
  · intro h
    have hdots : name.toList.map separator = name.toList :=
      (List.map_congr_left fun c hc => if_neg (h c hc).2).trans (List.map_id' _)
    rw [snakeCase, hdots, convert_of_not_isUpper none fun c hc => (h c hc).1, String.ofList_toList]

/-! ## Where underscores are added -/

/-- a word begins after position `i`: there stands a capital with a small letter on one side of it, and no dot or
underscore right before it -/
def BreaksAfter (cs : List Char) (i : Nat) : Prop :=
  ∃ before capital, cs[i]? = some before ∧ cs[i + 1]? = some capital ∧ capital.isUpper = true ∧ before ≠ '.' ∧
    before ≠ '_' ∧ (before.isLower = true ∨ ∃ next, cs[i + 2]? = some next ∧ next.isLower = true)

theorem startsWord_separator (before : Char) (after : Option Char) :
    startsWord (some (separator before)) (after.map separator) = true ↔
      before ≠ '.' ∧ before ≠ '_' ∧ (before.isLower = true ∨ ∃ next, after = some next ∧ next.isLower = true) := by
  have hbefore : separator before ≠ '_' ↔ before ≠ '.' ∧ before ≠ '_' := by
    rw [ne_eq, separator_eq_underscore_iff, not_or]
  have hafter : (after.map separator).any Char.isLower = true ↔ ∃ next, after = some next ∧ next.isLower = true := by
    cases after <;> simp [isLower_separator]
  simp only [startsWord, Bool.and_eq_true, Bool.or_eq_true, bne_iff_ne, isLower_separator, hbefore, hafter]
  tauto

theorem getElem?_marks_iff {cs : List Char} {i : Nat} :
    (marks none (cs.map separator))[i + 1]? = some true ↔ BreaksAfter cs i := by
  rw [getElem?_marks_succ]
  simp only [List.getElem?_map, Option.map_eq_some_iff]
  constructor
  · rintro ⟨_, _, ⟨before, hbefore, rfl⟩, ⟨capital, hcapital, rfl⟩, hupper, hstarts⟩
    rw [isUpper_separator] at hupper
    exact ⟨before, capital, hbefore, hcapital, hupper, (startsWord_separator before _).1 hstarts⟩
  · rintro ⟨before, capital, hbefore, hcapital, hupper, hbegins⟩
    rw [← isUpper_separator] at hupper
    exact ⟨_, _, ⟨before, hbefore, rfl⟩, ⟨capital, hcapital, rfl⟩, hupper, (startsWord_separator before _).2 hbegins⟩

theorem not_isLower_of_isUpper {c : Char} (h : c.isUpper = true) : c.isLower = false := by
  have hupper : c.val ≤ 'Z'.val := (of_decide_eq_true h).2
  cases hlower : c.isLower with
  | false => rfl
  | true =>
    obtain ⟨hletter, _⟩ := Bool.and_eq_true_iff.1 hlower
    exact absurd (UInt32.le_trans (of_decide_eq_true hletter) hupper) (by decide)

/-- between two capitals, what comes after them decides -/
theorem breaksAfter_iff_of_isUpper {cs : List Char} {i : Nat} {c d : Char} (hc : cs[i]? = some c)
    (hd : cs[i + 1]? = some d) (hcu : c.isUpper = true) (hdu : d.isUpper = true) :
    BreaksAfter cs i ↔ ∃ next, cs[i + 2]? = some next ∧ next.isLower = true := by
  have hlower := not_isLower_of_isUpper hcu
  have hne : c ≠ '.' ∧ c ≠ '_' := by
    constructor <;> rintro rfl <;> cases hcu
  simp [BreaksAfter, hc, hd, hdu, hlower, hne]

/-- the characters of a name that get an underscore before them -/
structure AddedTo (cs : List Char) (marked : List Bool) : Prop where
  length : marked.length = cs.length
  /-- nothing is added at the start -/
  first : marked[0]? ≠ some true
  /-- elsewhere before capitals only, and never where the name has a dot or underscore already -/
  breaks : ∀ i, marked[i + 1]? = some true ↔ BreaksAfter cs i
  /-- between two capitals exactly when a small letter follows -/
  capitals : ∀ i c d, cs[i]? = some c → cs[i + 1]? = some d → c.isUpper = true → d.isUpper = true →
    (marked[i + 1]? = some true ↔ ∃ next, cs[i + 2]? = some next ∧ next.isLower = true)
  /-- in a run of capitals, before the last one at most -/
  run : ∀ first last : Nat, (∀ i, first ≤ i → i ≤ last → ∃ c, cs[i]? = some c ∧ c.isUpper = true) →
    ∀ i, first < i → i ≤ last → marked[i]? = some true → i = last

theorem addedTo_marks (cs : List Char) : AddedTo cs (marks none (cs.map separator)) where
  length := by rw [length_marks, List.length_map]
  first := getElem?_marks_zero _
  breaks _ := getElem?_marks_iff
  capitals i c d hc hd hcu hdu := getElem?_marks_iff.trans (breaksAfter_iff_of_isUpper hc hd hcu hdu)
  run first last hrun i hfirst hlast hmark := by
    obtain ⟨j, rfl⟩ := Nat.exists_eq_add_one_of_ne_zero (Nat.ne_zero_of_lt hfirst)
    obtain ⟨c, hc, hcu⟩ := hrun j (by omega) (by omega)
    obtain ⟨d, hd, hdu⟩ := hrun (j + 1) (by omega) hlast
    obtain ⟨next, hnext, hlower⟩ := (breaksAfter_iff_of_isUpper hc hd hcu hdu).1 (getElem?_marks_iff.1 hmark)
    -- anywhere but at the end of the run, a capital follows
    by_contra hne
    obtain ⟨e, he, heu⟩ := hrun (j + 2) (by omega) (by omega)
    rw [hnext, Option.some.injEq] at he
    rw [he, not_isLower_of_isUpper heu] at hlower
    cases hlower

/-- what becomes of a name in snake case -/
structure Normal (name : String) : Prop where
  plain : IsPlain (snakeCase name)
  again : snakeCase (snakeCase name) = snakeCase name
  /-- but for underscores, the letters of the name are there -/
  letters : (snakeCase name).toList.filter (· ≠ '_') =
    (name.toList.filter fun c => c ≠ '.' ∧ c ≠ '_').map Char.toLower
  added : ∃ marked, AddedTo name.toList marked ∧ (snakeCase name).toList = spaced name.toList marked

/-- **Snake case is a normal form** that only adds underscores. Whatever the name, its identifier has no capital and no
dot, and is its own identifier. It is the name, with underscores for dots and small letters for capitals, and
with one underscore more before some of the capitals: never at the start, never next to an underscore, and within a run
of capitals before the last one only, if a small letter follows. Without underscores, nothing but case tells it from the
name. -/
theorem snakeCase_normal (name : String) : Normal name where
  plain := isPlain_snakeCase name
  again := snakeCase_eq_self_iff.2 (isPlain_snakeCase name)
  letters := by
    rw [toList_snakeCase]
    exact filter_spaced (addedTo_marks name.toList).length
  added := ⟨_, addedTo_marks name.toList, toList_snakeCase name⟩

-- an acronym in front, inside, at the end, and after an underscore
example : snakeCase "HTTPGetURL.myXMLKey_ID2X" = "http_get_url_my_xml_key_id2x" := by decide +kernel

end SnakeCase

end ErlangRecords
