/-
Which names fold to one identifier.

An identifier is written in words; a name says where its words begin by dots, underscores and capitals, and none of
these is told apart in the identifier. So two names have one identifier exactly when they consist of the same words.

- `words`: the words of a name.
- `snakeCase_eq_words`: an identifier is made of the words.
- `snakeCase_eq_iff`: names with one identifier.
-/
import Mathlib
import ErlangRecords.SnakeCase
import ErlangRecords.Text.Split

namespace ErlangRecords

/-! ## Words -/

namespace SnakeCase

/-- a capital begins a word inside a segment: after a small letter, or before one -/
def begins (before : Option Char) (c : Char) (after : Option Char) : Bool :=
  c.isUpper && before.any fun p => p.isLower || after.any Char.isLower

/-- the words of a segment that continues `before`; it opens with the rest of a word -/
def humps (before : Option Char) : List Char → List (List Char)
  | [] => [[]]
  | c :: rest =>
    match humps (some c) rest with
    | [] => [[c]]
    | word :: later => if begins before c rest.head? then [] :: (c :: word) :: later else (c :: word) :: later

/-- the words of a name, in small letters: those of its segments, which dots and underscores separate -/
def words (name : String) : List (List Char) :=
  (Text.splitOn '_' (name.toList.map separator)).flatMap fun segment =>
    (humps none segment).map (·.map Char.toLower)

theorem humps_ne_nil (before : Option Char) (cs : List Char) : humps before cs ≠ [] := by
  cases cs with
  | nil => simp [humps]
  | cons c rest =>
    unfold humps
    split
    · simp
    · split <;> simp

theorem mem_of_mem_humps {before : Option Char} {cs word : List Char} (h : word ∈ humps before cs) :
    ∀ c ∈ word, c ∈ cs := by
  induction cs generalizing before word with
  | nil => simp_all [humps]
  | cons d rest ih =>
    unfold humps at h
    split at h
    · exact absurd ‹_› (humps_ne_nil (some d) rest)
    · rename_i first later hs
      have hword : ∀ w ∈ first :: later, ∀ c ∈ w, c ∈ d :: rest := fun w hw c hc =>
        List.mem_cons_of_mem d (ih (hs ▸ hw : w ∈ humps (some d) rest) c hc)
      obtain ⟨hfirst, hlater⟩ := List.forall_mem_cons.1 hword
      have hopened : ∀ c ∈ d :: first, c ∈ d :: rest := List.forall_mem_cons.2 ⟨List.mem_cons_self, hfirst⟩
      have hall := List.forall_mem_cons.2 ⟨hopened, hlater⟩
      split at h
      · rcases List.mem_cons.1 h with rfl | h
        · exact fun c hc => absurd hc List.not_mem_nil
        · exact hall word h
      · exact hall word h

theorem words_ne_nil (name : String) : words name ≠ [] := by
  obtain ⟨segment, rest, hs⟩ := List.exists_cons_of_ne_nil (Text.splitOn_ne_nil '_' (name.toList.map separator))
  obtain ⟨word, later, hw⟩ := List.exists_cons_of_ne_nil (humps_ne_nil none segment)
  simp [words, hs, hw]

/-- what is no letter is the small letter of itself alone -/
theorem toLower_eq_iff {c d : Char} (hd : d.isAlpha = false) : c.toLower = d ↔ c = d := by
  by_cases hc : c.isUpper
  · have hletter : c.isAlpha = true := by rw [Char.isAlpha, hc, Bool.true_or]
    constructor
    · rintro rfl
      rw [Char.isAlpha_toLower_eq_isAlpha, hletter] at hd
      cases hd
    · rintro rfl
      rw [hletter] at hd
      cases hd
  · rw [Char.toLower_eq_of_not_isUpper hc]

/-- the small letter of another character is no underscore -/
theorem toLower_ne_underscore {c : Char} (h : c ≠ '_') : c.toLower ≠ '_' := fun heq => h ((toLower_eq_iff rfl).1 heq)

/-- no word holds an underscore -/
theorem underscore_not_mem_words {name : String} {word : List Char} (h : word ∈ words name) : '_' ∉ word := by
  obtain ⟨segment, hsegment, h⟩ := List.mem_flatMap.1 h
  obtain ⟨hump, hhump, rfl⟩ := List.mem_map.1 h
  intro hc
  obtain ⟨c, hc, hlower⟩ := List.mem_map.1 hc
  have hseg : c ∈ segment := mem_of_mem_humps hhump c hc
  have hne : c ≠ '_' := fun heq => Text.sep_not_mem_splitOn hsegment (heq ▸ hseg)
  exact toLower_ne_underscore hne hlower

/-! ## Snake case, word by word -/

theorem startsWord_none_after (before : Option Char) : startsWord before (some '_') = startsWord before none := by
  cases before with
  | none => rfl
  | some p => simp [startsWord]

/-- an underscore is as good as a beginning -/
theorem convert_after_underscore (cs : List Char) : convert (some '_') cs = convert none cs := by
  cases cs with
  | nil => rfl
  | cons c rest =>
    have : startsWord (some '_') rest.head? = startsWord none rest.head? := by simp [startsWord]
    simp only [convert, write, this]

theorem convert_append (before : Option Char) (segment rest : List Char) :
    convert before (segment ++ '_' :: rest) = convert before segment ++ '_' :: convert none rest := by
  induction segment generalizing before with
  | nil =>
    have hunderscore : convert before ('_' :: rest) = '_' :: convert (some '_') rest := rfl
    rw [List.nil_append, hunderscore, convert_after_underscore]
    rfl
  | cons c segment ih =>
    have hwrite : write before c (segment ++ '_' :: rest).head? = write before c segment.head? := by
      cases segment with
      | nil =>
        unfold write
        rw [List.nil_append, List.head?_cons, startsWord_none_after]
        rfl
      | cons d segment => rfl
    rw [List.cons_append, convert, convert, ih, hwrite, List.append_assoc]

/-- underscores cut the work in pieces -/
theorem convert_intercalate (segments : List (List Char)) :
    convert none (['_'].intercalate segments) = ['_'].intercalate (segments.map (convert none)) := by
  induction segments with
  | nil => rfl
  | cons segment rest ih =>
    cases rest with
    | nil => simp [List.intercalate]
    | cons next rest =>
      have hne : (next :: rest).map (convert none) ≠ [] := by simp
      rw [List.intercalate_cons_cons, List.append_assoc, List.singleton_append, convert_append, ih,
        List.map_cons (a := segment), List.intercalate_cons_of_ne_nil hne, List.append_assoc, List.singleton_append]

theorem write_eq {before : Option Char} {c : Char} {after : Option Char} (h : before ≠ some '_') :
    write before c after = if begins before c after then ['_', c.toLower] else [c.toLower] := by
  unfold write begins
  by_cases hc : c.isUpper
  · cases before with
    | none => simp [hc, startsWord]
    | some p =>
      have hp : p ≠ '_' := fun heq => h (by rw [heq])
      simp [hc, startsWord, hp]
  · simp [hc, Char.toLower_eq_of_not_isUpper hc]

/-- within a segment, underscores come before the words that begin there -/
theorem convert_segment {before : Option Char} {segment : List Char} (hbefore : before ≠ some '_')
    (h : '_' ∉ segment) :
    convert before segment = ['_'].intercalate ((humps before segment).map (·.map Char.toLower)) := by
  induction segment generalizing before with
  | nil => rfl
  | cons c rest ih =>
    have hc : some c ≠ some '_' := fun heq => h (Option.some.inj heq ▸ List.mem_cons_self)
    have hrest := ih hc fun hin => h (List.mem_cons_of_mem c hin)
    rw [convert, hrest, write_eq hbefore, humps]
    obtain ⟨word, later, hw⟩ := List.exists_cons_of_ne_nil (humps_ne_nil (some c) rest)
    rw [hw]
    simp only
    split
    · simp only [List.map_cons, List.map_nil, List.intercalate_cons_cons]
      cases later <;> simp [List.intercalate]
    · cases later <;> simp [List.intercalate]

theorem intercalate_append {α : Type} (sep : List α) {xs ys : List (List α)} (hxs : xs ≠ []) (hys : ys ≠ []) :
    sep.intercalate (xs ++ ys) = sep.intercalate xs ++ sep ++ sep.intercalate ys := by
  induction xs with
  | nil => exact absurd rfl hxs
  | cons x xs ih =>
    cases xs with
    | nil => rw [List.singleton_append, List.intercalate_cons_of_ne_nil hys, List.intercalate_singleton]
    | cons x' xs =>
      rw [List.cons_append, List.intercalate_cons_of_ne_nil (by simp), ih (by simp), List.intercalate_cons_cons]
      simp only [List.append_assoc]

theorem intercalate_flatMap {α β : Type} (sep : List β) {f : α → List (List β)} (hf : ∀ a, f a ≠ []) (l : List α) :
    sep.intercalate (l.map fun a => sep.intercalate (f a)) = sep.intercalate (l.flatMap f) := by
  induction l with
  | nil => rfl
  | cons a l ih =>
    cases l with
    | nil => simp
    | cons b l =>
      have hne : (b :: l).flatMap f ≠ [] := by simp [hf b]
      rw [List.flatMap_cons, intercalate_append sep (hf a) hne, ← ih, List.map_cons,
        List.intercalate_cons_of_ne_nil (by simp)]

/-- **Identifiers are written word by word.** -/
theorem snakeCase_eq_words (name : String) : snakeCase name = String.ofList (['_'].intercalate (words name)) := by
  have hpieces := Text.intercalate_splitOn '_' (name.toList.map separator)
  have hsegments : (Text.splitOn '_' (name.toList.map separator)).map (convert none) =
      (Text.splitOn '_' (name.toList.map separator)).map fun segment =>
        ['_'].intercalate ((humps none segment).map (·.map Char.toLower)) :=
    List.map_congr_left fun segment hsegment => convert_segment (by simp) (Text.sep_not_mem_splitOn hsegment)
  have hne : ∀ segment, (humps none segment).map (·.map Char.toLower) ≠ [] := fun segment => by
    simpa using humps_ne_nil none segment
  rw [snakeCase, ← hpieces, convert_intercalate, hsegments, intercalate_flatMap _ hne, words]

/-- **Folding.** Two names have one identifier exactly when they consist of the same words. -/
theorem snakeCase_eq_iff {a b : String} : snakeCase a = snakeCase b ↔ words a = words b := by
  constructor
  · intro h
    rw [snakeCase_eq_words, snakeCase_eq_words, String.ofList_inj] at h
    have hcut := congrArg (List.splitOn '_') h
    rwa [List.splitOn_intercalate '_' (fun _ => underscore_not_mem_words) (words_ne_nil a),
      List.splitOn_intercalate '_' (fun _ => underscore_not_mem_words) (words_ne_nil b)] at hcut
  · intro h
    rw [snakeCase_eq_words, snakeCase_eq_words, h]

end SnakeCase

end ErlangRecords
