/-
Reading source text: pieces of it, and atoms.

A reader takes what it reads from the front of a text and leaves the rest. It undoes a printing function if it returns
what was printed, whatever comes after; only an atom, which may be written bare, has to end there.

- `Atom.read_quote`: atoms are read back.
- `many_append`: so are things that stand one after the other, each after a separator.
- `sentence_append`: so is a line that ends in a full stop.
-/
import Mathlib.Data.List.TakeWhile
import Mathlib.Data.List.Basic
import ErlangRecords.Atom

namespace ErlangRecords

/-! ## Maximal runs -/

section

variable {α : Type} {p : α → Bool} {body rest : List α}

theorem takeWhile_append_of_stop (hbody : ∀ a ∈ body, p a = true) (hrest : ∀ a ∈ rest.head?, p a = false) :
    (body ++ rest).takeWhile p = body := by
  have hstop : rest.takeWhile p = [] := by
    cases rest with
    | nil => rfl
    | cons a rest => simp [hrest a rfl]
  rw [List.takeWhile_append_of_pos hbody, hstop, List.append_nil]

theorem dropWhile_append_of_stop (hbody : ∀ a ∈ body, p a = true) (hrest : ∀ a ∈ rest.head?, p a = false) :
    (body ++ rest).dropWhile p = rest := by
  rw [List.dropWhile_append_of_pos hbody]
  cases rest with
  | nil => rfl
  | cons a rest => simp [hrest a rfl]

end

/-! ## Atoms -/

namespace Atom

/-- no atom goes on with these characters -/
def Ends (rest : List Char) : Prop := ∀ c ∈ rest.head?, isBareTail c = false

/-- an atom up to its closing quote; a backslash stands for the quote or backslash after it -/
def readQuoted : List Char → Option (List Char × List Char)
  | [] => none
  | '\'' :: rest => some ([], rest)
  | '\\' :: c :: rest =>
    if c = '\'' || c = '\\' then (readQuoted rest).map fun (name, rest) => (c :: name, rest) else none
  | c :: rest => (readQuoted rest).map fun (name, rest) => (c :: name, rest)

/-- the longest bare atom at the front -/
def readBare (cs : List Char) : Option (String × List Char) :=
  let name := String.ofList (cs.takeWhile isBareTail)
  if isBare name then some (name, cs.dropWhile isBareTail) else none

/-- an atom between quotes, or a bare one -/
def read : List Char → Option (String × List Char)
  | '\'' :: rest => (readQuoted rest).map fun (name, rest) => (String.ofList name, rest)
  | cs => readBare cs

theorem readQuoted_escape (name rest : List Char) : readQuoted (escape name ++ '\'' :: rest) = some (name, rest) := by
  induction name with
  | nil => rfl
  | cons c name ih =>
    rw [escape]
    split
    · rename_i hspecial
      rw [List.cons_append, List.cons_append, readQuoted, if_pos hspecial, ih]
      rfl
    · rename_i hplain
      simp only [Bool.or_eq_true, decide_eq_true_eq, not_or] at hplain
      rw [List.cons_append, readQuoted.eq_4 _ _ hplain.1 (fun d _ h _ => hplain.2 h), ih]
      rfl

/-- a bare atom opens with a small letter -/
theorem exists_lower_of_isBare {name : String} (h : isBare name = true) :
    ∃ c rest, name.toList = c :: rest ∧ c.isLower = true ∧ ∀ d ∈ c :: rest, isBareTail d = true := by
  unfold isBare at h
  split at h
  · cases h
  · rename_i c rest hname
    simp only [Bool.and_eq_true, List.all_eq_true] at h
    have hletter : c.isAlpha = true := Bool.or_eq_true_iff.2 (Or.inr h.1.1)
    have hc : isBareTail c = true := by
      simp [isBareTail, Char.isAlphanum, hletter]
    exact ⟨c, rest, hname, h.1.1, List.forall_mem_cons.2 ⟨hc, h.1.2⟩⟩

theorem readBare_append {name : String} (h : isBare name = true) {rest : List Char} (hends : Ends rest) :
    readBare (name.toList ++ rest) = some (name, rest) := by
  obtain ⟨c, tail, hname, _, hall⟩ := exists_lower_of_isBare h
  rw [← hname] at hall
  rw [readBare, takeWhile_append_of_stop hall hends, dropWhile_append_of_stop hall hends, String.ofList_toList,
    if_pos h]

/-- a text that opens with no quote can only be a bare atom -/
theorem read_of_head {cs : List Char} (h : cs.head? ≠ some '\'') : read cs = readBare cs := by
  unfold read
  split
  · exact absurd rfl h
  · rfl

/-- every atom opens with a quote or a small letter -/
theorem read_eq_none {c : Char} (hquote : c ≠ '\'') (hlower : c.isLower = false) (cs : List Char) :
    read (c :: cs) = none := by
  rw [read_of_head (by simpa using hquote), readBare, if_neg]
  intro hbare
  obtain ⟨d, rest, hname, hd, _⟩ := exists_lower_of_isBare hbare
  rw [String.toList_ofList, List.takeWhile_cons] at hname
  split at hname
  · rw [(List.cons.inj hname).1, hd] at hlower
    cases hlower
  · cases hname

/-- **Atoms are read back.** -/
theorem read_quote (name : String) {rest : List Char} (hends : Ends rest) :
    read ((quote name).toList ++ rest) = some (name, rest) := by
  unfold quote
  split
  · rename_i hbare
    obtain ⟨c, tail, hname, hlower, _⟩ := exists_lower_of_isBare hbare
    have hquote : c ≠ '\'' := by
      rintro rfl
      exact absurd hlower (by decide)
    rw [read_of_head (by simpa [hname] using hquote), readBare_append hbare hends]
  · rw [String.toList_ofList, List.append_assoc, List.cons_append, List.singleton_append, read, readQuoted_escape]
    simp

theorem ends_cons {c : Char} (h : isBareTail c = false) (rest : List Char) : Ends (c :: rest) := by
  intro d hd
  cases hd
  exact h

theorem read_word {word : String} (h : isBare word = true) {rest : List Char} (hends : Ends rest) :
    read (word.toList ++ rest) = some (word, rest) := by
  have hquote : quote word = word := if_pos h
  rw [← read_quote word hends, hquote]

end Atom

/-! ## Texts, lists and lines -/

/-- what comes after the text at the front -/
def skip (text : String) (cs : List Char) : Option (List Char) := cs.dropPrefix? text.toList

@[simp] theorem skip_append (text : String) (rest : List Char) : skip text (text.toList ++ rest) = some rest :=
  List.dropPrefix?_append_of_beq rest (beq_self_eq_true text.toList)

/-- a list with separators is its first item, then each other one after a separator -/
theorem toList_intercalate_cons (separator first : String) (others : List String) :
    (separator.intercalate (first :: others)).toList =
      first.toList ++ others.flatMap fun text => separator.toList ++ text.toList := by
  rw [String.toList_intercalate]
  induction others generalizing first with
  | nil => simp
  | cons second others ih =>
    simp only [List.map_cons] at ih ⊢
    rw [List.intercalate_cons_cons, ih, List.flatMap_cons, List.append_assoc, List.append_assoc]

/-- after items with separators there is what may come after an item, if a separator may -/
theorem after_items {β : Type} {separator : String} {text : β → String} {P : List Char → Prop} {last : List Char}
    (hseparator : ∀ rest, P (separator.toList ++ rest)) (hafter : P last) (bs : List β) :
    P (bs.flatMap (fun b => separator.toList ++ (text b).toList) ++ last) := by
  cases bs with
  | nil => exact hafter
  | cons b bs =>
    rw [List.flatMap_cons, List.append_assoc, List.append_assoc]
    exact hseparator _

/-- things read one after the other, each after a separator, for as long as there is one -/
def many {α : Type} (separator : String) (item : List Char → Option (α × List Char)) (cs : List Char) :
    List α × List Char :=
  match (skip separator cs).bind item with
  | none => ([], cs)
  | some (a, rest) =>
    if _h : rest.length < cs.length then
      let later := many separator item rest
      (a :: later.1, later.2)
    else ([], cs)
termination_by cs.length

/-- **Lists are read back**, if their items are, before what may come after one, and if no separator comes after all. -/
theorem many_append {α β : Type} {separator : String} {item : List Char → Option (α × List Char)} {text : β → String}
    {value : β → α} {bs : List β} {P : List Char → Prop} {last : List Char}
    (hseparator : ∀ rest, P (separator.toList ++ rest))
    (hitem : ∀ b ∈ bs, ∀ rest, P rest → item ((text b).toList ++ rest) = some (value b, rest))
    (hafter : P last) (hlast : skip separator last = none) :
    many separator item (bs.flatMap (fun b => separator.toList ++ (text b).toList) ++ last) =
      (bs.map value, last) := by
  -- an empty separator would be there at the end
  have hpos : 0 < separator.toList.length := by
    apply List.length_pos_of_ne_nil
    intro hempty
    simp [skip, hempty] at hlast
  induction bs with
  | nil =>
    rw [many, List.flatMap_nil, List.nil_append, hlast]
    rfl
  | cons b bs ih =>
    obtain ⟨hb, hbs⟩ := List.forall_mem_cons.1 hitem
    have hrest : P (bs.flatMap (fun b => separator.toList ++ (text b).toList) ++ last) :=
      after_items hseparator hafter bs
    rw [List.flatMap_cons, List.append_assoc, List.append_assoc, many, skip_append, Option.bind_some, hb _ hrest]
    dsimp only
    rw [dif_pos (by simp only [List.length_append]; omega), ih hbs]
    rfl

/-- a line without its full stop -/
def sentence (cs : List Char) : Option (String × List Char) :=
  let line := cs.takeWhile (· ≠ '\n')
  if line.getLast? = some '.' then
    (skip "\n" (cs.dropWhile (· ≠ '\n'))).map fun rest => (String.ofList line.dropLast, rest)
  else none

theorem sentence_append {text : String} (h : '\n' ∉ text.toList) (rest : List Char) :
    sentence (text.toList ++ ".\n".toList ++ rest) = some (text, rest) := by
  have hcut : text.toList ++ ".\n".toList ++ rest = (text.toList ++ ['.']) ++ ("\n".toList ++ rest) := by simp
  have hline : ∀ c ∈ text.toList ++ ['.'], decide (c ≠ '\n') = true := by
    intro c hc
    rcases List.mem_append.1 hc with hc | hc
    · simpa using fun heq : c = '\n' => h (heq ▸ hc)
    · rw [List.mem_singleton.1 hc]
      decide
  have hbreak : ∀ c ∈ ("\n".toList ++ rest).head?, decide (c ≠ '\n') = false := by simp
  rw [sentence, hcut, takeWhile_append_of_stop hline hbreak, dropWhile_append_of_stop hline hbreak, skip_append]
  simp

end ErlangRecords
