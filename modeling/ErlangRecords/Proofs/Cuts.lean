/-
What cutting and trimming leave of a text.

The pieces between separators, the text without the blanks at its ends, and the two sides of the first or last separator
are described here by the text they come from, without a word on how they are found. Each description fits one result
only, the one that is found.

- `Pieces`, `pieces_iff`: the pieces of a text; `splitOn_append`: those of two texts with a separator between them.
- `Trimmed`, `trimmed_iff`: a text without the blanks at its ends.
- `cut?_eq_some_iff`, `cutLast?_eq_some_iff`: the two sides of a separator.
-/
import ErlangRecords.Proofs.Reading
import ErlangRecords.Text.Blank
import ErlangRecords.Text.Split

namespace ErlangRecords.Text

variable {sep : Char} {cs before after core : List Char}

/-! ## Pieces -/

/-- the pieces are what stands between the separators of the text -/
structure Pieces (sep : Char) (cs : List Char) (pieces : List (List Char)) : Prop where
  nonempty : pieces ≠ []
  joined : [sep].intercalate pieces = cs
  uncut : ∀ piece ∈ pieces, sep ∉ piece

theorem pieces_splitOn (sep : Char) (cs : List Char) : Pieces sep cs (splitOn sep cs) where
  nonempty := splitOn_ne_nil sep cs
  joined := intercalate_splitOn sep cs
  uncut _ h := sep_not_mem_splitOn h

/-- at a separator, a text is cut into the pieces of what is before it and of what is after it -/
theorem splitOn_append (sep : Char) (before after : List Char) :
    splitOn sep (before ++ sep :: after) = splitOn sep before ++ splitOn sep after := by
  induction before with
  | nil => simp [splitOn]
  | cons c before ih =>
    obtain ⟨piece, pieces, hs⟩ := List.exists_cons_of_ne_nil (splitOn_ne_nil sep before)
    rw [List.cons_append, splitOn, splitOn, ih, hs]
    split <;> rfl

theorem splitOn_of_not_mem (h : sep ∉ cs) : splitOn sep cs = [cs] := by
  induction cs with
  | nil => rfl
  | cons c rest ih =>
    obtain ⟨hc, hrest⟩ := not_or.1 (List.mem_cons.not.1 h)
    rw [splitOn, if_neg (Ne.symm hc), ih hrest]

theorem splitOn_intercalate {pieces : List (List Char)} (hsome : pieces ≠ []) (h : ∀ piece ∈ pieces, sep ∉ piece) :
    splitOn sep ([sep].intercalate pieces) = pieces := by
  induction pieces with
  | nil => exact absurd rfl hsome
  | cons piece later ih =>
    obtain ⟨hpiece, hlater⟩ := List.forall_mem_cons.1 h
    cases later with
    | nil => rw [List.intercalate_singleton, splitOn_of_not_mem hpiece]
    | cons next later =>
      rw [List.intercalate_cons_cons, List.append_assoc, List.singleton_append, splitOn_append,
        splitOn_of_not_mem hpiece, ih (List.cons_ne_nil next later) hlater]
      rfl

/-- **The pieces of a text** are unique. -/
theorem pieces_iff {pieces : List (List Char)} : Pieces sep cs pieces ↔ pieces = splitOn sep cs := by
  constructor
  · intro h
    rw [← h.joined, splitOn_intercalate h.nonempty h.uncut]
  · rintro rfl
    exact pieces_splitOn sep cs

/-! ## Trimmed texts -/

/-- the core is what is left of the text without the blanks at its two ends -/
structure Trimmed (cs core : List Char) : Prop where
  cut : ∃ front back, cs = front ++ core ++ back ∧ ∀ c ∈ front ++ back, isBlank c = true
  first : ∀ c ∈ core.head?, isBlank c = false
  last : ∀ c ∈ core.getLast?, isBlank c = false

/-- blanks at the end do not count -/
theorem trimEnd_append {back : List Char} (hback : ∀ c ∈ back, isBlank c = true)
    (hlast : ∀ c ∈ core.getLast?, isBlank c = false) : trimEnd (core ++ back) = core := by
  rw [trimEnd, List.reverse_append,
    dropWhile_append_of_stop (fun c hc => hback c (List.mem_reverse.1 hc)) (by simpa using hlast), List.reverse_reverse]

theorem Trimmed.eq_trim (h : Trimmed cs core) : core = trim cs := by
  obtain ⟨front, back, rfl, hblank⟩ := h.cut
  obtain ⟨hfront, hback⟩ := List.forall_mem_append.1 hblank
  cases core with
  | nil =>
    have hend : ∀ c ∈ ([] : List Char).head?, isBlank c = false := by simp
    have hall : trimStart (front ++ [] ++ back) = [] := by
      simpa [trimStart] using dropWhile_append_of_stop hblank hend
    rw [trim, hall]
    rfl
  | cons c rest =>
    have hstart : trimStart (front ++ (c :: rest) ++ back) = (c :: rest) ++ back := by
      rw [trimStart, List.append_assoc]
      exact dropWhile_append_of_stop hfront h.first
    rw [trim, hstart, trimEnd_append hback h.last]

/-- what is dropped at the end is blank -/
theorem exists_trimEnd_append (cs : List Char) :
    ∃ back, cs = trimEnd cs ++ back ∧ ∀ c ∈ back, isBlank c = true := by
  refine ⟨(cs.reverse.takeWhile isBlank).reverse, ?_, fun c hc => ?_⟩
  · rw [trimEnd, ← List.reverse_append, List.takeWhile_append_dropWhile, List.reverse_reverse]
  · exact List.mem_takeWhile_imp (List.mem_reverse.1 hc)

theorem eq_false_of_mem_head?_dropWhile {p : Char → Bool} {c : Char} (h : c ∈ (cs.dropWhile p).head?) :
    p c = false := by
  have hstop := List.head?_dropWhile_not p cs
  rw [Option.mem_def.1 h] at hstop
  simpa using hstop

theorem trimmed_trim (cs : List Char) : Trimmed cs (trim cs) := by
  obtain ⟨back, hback, hblank⟩ := exists_trimEnd_append (trimStart cs)
  refine ⟨⟨cs.takeWhile isBlank, back, ?_, ?_⟩, fun c hc => ?_, fun c hc => ?_⟩
  · rw [trim, List.append_assoc, ← hback, trimStart, List.takeWhile_append_dropWhile]
  · exact List.forall_mem_append.2 ⟨fun c hc => List.mem_takeWhile_imp hc, hblank⟩
  · -- what is left opens as it did before the end was trimmed
    have hfirst : c ∈ (cs.dropWhile isBlank).head? := by
      rw [← trimStart, hback]
      exact List.mem_head?_append_of_mem_head? hc
    exact eq_false_of_mem_head?_dropWhile hfirst
  · rw [trim, trimEnd, List.getLast?_reverse] at hc
    exact eq_false_of_mem_head?_dropWhile hc

/-- **A text has one core.** -/
theorem trimmed_iff : Trimmed cs core ↔ core = trim cs := by
  constructor
  · exact Trimmed.eq_trim
  · rintro rfl
    exact trimmed_trim cs

/-! ## The sides of a separator -/

theorem cut?_append (h : sep ∉ before) (after : List Char) :
    cut? sep (before ++ sep :: after) = some (before, after) := by
  induction before with
  | nil => simp [cut?]
  | cons c before ih =>
    obtain ⟨hc, hbefore⟩ := not_or.1 (List.mem_cons.not.1 h)
    rw [List.cons_append, cut?, if_neg (Ne.symm hc), ih hbefore]
    rfl

theorem cut?_eq_some_iff : cut? sep cs = some (before, after) ↔ cs = before ++ sep :: after ∧ sep ∉ before := by
  constructor
  · exact cut?_eq_some
  · rintro ⟨rfl, h⟩
    exact cut?_append h after

theorem cutLast?_eq_some_iff :
    cutLast? sep cs = some (before, after) ↔ cs = before ++ sep :: after ∧ sep ∉ after := by
  simp only [cutLast?, Option.map_eq_some_iff, Prod.mk.injEq, Prod.exists, cut?_eq_some_iff]
  constructor
  · rintro ⟨back, front, ⟨hcs, hback⟩, rfl, rfl⟩
    rw [← List.reverse_reverse cs, hcs]
    simpa using hback
  · rintro ⟨rfl, hafter⟩
    exact ⟨after.reverse, before.reverse, by simpa using hafter, by simp⟩

theorem cutLast?_eq_none_iff : cutLast? sep cs = none ↔ sep ∉ cs := by
  rw [cutLast?, Option.map_eq_none_iff, cut?_eq_none_iff, List.mem_reverse]

end ErlangRecords.Text
