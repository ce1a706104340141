/-
Cutting a text at a separator.

- `splitOn`: at every separator, so that there is one piece more than there are separators;
- `cut?`: at the first separator;
- `cutLast?`: at the last one.
Both cuts give `none` where the separator does not occur.

`intercalate_splitOn` and `sep_not_mem_splitOn` say that the pieces are the text between separators; `cut?_eq_some` and
`cut?_eq_none_iff` say that a cut is at the first separator.
-/

namespace ErlangRecords.Text

/-- the pieces between separators; the empty text has one empty piece -/
def splitOn (sep : Char) : List Char → List (List Char)
  | [] => [[]]
  | c :: rest =>
    if c = sep then [] :: splitOn sep rest
    else
      match splitOn sep rest with
      | [] => [[c]]
      | piece :: pieces => (c :: piece) :: pieces

/-- what stands before and after the first separator -/
def cut? (sep : Char) : List Char → Option (List Char × List Char)
  | [] => none
  | c :: rest =>
    if c = sep then some ([], rest)
    else (cut? sep rest).map fun (before, after) => (c :: before, after)

/-- what stands before and after the last separator -/
def cutLast? (sep : Char) (cs : List Char) : Option (List Char × List Char) :=
  (cut? sep cs.reverse).map fun (after, before) => (before.reverse, after.reverse)

/-! ## What the pieces are -/

theorem splitOn_ne_nil (sep : Char) (cs : List Char) : splitOn sep cs ≠ [] := by
  cases cs with
  | nil => simp [splitOn]
  | cons c rest =>
    unfold splitOn
    split
    · simp
    · split <;> simp

/-- the pieces, put together with separators, give the text back -/
theorem intercalate_splitOn (sep : Char) (cs : List Char) : [sep].intercalate (splitOn sep cs) = cs := by
  induction cs with
  | nil => rfl
  | cons c rest ih =>
    unfold splitOn
    split
    · rename_i hc
      obtain ⟨piece, pieces, hs⟩ := List.exists_cons_of_ne_nil (splitOn_ne_nil sep rest)
      rw [hs] at ih ⊢
      rw [List.intercalate_cons_cons, ih, hc]
      rfl
    · split
      · exact absurd ‹_› (splitOn_ne_nil sep rest)
      · rename_i piece pieces hs
        rw [hs] at ih
        rw [← ih]
        cases pieces <;> simp [List.intercalate]

/-- no piece holds a separator -/
theorem sep_not_mem_splitOn {sep : Char} {cs piece : List Char} (h : piece ∈ splitOn sep cs) : sep ∉ piece := by
  induction cs generalizing piece with
  | nil => simp_all [splitOn]
  | cons c rest ih =>
    unfold splitOn at h
    split at h
    · rcases List.mem_cons.1 h with rfl | h
      · simp
      · exact ih h
    · rename_i hc
      split at h
      · exact absurd ‹_› (splitOn_ne_nil sep rest)
      · rename_i first pieces hs
        rcases List.mem_cons.1 h with rfl | h
        · have := ih (hs ▸ List.mem_cons_self : first ∈ splitOn sep rest)
          simp [this, Ne.symm hc]
        · exact ih (hs ▸ List.mem_cons_of_mem _ h)

theorem cut?_eq_some {sep : Char} {cs before after : List Char} (h : cut? sep cs = some (before, after)) :
    cs = before ++ sep :: after ∧ sep ∉ before := by
  induction cs generalizing before with
  | nil => simp [cut?] at h
  | cons c rest ih =>
    unfold cut? at h
    split at h
    · simp_all
    · rename_i hc
      simp only [Option.map_eq_some_iff, Prod.mk.injEq, Prod.exists] at h
      obtain ⟨b, a, hr, rfl, rfl⟩ := h
      obtain ⟨rfl, hb⟩ := ih hr
      simp [hb, Ne.symm hc]

theorem cut?_eq_none_iff {sep : Char} {cs : List Char} : cut? sep cs = none ↔ sep ∉ cs := by
  induction cs with
  | nil => simp [cut?]
  | cons c rest ih =>
    unfold cut?
    split
    · simp_all
    · rename_i hc
      simp [ih, Ne.symm hc]

end ErlangRecords.Text
