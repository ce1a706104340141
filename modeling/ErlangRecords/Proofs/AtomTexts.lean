/-
The texts of atoms.

A text denotes an atom when it is a bare word, or when it stands between quotes and every quote or backslash in it comes
after a backslash. Every name has such a text. Whether a quote is the closing one shows from the backslashes right
before it alone: they come in pairs, unless the last of them escapes the quote.

- `denoted?_eq_some_iff`: what a whole text denotes, and that the reader finds it.
- `escapes_append`, `Content.closes`: which quotes are escaped.
- `quoted_of_prefix`: no quoted atom begins another.
- `quote_read_back`: all this of every name.
-/
import Mathlib.Data.List.DropRight
import ErlangRecords.Proofs.Reading

namespace ErlangRecords

namespace Atom

/-! ## What a text denotes -/

/-- a text between quotes and the name it stands for: a quote or backslash comes after a backslash, all else as it is -/
inductive Content : List Char → List Char → Prop
  | nil : Content [] []
  | plain {c : Char} {body name : List Char} (hquote : c ≠ '\'') (hbackslash : c ≠ '\\') (h : Content body name) :
      Content (c :: body) (c :: name)
  | escaped {c : Char} {body name : List Char} (hc : c = '\'' ∨ c = '\\') (h : Content body name) :
      Content ('\\' :: c :: body) (c :: name)

/-- the text, all of it, denotes the atom of this name -/
inductive Denotes : String → String → Prop
  | bare {name : String} {first : Char} {rest : List Char} (hname : name.toList = first :: rest)
      (hfirst : first.isLower = true) (hrest : ∀ c ∈ rest, c.isAlphanum = true ∨ c = '_' ∨ c = '@')
      (hword : name ∉ reservedWords) : Denotes name name
  | quoted {body name : List Char} (h : Content body name) :
      Denotes (String.ofList ('\'' :: (body ++ ['\'']))) (String.ofList name)

/-- the text opens with a quote -/
def IsQuoted (text : String) : Prop := text.toList.head? = some '\''

instance (text : String) : Decidable (IsQuoted text) := inferInstanceAs (Decidable (_ = _))

/-- the atom that a text denotes, if nothing comes after it -/
def denoted? (text : String) : Option String :=
  (read text.toList).bind fun (name, rest) => if rest = [] then some name else none

section

variable {text name : String} {body rest : List Char}

theorem content_escape (name : List Char) : Content (escape name) name := by
  induction name with
  | nil => exact .nil
  | cons c name ih =>
    rw [escape]
    split
    · rename_i hspecial
      exact .escaped (by simpa using hspecial) ih
    · rename_i hplain
      simp only [Bool.or_eq_true, decide_eq_true_eq, not_or] at hplain
      exact .plain hplain.1 hplain.2 ih

theorem Content.readQuoted_append {name : List Char} (h : Content body name) (rest : List Char) :
    readQuoted (body ++ '\'' :: rest) = some (name, rest) := by
  induction h with
  | nil => rfl
  | @plain c body name hquote hbackslash _ ih =>
    rw [List.cons_append, readQuoted.eq_4 _ _ hquote (fun d _ h _ => hbackslash h), ih]
    rfl
  | @escaped c body name hc _ ih =>
    rw [List.cons_append, List.cons_append, readQuoted, if_pos (by simpa using hc), ih]
    rfl

/-- the reader stops at the first quote that can close what it has read -/
theorem exists_content_of_readQuoted {cs name : List Char} (h : readQuoted cs = some (name, rest)) :
    ∃ body, cs = body ++ '\'' :: rest ∧ Content body name := by
  fun_induction readQuoted cs generalizing name with
  | case1 => cases h
  | case2 rest =>
    cases h
    exact ⟨[], rfl, .nil⟩
  | case3 c later hc ih =>
    obtain ⟨⟨name, rest⟩, hread, heq⟩ := Option.map_eq_some_iff.1 h
    cases heq
    obtain ⟨body, rfl, hbody⟩ := ih hread
    exact ⟨'\\' :: c :: body, rfl, .escaped (by simpa using hc) hbody⟩
  | case4 => cases h
  | case5 c later hquote hbackslash ih =>
    obtain ⟨⟨name, rest⟩, hread, heq⟩ := Option.map_eq_some_iff.1 h
    cases heq
    obtain ⟨body, rfl, hbody⟩ := ih hread
    refine ⟨c :: body, rfl, .plain hquote (fun hc => ?_) hbody⟩
    -- after a backslash there is at least the closing quote
    cases body with
    | nil => exact hbackslash _ _ hc rfl
    | cons d body => exact hbackslash _ _ hc rfl

theorem isBare_iff : isBare name = true ↔ ∃ first rest, name.toList = first :: rest ∧ first.isLower = true ∧
    (∀ c ∈ rest, c.isAlphanum = true ∨ c = '_' ∨ c = '@') ∧ name ∉ reservedWords := by
  unfold isBare
  cases name.toList with
  | nil => simp
  | cons first rest => simp [isBareTail, and_assoc, or_assoc]

theorem ends_nil : Ends [] := by simp [Ends]

/-- a bare atom with nothing after it is the whole text -/
theorem denotes_of_readBare (h : readBare text.toList = some (name, [])) : Denotes text name := by
  rw [readBare] at h
  split at h
  · rename_i hbare
    simp only [Option.some.injEq, Prod.mk.injEq] at h
    have hall : text.toList.takeWhile isBareTail = text.toList := by
      simpa [h.2] using List.takeWhile_append_dropWhile (p := isBareTail) (l := text.toList)
    rw [hall, String.ofList_toList] at h hbare
    obtain ⟨first, rest, hname, hfirst, hrest, hword⟩ := isBare_iff.1 hbare
    exact h.1 ▸ .bare hname hfirst hrest hword
  · cases h

theorem denotes_of_readQuoted {later name : List Char} (htext : text.toList = '\'' :: later)
    (h : readQuoted later = some (name, [])) : Denotes text (String.ofList name) := by
  obtain ⟨body, rfl, hbody⟩ := exists_content_of_readQuoted h
  rw [← String.ofList_toList (s := text), htext]
  exact .quoted hbody

theorem Denotes.read_append (h : Denotes text name) (hends : Ends rest) :
    read (text.toList ++ rest) = some (name, rest) := by
  cases h with
  | bare hname hfirst hrest hword => exact read_word (isBare_iff.2 ⟨_, _, hname, hfirst, hrest, hword⟩) hends
  | quoted h =>
    rw [String.toList_ofList, List.cons_append, List.append_assoc, List.singleton_append, read, h.readQuoted_append]
    rfl

/-- **The reader finds what a text denotes**, and refuses all texts that denote nothing. -/
theorem denoted?_eq_some_iff : denoted? text = some name ↔ Denotes text name := by
  constructor
  · intro h
    obtain ⟨⟨found, rest⟩, hread, hrest⟩ := Option.bind_eq_some_iff.1 h
    obtain ⟨rfl, rfl⟩ : rest = [] ∧ found = name := by simpa using hrest
    unfold read at hread
    split at hread
    · rename_i later htext
      obtain ⟨⟨cs, rest⟩, hquoted, heq⟩ := Option.map_eq_some_iff.1 hread
      cases heq
      exact denotes_of_readQuoted htext hquoted
    · exact denotes_of_readBare hread
  · intro h
    have hread := h.read_append ends_nil
    rw [List.append_nil] at hread
    simp [denoted?, hread]

theorem isQuoted_of_content (body : List Char) : IsQuoted (String.ofList ('\'' :: body)) := by
  rw [IsQuoted, String.toList_ofList, List.head?_cons]

theorem not_isQuoted_of_mem_reservedWords : ∀ word ∈ reservedWords, ¬IsQuoted word := by
  decide

theorem Denotes.ne_empty (h : Denotes text name) : text ≠ "" := by
  intro hempty
  cases h with
  | bare hname => simp [hempty] at hname
  | quoted h => exact absurd (isQuoted_of_content _) (hempty ▸ (by decide : ¬IsQuoted ""))

theorem Denotes.not_mem_reservedWords (h : Denotes text name) : text ∉ reservedWords := by
  cases h with
  | bare _ _ _ hword => exact hword
  | quoted h => exact fun hword => not_isQuoted_of_mem_reservedWords _ hword (isQuoted_of_content _)

theorem denoted?_quote (name : String) : denoted? (quote name) = some name := by
  have hread := read_quote name ends_nil
  rw [List.append_nil] at hread
  simp [denoted?, hread]

theorem denotes_quote (name : String) : Denotes (quote name) name := denoted?_eq_some_iff.1 (denoted?_quote name)

/-! ## Which quotes are escaped -/

/-- an odd number of backslashes stands at the end, so the last of them escapes what comes next -/
def Escapes (before : List Char) : Prop := (before.rtakeWhile (· = '\\')).length % 2 = 1

theorem not_escapes_nil : ¬Escapes [] := by simp [Escapes]

theorem escapes_concat (before : List Char) (c : Char) : Escapes (before ++ [c]) ↔ c = '\\' ∧ ¬Escapes before := by
  unfold Escapes
  rw [List.rtakeWhile_concat]
  by_cases hc : c = '\\'
  · simp only [hc, decide_true, ite_true, List.length_append, List.length_singleton, true_and]
    omega
  · simp [hc]

/-- what comes before matters only where it ends in an open backslash -/
theorem escapes_append {before : List Char} (h : ¬Escapes before) (cs : List Char) :
    Escapes (before ++ cs) ↔ Escapes cs := by
  induction cs using List.reverseRecOn with
  | nil => simp only [List.append_nil, h, not_escapes_nil]
  | append_singleton cs c ih => rw [← List.append_assoc, escapes_concat, escapes_concat, ih]

theorem escapes_cons_of_ne {c : Char} (hc : c ≠ '\\') (cs : List Char) : Escapes (c :: cs) ↔ Escapes cs := by
  have hplain : ¬Escapes [c] := fun h => hc ((escapes_concat [] c).1 h).1
  exact escapes_append hplain cs

theorem escapes_backslash : Escapes ['\\'] := (escapes_concat [] '\\').2 ⟨rfl, not_escapes_nil⟩

theorem escapes_pair (c : Char) (cs : List Char) : Escapes ('\\' :: c :: cs) ↔ Escapes cs := by
  have hpair : ¬Escapes ['\\', c] := fun h => ((escapes_concat ['\\'] c).1 h).2 escapes_backslash
  exact escapes_append hpair cs

/-- **The closing quote** is the one quote in a quoted atom that no backslash escapes. -/
theorem Content.closes {name before after : List Char} (h : Content body name)
    (hsplit : body ++ ['\''] = before ++ '\'' :: after) : Escapes before ↔ after ≠ [] := by
  induction h generalizing before with
  | nil =>
    cases before with
    | nil =>
      have hafter : after = [] := (List.cons.inj hsplit).2.symm
      simp only [hafter, not_escapes_nil, ne_eq, not_true_eq_false]
    | cons d before => simp at hsplit
  | plain hquote hbackslash _ ih =>
    cases before with
    | nil => exact absurd (List.cons.inj hsplit).1 hquote
    | cons d before =>
      obtain ⟨rfl, hrest⟩ := List.cons.inj hsplit
      rw [escapes_cons_of_ne hbackslash, ih hrest]
  | @escaped c body _ hc _ ih =>
    cases before with
    | nil => exact absurd (List.cons.inj hsplit).1 (by decide)
    | cons d before =>
      obtain ⟨rfl, hrest⟩ := List.cons.inj hsplit
      cases before with
      | nil =>
        have hafter : after ≠ [] := by
          rw [← (List.cons.inj hrest).2]
          simp
        exact iff_of_true escapes_backslash hafter
      | cons d before =>
        obtain ⟨rfl, htail⟩ := List.cons.inj hrest
        rw [escapes_pair, ih htail]

/-! ## Quoted atoms -/

/-- the text stands between quotes, and of those after the first one only the last is not escaped -/
structure Closed (text : List Char) : Prop where
  shape : ∃ body, text = '\'' :: (body ++ ['\''])
  closing : ∀ before after, text = '\'' :: (before ++ '\'' :: after) → (Escapes before ↔ after ≠ [])

/-- a bare atom opens with a letter -/
theorem toList_quote (h : IsQuoted (quote name)) : (quote name).toList = '\'' :: (escape name.toList ++ ['\'']) := by
  unfold quote at h ⊢
  split at h
  · rename_i hbare
    obtain ⟨first, rest, hname, hfirst, _⟩ := isBare_iff.1 hbare
    rw [IsQuoted, hname, List.head?_cons, Option.some.injEq] at h
    rw [h] at hfirst
    exact absurd hfirst (by decide)
  · rename_i hbare
    rw [if_neg hbare, String.toList_ofList]
    rfl

theorem closed_quote (h : IsQuoted (quote name)) : Closed (quote name).toList := by
  rw [toList_quote h]
  refine ⟨⟨_, rfl⟩, fun before after hsplit => ?_⟩
  exact (content_escape name.toList).closes (List.cons.inj hsplit).2

theorem quote_injective : Function.Injective quote := by
  intro a b h
  have hread := denoted?_quote a
  rw [h, denoted?_quote b, Option.some.injEq] at hread
  exact hread.symm

/-- **No quoted atom begins another.** -/
theorem quoted_of_prefix {other : String} (hname : IsQuoted (quote name)) (hother : IsQuoted (quote other))
    (h : (quote name).toList <+: (quote other).toList) : name = other := by
  obtain ⟨rest, hrest⟩ := h
  rw [toList_quote hname, toList_quote hother, List.cons_append, List.append_assoc, List.singleton_append] at hrest
  have hread := readQuoted_escape name.toList rest
  rw [(List.cons.inj hrest).2, readQuoted_escape other.toList []] at hread
  simp only [Option.some.injEq, Prod.mk.injEq] at hread
  exact String.toList_inj.1 hread.1.symm

end

/-- the text of the atom `name`, and what is read from it -/
structure ReadBack (name : String) : Prop where
  read : denoted? (quote name) = some name
  denotes : ∀ other, Denotes (quote name) other ↔ other = name
  injective : ∀ other, quote other = quote name → other = name
  nonempty : quote name ≠ ""
  unreserved : quote name ∉ reservedWords
  closed : IsQuoted (quote name) → Closed (quote name).toList
  /-- of two quoted atoms, one begins with the other only if they are the same -/
  prefixFree : ∀ other, IsQuoted (quote name) → IsQuoted (quote other) →
    (quote name).toList <+: (quote other).toList → name = other

/-- **Atoms are read back.** The text of the atom of any name whatever denotes that name and no other, and the reader
takes all of it; so different names have different texts, and no text is empty or a reserved word. Where the name
stands between quotes, the quote that no backslash escapes comes last, and no other quoted atom begins with that text.
-/
theorem quote_read_back (name : String) : ReadBack name where
  read := denoted?_quote name
  denotes other := by
    rw [← denoted?_eq_some_iff, denoted?_quote, Option.some.injEq, eq_comm]
  injective other h := quote_injective h
  nonempty := (denotes_quote name).ne_empty
  unreserved := (denotes_quote name).not_mem_reservedWords
  closed := closed_quote
  prefixFree other hname hother h := quoted_of_prefix hname hother h

-- a bare word, a reserved one, none at all, and quotes and backslashes at the very end
example : ["a@b_1", "xor", "", "'\\", "\\'"].map quote = ["a@b_1", "'xor'", "''", "'\\'\\\\'", "'\\\\\\''"] ∧
    reservedWords.length = 29 := by decide

end Atom

end ErlangRecords
