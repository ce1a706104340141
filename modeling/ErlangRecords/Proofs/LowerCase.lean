/-
Lower case and ASCII.

Full lower-casing of an ASCII text only makes the ASCII capitals small. Beyond ASCII, one code point alone has a lower
case that lies in ASCII: the Kelvin sign, whose small letter is `k`. So which texts have a given ASCII text for their
lower case can be said without the table of letters, as long as the text has no `k`.

- `lowerCase_of_ascii`: ASCII texts.
- `lowerCase_eq_iff_of_ascii`: texts whose lower case is ASCII.
-/
import Mathlib
import ErlangRecords.Text.LowerCase

namespace ErlangRecords.Text

/-! ## Code points -/

def IsAscii (c : Char) : Prop := c.toNat < 128

instance (c : Char) : Decidable (IsAscii c) := inferInstanceAs (Decidable (_ < _))

/-- the first run of the table -/
def asciiCapitals : LowerRun := ⟨0x41, 0x5A, 1, 32⟩

/-- no other run holds an ASCII code point -/
theorem find?_run_of_ascii {n : Nat} (h : n < 128) :
    lowerRuns.find? (·.contains n) = if asciiCapitals.contains n then some asciiCapitals else none := by
  have htable : lowerRuns = asciiCapitals :: lowerRuns.tail := rfl
  have hbeyond : ∀ run ∈ lowerRuns.tail, 128 ≤ run.first := by decide +kernel
  have hothers : lowerRuns.tail.find? (·.contains n) = none := by
    rw [List.find?_eq_none]
    intro run hrun hcontains
    simp only [LowerRun.contains, Bool.and_eq_true, decide_eq_true_eq] at hcontains
    have hfirst := hbeyond run hrun
    omega
  rw [htable, List.find?_cons, hothers]
  cases asciiCapitals.contains n <;> rfl

theorem lowerChar_of_ascii {c : Char} (h : IsAscii c) : lowerChar c = [c.toLower] := by
  have hdotted : c ≠ 'İ' := by
    rintro rfl
    exact absurd h (by decide)
  have hsmall : ∀ n : Fin 128, (Char.ofNat n).toLower =
      if asciiCapitals.contains n then Char.ofNat (n + 32) else Char.ofNat n := by decide +kernel
  have hc := hsmall ⟨c.toNat, h⟩
  rw [Char.ofNat_toNat] at hc
  rw [lowerChar, if_neg hdotted, find?_run_of_ascii h, hc]
  cases asciiCapitals.contains c.toNat <;> rfl

/-- the small letters of a run are code points, and no ASCII ones unless the capitals are the ASCII capitals or the
Kelvin sign alone -/
def LowerRun.Plain (run : LowerRun) : Prop :=
  (run.last + run.shift < 0xD800 ∨ 0xE000 ≤ run.first + run.shift ∧ run.last + run.shift < 0x110000) ∧
    (128 ≤ run.first + run.shift ∨ run.last < 128 ∨
      run.first = 0x212A ∧ run.last = 0x212A ∧ run.first + run.shift = 0x6B)

instance (run : LowerRun) : Decidable run.Plain := inferInstanceAs (Decidable (_ ∧ _))

theorem lowerRuns_plain : ∀ run ∈ lowerRuns, run.Plain := by decide +kernel

/-- a code point of a run: it is ASCII, or it is the Kelvin sign, or its small letter is beyond ASCII -/
theorem ascii_of_run {run : LowerRun} {c : Char} (hrun : run ∈ lowerRuns) (hc : run.contains c.toNat = true)
    (hascii : IsAscii (Char.ofNat (c.toNat + run.shift).toNat))
    (hk : Char.ofNat (c.toNat + run.shift).toNat ≠ 'k') : IsAscii c := by
  simp only [LowerRun.contains, Bool.and_eq_true, decide_eq_true_eq] at hc
  obtain ⟨⟨hfirst, hlast⟩, _⟩ := hc
  obtain ⟨hvalid, hplain⟩ := lowerRuns_plain run hrun
  have hletter : (Char.ofNat (c.toNat + run.shift).toNat).toNat = (c.toNat + run.shift).toNat := by
    rw [Char.toNat_ofNat, if_pos]
    unfold Nat.isValidChar
    omega
  unfold IsAscii at hascii ⊢
  rw [hletter] at hascii
  rcases hplain with hbeyond | hcapital | ⟨hkelvin, hkelvin', hshift⟩
  · omega
  · omega
  · have hsmall : (c.toNat + run.shift).toNat = 0x6B := by omega
    rw [hsmall] at hk
    exact absurd rfl hk

/-- only ASCII code points have a lower case in ASCII, `k` left aside -/
theorem ascii_of_lowerChar {c : Char} (h : ∀ d ∈ lowerChar c, IsAscii d ∧ d ≠ 'k') : IsAscii c := by
  unfold lowerChar at h
  split at h
  · exact absurd (h '\u0307' (by simp)).1 (by decide)
  · split at h
    · rename_i run hrun
      have hc : run.contains c.toNat = true := (List.find?_eq_some_iff_append.1 hrun).1
      obtain ⟨hascii, hk⟩ := h _ List.mem_cons_self
      exact ascii_of_run (List.mem_of_find?_eq_some hrun) hc hascii hk
    · exact (h c List.mem_cons_self).1

theorem lowerSigma_not_ascii (before after : List Char) : ¬IsAscii (lowerSigma before after) := by
  unfold lowerSigma
  split <;> decide

/-! ## Texts -/

theorem lowerAfter_of_ascii {cs : List Char} (h : ∀ c ∈ cs, IsAscii c) (before : List Char) :
    lowerAfter before cs = cs.map Char.toLower := by
  induction cs generalizing before with
  | nil => rfl
  | cons c cs ih =>
    obtain ⟨hc, hcs⟩ := List.forall_mem_cons.1 h
    have hsigma : c ≠ 'Σ' := by
      rintro rfl
      exact absurd hc (by decide)
    rw [lowerAfter, if_neg hsigma, lowerChar_of_ascii hc, ih hcs]
    rfl

theorem ascii_of_lowerAfter (before : List Char) {cs : List Char}
    (h : ∀ d ∈ lowerAfter before cs, IsAscii d ∧ d ≠ 'k') : ∀ c ∈ cs, IsAscii c := by
  induction cs generalizing before with
  | nil => exact fun c hc => absurd hc List.not_mem_nil
  | cons c cs ih =>
    rw [lowerAfter, List.forall_mem_append] at h
    obtain ⟨hhere, hrest⟩ := h
    refine List.forall_mem_cons.2 ⟨?_, ih _ hrest⟩
    split at hhere
    · exact absurd (hhere _ List.mem_cons_self).1 (lowerSigma_not_ascii before cs)
    · exact ascii_of_lowerChar hhere

/-- **ASCII texts** are lower-cased by making their ASCII capitals small. -/
theorem lowerCase_of_ascii {s : String} (h : ∀ c ∈ s.toList, IsAscii c) : lowerCase s = s.toLower := by
  rw [← String.toList_inj, lowerCase, String.toList_ofList, lowerAfter_of_ascii h, String.toLower, String.toList_map]

/-- **Texts with one ASCII lower case**, in which there is no `k`, differ in the case of ASCII letters only. -/
theorem lowerCase_eq_iff_of_ascii {s t : String} (ht : ∀ c ∈ t.toList, IsAscii c ∧ c ≠ 'k') :
    lowerCase s = t ↔ s.toLower = t := by
  have hlower : ∀ c : Char, c.toLower ∈ t.toList → IsAscii c := by
    intro c hc
    by_cases hcapital : c.isUpper
    · have hle : c.val ≤ 'Z'.val := (of_decide_eq_true hcapital).2
      exact Nat.lt_of_le_of_lt (UInt32.le_iff_toNat_le.1 hle) (by decide)
    · rw [Char.toLower_eq_of_not_isUpper hcapital] at hc
      exact (ht c hc).1
  constructor
  · intro h
    have hs : ∀ c ∈ s.toList, IsAscii c := by
      apply ascii_of_lowerAfter []
      rwa [← h, lowerCase, String.toList_ofList] at ht
    rw [← lowerCase_of_ascii hs, h]
  · intro h
    have hs : ∀ c ∈ s.toList, IsAscii c := by
      intro c hc
      apply hlower
      rw [← h, String.toLower, String.toList_map]
      exact List.mem_map_of_mem hc
    rw [lowerCase_of_ascii hs, h]

end ErlangRecords.Text
