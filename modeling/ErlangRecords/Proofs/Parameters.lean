/-
Parameters, item by item.

Each item of a parameter says something by itself: nothing, if it is blank, or the value of `verbose`, and otherwise it
is at fault. A parameter is accepted when no item is at fault, and then the last value that is said counts; else it ends
in the first fault. So a parameter that continues another one with a comma is read as the two of them are.

- `Says`, `Offends`: what an item says, and what is wrong with it; `said?_eq_ok_iff`, `said?_eq_error_iff`.
- `ofParameter_eq`: items are read one by one, and then the last value is taken.
- `ofParameter_eq_ok_iff`, `ofParameter_eq_error_iff`, `ofParameter_append`: which parameters are accepted, the error of
  the others, and parameters in a row.
- `parameter_read_by_items`: all this of every parameter.
-/
import Mathlib.Data.List.Induction
import Mathlib.Data.List.ReduceOption
import ErlangRecords.Parameter
import ErlangRecords.Proofs.Cuts
import ErlangRecords.Proofs.Faults
import ErlangRecords.Proofs.FirstFault

namespace ErlangRecords.Settings

open Text

/-! ## Items -/

/-- what an item says: nothing if it is blank, or the value of `verbose`, which stands after the first equals sign -/
inductive Says (item : List Char) : Option Bool → Prop
  | nothing (hitem : Trimmed item []) : Says item none
  | verbose {core key value : List Char} {v : Bool} (hitem : Trimmed item core) (hcut : core = key ++ '=' :: value)
      (hfirst : '=' ∉ key) (hkey : Trimmed key "verbose".toList) (hvalue : Trimmed value (toString v).toList) :
      Says item (some v)

/-- the item is at fault; the error holds it without the blanks at its ends -/
inductive Offends (item : List Char) : ParameterError → Prop
  | noValue {core : List Char} (hitem : Trimmed item core) (hfull : core ≠ []) (hvalue : '=' ∉ core) :
      Offends item ⟨String.ofList core, .noValue⟩
  | unknownKey {core key value name : List Char} (hitem : Trimmed item core) (hcut : core = key ++ '=' :: value)
      (hfirst : '=' ∉ key) (hkey : Trimmed key name) (hname : name ≠ "verbose".toList) :
      Offends item ⟨String.ofList core, .unknownKey (String.ofList name)⟩
  | notBoolean {core key value : List Char} (hitem : Trimmed item core) (hcut : core = key ++ '=' :: value)
      (hfirst : '=' ∉ key) (hkey : Trimmed key "verbose".toList)
      (hvalue : ∀ v : Bool, ¬Trimmed value (toString v).toList) :
      Offends item ⟨String.ofList core, .notBoolean⟩

/-- an item, read by itself -/
def said? (item : List Char) : Except ParameterError (Option Bool) :=
  if trim item = [] then .ok none
  else ((applyItem {} (trim item)).mapError (⟨String.ofList (trim item), ·⟩)).map fun settings => some settings.verbose

/-- the settings after an item that says this -/
def hear (settings : Settings) (said : Option Bool) : Settings :=
  said.elim settings fun verbose => { settings with verbose }

/-- the value said last, or the one there is at first -/
def last (said : List (Option Bool)) : Settings := (said.reduceOption.getLast?).elim {} fun verbose => { verbose }

section

variable {item : List Char} {settings : Settings}

theorem boolean?_eq_some_iff {text : String} {v : Bool} : boolean? text = some v ↔ text = toString v := by
  have htrue : toString true = "true" := rfl
  have hfalse : toString false = "false" := rfl
  unfold boolean?
  cases v <;> split_ifs <;> simp_all

theorem said?_of_cut {key value : List Char} (h : cut? '=' (trim item) = some (key, value)) :
    said? item =
      if trim key = "verbose".toList then
        (boolean? (String.ofList (trim value))).elim (.error ⟨String.ofList (trim item), .notBoolean⟩) (.ok ∘ some)
      else .error ⟨String.ofList (trim item), .unknownKey (String.ofList (trim key))⟩ := by
  have hfull : trim item ≠ [] := by
    intro hempty
    rw [hempty] at h
    cases h
  have hkey : String.ofList (trim key) = "verbose" ↔ trim key = "verbose".toList := by
    rw [← String.toList_inj, String.toList_ofList]
  simp only [said?, if_neg hfull, applyItem, h, hkey]
  split
  · cases boolean? (String.ofList (trim value)) <;> rfl
  · rfl

/-- whatever the reader finds, it is so -/
theorem says_or_offends (item : List Char) :
    (∃ said, said? item = .ok said ∧ Says item said) ∨ ∃ e, said? item = .error e ∧ Offends item e := by
  by_cases hfull : trim item = []
  · exact .inl ⟨none, if_pos hfull, .nothing (trimmed_iff.2 hfull.symm)⟩
  have hitem := trimmed_trim item
  cases hcut : cut? '=' (trim item) with
  | none =>
    have hsaid : said? item = .error ⟨String.ofList (trim item), .noValue⟩ := by
      simp only [said?, if_neg hfull, applyItem, hcut]
      rfl
    exact .inr ⟨_, hsaid, .noValue hitem hfull (cut?_eq_none_iff.1 hcut)⟩
  | some sides =>
    obtain ⟨key, value⟩ := sides
    obtain ⟨hcs, hfirst⟩ := cut?_eq_some_iff.1 hcut
    rw [said?_of_cut hcut]
    by_cases hkey : trim key = "verbose".toList
    · rw [if_pos hkey]
      have hkey : Trimmed key "verbose".toList := trimmed_iff.2 hkey.symm
      cases hv : boolean? (String.ofList (trim value)) with
      | some v =>
        have hvalue : (toString v).toList = trim value := by
          rw [← boolean?_eq_some_iff.1 hv, String.toList_ofList]
        exact .inl ⟨_, rfl, .verbose hitem hcs hfirst hkey (trimmed_iff.2 hvalue)⟩
      | none =>
        refine .inr ⟨_, rfl, .notBoolean hitem hcs hfirst hkey fun v hvalue => ?_⟩
        rw [← hvalue.eq_trim, String.ofList_toList, boolean?_eq_some_iff.2 rfl] at hv
        cases hv
    · rw [if_neg hkey]
      exact .inr ⟨_, rfl, .unknownKey hitem hcs hfirst (trimmed_trim key) hkey⟩

theorem Says.said?_eq {said : Option Bool} (h : Says item said) : said? item = .ok said := by
  cases h with
  | nothing hitem => exact if_pos hitem.eq_trim.symm
  | verbose hitem hcut hfirst hkey hvalue =>
    rw [hitem.eq_trim] at hcut
    rw [said?_of_cut (cut?_eq_some_iff.2 ⟨hcut, hfirst⟩), if_pos hkey.eq_trim.symm, ← hvalue.eq_trim,
      String.ofList_toList, boolean?_eq_some_iff.2 rfl]
    rfl

theorem Offends.said?_eq {e : ParameterError} (h : Offends item e) : said? item = .error e := by
  cases h with
  | noValue hitem hfull hvalue =>
    rw [hitem.eq_trim] at hfull hvalue ⊢
    simp only [said?, if_neg hfull, applyItem, cut?_eq_none_iff.2 hvalue]
    rfl
  | unknownKey hitem hcut hfirst hkey hname =>
    rw [hitem.eq_trim] at hcut ⊢
    rw [hkey.eq_trim] at hname ⊢
    rw [said?_of_cut (cut?_eq_some_iff.2 ⟨hcut, hfirst⟩), if_neg hname]
  | @notBoolean _ _ value hitem hcut hfirst hkey hvalue =>
    rw [hitem.eq_trim] at hcut ⊢
    have hnone : boolean? (String.ofList (trim value)) = none := by
      rw [Option.eq_none_iff_forall_ne_some]
      intro v hv
      refine hvalue v (trimmed_iff.2 ?_)
      rw [← boolean?_eq_some_iff.1 hv, String.toList_ofList]
    rw [said?_of_cut (cut?_eq_some_iff.2 ⟨hcut, hfirst⟩), if_pos hkey.eq_trim.symm, hnone]
    rfl

/-- **What an item says** is what is read from it. -/
theorem said?_eq_ok_iff {said : Option Bool} : said? item = .ok said ↔ Says item said := by
  refine ⟨fun h => ?_, Says.said?_eq⟩
  rcases says_or_offends item with ⟨_, hsaid, hsays⟩ | ⟨_, hsaid, _⟩
  · cases h.symm.trans hsaid
    exact hsays
  · cases h.symm.trans hsaid

/-- **What is wrong with an item** is the error it ends in. -/
theorem said?_eq_error_iff {e : ParameterError} : said? item = .error e ↔ Offends item e := by
  refine ⟨fun h => ?_, Offends.said?_eq⟩
  rcases says_or_offends item with ⟨_, hsaid, _⟩ | ⟨_, hsaid, hoffends⟩
  · cases h.symm.trans hsaid
  · cases h.symm.trans hsaid
    exact hoffends

end

/-! ## Items in a row -/

theorem applyItem_eq (settings : Settings) (item : List Char) :
    applyItem settings item = (applyItem {} item).map fun after => settings.hear (some after.verbose) := by
  unfold applyItem
  cases cut? '=' item with
  | none => rfl
  | some sides =>
    dsimp only
    split
    · cases boolean? (String.ofList (trim sides.2)) <;> rfl
    · rfl

/-- items are read one by one, blank ones too, and the settings hear what each of them says -/
theorem foldlM_applyItem (settings : Settings) (pieces : List (List Char)) :
    ((pieces.map trim).filter (!·.isEmpty)).foldlM
        (fun settings item => (applyItem settings item).mapError (⟨String.ofList item, ·⟩)) settings =
      (pieces.mapM said?).map (·.foldl hear settings) := by
  induction pieces generalizing settings with
  | nil => rfl
  | cons piece rest ih =>
    rw [List.map_cons, List.mapM_cons]
    by_cases hblank : trim piece = []
    · have hsaid : said? piece = .ok none := if_pos hblank
      rw [List.filter_cons_of_neg (by simp [hblank]), ih, hsaid]
      cases rest.mapM said? <;> rfl
    · have hsaid : (applyItem settings (trim piece)).mapError (⟨String.ofList (trim piece), ·⟩) =
          (said? piece).map settings.hear := by
        rw [applyItem_eq, said?, if_neg hblank]
        cases applyItem {} (trim piece) <;> rfl
      rw [List.filter_cons_of_pos (by simp [hblank]), List.foldlM_cons, hsaid]
      cases said? piece with
      | error e => rfl
      | ok said =>
        change List.foldlM _ (settings.hear said) _ = _
        rw [ih]
        cases rest.mapM said? <;> rfl

theorem foldl_hear (settings : Settings) (said : List (Option Bool)) :
    said.foldl hear settings =
      (said.reduceOption.getLast?).elim settings fun verbose => { settings with verbose } := by
  induction said using List.reverseRecOn with
  | nil => rfl
  | append_singleton said o ih =>
    rw [List.foldl_append, ih, List.reduceOption_append, List.getLast?_append]
    cases o with
    | none => rfl
    | some v => cases said.reduceOption.getLast? <;> rfl

/-- **Parameters are read item by item**, and then the value said last counts. -/
theorem ofParameter_eq (parameter : String) :
    ofParameter parameter = ((splitOn ',' parameter.toList).mapM said?).map last := by
  rw [ofParameter, items, foldlM_applyItem]
  congr 1
  funext said
  exact foldl_hear {} said

/-! ## Which parameters are accepted -/

theorem ofParameter_eq_ok_iff {parameter : String} {settings : Settings} :
    ofParameter parameter = .ok settings ↔
      ∃ pieces said, Pieces ',' parameter.toList pieces ∧ List.Forall₂ Says pieces said ∧ settings = last said := by
  have hsays : ∀ said, (splitOn ',' parameter.toList).mapM said? = .ok said ↔
      List.Forall₂ Says (splitOn ',' parameter.toList) said := by
    intro said
    simp only [mapM_eq_ok_iff, said?_eq_ok_iff]
  simp only [pieces_iff, exists_and_left, exists_eq_left, ← hsays, ofParameter_eq]
  cases (splitOn ',' parameter.toList).mapM said? with
  | error e => simp [Except.map]
  | ok said => simp [Except.map, eq_comm]

/-- a parameter that is not accepted ends in the fault of the first item that has one -/
theorem ofParameter_eq_error_iff {parameter : String} {e : ParameterError} :
    ofParameter parameter = .error e ↔
      ∃ before piece after, Pieces ',' parameter.toList (before ++ piece :: after) ∧
        (∀ other ∈ before, ∃ said, Says other said) ∧ Offends piece e := by
  have hfree : ∀ piece ∈ splitOn ',' parameter.toList, fault? (said? piece) = none ↔ ∃ said, Says piece said := by
    intro piece _
    simp only [fault?_eq_none_iff, said?_eq_ok_iff]
  have hgives : ∀ piece ∈ splitOn ',' parameter.toList, ∀ e, fault? (said? piece) = some e ↔ Offends piece e := by
    intro piece _ e
    rw [fault?_eq_some_iff, said?_eq_error_iff]
  rw [← fault?_eq_some_iff, ofParameter_eq, fault?_map, fault?_mapM, findSome?_eq_some_iff_first hfree hgives]
  simp only [pieces_iff, eq_comm (b := splitOn ',' parameter.toList)]

/-! ## Parameters in a row -/

/-- an item of the parameter is not blank -/
def HasItem (parameter : String) : Prop :=
  ∃ pieces, Pieces ',' parameter.toList pieces ∧ ∃ piece ∈ pieces, ¬Trimmed piece []

theorem hasItem_iff {parameter : String} :
    HasItem parameter ↔ ∃ piece ∈ splitOn ',' parameter.toList, trim piece ≠ [] := by
  simp only [HasItem, pieces_iff, exists_eq_left, trimmed_iff, ne_eq, eq_comm (a := [])]

instance (parameter : String) : Decidable (HasItem parameter) := decidable_of_iff _ hasItem_iff.symm

/-- only blank items say nothing -/
theorem reduceOption_eq_nil_iff {pieces : List (List Char)} {said : List (Option Bool)}
    (h : List.Forall₂ Says pieces said) : said.reduceOption = [] ↔ ∀ piece ∈ pieces, trim piece = [] := by
  induction h with
  | nil => simp
  | @cons piece o pieces said hsays _ ih =>
    rw [List.forall_mem_cons, ← ih]
    cases hsays with
    | nothing hitem => simp [List.reduceOption_cons_of_none, hitem.eq_trim.symm]
    | verbose hitem hcut =>
      have hfull : trim piece ≠ [] := by simp [← hitem.eq_trim, hcut]
      simp [List.reduceOption_cons_of_some, hfull]

theorem last_append (said later : List (Option Bool)) :
    last (said ++ later) = if later.reduceOption = [] then last said else last later := by
  rw [last, List.reduceOption_append, List.getLast?_append]
  split
  · rename_i hempty
    rw [hempty]
    rfl
  · rename_i hfull
    rw [last, List.getLast?_eq_some_getLast hfull]
    rfl

/-- **Parameters in a row**: the first fault counts, and if there is none the later parameter, unless it is blank. -/
theorem ofParameter_append (parameter later : String) :
    ofParameter (parameter ++ "," ++ later) = do
      let first ← ofParameter parameter
      let second ← ofParameter later
      return if HasItem later then second else first := by
  have hsplit : splitOn ',' (parameter ++ "," ++ later).toList =
      splitOn ',' parameter.toList ++ splitOn ',' later.toList := by
    rw [String.toList_append, String.toList_append, List.append_assoc]
    exact splitOn_append ',' _ _
  rw [ofParameter_eq, ofParameter_eq, ofParameter_eq, hsplit, List.mapM_append]
  cases (splitOn ',' parameter.toList).mapM said? with
  | error e => rfl
  | ok said =>
    cases hlater : (splitOn ',' later.toList).mapM said? with
    | error e => rfl
    | ok saidLater =>
      have hsays : List.Forall₂ Says (splitOn ',' later.toList) saidLater :=
        (mapM_eq_ok_iff.1 hlater).imp fun _ _ => said?_eq_ok_iff.1
      have hblank : saidLater.reduceOption = [] ↔ ¬HasItem later := by
        rw [reduceOption_eq_nil_iff hsays, hasItem_iff]
        simp
      change Except.ok (last (said ++ saidLater)) = .ok (if HasItem later then last saidLater else last said)
      rw [last_append]
      simp only [hblank, ite_not]

/-- **A parameter is read by its items**, which stand between commas. It is accepted exactly when each item, without
the blanks at its ends, is empty or says what `verbose` is; then the value said last counts, and what holds by default
if none is. Otherwise the first item at fault is the error, without those blanks. And of two parameters with a comma
between them the first fault counts, or if both are accepted the later one, unless all its items are blank. -/
theorem parameter_read_by_items (parameter : String) :
    (∀ settings, ofParameter parameter = .ok settings ↔
      ∃ pieces said, Pieces ',' parameter.toList pieces ∧ List.Forall₂ Says pieces said ∧ settings = last said) ∧
    (∀ e, ofParameter parameter = .error e ↔
      ∃ before piece after, Pieces ',' parameter.toList (before ++ piece :: after) ∧
        (∀ other ∈ before, ∃ said, Says other said) ∧ Offends piece e) ∧
    ∀ later, ofParameter (parameter ++ "," ++ later) = do
      let first ← ofParameter parameter
      let second ← ofParameter later
      return if HasItem later then second else first :=
  ⟨fun _ => ofParameter_eq_ok_iff, fun _ => ofParameter_eq_error_iff, ofParameter_append parameter⟩

-- blanks of any kind and blank items do not count, and a value goes on after a second equals sign
example : ofParameter "\u00a0verbose\t= false ,\u2003, verbose=true=x ,verbose" =
    .error ⟨"verbose=true=x", .notBoolean⟩ := by decide +kernel

end ErlangRecords.Settings
