/-
The files that a request asks for, and the target they share.

A name means the first file of the batch that bears it. The files meant must agree with the first of them in package and
directory, and the package must have a name.

- `selectFiles_eq_ok_iff`, `fault?_selectFiles_eq_some_iff`: which files are found, and which name has none.
- `commonTarget_eq_ok_iff`, `fault?_commonTarget_eq_some_iff`: which target files share, and the first that does not
  share it.
-/
import ErlangRecords.Proofs.Faults
import ErlangRecords.Proofs.FirstFault
import ErlangRecords.Proofs.Related
import ErlangRecords.Request

namespace ErlangRecords.Request

open Descriptor (File)

/-! ## Files by name -/

/-- the file that the name means: the first of the batch that bears it -/
def Meant (files : List File) (name : String) (file : File) : Prop :=
  file.name = name ∧ ∃ before after, files = before ++ file :: after ∧ ∀ other ∈ before, other.name ≠ name

theorem Meant.mem {files : List File} {name : String} {file : File} (h : Meant files name file) : file ∈ files := by
  obtain ⟨_, before, after, rfl, _⟩ := h
  simp

theorem find?_eq_some_iff_meant {files : List File} {name : String} {file : File} :
    files.find? (·.name == name) = some file ↔ Meant files name file := by
  simp [List.find?_eq_some_iff_append, Meant]

theorem find?_eq_none_iff_missing {files : List File} {name : String} :
    files.find? (·.name == name) = none ↔ ∀ file ∈ files, file.name ≠ name := by
  simp [List.find?_eq_none]

/-- the files found are those the names mean, in the order of the names -/
theorem selectFiles_eq_ok_iff {names : List String} {files inputs : List File} :
    selectFiles names files = .ok inputs ↔ names ≠ [] ∧ List.Forall₂ (Meant files) names inputs := by
  unfold selectFiles
  cases names with
  | nil => simp
  | cons name rest =>
    rw [if_neg (by simp), mapM_eq_ok_iff, and_iff_right (List.cons_ne_nil name rest)]
    refine forall₂_congr_mem fun name _ file => ?_
    rw [← find?_eq_some_iff_meant]
    cases files.find? (·.name == name) <;> simp

theorem mem_of_selectFiles {names : List String} {files inputs : List File} (h : selectFiles names files = .ok inputs)
    {file : File} (hfile : file ∈ inputs) : file ∈ files := by
  obtain ⟨_, _, hmeant⟩ := mem_right_of_forall₂ (selectFiles_eq_ok_iff.1 h).2 hfile
  exact hmeant.mem

/-- without names nothing is found; else the first name that no file bears is at fault -/
theorem fault?_selectFiles_eq_some_iff {names : List String} {files : List File} {fault : SchemaFault} :
    fault? (selectFiles names files) = some fault ↔
      (names = [] ∧ fault = .config "no files to generate") ∨
      ∃ before name after, names = before ++ name :: after ∧
        (∀ found ∈ before, ∃ file ∈ files, file.name = found) ∧
        (∀ file ∈ files, file.name ≠ name) ∧ fault = .config ("no descriptor for file '" ++ name ++ "'") := by
  unfold selectFiles
  cases names with
  | nil => simp [fault?, eq_comm]
  | cons name rest =>
    rw [if_neg (by simp), fault?_mapM, or_iff_right (by simp)]
    apply findSome?_eq_some_iff_first
    · intro name _
      have hborne : (∃ file ∈ files, file.name = name) ↔ files.find? (·.name == name) ≠ none := by simp
      rw [hborne]
      cases files.find? (·.name == name) <;> simp [fault?]
    · intro name _ fault
      rw [← find?_eq_none_iff_missing]
      cases files.find? (·.name == name) <;> simp [fault?, eq_comm]

/-! ## The shared target -/

/-- package and directory of the file are those of the target -/
def Shares (target : Target) (file : File) : Prop :=
  file.package = target.package ∧ directoryOf file.name = target.directory

/-- package and directory of a file -/
def targetOf (file : File) : Target := ⟨file.package, directoryOf file.name⟩

/-- in what the file does not share the target: `detail` names both packages, or else both directories -/
inductive Conflict (target : Target) (file : File) : String → Prop
  | package (hpackage : file.package ≠ target.package) : Conflict target file
      ("cannot process multiple files with different proto packages: '" ++ target.package ++ "' and '" ++
        file.package ++ "'")
  | directory (hpackage : file.package = target.package) (hdirectory : directoryOf file.name ≠ target.directory) :
      Conflict target file
        ("cannot process multiple files from different directories: '" ++ target.directory ++ "' and '" ++
          directoryOf file.name ++ "'")

theorem fault?_checkAgrees_eq_none_iff {target : Target} {file : File} :
    fault? (checkAgrees target file) = none ↔ Shares target file := by
  unfold checkAgrees Shares
  split
  case isTrue hpackage => simp [fault?, hpackage]
  case isFalse hpackage =>
    split
    case isTrue hdirectory => simp [fault?, hdirectory]
    case isFalse hdirectory => simp_all [fault?]

theorem fault?_checkAgrees_eq_some_iff {target : Target} {file : File} {fault : SchemaFault} :
    fault? (checkAgrees target file) = some fault ↔ ∃ detail, Conflict target file detail ∧ fault = .config detail := by
  unfold checkAgrees
  constructor
  · intro h
    split at h
    case isTrue hpackage =>
      cases h
      exact ⟨_, .package hpackage, rfl⟩
    case isFalse hpackage =>
      split at h
      case isTrue hdirectory =>
        cases h
        exact ⟨_, .directory (not_not.1 hpackage) hdirectory, rfl⟩
      case isFalse => cases h
  · rintro ⟨_, hconflict, rfl⟩
    cases hconflict with
    | package hpackage => simp [hpackage, fault?]
    | directory hpackage hdirectory => simp [hpackage, hdirectory, fault?]

/-- the files are compared with the first of them, and only then is the package looked at -/
theorem fault?_commonTarget_cons (first : File) (rest : List File) :
    fault? (commonTarget (first :: rest)) =
      (rest.findSome? fun file => fault? (checkAgrees (targetOf first) file)).or
        (if first.package = "" then
          some (.config ("file '" ++ first.name ++ "' declares no package, which names the generated module"))
        else none) := by
  rw [← fault?_forM]
  refine fault?_bind fun _ _ => ?_
  by_cases hempty : first.package = ""
  · simp [hempty, fault?, bind, Except.bind, throw, throwThe, MonadExceptOf.throw]
  · simp [hempty, fault?, pure, Except.pure]

/-- a target that is found is that of the first file -/
theorem eq_targetOf_of_commonTarget {first : File} {rest : List File} {target : Target}
    (h : commonTarget (first :: rest) = .ok target) : target = targetOf first := by
  obtain ⟨_, _, h⟩ := bind_eq_ok.1 h
  by_cases hempty : first.package = ""
  · simp [hempty, bind, Except.bind, throw, throwThe, MonadExceptOf.throw] at h
  · simpa [hempty, targetOf, pure, Except.pure, eq_comm] using h

/-- **A target is found** exactly where all files share it and its package has a name. -/
theorem commonTarget_eq_ok_iff {inputs : List File} {target : Target} :
    commonTarget inputs = .ok target ↔ inputs ≠ [] ∧ (∀ file ∈ inputs, Shares target file) ∧ target.package ≠ "" := by
  cases inputs with
  | nil => simp [commonTarget]
  | cons first rest =>
    have hpasses : (∃ t, commonTarget (first :: rest) = .ok t) ↔
        (∀ file ∈ rest, Shares (targetOf first) file) ∧ first.package ≠ "" := by
      rw [← fault?_eq_none_iff, fault?_commonTarget_cons, Option.or_eq_none_iff, List.findSome?_eq_none_iff]
      simp only [fault?_checkAgrees_eq_none_iff]
      simp
    rw [and_iff_right (List.cons_ne_nil first rest), List.forall_mem_cons]
    constructor
    · intro h
      obtain rfl := eq_targetOf_of_commonTarget h
      obtain ⟨hshares, hempty⟩ := hpasses.1 ⟨_, h⟩
      exact ⟨⟨⟨rfl, rfl⟩, hshares⟩, hempty⟩
    · rintro ⟨⟨⟨hpackage, hdirectory⟩, hshares⟩, hempty⟩
      have htarget : target = targetOf first := by rw [targetOf, hpackage, hdirectory]
      subst htarget
      obtain ⟨t, ht⟩ := hpasses.2 ⟨hshares, hempty⟩
      rw [ht, eq_targetOf_of_commonTarget ht]

theorem package_of_commonTarget {inputs : List File} {target : Target} (h : commonTarget inputs = .ok target)
    {file : File} (hfile : file ∈ inputs) : file.package = target.package :=
  ((commonTarget_eq_ok_iff.1 h).2.1 file hfile).1

/-- of files that are found, the first that conflicts with the first of all is at fault, and else the package -/
theorem fault?_commonTarget_eq_some_iff {first : File} {rest : List File} {fault : SchemaFault} :
    fault? (commonTarget (first :: rest)) = some fault ↔
      (∃ before file after, rest = before ++ file :: after ∧ (∀ other ∈ before, Shares (targetOf first) other) ∧
        ∃ detail, Conflict (targetOf first) file detail ∧ fault = .config detail) ∨
      (∀ file ∈ rest, Shares (targetOf first) file) ∧ first.package = "" ∧
        fault = .config ("file '" ++ first.name ++ "' declares no package, which names the generated module") := by
  rw [fault?_commonTarget_cons, Option.or_eq_some_iff, List.findSome?_eq_none_iff,
    findSome?_eq_some_iff_first (fun _ _ => fault?_checkAgrees_eq_none_iff)
      fun _ _ _ => fault?_checkAgrees_eq_some_iff]
  simp only [fault?_checkAgrees_eq_none_iff, Option.ite_none_right_eq_some, Option.some.injEq, eq_comm (b := fault)]

end ErlangRecords.Request
