/-
Which requests pass the checks, and which fault the others end in.

The checks come one after the other: names are looked up, the files meant are compared, extensions are looked for, then
explicit defaults. The first check that a request does not pass decides on the fault, and each check reports the first
thing it finds, in the order of the request, of the declarations of a file, and outermost messages before the ones
nested in them.

- `Configured`, `Misconfigured`: what is asked of names, packages and directories, and the first thing that is amiss.
- `FirstInside`, `FirstExtension`, `Refused`: the path to the first declaration that is refused.
- `exists_refusal`, `validate_decides`: a request passes or ends in exactly that fault.
-/
import ErlangRecords.Proofs.Refusals

namespace ErlangRecords.Request

open Descriptor (File Message)

/-! ## Names, packages and directories -/

/-- the names mean the files `inputs`, which share the target -/
structure Configured (names : List String) (files inputs : List File) (target : Target) : Prop where
  asked : names ≠ []
  found : List.Forall₂ (Meant files) names inputs
  shared : ∀ file ∈ inputs, Shares target file
  named : target.package ≠ ""

/-- the first thing that is amiss with names, packages and directories; `detail` says what -/
inductive Misconfigured (names : List String) (files : List File) : String → Prop
  | unasked (hnames : names = []) : Misconfigured names files "no files to generate"
  | missing {before after : List String} {name : String} (hnames : names = before ++ name :: after)
      (hbefore : ∀ found ∈ before, ∃ file ∈ files, file.name = found) (hmissing : ∀ file ∈ files, file.name ≠ name) :
      Misconfigured names files ("no descriptor for file '" ++ name ++ "'")
  | conflict {first file : File} {before after : List File} {detail : String}
      (hinputs : List.Forall₂ (Meant files) names (first :: (before ++ file :: after)))
      (hbefore : ∀ other ∈ before, Shares (targetOf first) other) (hconflict : Conflict (targetOf first) file detail) :
      Misconfigured names files detail
  | nameless {first : File} {rest : List File} (hinputs : List.Forall₂ (Meant files) names (first :: rest))
      (hshared : ∀ file ∈ rest, Shares (targetOf first) file) (hempty : first.package = "") :
      Misconfigured names files ("file '" ++ first.name ++ "' declares no package, which names the generated module")

theorem configured_iff {names : List String} {files inputs : List File} {target : Target} :
    Configured names files inputs target ↔
      selectFiles names files = .ok inputs ∧ commonTarget inputs = .ok target := by
  rw [selectFiles_eq_ok_iff, commonTarget_eq_ok_iff]
  constructor
  · intro h
    have hinputs : inputs ≠ [] := by
      rintro rfl
      exact h.asked (List.forall₂_nil_right_iff.1 h.found)
    exact ⟨⟨h.asked, h.found⟩, hinputs, h.shared, h.named⟩
  · rintro ⟨⟨hasked, hfound⟩, _, hshared, hnamed⟩
    exact ⟨hasked, hfound, hshared, hnamed⟩

theorem misconfigured_iff {names : List String} {files : List File} {fault : SchemaFault} :
    (∃ detail, Misconfigured names files detail ∧ fault = .config detail) ↔
      selectFiles names files = .error fault ∨
        ∃ inputs, selectFiles names files = .ok inputs ∧ commonTarget inputs = .error fault := by
  simp only [← fault?_eq_some_iff, fault?_selectFiles_eq_some_iff, selectFiles_eq_ok_iff]
  constructor
  · rintro ⟨_, hmisconfigured, rfl⟩
    have hasked : ∀ {first rest}, List.Forall₂ (Meant files) names (first :: rest) → names ≠ [] := by
      rintro first rest hinputs rfl
      cases hinputs
    cases hmisconfigured with
    | unasked hnames => exact .inl (.inl ⟨hnames, rfl⟩)
    | missing hnames hbefore hmissing => exact .inl (.inr ⟨_, _, _, hnames, hbefore, hmissing, rfl⟩)
    | conflict hinputs hbefore hconflict =>
      exact .inr ⟨_, ⟨hasked hinputs, hinputs⟩, fault?_commonTarget_eq_some_iff.2
        (.inl ⟨_, _, _, rfl, hbefore, _, hconflict, rfl⟩)⟩
    | nameless hinputs hshared hempty =>
      exact .inr ⟨_, ⟨hasked hinputs, hinputs⟩, fault?_commonTarget_eq_some_iff.2 (.inr ⟨hshared, hempty, rfl⟩)⟩
  · rintro ((⟨hnames, rfl⟩ | ⟨_, _, _, hnames, hbefore, hmissing, rfl⟩) | ⟨inputs, ⟨hasked, hinputs⟩, hfault⟩)
    · exact ⟨_, .unasked hnames, rfl⟩
    · exact ⟨_, .missing hnames hbefore hmissing, rfl⟩
    · cases inputs with
      | nil => exact absurd (List.forall₂_nil_right_iff.1 hinputs) hasked
      | cons first rest =>
        rcases fault?_commonTarget_eq_some_iff.1 hfault with
          ⟨_, _, _, rfl, hbefore, _, hconflict, rfl⟩ | ⟨hshared, hempty, rfl⟩
        · exact ⟨_, .conflict hinputs hbefore hconflict, rfl⟩
        · exact ⟨_, .nameless hinputs hshared hempty, rfl⟩

/-! ## Paths to what is refused -/

/-- the path, innermost name first, to the first declaration that `find` finds in a message of the file, where a message
comes before those nested in it -/
inductive FirstInside (find : Message → Option Descriptor.Field) (file : File) : List String → Prop
  | intro {before after : List (Place × Message)} {e : Place × Message} {found : Descriptor.Field}
      (hmessages : messagesOf 0 file = before ++ e :: after) (hbefore : ∀ e' ∈ before, find e'.2 = none)
      (hfound : find e.2 = some found) : FirstInside find file (found.name :: e.1.path)

/-- the path to the first extension of the file; those at its top come before those in messages -/
inductive FirstExtension (file : File) : List String → Prop
  | top {ext : Descriptor.Field} (htop : file.extensions.head? = some ext) : FirstExtension file [ext.name]
  | inside {path : List String} (htop : file.extensions = []) (hinside : FirstInside (·.extensions.head?) file path) :
      FirstExtension file path

/-- the path to the first field of the file that has an explicit default -/
def FirstDefault : File → List String → Prop := FirstInside (·.fields.find? (·.defaultValue.isSome))

/-- what a file of the request is refused for, and the path to it: the first extension of all files, and if there is
none in any of them the first explicit default -/
inductive Refused (inputs : List File) (file : File) : String → List String → Prop
  | extension {before after : List File} {path : List String} (hinputs : inputs = before ++ file :: after)
      (hbefore : ∀ other ∈ before, other.ExtensionFree) (hfirst : FirstExtension file path) :
      Refused inputs file "extension field" path
  | default {before after : List File} {path : List String} (hfree : ∀ other ∈ inputs, other.ExtensionFree)
      (hinputs : inputs = before ++ file :: after) (hbefore : ∀ other ∈ before, other.DefaultFree)
      (hfirst : FirstDefault file path) : Refused inputs file "default value for field" path

/-- the scope of a message is its dotted name and a dot -/
theorem scopeOf_append (path : List String) (name : String) : scopeOf path ++ name = Name.dotted (name :: path) := by
  induction path generalizing name with
  | nil => rw [Name.dotted_singleton, scopeOf, List.foldr_nil, String.empty_append]
  | cons outer path ih =>
    rw [Name.dotted_cons name (List.cons_ne_nil outer path), ← ih outer]
    simp [scopeOf]

/-- a check that looks for one declaration in a message reports the first one inside the file, by its dotted path -/
theorem fault?_checkFile_eq_some_iff {check : String → Message → Except SchemaFault Unit}
    {find : Message → Option Descriptor.Field} {feature : String}
    (hcheck : ∀ scope m, fault? (check scope m) = (find m).map fun found => .unsupported feature (scope ++ found.name))
    {file : File} {fault : SchemaFault} :
    fault? (checkMessages check "" file.messages) = some fault ↔
      ∃ path, FirstInside find file path ∧ fault = .unsupported feature (Name.dotted path) := by
  have hfree : ∀ e ∈ messagesOf 0 file, fault? (check (scopeOf e.1.path) e.2) = none ↔ find e.2 = none := by
    intro e _
    rw [hcheck, Option.map_eq_none_iff]
  have hgives : ∀ e ∈ messagesOf 0 file, ∀ fault, fault? (check (scopeOf e.1.path) e.2) = some fault ↔
      ∃ found, find e.2 = some found ∧ .unsupported feature (Name.dotted (found.name :: e.1.path)) = fault := by
    intro e _ fault
    simp only [hcheck, Option.map_eq_some_iff, scopeOf_append]
  rw [fault?_checkFile check 0, findSome?_eq_some_iff_first hfree hgives]
  constructor
  · rintro ⟨before, e, after, hmessages, hbefore, found, hfound, rfl⟩
    exact ⟨_, .intro hmessages hbefore hfound, rfl⟩
  · rintro ⟨_, hfirst, rfl⟩
    cases hfirst with
    | intro hmessages hbefore hfound => exact ⟨_, _, _, hmessages, hbefore, _, hfound, rfl⟩

/-- the files are checked in turn, and the fault of the first that does not pass is told its context -/
theorem fault?_forFiles_eq_some_iff {step : File → Except SchemaFault Unit} {Free : File → Prop}
    {First : File → List String → Prop} {feature : String} (hfree : ∀ file, fault? (step file) = none ↔ Free file)
    (hfirst : ∀ file fault, fault? (step file) = some fault ↔
      ∃ path, First file path ∧ fault = .unsupported feature (Name.dotted path))
    {files : List File} {fault : SchemaFault} :
    fault? (files.forM fun file => atPlace (fileContext file) (step file)) = some fault ↔
      ∃ before file after, files = before ++ file :: after ∧ (∀ other ∈ before, Free other) ∧
        ∃ path, First file path ∧
          fault = .context (fileContext file) (.unsupported feature (Name.dotted path)) := by
  rw [fault?_forM]
  apply findSome?_eq_some_iff_first
  · intro file _
    rw [fault?_atPlace, Option.map_eq_none_iff, hfree]
  · intro file _ fault
    simp only [fault?_atPlace, Option.map_eq_some_iff, hfirst]
    constructor
    · rintro ⟨_, ⟨path, hpath, rfl⟩, rfl⟩
      exact ⟨path, hpath, rfl⟩
    · rintro ⟨path, hpath, rfl⟩
      exact ⟨_, ⟨path, hpath, rfl⟩, rfl⟩

/-- extensions at the top of a file are looked at before those inside -/
theorem fault?_extensionsOf_eq_some_iff (file : File) (fault : SchemaFault) :
    fault? (do
      refuseExtensionsIn "" file.extensions
      checkMessages (fun scope m => refuseExtensionsIn scope m.extensions) "" file.messages) = some fault ↔
      ∃ path, FirstExtension file path ∧ fault = .unsupported "extension field" (Name.dotted path) := by
  rw [fault?_bind fun _ _ => rfl, Option.or_eq_some_iff, fault?_refuseExtensionsIn_eq_none_iff,
    fault?_refuseExtensionsIn, Option.map_eq_some_iff,
    fault?_checkFile_eq_some_iff fun scope m => fault?_refuseExtensionsIn scope m.extensions]
  constructor
  · rintro (⟨ext, htop, rfl⟩ | ⟨htop, path, hinside, rfl⟩)
    · exact ⟨_, .top htop, by rw [Name.dotted_singleton, String.empty_append]⟩
    · exact ⟨path, .inside htop hinside, rfl⟩
  · rintro ⟨path, hfirst, rfl⟩
    cases hfirst with
    | top htop => exact .inl ⟨_, htop, by rw [Name.dotted_singleton, String.empty_append]⟩
    | inside htop hinside => exact .inr ⟨htop, path, hinside, rfl⟩

/-- explicit defaults are looked for once no file is found to declare an extension -/
theorem refused_iff {inputs : List File} {fault : SchemaFault} :
    (fault? (refuseExtensions inputs)).or (fault? (refuseDefaults inputs)) = some fault ↔
      ∃ file feature path, Refused inputs file feature path ∧
        fault = .context ("in file " ++ file.name ++ " of package " ++ file.package)
          (.unsupported feature (".".intercalate path.reverse)) := by
  have hdefaultFree : ∀ file : File,
      fault? (checkMessages (fun scope m => refuseDefaultsIn scope m.fields) "" file.messages) = none ↔
        file.DefaultFree :=
    fault?_checkFile_eq_none_iff fun scope m => fault?_refuseDefaultsIn_eq_none_iff scope m.fields
  have hfirstDefault : ∀ (file : File) (fault : SchemaFault),
      fault? (checkMessages (fun scope m => refuseDefaultsIn scope m.fields) "" file.messages) = some fault ↔
        ∃ path, FirstDefault file path ∧ fault = .unsupported "default value for field" (Name.dotted path) :=
    fun file fault => fault?_checkFile_eq_some_iff fun scope m => fault?_refuseDefaultsIn scope m.fields
  rw [Option.or_eq_some_iff, fault?_refuseExtensions_eq_none_iff, refuseExtensions, refuseDefaults,
    fault?_forFiles_eq_some_iff fault?_extensionsOf_eq_none_iff fault?_extensionsOf_eq_some_iff,
    fault?_forFiles_eq_some_iff hdefaultFree hfirstDefault]
  constructor
  · rintro (⟨before, file, after, hinputs, hbefore, path, hfirst, rfl⟩ |
      ⟨hfree, before, file, after, hinputs, hbefore, path, hfirst, rfl⟩)
    · exact ⟨file, _, path, .extension hinputs hbefore hfirst, rfl⟩
    · exact ⟨file, _, path, .default hfree hinputs hbefore hfirst, rfl⟩
  · rintro ⟨file, feature, path, hrefused, rfl⟩
    cases hrefused with
    | extension hinputs hbefore hfirst => exact .inl ⟨_, _, _, hinputs, hbefore, _, hfirst, rfl⟩
    | default hfree hinputs hbefore hfirst => exact .inr ⟨hfree, _, _, _, hinputs, hbefore, _, hfirst, rfl⟩

/-! ## Requests -/

/-- once the files are found and agree, a request that declares what is refused ends in a fault that says so -/
theorem exists_refusal {names : List String} {files inputs : List File} {target : Target}
    (hinputs : selectFiles names files = .ok inputs) (htarget : commonTarget inputs = .ok target)
    (h : ¬∀ file ∈ inputs, file.Plain) :
    ∃ fault, validate names files = .error fault ∧ fault.kind = .unsupportedFeature := by
  rw [plain_iff, ← Option.or_eq_none_iff] at h
  obtain ⟨fault, hfault⟩ := Option.ne_none_iff_exists'.1 h
  have herror : validate names files = .error fault := by
    rw [← fault?_eq_some_iff, fault?_validate hinputs htarget, hfault]
  obtain ⟨_, _, _, _, rfl⟩ := refused_iff.1 hfault
  exact ⟨_, herror, rfl⟩

/-- a request ends in the fault of the first check that it does not pass -/
theorem validate_eq_error_iff {names : List String} {files : List File} {fault : SchemaFault} :
    validate names files = .error fault ↔
      (selectFiles names files = .error fault ∨
        ∃ inputs, selectFiles names files = .ok inputs ∧ commonTarget inputs = .error fault) ∨
      ∃ inputs target, (selectFiles names files = .ok inputs ∧ commonTarget inputs = .ok target) ∧
        (fault? (refuseExtensions inputs)).or (fault? (refuseDefaults inputs)) = some fault := by
  cases hinputs : selectFiles names files with
  | error e =>
    have hvalidate : validate names files = .error e := by
      rw [validate, hinputs]
      rfl
    simp [hvalidate]
  | ok inputs =>
    cases htarget : commonTarget inputs with
    | error e =>
      have hvalidate : validate names files = .error e := by
        rw [validate, hinputs]
        change (commonTarget inputs >>= _) = _
        rw [htarget]
        rfl
      simp [hvalidate, htarget]
    | ok target =>
      rw [← fault?_eq_some_iff, fault?_validate hinputs htarget]
      simp [htarget]

/-- **What a request is checked for.** It passes exactly when names are given, each means a file, these files share one
package that has a name and one directory, and none of them declares an extension or an explicit default at any depth.
Otherwise it ends in one fault. If names, packages or directories are amiss, that says what is so first. If they are
not, it names the first extension of the files, in the order of the names, by its file and its dotted path, outermost
name first, and where there is none the first field with an explicit default. -/
theorem validate_decides (names : List String) (files : List File) :
    (∀ target, validate names files = .ok target ↔
      ∃ inputs, Configured names files inputs target ∧ ∀ file ∈ inputs, file.Plain) ∧
    ∀ fault, validate names files = .error fault ↔
      (∃ detail, Misconfigured names files detail ∧ fault = .config detail) ∨
      ∃ inputs target file feature path, Configured names files inputs target ∧ Refused inputs file feature path ∧
        fault = .context ("in file " ++ file.name ++ " of package " ++ file.package)
          (.unsupported feature (".".intercalate path.reverse)) := by
  constructor
  · intro target
    simp only [validate_eq_ok_iff, configured_iff, and_assoc]
  · intro fault
    rw [validate_eq_error_iff, misconfigured_iff]
    simp only [configured_iff, refused_iff, exists_and_left]

/-- extensions come before defaults, also where the default is declared in an earlier file -/
example : validate ["stock/a.proto", "stock/b.proto"]
    [{ name := "stock/a.proto", package := "stock", messages := [
        { name := "Item", fields := [{ name := "amount", defaultValue := some "1" }] }] },
      { name := "stock/b.proto", package := "stock", messages := [
        { name := "Shelf", nested := [{ name := "Row", extensions := [{ name := "width" }] }] }] }] =
    .error (.context "in file stock/b.proto of package stock" (.unsupported "extension field" "Shelf.Row.width")) := by
  rfl

end ErlangRecords.Request
