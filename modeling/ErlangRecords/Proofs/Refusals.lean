/-
What is refused of a request.

Extensions and explicit defaults are refused in the requested files, at every depth. The files are found and agree on a
package and a directory before that is looked into.

- `Message.Plain`, `File.Plain`, `File.ExtensionFree`, `File.DefaultFree`: nothing is declared that is refused.
- `fault?_checkMessages`, `fault?_checkFile`: a check of messages at every depth, told the scope of each, ends at the
  first one listed.
- `fault?_refuseExtensions_eq_none_iff`, `fault?_refuseDefaults_eq_none_iff`: which files pass.
- `validate_eq_ok_iff`: which requests pass.
-/
import ErlangRecords.Proofs.Nesting
import ErlangRecords.Proofs.Targets

namespace ErlangRecords

open Descriptor (File Message)

/-! ## What is refused -/

namespace Descriptor

/-- no field of the message has an explicit default, and it declares no extension; of those nested in it nothing is
said -/
structure Message.Plain (m : Message) : Prop where
  defaults : ∀ f ∈ m.fields, f.defaultValue = none
  extensions : m.extensions = []

/-- the file declares no extension, and none of its messages anything that is refused -/
structure File.Plain (file : File) : Prop where
  extensions : file.extensions = []
  messages : ∀ m, file.Declares m → m.Plain

/-- neither the file nor one of its messages declares an extension -/
def File.ExtensionFree (file : File) : Prop := file.extensions = [] ∧ ∀ m, file.Declares m → m.extensions = []

/-- no field of the file's messages has an explicit default -/
def File.DefaultFree (file : File) : Prop := ∀ m, file.Declares m → ∀ f ∈ m.fields, f.defaultValue = none

end Descriptor

namespace Request

theorem fault?_refuseExtensionsIn (scope : String) (extensions : List Descriptor.Field) :
    fault? (refuseExtensionsIn scope extensions) =
      extensions.head?.map fun ext => .unsupported "extension field" (scope ++ ext.name) := by
  cases extensions <;> rfl

theorem fault?_refuseDefaultsIn (scope : String) (fields : List Descriptor.Field) :
    fault? (refuseDefaultsIn scope fields) =
      (fields.find? (·.defaultValue.isSome)).map fun f => .unsupported "default value for field" (scope ++ f.name) := by
  unfold refuseDefaultsIn
  cases fields.find? (·.defaultValue.isSome) <;> rfl

theorem fault?_refuseExtensionsIn_eq_none_iff (scope : String) (extensions : List Descriptor.Field) :
    fault? (refuseExtensionsIn scope extensions) = none ↔ extensions = [] := by
  rw [fault?_refuseExtensionsIn, Option.map_eq_none_iff, List.head?_eq_none_iff]

theorem fault?_refuseDefaultsIn_eq_none_iff (scope : String) (fields : List Descriptor.Field) :
    fault? (refuseDefaultsIn scope fields) = none ↔ ∀ f ∈ fields, f.defaultValue = none := by
  rw [fault?_refuseDefaultsIn, Option.map_eq_none_iff, List.find?_eq_none]
  simp

/-! ## Checks at every depth -/

/-- the scope that the message at a path opens for what is declared inside -/
def scopeOf (path : List String) : String := path.foldr (fun name scope => scope ++ name ++ ".") ""

mutual

theorem fault?_checkMessage (check : String → Message → Except SchemaFault Unit) (around : Place) (number : Nat)
    (m : Message) : fault? (checkMessage check (scopeOf around.path) m) =
      (preorder (around.inner number m.name) m).findSome? fun e => fault? (check (scopeOf e.1.path) e.2) := by
  -- the check and the listing recurse alike; the scope that goes down is that of the place that does
  match m with
  | ⟨name, fields, nested, enums, oneofs, extensions⟩ =>
    rw [checkMessage, preorder, findSome?_cons_eq_or]
    exact fault?_bind fun _ _ => fault?_checkMessages check (around.inner number name) 0 nested

/-- **Checks at every depth** end at the first message, in pre-order, that does not pass; each is checked with the
scope that its path makes. -/
theorem fault?_checkMessages (check : String → Message → Except SchemaFault Unit) (around : Place) (number : Nat)
    (ms : List Message) : fault? (checkMessages check (scopeOf around.path) ms) =
      (preorderInside around number ms).findSome? fun e => fault? (check (scopeOf e.1.path) e.2) := by
  match ms with
  | [] => rfl
  | m :: rest =>
    rw [checkMessages, preorderInside, List.findSome?_append, ← fault?_checkMessage check around number m]
    exact fault?_bind fun _ _ => fault?_checkMessages check around (number + 1) rest

end

/-- the messages of a file are checked as they are listed -/
theorem fault?_checkFile (check : String → Message → Except SchemaFault Unit) (number : Nat) (file : File) :
    fault? (checkMessages check "" file.messages) =
      (messagesOf number file).findSome? fun e => fault? (check (scopeOf e.1.path) e.2) :=
  fault?_checkMessages check (.ofFile number file) 0 file.messages

/-- the messages of a file pass when each of those it declares does, in whatever scope -/
theorem fault?_checkFile_eq_none_iff {check : String → Message → Except SchemaFault Unit} {Pass : Message → Prop}
    (h : ∀ scope m, fault? (check scope m) = none ↔ Pass m) (file : File) :
    fault? (checkMessages check "" file.messages) = none ↔ ∀ m, file.Declares m → Pass m := by
  rw [fault?_checkFile check 0, List.findSome?_eq_none_iff]
  constructor
  · intro hall m hm
    obtain ⟨p, hp⟩ : ∃ p, (p, m) ∈ messagesOf 0 file := mem_messagesOf_iff.2 hm
    exact (h _ m).1 (hall (p, m) hp)
  · intro hall e he
    exact (h _ e.2).2 (hall e.2 (mem_messagesOf_iff.1 ⟨e.1, he⟩))

/-! ## Files -/

theorem fault?_forFiles_eq_none_iff {step : File → Except SchemaFault Unit} {files : List File} :
    fault? (files.forM fun file => atPlace (fileContext file) (step file)) = none ↔
      ∀ file ∈ files, fault? (step file) = none := by
  simp only [fault?_forM, fault?_atPlace, List.findSome?_eq_none_iff, Option.map_eq_none_iff]

theorem fault?_extensionsOf_eq_none_iff (file : File) :
    fault? (do
      refuseExtensionsIn "" file.extensions
      checkMessages (fun scope m => refuseExtensionsIn scope m.extensions) "" file.messages) = none ↔
      file.ExtensionFree := by
  have hinside := fault?_checkFile_eq_none_iff fun scope m =>
    fault?_refuseExtensionsIn_eq_none_iff scope m.extensions
  rw [fault?_bind fun _ _ => rfl, Option.or_eq_none_iff, fault?_refuseExtensionsIn_eq_none_iff, hinside,
    File.ExtensionFree]

theorem fault?_refuseExtensions_eq_none_iff {files : List File} :
    fault? (refuseExtensions files) = none ↔ ∀ file ∈ files, file.ExtensionFree := by
  rw [refuseExtensions, fault?_forFiles_eq_none_iff]
  exact forall₂_congr fun file _ => fault?_extensionsOf_eq_none_iff file

theorem fault?_refuseDefaults_eq_none_iff {files : List File} :
    fault? (refuseDefaults files) = none ↔ ∀ file ∈ files, file.DefaultFree := by
  have hinside := fault?_checkFile_eq_none_iff fun scope m => fault?_refuseDefaultsIn_eq_none_iff scope m.fields
  rw [refuseDefaults, fault?_forFiles_eq_none_iff]
  exact forall₂_congr fun file _ => hinside file

/-! ## Requests -/

/-- once the files are found and agree, a request ends in the first fault of what it declares -/
theorem fault?_validate {names : List String} {files inputs : List File} {target : Target}
    (hinputs : selectFiles names files = .ok inputs) (htarget : commonTarget inputs = .ok target) :
    fault? (validate names files) = (fault? (refuseExtensions inputs)).or (fault? (refuseDefaults inputs)) := by
  have hrest : validate names files = do
      refuseExtensions inputs
      refuseDefaults inputs
      return target := by
    unfold validate
    rw [hinputs]
    change (commonTarget inputs >>= _) = _
    rw [htarget]
    rfl
  rw [hrest]
  exact fault?_bind fun _ _ => fault?_bind_pure (refuseDefaults inputs) _

theorem plain_iff {files : List File} :
    (∀ file ∈ files, file.Plain) ↔ fault? (refuseExtensions files) = none ∧ fault? (refuseDefaults files) = none := by
  rw [fault?_refuseExtensions_eq_none_iff, fault?_refuseDefaults_eq_none_iff, ← forall₂_and]
  refine forall₂_congr fun file _ => ?_
  constructor
  · intro h
    exact ⟨⟨h.extensions, fun m hm => (h.messages m hm).extensions⟩, fun m hm => (h.messages m hm).defaults⟩
  · intro h
    exact ⟨h.1.1, fun m hm => ⟨h.2 m hm, h.1.2 m hm⟩⟩

/-- **A request passes** when its files are found, agree on a target, and declare nothing that is refused. -/
theorem validate_eq_ok_iff {names : List String} {files : List File} {target : Target} :
    validate names files = .ok target ↔ ∃ inputs, selectFiles names files = .ok inputs ∧
      commonTarget inputs = .ok target ∧ ∀ file ∈ inputs, file.Plain := by
  simp only [plain_iff, fault?_eq_none_iff, validate, bind_eq_ok, pure, Except.pure, Except.ok.injEq]
  constructor
  · intro h
    obtain ⟨inputs, hinputs, _, htarget, u, hextensions, v, hdefaults, rfl⟩ := h
    exact ⟨inputs, hinputs, htarget, ⟨u, hextensions⟩, v, hdefaults⟩
  · intro h
    obtain ⟨inputs, hinputs, htarget, ⟨u, hextensions⟩, v, hdefaults⟩ := h
    exact ⟨inputs, hinputs, target, htarget, u, hextensions, v, hdefaults, rfl⟩

end Request

end ErlangRecords
