/-
Modules of packages.

The module of a package bears the package's name in snake case, so two packages have one module exactly when their
names consist of the same words. Nothing keeps such packages out of a batch: a reference from one to the other is then
written with the module that is being generated, and the outputs of the two have the same names.

- `path_eq_iff`: outputs in one directory have one path exactly when their packages consist of the same words.
- `moduleName_eq_iff_words`: when modules are told apart, references and outputs with them.
- `modules_not_distinct`: sometimes they are not.
-/
import ErlangRecords.Proofs.Identifiers
import ErlangRecords.Proofs.References

namespace ErlangRecords

theorem module_eq_iff {a b : String} : moduleName a = moduleName b ↔ SnakeCase.words a = SnakeCase.words b :=
  SnakeCase.snakeCase_eq_iff

/-- in one directory, the module's name alone tells outputs apart -/
theorem path_eq_iff (schema : Schema) (a b directory extension : String) :
    (schema.package ⟨a, directory⟩).path extension = (schema.package ⟨b, directory⟩).path extension ↔
      SnakeCase.words a = SnakeCase.words b := by
  have hfile : ∀ before : String,
      before ++ moduleName a ++ "." ++ extension = before ++ moduleName b ++ "." ++ extension ↔
        SnakeCase.words a = SnakeCase.words b := by
    intro before
    rw [String.append_left_inj, String.append_left_inj, String.append_right_inj, module_eq_iff]
  exact hfile _

/-- the user type is written with the module that is generated exactly when the declaration it stands for is of a
package with the same words as the one asked for -/
structure CrossesAs (request : ResolvedRequest) (f : FieldDecl) (user : Option String × String) (d : Declaration) :
    Prop where
  offered : Offered request f user d
  home : user.1 = some request.package.moduleName ↔
    SnakeCase.words d.package = SnakeCase.words request.target.package

theorem crossesAs_of_offered {request : ResolvedRequest} {f : FieldDecl} {user : Option String × String}
    {d : Declaration} (h : Offered request f user d) : CrossesAs request f user d := by
  refine ⟨h, ?_⟩
  rw [h.named, Option.some.injEq]
  exact module_eq_iff

/-- **When modules coincide.** Two declarations have one module exactly when the names of their packages consist of the
same words. So a reference in the header of a request is written with the module being generated exactly when it is to
a declaration of a package with the same words; and two packages have outputs of one name exactly in that case, too. -/
theorem moduleName_eq_iff_words {names : List String} {files : List Descriptor.File} {request : ResolvedRequest}
    (h : ResolvedRequest.ofBatch names files = .ok request) :
    (∀ d d' : Declaration, d.moduleName = d'.moduleName ↔ SnakeCase.words d.package = SnakeCase.words d'.package) ∧
      (∀ m ∈ request.package.messages, ∀ slot ∈ m.slots, ∀ line,
        Header.line? request.package.moduleName slot = some line → ∀ user ∈ line.type.userTypes,
          ∃ f ∈ m.scope slot, ∃ d, CrossesAs request f user d) ∧
      ∀ a b directory extension,
        (request.schema.package ⟨a, directory⟩).path extension =
            (request.schema.package ⟨b, directory⟩).path extension ↔
          SnakeCase.words a = SnakeCase.words b := by
  refine ⟨fun d d' => module_eq_iff, ?_, ?_⟩
  · intro m hm slot hslot line hline user huser
    obtain ⟨_, declared, hdeclared, hresolve⟩ := ofBatch_eq_ok_iff.1 h
    obtain ⟨f, hf, d, hd⟩ := offered_of_line (resolvedFrom_of_ok hdeclared hresolve) hm hslot hline huser
    exact ⟨f, hf, d, crossesAs_of_offered hd⟩
  · exact path_eq_iff request.schema

theorem moduleName_eq_iff_words_sample : ∃ request,
    ResolvedRequest.ofBatch sampleRequest.filesToGenerate sampleRequest.files = .ok request ∧
      request.schema.messages.map (·.moduleName) = ["shop", "shop", "shop", "shop", "party"] ∧
      (request.schema.package ⟨"party", "shop"⟩).headerPath ≠ request.package.headerPath ∧
      ∀ m ∈ request.package.messages, ∀ slot ∈ m.slots, ∀ line,
        Header.line? request.package.moduleName slot = some line → ∀ user ∈ line.type.userTypes,
          ∃ f ∈ m.scope slot, ∃ d, CrossesAs request f user d := by
  obtain ⟨request, h, hmodules, htarget⟩ := exists_ok_of_check
    (x := ResolvedRequest.ofBatch sampleRequest.filesToGenerate sampleRequest.files)
    (P := fun request => request.schema.messages.map (·.moduleName) = ["shop", "shop", "shop", "shop", "party"] ∧
      request.target = ⟨"shop", "shop"⟩) (by decide +kernel)
  obtain ⟨_, hcross, hpaths⟩ := moduleName_eq_iff_words h
  refine ⟨request, h, hmodules, fun heq => ?_, hcross⟩
  rw [ResolvedRequest.package, htarget] at heq
  exact absurd ((hpaths "party" "shop" "shop" "hrl").1 heq) (by decide +kernel)

/-- an order refers to a note of another package, whose name consists of the same words -/
def foldedPackages : List Descriptor.File := [
  { name := "foo/order.proto"
    package := "foo.bar"
    messages := [{
      name := "Order"
      fields := [{ name := "note", number := 1, label := some 1, type := some 11, typeName := ".foo_bar.Note" }] }] },
  { name := "foo/note.proto", package := "foo_bar", messages := [{ name := "Note" }] }]

/-- **Distinct packages may share a module**: the order's header writes the note as a type of the module that is being
generated, which has no such type, and a request for the note has outputs of the same names. -/
theorem modules_not_distinct :
    (∃ request, ResolvedRequest.ofBatch ["foo/order.proto"] foldedPackages = .ok request ∧
      request.schema.messages.map (fun m => (m.package, m.moduleName)) =
        [("foo.bar", "foo_bar"), ("foo_bar", "foo_bar")] ∧
      request.package.moduleName = "foo_bar" ∧ writtenUserTypes request.package = [[(some "foo_bar", "note")]] ∧
      request.package.declarations.map (·.typeName) = ["order"]) ∧
    (∃ out, outputsFor ["foo/order.proto"] foldedPackages = .ok out ∧
      out.map (·.path) = ["foo/foo_bar.hrl", "foo/foo_bar.erl"]) ∧
    ∃ out, outputsFor ["foo/note.proto"] foldedPackages = .ok out ∧
      out.map (·.path) = ["foo/foo_bar.hrl", "foo/foo_bar.erl"] := by
  refine ⟨?_, ?_, ?_⟩
  · apply exists_ok_of_check
    decide +kernel
  · apply exists_ok_of_check
    decide +kernel
  · apply exists_ok_of_check
    decide +kernel

end ErlangRecords
