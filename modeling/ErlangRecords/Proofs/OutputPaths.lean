/-
Where outputs are put, and the names they know themselves and each other by.

What is cut off the path of a file that is asked for, its directory, is put before the module's name again, so outputs
stand where their sources do: at the root, right below a leading slash, or behind several slashes in a row. The type
module has the name of its file, and the header it includes the name of the other one. A package with a slash in its
name would end up in a directory of its own, so nothing is said of it; the schema compiler knows no such package.

- `directoryOf_join`, `fileNameOf_eq_iff`: a path is a directory and the name of a file.
- `directoryOf_place`, `fileNameOf_place`: a path made of a directory and a name is cut into these again.
- `SnakeCase.mem_of_mem_snakeCase`: an identifier has no slash that the name does not have.
- `Beside`, `outputs_beside_sources`: all this of the outputs of a request.
-/
import ErlangRecords.Proofs.AtomTexts
import ErlangRecords.Proofs.Cuts
import ErlangRecords.Proofs.Refusals
import ErlangRecords.Proofs.WordBreaks
import ErlangRecords.Proofs.Written

namespace ErlangRecords

/-! ## Paths -/

/-- the part of a path after its last slash -/
def fileNameOf (path : String) : String :=
  match Text.cutLast? '/' path.toList with
  | none => path
  | some (_, file) => String.ofList file

section

variable {path directory file : String}

theorem cutLast?_join (directory : String) (h : '/' ∉ file.toList) :
    Text.cutLast? '/' (directory ++ "/" ++ file).toList = some (directory.toList, file.toList) := by
  rw [Text.cutLast?_eq_some_iff, and_iff_left h, String.toList_append, String.toList_append, List.append_assoc]
  rfl

theorem directoryOf_ne_empty (path : String) : directoryOf path ≠ "" := by
  unfold directoryOf
  split
  · decide
  · decide
  · rename_i hdirectory _
    rwa [ne_eq, String.ofList_eq_empty_iff]

theorem directoryOf_of_not_mem (h : '/' ∉ file.toList) : directoryOf file = "." := by
  rw [directoryOf, Text.cutLast?_eq_none_iff.2 h]

theorem directoryOf_join (hdirectory : directory ≠ "") (h : '/' ∉ file.toList) :
    directoryOf (directory ++ "/" ++ file) = directory := by
  obtain ⟨c, rest, hcs⟩ := List.exists_cons_of_ne_nil (String.toList_eq_nil_iff.not.2 hdirectory)
  rw [directoryOf, cutLast?_join directory h, hcs]
  change String.ofList (c :: rest) = directory
  rw [← hcs, String.ofList_toList]

theorem fileNameOf_of_not_mem (h : '/' ∉ file.toList) : fileNameOf file = file := by
  rw [fileNameOf, Text.cutLast?_eq_none_iff.2 h]

theorem fileNameOf_join (directory : String) (h : '/' ∉ file.toList) :
    fileNameOf (directory ++ "/" ++ file) = file := by
  rw [fileNameOf, cutLast?_join directory h]
  exact String.ofList_toList

/-- **The name of a file** has no slash, and is the path or comes after a slash. -/
theorem fileNameOf_eq_iff :
    fileNameOf path = file ↔ '/' ∉ file.toList ∧ (path = file ∨ ∃ directory, path = directory ++ "/" ++ file) := by
  constructor
  · rintro rfl
    unfold fileNameOf
    split
    · rename_i hnone
      exact ⟨Text.cutLast?_eq_none_iff.1 hnone, .inl rfl⟩
    · rename_i before after hsome
      obtain ⟨hpath, hafter⟩ := Text.cutLast?_eq_some_iff.1 hsome
      rw [String.toList_ofList]
      refine ⟨hafter, .inr ⟨String.ofList before, ?_⟩⟩
      rw [← String.toList_inj, hpath]
      simp
  · rintro ⟨hfile, rfl | ⟨directory, rfl⟩⟩
    · exact fileNameOf_of_not_mem hfile
    · exact fileNameOf_join directory hfile

end

/-! ## Files in directories -/

/-- path of a file in a directory; nothing stands before a file of the root -/
def place (directory file : String) : String := (if directory = "." then "" else directory ++ "/") ++ file

theorem place_append (directory file rest : String) : place directory (file ++ rest) = place directory file ++ rest :=
  (String.append_assoc).symm

theorem place_cases (directory file : String) :
    directory = "." ∧ place directory file = file ∨ place directory file = directory ++ "/" ++ file := by
  unfold place
  split
  · exact .inl ⟨‹_›, String.empty_append⟩
  · exact .inr rfl

section

variable {directory file : String}

/-- **What is cut off a path is put back.** -/
theorem directoryOf_place (hdirectory : directory ≠ "") (hfile : '/' ∉ file.toList) :
    directoryOf (place directory file) = directory := by
  rcases place_cases directory file with ⟨hroot, hpath⟩ | hpath
  · rw [hpath, directoryOf_of_not_mem hfile, hroot]
  · rw [hpath, directoryOf_join hdirectory hfile]

theorem fileNameOf_place (directory : String) (hfile : '/' ∉ file.toList) :
    fileNameOf (place directory file) = file := by
  rcases place_cases directory file with ⟨_, hpath⟩ | hpath
  · rw [hpath, fileNameOf_of_not_mem hfile]
  · rw [hpath, fileNameOf_join directory hfile]

end

theorem Package.path_eq_place (p : Package) (extension : String) :
    p.path extension = place p.directory (p.moduleName ++ ("." ++ extension)) := by
  simp only [path, place, String.append_assoc]

/-- what is no letter and separates no words is in the identifier only if it is in the name -/
theorem SnakeCase.mem_of_mem_snakeCase {name : String} {c : Char} (hletter : c.isAlpha = false) (hword : c ≠ '_')
    (h : c ∈ (snakeCase name).toList) : c ∈ name.toList := by
  have hkept : c ∈ (snakeCase name).toList.filter (· ≠ '_') := List.mem_filter.2 ⟨h, by simpa using hword⟩
  rw [(snakeCase_normal name).letters] at hkept
  obtain ⟨d, hd, hlower⟩ := List.mem_map.1 hkept
  obtain rfl := (toLower_eq_iff hletter).1 hlower
  exact (List.mem_filter.1 hd).1

/-- so it is in the name of an output only if it is in that of the package -/
theorem not_mem_moduleFile {package extension : String} {c : Char} (hletter : c.isAlpha = false) (hword : c ≠ '_')
    (hpackage : c ∉ package.toList) (hextension : c ∉ extension.toList) :
    c ∉ (moduleName package ++ extension).toList := by
  rw [String.toList_append, List.mem_append, not_or]
  exact ⟨fun h => hpackage (SnakeCase.mem_of_mem_snakeCase hletter hword h), hextension⟩

/-! ## Outputs of a request -/

/-- the text opens with the attributes of a module: the atom in them denotes `base`, and `included` is the file that is
included -/
def OpensAs (package text base included : String) : Prop :=
  ∃ atom rest, Atom.Denotes atom base ∧ text =
    "%%% Generated from protobuf package " ++ package ++ ".\n%%% DO NOT EDIT.\n" ++
      "\n-module(" ++ atom ++ ").\n" ++ "\n-include(\"" ++ included ++ "\").\n" ++ rest

/-- after the opening bracket there is the atom, and later on the name of the file up to its closing quote -/
theorem OpensAs.exists_toList {package text base included : String} (h : OpensAs package text base included) :
    ∃ atom rest : List Char, text.toList =
      ("%%% Generated from protobuf package " ++ package ++ ".\n%%% DO NOT EDIT.\n" ++ "\n-module(").toList ++
      (atom ++ (").\n\n-include(\"".toList ++ (included.toList ++ '"' :: rest))) ∧
      ∀ rest, Atom.Ends rest → Atom.read (atom ++ rest) = some (base, rest) := by
  obtain ⟨atom, rest, hatom, rfl⟩ := h
  refine ⟨atom.toList, ").\n".toList ++ rest.toList, ?_, fun _ => hatom.read_append⟩
  simp

/-- what a text opens as is told by the text -/
theorem OpensAs.unique {package text base base' included included' : String} (h : OpensAs package text base included)
    (h' : OpensAs package text base' included') :
    base' = base ∧ ('"' ∉ included.toList → '"' ∉ included'.toList → included' = included) := by
  obtain ⟨atom, rest, htext, hread⟩ := h.exists_toList
  obtain ⟨atom', rest', htext', hread'⟩ := h'.exists_toList
  have hsame := List.append_cancel_left (htext'.symm.trans htext)
  have hends : ∀ cs, Atom.Ends (").\n\n-include(\"".toList ++ cs) := fun cs => Atom.ends_cons (c := ')') rfl _
  have hboth := hread' _ (hends (included'.toList ++ '"' :: rest'))
  rw [hsame, hread _ (hends _), Option.some.injEq, Prod.mk.injEq] at hboth
  obtain ⟨hbase, hrest⟩ := hboth
  refine ⟨hbase.symm, fun hquote hquote' => ?_⟩
  have hcut := Text.cut?_append hquote rest
  rw [List.append_cancel_left hrest, Text.cut?_append hquote', Option.some.injEq, Prod.mk.injEq] at hcut
  exact String.toList_inj.1 hcut.1

theorem Package.opensAs_typeModule (p : Package) :
    OpensAs p.name p.typeModule p.moduleName (p.moduleName ++ ".hrl") := by
  have hcut : ".hrl\").\n" = ".hrl" ++ "\").\n" := by decide
  rw [typeModule_eq]
  refine ⟨Atom.quote p.moduleName, "\n" ++ TypeModule.exported p.enumDefinitions ++
    "\n" ++ TypeModule.exported p.messageDefinitions ++
    String.join ((p.enumDefinitions ++ p.messageDefinitions).map fun d => "\n" ++ d.text),
    Atom.denotes_quote p.moduleName, ?_⟩
  unfold typeModuleWith
  rewrite [hcut]
  simp only [String.append_assoc, -String.reduceAppend]

/-- the header and the type module stand beside the files of these names, and know their own names -/
structure Beside (names : List String) (package base : String) (header typeModule : OutputFile) : Prop where
  headerDirectory : ∀ name ∈ names, directoryOf header.path = directoryOf name
  moduleDirectory : ∀ name ∈ names, directoryOf typeModule.path = directoryOf name
  /-- the paths differ in the extension alone, -/
  paths : ∃ stem, fileNameOf stem = base ∧ header.path = stem ++ ".hrl" ∧ typeModule.path = stem ++ ".erl"
  /-- which is all that comes after the first dot of the file's name -/
  undotted : '.' ∉ base.toList
  headerName : fileNameOf header.path = base ++ ".hrl"
  moduleName : fileNameOf typeModule.path = base ++ ".erl"
  /-- the type module says that it is the module `base`, and includes the header by its name, -/
  attributes : OpensAs package typeModule.content base (fileNameOf header.path)
  /-- which is a string as it stands if the package's name could be one; -/
  string : ∀ c, c = '"' ∨ c = '\\' → c ∉ package.toList → c ∉ (fileNameOf header.path).toList
  /-- no other module can be read from it, and then no other file either -/
  only : ∀ other included, OpensAs package typeModule.content other included →
    other = base ∧ ('"' ∉ package.toList → '"' ∉ included.toList → included = fileNameOf header.path)

section

variable {names : List String} {schema : Schema} {target : Target} {extension : String}

theorem directoryOf_output (hdirectory : ∀ name ∈ names, directoryOf name = target.directory)
    (hslash : '/' ∉ target.package.toList) (hextension : '/' ∉ extension.toList) :
    ∀ name ∈ names,
      directoryOf (place target.directory (moduleName target.package ++ extension)) = directoryOf name := by
  intro name hname
  rw [← hdirectory name hname]
  exact directoryOf_place (directoryOf_ne_empty name) (not_mem_moduleFile rfl (by decide) hslash hextension)

theorem fileNameOf_output (hslash : '/' ∉ target.package.toList) (hextension : '/' ∉ extension.toList) :
    fileNameOf (place target.directory (moduleName target.package ++ extension)) =
      moduleName target.package ++ extension :=
  fileNameOf_place target.directory (not_mem_moduleFile rfl (by decide) hslash hextension)

theorem beside_outputs (header : String) (hdirectory : ∀ name ∈ names, directoryOf name = target.directory)
    (hslash : '/' ∉ target.package.toList) :
    Beside names target.package (moduleName target.package) ⟨(schema.package target).headerPath, header⟩
      ⟨(schema.package target).modulePath, (schema.package target).typeModule⟩ := by
  have hheader : (schema.package target).headerPath = place target.directory (moduleName target.package ++ ".hrl") :=
    (schema.package target).path_eq_place "hrl"
  have hmodule : (schema.package target).modulePath = place target.directory (moduleName target.package ++ ".erl") :=
    (schema.package target).path_eq_place "erl"
  have hheaderName := fileNameOf_output hslash (by decide : '/' ∉ ".hrl".toList)
  have hattributes := (schema.package target).opensAs_typeModule
  have hstring : ∀ c, c = '"' ∨ c = '\\' → c ∉ target.package.toList →
      c ∉ (moduleName target.package ++ ".hrl").toList := by
    rintro c (rfl | rfl) hpackage
    · exact not_mem_moduleFile rfl (by decide) hpackage (by decide)
    · exact not_mem_moduleFile rfl (by decide) hpackage (by decide)
  rw [hheader, hmodule]
  constructor
  case headerDirectory => exact directoryOf_output hdirectory hslash (by decide)
  case moduleDirectory => exact directoryOf_output hdirectory hslash (by decide)
  case paths =>
    have hbase := fileNameOf_output hslash (by decide : '/' ∉ "".toList)
    rw [String.append_empty] at hbase
    exact ⟨_, hbase, place_append _ _ _, place_append _ _ _⟩
  case undotted => exact fun h => (SnakeCase.isPlain_snakeCase target.package '.' h).2 rfl
  case headerName => exact hheaderName
  case moduleName => exact fileNameOf_output hslash (by decide)
  case attributes =>
    rw [hheaderName]
    exact hattributes
  case string =>
    rw [hheaderName]
    exact hstring
  case only =>
    intro other included hopens
    obtain ⟨hbase, hincluded⟩ := hattributes.unique hopens
    rw [hheaderName]
    exact ⟨hbase, fun hquote => hincluded (hstring '"' (.inl rfl) hquote)⟩

end

/-- **Outputs stand beside their sources and name each other.** The files that a request with outputs asks for are of
one package. Unless there is a slash in its name, both outputs are in the directory of each of these files, and have the
same path but for the extension; the type module includes the header by the name of its file, and the atom it takes for
its own name denotes the name of its own file, without the extension. -/
theorem outputs_beside_sources {request : Request} {out : List OutputFile} (h : request.outputs = .ok out) :
    ∃ package base header typeModule, out = [header, typeModule] ∧ request.filesToGenerate ≠ [] ∧
      (∀ name ∈ request.filesToGenerate, ∃ file, Request.Meant request.files name file ∧ file.package = package) ∧
      ('/' ∉ package.toList → Beside request.filesToGenerate package base header typeModule) := by
  obtain ⟨_, h⟩ := outputs_eq_ok_iff.1 h
  obtain ⟨resolved, header, hbatch, _, rfl⟩ := outputsFor_eq_ok_iff.1 h
  obtain ⟨hvalid, _⟩ := ofBatch_eq_ok_iff.1 hbatch
  obtain ⟨inputs, hinputs, htarget, _⟩ := Request.validate_eq_ok_iff.1 hvalid
  obtain ⟨hasked, hmeant⟩ := Request.selectFiles_eq_ok_iff.1 hinputs
  obtain ⟨_, hshares, _⟩ := Request.commonTarget_eq_ok_iff.1 htarget
  have hfiles : ∀ name ∈ request.filesToGenerate, ∃ file, Request.Meant request.files name file ∧
      Request.Shares resolved.target file := by
    intro name hname
    obtain ⟨file, hfile, hmeans⟩ := mem_right_of_forall₂ hmeant.flip hname
    exact ⟨file, hmeans, hshares file hfile⟩
  have hpackage : ∀ name ∈ request.filesToGenerate, ∃ file, Request.Meant request.files name file ∧
      file.package = resolved.target.package := by
    intro name hname
    obtain ⟨file, hmeans, hpackage, _⟩ := hfiles name hname
    exact ⟨file, hmeans, hpackage⟩
  have hdirectory : ∀ name ∈ request.filesToGenerate, directoryOf name = resolved.target.directory := by
    intro name hname
    obtain ⟨file, ⟨rfl, _⟩, _, hdirectory⟩ := hfiles name hname
    exact hdirectory
  exact ⟨_, _, _, _, rfl, hasked, hpackage, beside_outputs header hdirectory⟩

/-- two files right below a leading slash; their package is named by a word that is reserved -/
def slashedRequest : Request where
  filesToGenerate := ["/order.proto", "/refund.proto"]
  files := [{ name := "/order.proto", package := "Of" }, { name := "/refund.proto", package := "Of" }]

theorem outputs_beside_sources_slashed : ∃ header typeModule, slashedRequest.outputs = .ok [header, typeModule] ∧
    header.path = "//of.hrl" ∧ typeModule.path = "//of.erl" ∧
    Beside slashedRequest.filesToGenerate "Of" "of" header typeModule := by
  obtain ⟨out, h, hpaths⟩ := exists_ok_of_check (x := slashedRequest.outputs)
    (P := fun out => out.map (·.path) = ["//of.hrl", "//of.erl"]) (by decide +kernel)
  obtain ⟨package, base, header, typeModule, rfl, _, hfiles, hbeside⟩ := outputs_beside_sources h
  obtain ⟨hheader, hmodule⟩ : header.path = "//of.hrl" ∧ typeModule.path = "//of.erl" := by simpa using hpaths
  obtain ⟨file, hmeans, rfl⟩ := hfiles "/order.proto" List.mem_cons_self
  have hpackage : file.package = "Of" :=
    (by decide : ∀ file ∈ slashedRequest.files, file.package = "Of") file hmeans.mem
  rw [hpackage] at hbeside
  have hall := hbeside (by decide)
  have hbase : base ++ ".erl" = "of" ++ ".erl" := by
    rw [← hall.moduleName, hmodule]
    decide
  rw [String.append_left_inj] at hbase
  exact ⟨header, typeModule, h, hheader, hmodule, hbase ▸ hall⟩

-- the root, with and without a dot in front, and slashes at the start and in a row
example : ["c.proto", "./c.proto", "/c.proto", "//c.proto", "a//c.proto"].map directoryOf = [".", ".", "/", "/", "a/"] ∧
    [".", "/", "a/"].map (place · "c.erl") = ["c.erl", "//c.erl", "a//c.erl"] := by decide

end ErlangRecords
