/-
Listings without addresses.

The address of a declaration counts what stands before it, so it is another one in another batch. All else of a place
comes from the file alone.

- `preorder_bare`: a message listed at two places of one path gives the same list, but for addresses.
- `batchMessages_bare`, `batchEnums_bare`: without addresses a batch is listed file by file, each as if it were alone.
-/
import ErlangRecords.Proofs.Listing
import ErlangRecords.Proofs.Related

namespace ErlangRecords

open Descriptor (File Message Enum)

/-! ## Places -/

/-- the place but for its address -/
def Place.bare (p : Place) : Place := { p with address := [] }

theorem Place.bare_inner {p p' : Place} (h : p.bare = p'.bare) (number number' : Nat) (name : String) :
    (p.inner number name).bare = (p'.inner number' name).bare := by
  simp only [Place.bare, Place.inner, Place.mk.injEq, true_and] at h ⊢
  exact ⟨h.1, h.2.1, by rw [h.2.2]⟩

/-! ## Messages -/

/-- the same message, listed with another address -/
structure SameButAddress (e e' : Place × Message) : Prop where
  place : e.1.bare = e'.1.bare
  message : e.2 = e'.2

mutual

theorem preorder_bare {p p' : Place} (hp : p.bare = p'.bare) (m : Message) :
    List.Forall₂ SameButAddress (preorder p m) (preorder p' m) := by
  match m with
  | ⟨name, fields, nested, enums, oneofs, extensions⟩ => exact .cons ⟨hp, rfl⟩ (preorderInside_bare hp 0 0 nested)

theorem preorderInside_bare {p p' : Place} (hp : p.bare = p'.bare) (number number' : Nat) (ms : List Message) :
    List.Forall₂ SameButAddress (preorderInside p number ms) (preorderInside p' number' ms) := by
  match ms with
  | [] => exact .nil
  | m :: rest =>
    exact List.rel_append (preorder_bare (Place.bare_inner hp number number' m.name) m)
      (preorderInside_bare hp (number + 1) (number' + 1) rest)

end

theorem messagesOf_bare (number number' : Nat) (file : File) :
    List.Forall₂ SameButAddress (messagesOf number file) (messagesOf number' file) := by
  have hplace : (Place.ofFile number file).bare = (Place.ofFile number' file).bare := rfl
  exact preorderInside_bare hplace 0 0 file.messages

/-- a listed message but for its address and what is inside it -/
def bareMessage (e : Place × Message) : Place × Message := (e.1.bare, { e.2 with nested := [], enums := [] })

/-- the messages of a file, but for their addresses -/
def bareMessagesOf (file : File) : List (Place × Message) := (messagesOf 0 file).map bareMessage

theorem package_of_mem_bareMessagesOf {file : File} {e : Place × Message} (he : e ∈ bareMessagesOf file) :
    e.1.package = file.package := by
  obtain ⟨entry, hentry, rfl⟩ := List.mem_map.1 he
  exact (file_of_mem_messagesOf hentry).2

/-! ## Enums -/

/-- a listed enum but for its address -/
def bareEnum (e : Place × Enum) : Place × Enum := (e.1.bare, e.2)

/-- the enums of a file, but for their addresses -/
def bareEnumsOf (file : File) : List (Place × Enum) := (enumsOf 0 file).map bareEnum

theorem package_of_mem_bareEnumsOf {file : File} {e : Place × Enum} (he : e ∈ bareEnumsOf file) :
    e.1.package = file.package := by
  obtain ⟨entry, hentry, rfl⟩ := List.mem_map.1 he
  exact (file_of_mem_enumsOf hentry).2

/-- without addresses the numbers play no part -/
theorem enumsInside_bare (p : Place) (enums : List Enum) :
    (enumsInside p enums).map bareEnum = enums.map fun e => ((p.inner 0 e.name).bare, e) := by
  have hcomp : (bareEnum ∘ fun (entry : Enum × Nat) => (p.inner entry.2 entry.1.name, entry.1)) =
      (fun e => ((p.inner 0 e.name).bare, e)) ∘ Prod.fst := rfl
  rw [enumsInside, List.map_map, hcomp, ← List.map_map, List.zipIdx_map_fst]

theorem enumsInside_congr {p p' : Place} (hp : p.bare = p'.bare) (enums : List Enum) :
    (enumsInside p enums).map bareEnum = (enumsInside p' enums).map bareEnum := by
  rw [enumsInside_bare, enumsInside_bare]
  exact List.map_congr_left fun e _ => by rw [Place.bare_inner hp 0 0 e.name]

theorem map_enumsOf (number : Nat) (file : File) :
    (enumsOf number file).map bareEnum = (enumsInside (.ofFile number file) file.enums).map bareEnum ++
      (messagesOf number file).flatMap fun e => (enumsInside e.1 e.2.enums).map bareEnum := by
  rw [enumsOf, List.map_append, List.map_flatMap]

/-! ## Batches -/

theorem map_listFrom {α β : Type} (f : α → β) (listing : Nat → File → List α) (number : Nat) (files : List File) :
    (listFrom listing number files).map f = listFrom (fun number file => (listing number file).map f) number files := by
  induction files generalizing number with
  | nil => rfl
  | cons file rest ih => rw [listFrom, listFrom, List.map_append, ih]

/-- a listing that minds no numbers is made file by file -/
theorem listFrom_eq_flatMap {α : Type} {listing : Nat → File → List α}
    (h : ∀ number file, listing number file = listing 0 file) (number : Nat) (files : List File) :
    listFrom listing number files = files.flatMap (listing 0) := by
  induction files generalizing number with
  | nil => rfl
  | cons file rest ih => rw [listFrom, List.flatMap_cons, h, ih]

theorem batchMessages_bare (files : List File) :
    (batchMessages files).map bareMessage = files.flatMap bareMessagesOf := by
  rw [batchMessages, map_listFrom]
  apply listFrom_eq_flatMap
  intro number file
  apply map_eq_map_of_forall₂ _ (messagesOf_bare number 0 file)
  intro e e' he
  simp only [bareMessage, he.place, he.message]

theorem batchEnums_bare (files : List File) : (batchEnums files).map bareEnum = files.flatMap bareEnumsOf := by
  rw [batchEnums, map_listFrom]
  apply listFrom_eq_flatMap
  intro number file
  have hplace : (Place.ofFile number file).bare = (Place.ofFile 0 file).bare := rfl
  have hinside : ∀ e e' : Place × Message, SameButAddress e e' →
      (enumsInside e.1 e.2.enums).map bareEnum = (enumsInside e'.1 e'.2.enums).map bareEnum := by
    intro e e' he
    rw [he.message, enumsInside_congr he.place]
  rw [map_enumsOf, map_enumsOf, enumsInside_congr hplace,
    flatMap_eq_of_forall₂ hinside (messagesOf_bare number 0 file)]

end ErlangRecords
