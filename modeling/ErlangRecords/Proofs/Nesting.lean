/-
Declarations at any depth.

A message is declared in a file when it stands at the top or right inside a message that is declared there; an enum when
it stands at the top or right inside such a message. The listings of a batch hold exactly the declarations of its files.

- `Message.Within`, `File.Declares`, `File.DeclaresEnum`: declarations at any depth.
- `mem_messagesOf_iff`, `mem_enumsOf_iff`: what is listed of a file.
- `mem_batchMessages_iff`, `mem_batchEnums_iff`: what is listed of a batch.
-/
import ErlangRecords.Proofs.Listing

namespace ErlangRecords

open Descriptor (File Message Enum)

/-! ## Depth -/

namespace Descriptor

/-- the message is one of those given, or stands inside one of them at any depth -/
inductive Message.Within (m : Message) : List Message → Prop
  | here {ms : List Message} (h : m ∈ ms) : Within m ms
  | inside {ms : List Message} {outer : Message} (houter : outer ∈ ms) (h : Within m outer.nested) : Within m ms

/-- the file declares the message, at the top or at any depth -/
def File.Declares (file : File) (m : Message) : Prop := m.Within file.messages

/-- the file declares the enum, at the top or right inside a message that it declares -/
def File.DeclaresEnum (file : File) (e : Enum) : Prop := e ∈ file.enums ∨ ∃ m, file.Declares m ∧ e ∈ m.enums

end Descriptor

/-! ## Listed messages -/

mutual

theorem within_of_mem_preorder {p : Place} {m : Message} {e : Place × Message} (he : e ∈ preorder p m) :
    e.2 = m ∨ e.2.Within m.nested := by
  match m with
  | ⟨name, fields, nested, enums, oneofs, extensions⟩ =>
    rcases List.mem_cons.1 he with rfl | he
    · exact Or.inl rfl
    · exact Or.inr (within_of_mem_preorderInside he)

theorem within_of_mem_preorderInside {around : Place} {number : Nat} {ms : List Message} {e : Place × Message}
    (he : e ∈ preorderInside around number ms) : e.2.Within ms := by
  match ms with
  | [] => cases he
  | m :: rest =>
    rcases List.mem_append.1 he with he | he
    · rcases within_of_mem_preorder he with heq | hin
      · exact .here (heq ▸ List.mem_cons_self)
      · exact .inside List.mem_cons_self hin
    · cases within_of_mem_preorderInside he with
      | here h => exact .here (List.mem_cons_of_mem m h)
      | inside houter h => exact .inside (List.mem_cons_of_mem m houter) h

end

/-- the listing of messages side by side holds that of each of them -/
theorem exists_preorder_subset {ms : List Message} {m : Message} (hm : m ∈ ms) (around : Place) (number : Nat) :
    ∃ p, preorder p m ⊆ preorderInside around number ms := by
  induction ms generalizing number with
  | nil => cases hm
  | cons m' rest ih =>
    rcases List.mem_cons.1 hm with rfl | hm
    · exact ⟨_, List.subset_append_left _ _⟩
    · obtain ⟨p, hp⟩ := ih hm (number + 1)
      exact ⟨p, List.subset_append_of_subset_right _ hp⟩

theorem exists_mem_preorderInside {ms : List Message} {m : Message} (h : m.Within ms) (around : Place)
    (number : Nat) : ∃ p, (p, m) ∈ preorderInside around number ms := by
  induction h generalizing around number with
  | here hm =>
    obtain ⟨p, hp⟩ := exists_preorder_subset hm around number
    exact ⟨p, hp (by rw [preorder_eq]; exact List.mem_cons_self)⟩
  | inside houter _ ih =>
    obtain ⟨p, hp⟩ := exists_preorder_subset houter around number
    obtain ⟨q, hq⟩ := ih p 0
    exact ⟨q, hp (by rw [preorder_eq]; exact List.mem_cons_of_mem _ hq)⟩

/-- **The messages of a file** are those it declares. -/
theorem mem_messagesOf_iff {number : Nat} {file : File} {m : Message} :
    (∃ p, (p, m) ∈ messagesOf number file) ↔ file.Declares m :=
  ⟨fun ⟨_, hp⟩ => within_of_mem_preorderInside hp, fun h => exists_mem_preorderInside h _ 0⟩

/-! ## Listed enums -/

theorem exists_mem_enumsInside {around : Place} {enums : List Enum} {e : Enum} :
    (∃ p, (p, e) ∈ enumsInside around enums) ↔ e ∈ enums := by
  simp only [mem_enumsInside]
  constructor
  · rintro ⟨_, _, he, _⟩
    exact List.mem_of_getElem? he
  · intro he
    obtain ⟨k, hk⟩ := List.getElem?_of_mem he
    exact ⟨around.inner k e.name, k, hk, rfl⟩

/-- **The enums of a file** are those it declares. -/
theorem mem_enumsOf_iff {number : Nat} {file : File} {e : Enum} :
    (∃ p, (p, e) ∈ enumsOf number file) ↔ file.DeclaresEnum e := by
  simp only [enumsOf, List.mem_append, exists_or, exists_mem_enumsInside, List.mem_flatMap]
  refine or_congr_right ?_
  constructor
  · rintro ⟨p, entry, hentry, hp⟩
    exact ⟨entry.2, mem_messagesOf_iff.1 ⟨entry.1, hentry⟩, exists_mem_enumsInside.1 ⟨p, hp⟩⟩
  · rintro ⟨m, hm, he⟩
    obtain ⟨q, hq⟩ := mem_messagesOf_iff.2 hm
    obtain ⟨p, hp⟩ := exists_mem_enumsInside.2 he
    exact ⟨p, (q, m), hq, hp⟩

/-! ## Batches -/

/-- what is listed of a batch is what its files declare, where that holds of each file -/
theorem exists_mem_listFrom_iff {α : Type} (listing : Nat → File → List (Place × α)) {Declares : File → α → Prop}
    (h : ∀ number file a, (∃ p, (p, a) ∈ listing number file) ↔ Declares file a) {files : List File} {a : α} :
    (∃ p, (p, a) ∈ listFrom listing 0 files) ↔ ∃ file ∈ files, Declares file a := by
  constructor
  · rintro ⟨p, hp⟩
    obtain ⟨k, file, hfile, hp⟩ := mem_listFrom.1 hp
    exact ⟨file, List.mem_of_getElem? hfile, (h _ file a).1 ⟨p, hp⟩⟩
  · rintro ⟨file, hfile, ha⟩
    obtain ⟨k, hk⟩ := List.getElem?_of_mem hfile
    obtain ⟨p, hp⟩ := (h (0 + k) file a).2 ha
    exact ⟨p, mem_listFrom.2 ⟨k, file, hk, hp⟩⟩

theorem mem_batchMessages_iff {files : List File} {m : Message} :
    (∃ p, (p, m) ∈ batchMessages files) ↔ ∃ file ∈ files, file.Declares m :=
  exists_mem_listFrom_iff messagesOf fun _ _ _ => mem_messagesOf_iff

theorem mem_batchEnums_iff {files : List File} {e : Enum} :
    (∃ p, (p, e) ∈ batchEnums files) ↔ ∃ file ∈ files, file.DeclaresEnum e :=
  exists_mem_listFrom_iff enumsOf fun _ _ _ => mem_enumsOf_iff

end ErlangRecords
