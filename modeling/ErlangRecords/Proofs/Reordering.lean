/-
The same declarations in another order, and what that does to the listings of a batch.

Files may change places, and inside each file and each message, at any depth, so may messages among messages and enums
among enums. Fields, oneofs and enum values stay in order.

- `Reordered`, `ReorderedFiles`: such batches.
- `preorder_flatMap_perm`: whatever is read off the listed messages, with no regard to addresses or to order inside, is
  read off the reordered ones too, in another order.
- `batchMessages_perm`, `batchEnums_perm`: the listings hold the same declarations, but for their addresses.
-/
import ErlangRecords.Proofs.Bare

namespace ErlangRecords

open Descriptor (File Message Enum)

/-! ## Reorderings -/

mutual

/-- the same message, with the messages and enums inside it in another order, at any depth -/
inductive Reordered : Message → Message → Prop
  | intro {name : String} {fields : List Descriptor.Field} {nested nested' : List Message} {enums enums' : List Enum}
      {oneofs : List String} {extensions : List Descriptor.Field} (hnested : ReorderedMessages nested nested')
      (henums : enums.Perm enums') :
      Reordered ⟨name, fields, nested, enums, oneofs, extensions⟩ ⟨name, fields, nested', enums', oneofs, extensions⟩

/-- the same messages in another order, each reordered inside -/
inductive ReorderedMessages : List Message → List Message → Prop
  | nil : ReorderedMessages [] []
  | cons {m m' : Message} {rest rest' : List Message} (hm : Reordered m m') (hrest : ReorderedMessages rest rest') :
      ReorderedMessages (m :: rest) (m' :: rest')
  | swap (m m' : Message) (rest : List Message) : ReorderedMessages (m :: m' :: rest) (m' :: m :: rest)
  | trans {ms ms' ms'' : List Message} (h : ReorderedMessages ms ms') (h' : ReorderedMessages ms' ms'') :
      ReorderedMessages ms ms''

end

mutual

theorem Reordered.refl (m : Message) : Reordered m m := by
  match m with
  | ⟨_, _, nested, enums, _, _⟩ => exact .intro (ReorderedMessages.refl nested) (List.Perm.refl enums)

theorem ReorderedMessages.refl (ms : List Message) : ReorderedMessages ms ms := by
  match ms with
  | [] => exact .nil
  | m :: rest => exact .cons (Reordered.refl m) (ReorderedMessages.refl rest)

end

/-- every permutation of messages is a reordering -/
theorem ReorderedMessages.of_perm {ms ms' : List Message} (h : ms.Perm ms') : ReorderedMessages ms ms' := by
  induction h with
  | nil => exact .nil
  | cons m _ ih => exact .cons (Reordered.refl m) ih
  | swap m m' rest => exact .swap m' m rest
  | trans _ _ ih ih' => exact .trans ih ih'

/-- the same file, reordered inside -/
structure ReorderedFile (file file' : File) : Prop where
  name : file.name = file'.name
  package : file.package = file'.package
  messages : ReorderedMessages file.messages file'.messages
  enums : file.enums.Perm file'.enums
  extensions : file.extensions = file'.extensions

theorem ReorderedFile.refl (file : File) : ReorderedFile file file :=
  ⟨rfl, rfl, ReorderedMessages.refl _, List.Perm.refl _, rfl⟩

/-- the same files in another order, each reordered inside -/
def ReorderedFiles (files files' : List File) : Prop :=
  ∃ between, files.Perm between ∧ List.Forall₂ ReorderedFile between files'

/-! ## What is read off the listed messages -/

/-- what is read off a message minds neither its address nor the order inside it -/
def OrderBlind {β : Type} (g : Place × Message → List β) : Prop :=
  ∀ (p p' : Place) (m m' : Message), p.bare = p'.bare → Reordered m m' → (g (p, m)).Perm (g (p', m'))

section

variable {β : Type} {g : Place × Message → List β}

/-- another address changes nothing but the order -/
theorem preorderInside_flatMap_bare (hg : OrderBlind g) {p p' : Place} (hp : p.bare = p'.bare)
    (number number' : Nat) (ms : List Message) :
    ((preorderInside p number ms).flatMap g).Perm ((preorderInside p' number' ms).flatMap g) := by
  apply flatMap_perm_of_forall₂ _ (preorderInside_bare hp number number' ms)
  intro (q, m) (q', m') he
  obtain rfl : m = m' := he.message
  exact hg q q' m m he.place (.refl m)

theorem preorder_flatMap_bare (hg : OrderBlind g) {p p' : Place} (hp : p.bare = p'.bare) (m : Message) :
    ((preorder p m).flatMap g).Perm ((preorder p' m).flatMap g) := by
  apply flatMap_perm_of_forall₂ _ (preorder_bare hp m)
  intro (q, m) (q', m') he
  obtain rfl : m = m' := he.message
  exact hg q q' m m he.place (.refl m)

mutual

/-- **Readings of a reordered message** are the same, but for their order. -/
theorem preorder_flatMap_perm (hg : OrderBlind g) {m m' : Message} (h : Reordered m m') {p p' : Place}
    (hp : p.bare = p'.bare) :
    ((preorder p m).flatMap g).Perm ((preorder p' m').flatMap g) := by
  match h with
  | .intro hnested henums =>
    rw [preorder_eq, preorder_eq, List.flatMap_cons, List.flatMap_cons]
    exact (hg p p' _ _ hp (.intro hnested henums)).append (preorderInside_flatMap_perm hg hnested hp 0 0)

theorem preorderInside_flatMap_perm (hg : OrderBlind g) {ms ms' : List Message} (h : ReorderedMessages ms ms')
    {p p' : Place} (hp : p.bare = p'.bare) (number number' : Nat) :
    ((preorderInside p number ms).flatMap g).Perm ((preorderInside p' number' ms').flatMap g) := by
  match h with
  | .nil => exact List.Perm.refl _
  | .cons hm hrest =>
    rw [preorderInside, preorderInside, List.flatMap_append, List.flatMap_append]
    refine (preorder_flatMap_perm hg hm ?_).append
      (preorderInside_flatMap_perm hg hrest hp (number + 1) (number' + 1))
    cases hm
    exact Place.bare_inner hp number number' _
  | .swap m m' rest =>
    simp only [preorderInside, List.flatMap_append]
    have hm := preorder_flatMap_bare hg (Place.bare_inner hp number (number' + 1) m.name) m
    have hm' := preorder_flatMap_bare hg (Place.bare_inner hp (number + 1) number' m'.name) m'
    have hrest := preorderInside_flatMap_bare hg hp (number + 1 + 1) (number' + 1 + 1) rest
    refine (hm.append (hm'.append hrest)).trans ?_
    rw [← List.append_assoc, ← List.append_assoc]
    exact List.perm_append_comm.append_right _
  | .trans h h' =>
    exact (preorderInside_flatMap_perm hg h hp number number').trans
      (preorderInside_flatMap_perm hg h' rfl number' number')

end

end

/-! ## Listings of a batch -/

/-- what is read off each file with no regard to the order inside, is read off reordered files too -/
theorem ReorderedFiles.flatMap_perm {β : Type} {listing : File → List β}
    (hlisting : ∀ file file', ReorderedFile file file' → (listing file).Perm (listing file')) {files files' : List File}
    (h : ReorderedFiles files files') : (files.flatMap listing).Perm (files'.flatMap listing) := by
  obtain ⟨between, hperm, hfiles⟩ := h
  exact (hperm.flatMap_right listing).trans (flatMap_perm_of_forall₂ hlisting hfiles)

theorem Place.bare_ofFile {file file' : File} (h : ReorderedFile file file') :
    (Place.ofFile 0 file).bare = (Place.ofFile 0 file').bare := by
  simp only [Place.bare, Place.ofFile, h.name, h.package]

theorem bareMessage_orderBlind : OrderBlind fun e => [bareMessage e] := by
  intro p p' m m' hp h
  cases h
  simp only [bareMessage, hp, List.Perm.refl]

/-- **The same messages**: reordering changes the order of the listed messages and their addresses, nothing else. -/
theorem batchMessages_perm {files files' : List File} (h : ReorderedFiles files files') :
    ((batchMessages files).map bareMessage).Perm ((batchMessages files').map bareMessage) := by
  rw [batchMessages_bare, batchMessages_bare]
  refine h.flatMap_perm fun file file' hf => ?_
  rw [bareMessagesOf, bareMessagesOf, List.map_eq_flatMap, List.map_eq_flatMap]
  exact preorderInside_flatMap_perm bareMessage_orderBlind hf.messages (Place.bare_ofFile hf) 0 0

theorem enumsInside_perm {p p' : Place} {enums enums' : List Enum} (hp : p.bare = p'.bare) (h : enums.Perm enums') :
    ((enumsInside p enums).map bareEnum).Perm ((enumsInside p' enums').map bareEnum) := by
  rw [enumsInside_congr hp, enumsInside_bare, enumsInside_bare]
  exact h.map _

theorem bareEnum_orderBlind : OrderBlind fun e => (enumsInside e.1 e.2.enums).map bareEnum := by
  intro p p' m m' hp h
  cases h with
  | intro _ henums => exact enumsInside_perm hp henums

/-- **The same enums**: reordering changes the order of the listed enums and their addresses, nothing else. -/
theorem batchEnums_perm {files files' : List File} (h : ReorderedFiles files files') :
    ((batchEnums files).map bareEnum).Perm ((batchEnums files').map bareEnum) := by
  rw [batchEnums_bare, batchEnums_bare]
  refine h.flatMap_perm fun file file' hf => ?_
  have hp := Place.bare_ofFile hf
  rw [bareEnumsOf, bareEnumsOf, map_enumsOf, map_enumsOf]
  exact (enumsInside_perm hp hf.enums).append (preorderInside_flatMap_perm bareEnum_orderBlind hf.messages hp 0 0)

end ErlangRecords
