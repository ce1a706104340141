/-
Listings: the declarations of a batch, each with its place.

A place tells where a declaration stands by numbers (its address) and by names (its path). The messages of a file are
listed in depth-first pre-order, the enums after the place around them; a batch is listed file by file.

- `batchMessages_nodup`: no two messages of a batch have one address.
- `batchMessages_stands`, `batchEnums_stand`: a message stands at the top of its file, or right inside a message listed
  before it; an enum stands at the top of its file, or right inside a listed message.
- `positionOf_eq_some_iff`: a place has a position exactly when a message stands there, the one at that position.
-/
import Mathlib.Data.List.Nodup
import ErlangRecords.Declaration
import ErlangRecords.Descriptor

namespace ErlangRecords

open Descriptor (File Message Enum)

/-! ## Places -/

/-- where a declaration stands in its batch -/
structure Place where
  /-- its number among those beside it, then the numbers of the messages around it, and last that of its file -/
  address : List Nat
  file : String
  package : String
  /-- local names, innermost first -/
  path : List String
deriving DecidableEq, Repr

namespace Place

/-- the place around the declarations at the top of a file -/
def ofFile (number : Nat) (file : File) : Place := ⟨[number], file.name, file.package, []⟩

/-- the place of a declaration right inside -/
def inner (around : Place) (number : Nat) (name : String) : Place :=
  { around with address := number :: around.address, path := name :: around.path }

/-- the place right around -/
def outer (p : Place) : Place := { p with address := p.address.tail, path := p.path.tail }

@[simp] theorem outer_inner (around : Place) (number : Nat) (name : String) :
    (around.inner number name).outer = around := rfl

/-- what is known of a declaration by its place and the position of the message around it -/
def declaration (parent : Option Nat) (p : Place) : Declaration :=
  { parent, file := p.file, package := p.package, name := p.path.headD "", fullName := Name.dotted p.path }

def absoluteName (p : Place) : String := Name.absolute p.package (Name.dotted p.path)

end Place

/-! ## Listings -/

mutual

/-- a message with its place, then the messages nested in it -/
def preorder (p : Place) : Message → List (Place × Message)
  | ⟨name, fields, nested, enums, oneofs, extensions⟩ =>
    (p, ⟨name, fields, nested, enums, oneofs, extensions⟩) :: preorderInside p 0 nested

/-- messages side by side, the first with the given number -/
def preorderInside (around : Place) (number : Nat) : List Message → List (Place × Message)
  | [] => []
  | m :: rest => preorder (around.inner number m.name) m ++ preorderInside around (number + 1) rest

end

theorem preorder_eq (p : Place) (m : Message) : preorder p m = (p, m) :: preorderInside p 0 m.nested := by
  cases m
  rfl

/-- enums side by side -/
def enumsInside (around : Place) (enums : List Enum) : List (Place × Enum) :=
  enums.zipIdx.map fun (e, number) => (around.inner number e.name, e)

/-- the messages of a file in pre-order -/
def messagesOf (number : Nat) (file : File) : List (Place × Message) :=
  preorderInside (.ofFile number file) 0 file.messages

/-- the enums of a file: those at the top, then those inside its messages, in pre-order of the messages -/
def enumsOf (number : Nat) (file : File) : List (Place × Enum) :=
  enumsInside (.ofFile number file) file.enums ++
    (messagesOf number file).flatMap fun (p, m) => enumsInside p m.enums

/-- a listing of files one after the other, the first with the given number -/
def listFrom {α : Type} (listing : Nat → File → List α) (number : Nat) : List File → List α
  | [] => []
  | file :: rest => listing number file ++ listFrom listing (number + 1) rest

/-- the messages of a batch -/
def batchMessages (files : List File) : List (Place × Message) := listFrom messagesOf 0 files

/-- the enums of a batch -/
def batchEnums (files : List File) : List (Place × Enum) := listFrom enumsOf 0 files

theorem mem_listFrom {α : Type} {listing : Nat → File → List α} {number : Nat} {files : List File} {a : α} :
    a ∈ listFrom listing number files ↔ ∃ k file, files[k]? = some file ∧ a ∈ listing (number + k) file := by
  induction files generalizing number with
  | nil => simp [listFrom]
  | cons file rest ih =>
    rw [listFrom, List.mem_append, ih]
    constructor
    · rintro (ha | ⟨k, file', hf, ha⟩)
      · exact ⟨0, file, rfl, ha⟩
      · exact ⟨k + 1, file', hf, by rwa [Nat.add_right_comm] at ha⟩
    · rintro ⟨k, file', hf, ha⟩
      cases k with
      | zero =>
        cases hf
        exact Or.inl ha
      | succ k => exact Or.inr ⟨k, file', hf, by rwa [Nat.add_right_comm]⟩

/-- the position of the message at a place -/
def positionOf (files : List File) (p : Place) : Option Nat := ((batchMessages files).map Prod.fst).idxOf? p

/-! ## Addresses -/

mutual

/-- what holds of a place, and of every place inside one of which it holds, holds of all messages listed there -/
theorem preorder_keeps {P : Place → Prop} (hstep : ∀ q number name, P q → P (q.inner number name)) {p : Place}
    (hp : P p) (m : Message) : ∀ e ∈ preorder p m, P e.1 := by
  match m with
  | ⟨name, fields, nested, enums, oneofs, extensions⟩ =>
    exact List.forall_mem_cons.2 ⟨hp, preorderInside_keeps hstep hp 0 nested⟩

theorem preorderInside_keeps {P : Place → Prop} (hstep : ∀ q number name, P q → P (q.inner number name))
    {around : Place} (hp : P around) (number : Nat) (ms : List Message) :
    ∀ e ∈ preorderInside around number ms, P e.1 := by
  match ms with
  | [] => exact fun e he => absurd he List.not_mem_nil
  | m :: rest =>
    intro e he
    rcases List.mem_append.1 he with he | he
    · exact preorder_keeps hstep (hstep around number m.name hp) m e he
    · exact preorderInside_keeps hstep hp (number + 1) rest e he

end

theorem suffix_of_mem_preorder {p : Place} {m : Message} {e : Place × Message} (he : e ∈ preorder p m) :
    p.address <:+ e.1.address :=
  preorder_keeps (P := fun q => p.address <:+ q.address)
    (fun _ number _ h => h.trans (List.suffix_cons number _)) (List.suffix_refl _) m e he

theorem suffix_of_mem_preorderInside {around : Place} {number : Nat} {ms : List Message} {e : Place × Message}
    (he : e ∈ preorderInside around number ms) : ∃ k, number ≤ k ∧ (k :: around.address) <:+ e.1.address := by
  induction ms generalizing number with
  | nil => cases he
  | cons m rest ih =>
    rcases List.mem_append.1 he with he | he
    · exact ⟨number, Nat.le_refl _, suffix_of_mem_preorder he⟩
    · obtain ⟨k, hk, h⟩ := ih he
      exact ⟨k, by omega, h⟩

/-- the messages of a file bear its name and package -/
theorem file_of_mem_messagesOf {number : Nat} {file : File} {e : Place × Message} (he : e ∈ messagesOf number file) :
    e.1.file = file.name ∧ e.1.package = file.package :=
  preorderInside_keeps (P := fun q => q.file = file.name ∧ q.package = file.package) (fun _ _ _ h => h) ⟨rfl, rfl⟩
    0 file.messages e he

/-- two lists of one length that end one list are the same -/
theorem eq_of_suffix {α : Type} {a b l : List α} (ha : a <:+ l) (hb : b <:+ l) (h : a.length = b.length) : a = b :=
  List.IsSuffix.eq_of_length (List.suffix_of_suffix_length_le ha hb (Nat.le_of_eq h)) h

mutual

theorem preorder_nodup (p : Place) (m : Message) : ((preorder p m).map (·.1.address)).Nodup := by
  match m with
  | ⟨name, fields, nested, enums, oneofs, extensions⟩ =>
    refine List.nodup_cons.2 ⟨fun h => ?_, preorderInside_nodup p 0 nested⟩
    obtain ⟨e, he, heq⟩ := List.mem_map.1 h
    obtain ⟨k, _, hk⟩ := suffix_of_mem_preorderInside he
    have hl := hk.length_le
    simp only [heq, List.length_cons] at hl
    omega

theorem preorderInside_nodup (around : Place) (number : Nat) (ms : List Message) :
    ((preorderInside around number ms).map (·.1.address)).Nodup := by
  match ms with
  | [] => exact List.nodup_nil
  | m :: rest =>
    rw [preorderInside, List.map_append]
    refine List.Nodup.append (preorder_nodup _ m) (preorderInside_nodup around (number + 1) rest) ?_
    intro a ha hb
    obtain ⟨e, he, rfl⟩ := List.mem_map.1 ha
    obtain ⟨e', he', heq⟩ := List.mem_map.1 hb
    have h1 := suffix_of_mem_preorder he
    obtain ⟨k, hk, h2⟩ := suffix_of_mem_preorderInside he'
    rw [heq] at h2
    have := eq_of_suffix h1 h2 rfl
    simp only [Place.inner, List.cons.injEq] at this
    omega

end

theorem suffix_of_mem_messagesOf {number : Nat} {file : File} {e : Place × Message} (he : e ∈ messagesOf number file) :
    [number] <:+ e.1.address := by
  obtain ⟨k, _, hk⟩ := suffix_of_mem_preorderInside he
  exact (List.suffix_cons k [number]).trans hk

theorem suffix_of_mem_listFrom {number : Nat} {files : List File} {e : Place × Message}
    (he : e ∈ listFrom messagesOf number files) : ∃ k, number ≤ k ∧ [k] <:+ e.1.address := by
  obtain ⟨k, file, _, he⟩ := mem_listFrom.1 he
  exact ⟨number + k, Nat.le_add_right _ _, suffix_of_mem_messagesOf he⟩

theorem listFrom_nodup (number : Nat) (files : List File) :
    ((listFrom messagesOf number files).map (·.1.address)).Nodup := by
  induction files generalizing number with
  | nil => exact List.nodup_nil
  | cons file rest ih =>
    rw [listFrom, List.map_append]
    refine List.Nodup.append (preorderInside_nodup _ _ _) (ih (number + 1)) ?_
    intro a ha hb
    obtain ⟨e, he, rfl⟩ := List.mem_map.1 ha
    obtain ⟨e', he', heq⟩ := List.mem_map.1 hb
    have h1 := suffix_of_mem_messagesOf he
    obtain ⟨k, hk, h2⟩ := suffix_of_mem_listFrom he'
    rw [heq] at h2
    have := eq_of_suffix h1 h2 rfl
    simp only [List.cons.injEq, and_true] at this
    omega

/-- **Distinct addresses**: no two messages of a batch have one address. -/
theorem batchMessages_nodup (files : List File) : ((batchMessages files).map (·.1.address)).Nodup :=
  listFrom_nodup 0 files

theorem positionOf_eq_some_iff {files : List File} {p : Place} {i : Nat} :
    positionOf files p = some i ↔ ∃ m, (batchMessages files)[i]? = some (p, m) := by
  unfold positionOf
  rw [List.idxOf?_eq_some_iff]
  constructor
  · rintro ⟨hi, hp, _⟩
    rw [List.length_map] at hi
    refine ⟨(batchMessages files)[i].2, ?_⟩
    rw [List.getElem?_eq_getElem hi, ← hp, List.getElem_map]
  · rintro ⟨m, hm⟩
    obtain ⟨hi, hm⟩ := List.getElem?_eq_some_iff.1 hm
    refine ⟨by rwa [List.length_map], by rw [List.getElem_map, hm], fun j hj hjp => ?_⟩
    -- an earlier place of the same address would break `batchMessages_nodup`
    have hj' : j < (batchMessages files).length := by omega
    rw [List.getElem_map] at hjp
    have hadr : ((batchMessages files).map (·.1.address))[i]? = ((batchMessages files).map (·.1.address))[j]? := by
      rw [List.getElem?_map, List.getElem?_map, List.getElem?_eq_getElem hi, List.getElem?_eq_getElem hj',
        Option.map_some, Option.map_some, hm, hjp]
    have := (List.getElem?_inj (by rwa [List.length_map]) (batchMessages_nodup files)).1 hadr
    omega

/-- the position of a listed place is its number in the list -/
theorem positionOf_getElem {files : List File} {i : Nat} {e : Place × Message}
    (h : (batchMessages files)[i]? = some e) : positionOf files e.1 = some i :=
  positionOf_eq_some_iff.2 ⟨e.2, h⟩

/-! ## What is around a declaration -/

/-- the declaration is one of those given, right inside the place `around` -/
def StandsIn {α : Type} (name : α → String) (around : Place) (ds : List α) (e : Place × α) : Prop :=
  ∃ number, ds[number]? = some e.2 ∧ e.1 = around.inner number (name e.2)

/-- the message stands right inside a message that is listed before position `i` -/
def InsideEarlier (l : List (Place × Message)) (i : Nat) (e : Place × Message) : Prop :=
  ∃ j e', j < i ∧ l[j]? = some e' ∧ StandsIn Message.name e'.1 e'.2.nested e

theorem InsideEarlier.append {l : List (Place × Message)} {i : Nat} {e : Place × Message} (h : InsideEarlier l i e)
    (l' : List (Place × Message)) : InsideEarlier (l ++ l') i e := by
  obtain ⟨j, e', hj, he', hin⟩ := h
  obtain ⟨hl, _⟩ := List.getElem?_eq_some_iff.1 he'
  exact ⟨j, e', hj, by rw [List.getElem?_append_left hl, he'], hin⟩

theorem InsideEarlier.after {l : List (Place × Message)} {i : Nat} {e : Place × Message} (h : InsideEarlier l i e)
    (l' : List (Place × Message)) : InsideEarlier (l' ++ l) (l'.length + i) e := by
  obtain ⟨j, e', hj, he', hin⟩ := h
  refine ⟨l'.length + j, e', by omega, ?_, hin⟩
  rw [List.getElem?_append_right (by omega), Nat.add_sub_cancel_left, he']

mutual

theorem preorder_stands (p : Place) (m : Message) {i : Nat} {e : Place × Message}
    (h : (preorder p m)[i]? = some e) : (i = 0 ∧ e = (p, m)) ∨ InsideEarlier (preorder p m) i e := by
  match m, i with
  | ⟨name, fields, nested, enums, oneofs, extensions⟩, 0 =>
    left
    exact ⟨rfl, (Option.some.inj h).symm⟩
  | ⟨name, fields, nested, enums, oneofs, extensions⟩, i + 1 =>
    right
    rcases preorderInside_stands p 0 nested h with ⟨k, hk, hp⟩ | hin
    · exact ⟨0, _, by omega, rfl, k, hk, by rw [hp, Nat.zero_add]⟩
    · rw [preorder_eq, Nat.add_comm]
      exact hin.after [_]

theorem preorderInside_stands (around : Place) (number : Nat) (ms : List Message) {i : Nat} {e : Place × Message}
    (h : (preorderInside around number ms)[i]? = some e) :
    (∃ k, ms[k]? = some e.2 ∧ e.1 = around.inner (number + k) e.2.name) ∨
      InsideEarlier (preorderInside around number ms) i e := by
  match ms with
  | [] => cases h
  | m :: rest =>
    rw [preorderInside] at h ⊢
    by_cases hi : i < (preorder (around.inner number m.name) m).length
    · rw [List.getElem?_append_left hi] at h
      rcases preorder_stands _ m h with ⟨rfl, rfl⟩ | hin
      · exact Or.inl ⟨0, rfl, rfl⟩
      · exact Or.inr (hin.append _)
    · rw [List.getElem?_append_right (by omega)] at h
      rcases preorderInside_stands around (number + 1) rest h with ⟨k, hk, hp⟩ | hin
      · exact Or.inl ⟨k + 1, hk, by rw [hp]; congr 1; omega⟩
      · right
        have := hin.after (preorder (around.inner number m.name) m)
        rwa [Nat.add_sub_cancel' (by omega)] at this

end

theorem listFrom_stand (number : Nat) (files : List File) {i : Nat} {e : Place × Message}
    (h : (listFrom messagesOf number files)[i]? = some e) :
    (∃ k file, files[k]? = some file ∧ StandsIn Message.name (.ofFile (number + k) file) file.messages e) ∨
      InsideEarlier (listFrom messagesOf number files) i e := by
  induction files generalizing number i with
  | nil => cases h
  | cons file rest ih =>
    rw [listFrom] at h ⊢
    by_cases hi : i < (messagesOf number file).length
    · rw [List.getElem?_append_left hi] at h
      rcases preorderInside_stands _ _ _ h with ⟨k, hk, hp⟩ | hin
      · exact Or.inl ⟨0, file, rfl, k, hk, by rw [hp, Nat.zero_add]; rfl⟩
      · exact Or.inr (hin.append _)
    · rw [List.getElem?_append_right (by omega)] at h
      rcases ih (number + 1) h with ⟨k, file', hf, hin⟩ | hin
      · refine Or.inl ⟨k + 1, file', hf, ?_⟩
        rwa [Nat.add_right_comm] at hin
      · right
        have := hin.after (messagesOf number file)
        rwa [Nat.add_sub_cancel' (by omega)] at this

/-- **Around a message**: it stands at the top of its file, or right inside a message listed before it. -/
theorem batchMessages_stands {files : List File} {i : Nat} {e : Place × Message}
    (h : (batchMessages files)[i]? = some e) :
    (∃ number file, files[number]? = some file ∧ StandsIn Message.name (.ofFile number file) file.messages e) ∨
      InsideEarlier (batchMessages files) i e := by
  rcases listFrom_stand 0 files h with ⟨k, file, hf, hin⟩ | hin
  · exact Or.inl ⟨k, file, hf, by rwa [Nat.zero_add] at hin⟩
  · exact Or.inr hin

theorem mem_enumsInside {around : Place} {enums : List Enum} {e : Place × Enum} :
    e ∈ enumsInside around enums ↔ StandsIn Enum.name around enums e := by
  obtain ⟨p, e⟩ := e
  simp only [enumsInside, StandsIn, List.mem_map, Prod.exists, Prod.mk.injEq, List.mk_mem_zipIdx_iff_getElem?]
  constructor
  · rintro ⟨e', k, hk, rfl, rfl⟩
    exact ⟨k, hk, rfl⟩
  · rintro ⟨k, hk, rfl⟩
    exact ⟨e, k, hk, rfl, rfl⟩

/-- the enums of a file bear its name and package -/
theorem file_of_mem_enumsOf {number : Nat} {file : File} {e : Place × Enum} (he : e ∈ enumsOf number file) :
    e.1.file = file.name ∧ e.1.package = file.package := by
  rcases List.mem_append.1 he with he | he
  · obtain ⟨k, _, hplace⟩ := mem_enumsInside.1 he
    rw [hplace]
    exact ⟨rfl, rfl⟩
  · obtain ⟨e', he', hin⟩ := List.mem_flatMap.1 he
    obtain ⟨k, _, hplace⟩ := mem_enumsInside.1 hin
    rw [hplace]
    exact file_of_mem_messagesOf he'

/-- **Around an enum**: it stands at the top of its file, or right inside a listed message. -/
theorem batchEnums_stand {files : List File} {e : Place × Enum} (h : e ∈ batchEnums files) :
    (∃ number file, files[number]? = some file ∧ StandsIn Enum.name (.ofFile number file) file.enums e) ∨
      ∃ e' ∈ batchMessages files, StandsIn Enum.name e'.1 e'.2.enums e := by
  obtain ⟨k, file, hf, h⟩ := mem_listFrom.1 h
  rcases List.mem_append.1 h with h | h
  · exact Or.inl ⟨k, file, hf, by simpa using mem_enumsInside.1 h⟩
  · obtain ⟨e', he', h⟩ := List.mem_flatMap.1 h
    exact Or.inr ⟨e', mem_listFrom.2 ⟨k, file, hf, he'⟩, mem_enumsInside.1 h⟩

/-- no message stands at the place around a file's declarations -/
theorem positionOf_ofFile (files : List File) (number : Nat) (file : File) :
    positionOf files (.ofFile number file) = none := by
  cases hp : positionOf files (.ofFile number file) with
  | none => rfl
  | some i =>
    obtain ⟨m, hm⟩ := positionOf_eq_some_iff.1 hp
    rcases batchMessages_stands hm with ⟨_, _, _, _, _, h⟩ | ⟨_, _, _, _, _, _, h⟩
    · exact absurd (congrArg Place.path h) (by simp [Place.ofFile, Place.inner])
    · exact absurd (congrArg Place.path h) (by simp [Place.ofFile, Place.inner])

/-! ## A sample batch -/

/-- a message with the messages given inside it -/
def sampleOrder (nested : List Message) : Message where
  name := "Order"
  fields := [
    { name := "lines", number := 1, label := some 3, type := some 11, typeName := ".shop.Order.Line" },
    { name := "state", number := 2, label := some 1, type := some 14, typeName := ".shop.Order.State" },
    { name := "card", number := 3, label := some 1, type := some 9, oneofIndex := some 0 },
    { name := "payer", number := 4, label := some 1, type := some 11, typeName := ".party.Person",
      oneofIndex := some 0 }]
  nested
  enums := [{ name := "State", values := [⟨"OPEN", 0⟩, ⟨"SENT", 1⟩] }]
  oneofs := ["payment"]

def sampleLine : Message where
  name := "Line"
  fields := [
    { name := "order", number := 1, label := some 2, type := some 11, typeName := ".shop.Order" },
    { name := "unit", number := 2, label := some 2, type := some 14, typeName := ".shop.Order.Line.Unit" }]
  enums := [{ name := "Unit", values := [⟨"KILO", 7⟩, ⟨"PIECE", 0⟩] }]

def sampleRefund : Message where
  name := "Refund"
  enums := [{ name := "Reason", values := [⟨"LATE", 0⟩] }]

def sampleShop (messages : List Message) : File where
  name := "shop/order.proto"
  package := "shop"
  messages

def sampleParty : File where
  name := "party/person.proto"
  package := "party"
  messages := [
    { name := "Person"
      fields := [{ name := "last", number := 1, label := some 1, type := some 11, typeName := ".shop.Order" }] }]
  enums := [{ name := "Role", values := [⟨"BUYER", 0⟩] }]

/-- two files with references in a circle, and enums at three depths -/
def sampleFiles : List File :=
  [sampleShop [sampleOrder [sampleLine, { name := "Note" }], sampleRefund], sampleParty]

end ErlangRecords
