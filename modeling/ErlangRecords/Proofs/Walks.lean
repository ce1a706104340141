/-
The two walks over a batch add exactly the listed declarations.

The first walk numbers the messages as it adds them; the second counts the messages it enters and never looks at them
again. Both counts agree with the listing, so every declaration gets the position of the message around it.

- `ofFiles_eq_listings`: the schema of a batch, faults included, is made by inserting its messages and then its enums in
  the order of the listings, every one under the declaration that its place gives.
- `MessageNode`, `foldlM_declareMessage`: what stands at each position then.
- `namesAround_of_nodes`: the names along the parents of a message are the path of its place.
-/
import ErlangRecords.Proofs.Insertion
import ErlangRecords.Proofs.Listing

namespace ErlangRecords

open Descriptor (File Message Enum)

/-! ## Names along the parents -/

theorem namesAround_none (messages : List MessageDecl) : namesAround messages none = [] := by
  rw [namesAround]

theorem namesAround_some {messages : List MessageDecl} {position : Nat} {m : MessageDecl}
    (h : messages[position]? = some m) :
    namesAround messages (some position) = m.name :: namesAround (messages.take position) m.parent := by
  rw [namesAround]
  split
  · rw [h] at *
    contradiction
  · rename_i m' h'
    rw [h] at h'
    rw [Option.some.inj h']

/-- later messages play no part -/
theorem namesAround_append {messages : List MessageDecl} {position : Nat} (h : position < messages.length)
    (later : List MessageDecl) :
    namesAround (messages ++ later) (some position) = namesAround messages (some position) := by
  have hm : messages[position]? = some messages[position] := List.getElem?_eq_getElem h
  have hm' : (messages ++ later)[position]? = some messages[position] := by rw [List.getElem?_append_left h, hm]
  rw [namesAround_some hm, namesAround_some hm', List.take_append_of_le_length (Nat.le_of_lt h)]

/-! ## Insertions by place -/

/-- inserts a listed message; `pos` gives the positions of places -/
def declareMessage (pos : Place → Option Nat) (schema : Schema) (e : Place × Message) : Except SchemaFault Schema :=
  schema.insertMessage (e.1.declaration (pos e.1.outer)) e.2

/-- inserts a listed enum -/
def declareEnum (pos : Place → Option Nat) (schema : Schema) (e : Place × Enum) : Except SchemaFault Schema :=
  schema.insertEnum (e.1.declaration (pos e.1.outer)) e.2

/-- the message that a listed one becomes at a position -/
def MessageNode (pos : Place → Option Nat) (e : Place × Message) (position : Nat) (m : MessageDecl) : Prop :=
  ∃ body, bodyOf e.2 = .ok body ∧
    m = { e.1.declaration (pos e.1.outer) with fields := body.1, oneofs := body.2.map (·.ownedBy position) }

/-- the enum that a listed one becomes -/
def enumNode (pos : Place → Option Nat) (e : Place × Enum) : EnumDecl :=
  EnumDecl.ofDescriptor (e.1.declaration (pos e.1.outer)) e.2

theorem foldlM_declareMessage {pos : Place → Option Nat} {l : List (Place × Message)} {schema after : Schema}
    (h : l.foldlM (declareMessage pos) schema = .ok after) :
    after.enums = schema.enums ∧ ∃ new, after.messages = schema.messages ++ new ∧ new.length = l.length ∧
      ∀ i e, l[i]? = some e → ∃ m, new[i]? = some m ∧ MessageNode pos e (schema.messages.length + i) m := by
  induction l generalizing schema with
  | nil =>
    cases h
    exact ⟨rfl, [], by simp⟩
  | cons e l ih =>
    rw [List.foldlM_cons, bind_eq_ok] at h
    obtain ⟨s1, h1, h2⟩ := h
    obtain ⟨body, hb, _, rfl⟩ := Schema.insertMessage_eq_ok_iff.1 h1
    obtain ⟨henums, new, hnew, hlen, hnodes⟩ := ih h2
    refine ⟨henums, _ :: new, by rw [hnew, List.append_assoc]; rfl, by rw [List.length_cons, hlen]; rfl, ?_⟩
    intro i e' he'
    cases i with
    | zero =>
      cases he'
      exact ⟨_, rfl, body, hb, rfl⟩
    | succ i =>
      obtain ⟨m, hm, hnode⟩ := hnodes i e' he'
      refine ⟨m, hm, ?_⟩
      rwa [List.length_append, List.length_singleton, Nat.add_assoc, Nat.add_comm 1] at hnode

theorem foldlM_declareEnum {pos : Place → Option Nat} {l : List (Place × Enum)} {schema after : Schema}
    (h : l.foldlM (declareEnum pos) schema = .ok after) :
    after.messages = schema.messages ∧ after.enums = schema.enums ++ l.map (enumNode pos) ∧
      ∀ e ∈ l, e.2.values ≠ [] := by
  induction l generalizing schema with
  | nil =>
    cases h
    exact ⟨rfl, by simp⟩
  | cons e l ih =>
    rw [List.foldlM_cons, bind_eq_ok] at h
    obtain ⟨s1, h1, h2⟩ := h
    obtain ⟨hv, _, rfl⟩ := Schema.insertEnum_eq_ok_iff.1 h1
    obtain ⟨hmessages, henums, hvs⟩ := ih h2
    refine ⟨hmessages, by rw [henums, List.append_assoc]; rfl, ?_⟩
    exact List.forall_mem_cons.2 ⟨hv, hvs⟩

/-! ## The walk over the messages -/

/-- the positions run through the listed messages, from `start` on -/
def Numbers (pos : Place → Option Nat) (start : Nat) (l : List (Place × Message)) : Prop :=
  ∀ i e, l[i]? = some e → pos e.1 = some (start + i)

theorem Numbers.left {pos : Place → Option Nat} {start : Nat} {l l' : List (Place × Message)}
    (h : Numbers pos start (l ++ l')) : Numbers pos start l := by
  intro i e he
  obtain ⟨hi, _⟩ := List.getElem?_eq_some_iff.1 he
  exact h i e (by rw [List.getElem?_append_left hi, he])

theorem Numbers.right {pos : Place → Option Nat} {start : Nat} {l l' : List (Place × Message)}
    (h : Numbers pos start (l ++ l')) : Numbers pos (start + l.length) l' := by
  intro i e he
  have := h (l.length + i) e (by rw [List.getElem?_append_right (by omega), Nat.add_sub_cancel_left, he])
  rw [this]
  congr 1
  omega

theorem Numbers.head {pos : Place → Option Nat} {start : Nat} {e : Place × Message} {l : List (Place × Message)}
    (h : Numbers pos start (e :: l)) : pos e.1 = some start :=
  h 0 e rfl

theorem Numbers.tail {pos : Place → Option Nat} {start : Nat} {e : Place × Message} {l : List (Place × Message)}
    (h : Numbers pos start (e :: l)) : Numbers pos (start + 1) l :=
  Numbers.right (l := [e]) h

/-- the place lies in the file, and its path is read along the parents -/
structure Placed (pos : Place → Option Nat) (messages : List MessageDecl) (file : File) (p : Place) : Prop where
  fileName : p.file = file.name
  packageName : p.package = file.package
  names : namesAround messages (pos p) = p.path

theorem placed_ofFile {pos : Place → Option Nat} (messages : List MessageDecl) {number : Nat} {file : File}
    (h : pos (.ofFile number file) = none) : Placed pos messages file (.ofFile number file) :=
  ⟨rfl, rfl, by rw [h, namesAround_none]; rfl⟩

theorem Placed.append {pos : Place → Option Nat} {messages : List MessageDecl} {file : File} {p : Place}
    (h : Placed pos messages file p) (hp : ∀ q, pos p = some q → q < messages.length) (later : List MessageDecl) :
    Placed pos (messages ++ later) file p := by
  refine ⟨h.fileName, h.packageName, ?_⟩
  rw [← h.names]
  cases hq : pos p with
  | none => rw [namesAround_none, namesAround_none]
  | some q => exact namesAround_append (hp q hq) later

/-- what the walk calls a declaration is what its place calls it -/
theorem Placed.declaration {pos : Place → Option Nat} {schema : Schema} {file : File} {around : Place}
    (h : Placed pos schema.messages file around) (number : Nat) (name : String) :
    schema.declaration file (pos around) name = (around.inner number name).declaration (pos around) := by
  simp [Schema.declaration, Place.declaration, Place.inner, h.fileName, h.packageName, h.names]

/-- a message just inserted is placed -/
theorem Placed.inner {pos : Place → Option Nat} {messages : List MessageDecl} {file : File} {around : Place}
    (h : Placed pos messages file around) {number : Nat} {name : String} {m : MessageDecl} (hname : m.name = name)
    (hparent : m.parent = pos around) (hpos : pos (around.inner number name) = some messages.length) :
    Placed pos (messages ++ [m]) file (around.inner number name) := by
  refine ⟨h.fileName, h.packageName, ?_⟩
  have hm : (messages ++ [m])[messages.length]? = some m := by simp
  rw [hpos, namesAround_some hm, List.take_left, hname, hparent, h.names]
  rfl

mutual

/-- adding a message adds it and those nested in it, in pre-order -/
theorem addMessage_eq {pos : Place → Option Nat} {file : File} {around : Place} (number : Nat) (m : Message)
    {schema : Schema} (hp : Placed pos schema.messages file around)
    (hn : Numbers pos schema.messages.length (preorder (around.inner number m.name) m)) :
    Schema.addMessage file (pos around) schema m =
      (preorder (around.inner number m.name) m).foldlM (declareMessage pos) schema := by
  match m with
  | ⟨name, fields, nested, enums, oneofs, extensions⟩ =>
    rw [preorder_eq] at hn ⊢
    rw [List.foldlM_cons, Schema.addMessage, hp.declaration number name]
    refine bind_congr_ok fun after hafter => ?_
    obtain ⟨body, _, _, rfl⟩ := Schema.insertMessage_eq_ok_iff.1 hafter
    rw [← hn.head]
    refine addMessages_eq 0 nested (hp.inner rfl rfl hn.head) (fun q hq => ?_) ?_
    · rw [hn.head] at hq
      simp only [Option.some.injEq] at hq
      simp [← hq]
    · have := hn.tail
      simpa using this

/-- the same for messages side by side -/
theorem addMessages_eq {pos : Place → Option Nat} {file : File} {around : Place} (number : Nat) (ms : List Message)
    {schema : Schema} (hp : Placed pos schema.messages file around)
    (hbefore : ∀ q, pos around = some q → q < schema.messages.length)
    (hn : Numbers pos schema.messages.length (preorderInside around number ms)) :
    Schema.addMessages file (pos around) schema ms =
      (preorderInside around number ms).foldlM (declareMessage pos) schema := by
  match ms with
  | [] => rfl
  | m :: rest =>
    rw [preorderInside] at hn ⊢
    rw [List.foldlM_append, Schema.addMessages, addMessage_eq number m hp hn.left]
    refine bind_congr_ok fun after hafter => ?_
    obtain ⟨_, new, hnew, hlen, _⟩ := foldlM_declareMessage hafter
    refine addMessages_eq (number + 1) rest ?_ (fun q hq => ?_) ?_
    · rw [hnew]
      exact hp.append hbefore new
    · rw [hnew, List.length_append]
      have := hbefore q hq
      omega
    · rw [hnew, List.length_append, hlen]
      exact hn.right

end

theorem addFileMessages_eq {pos : Place → Option Nat} {number : Nat} {file : File} {schema : Schema}
    (hpos : pos (.ofFile number file) = none) (hn : Numbers pos schema.messages.length (messagesOf number file)) :
    Schema.addFileMessages schema file = (messagesOf number file).foldlM (declareMessage pos) schema := by
  have := addMessages_eq 0 file.messages (placed_ofFile schema.messages hpos) (by simp [hpos]) hn
  rw [hpos] at this
  exact this

theorem foldlM_addFileMessages {pos : Place → Option Nat} (hpos : ∀ number file, pos (.ofFile number file) = none)
    (number : Nat) (files : List File) {schema : Schema}
    (hn : Numbers pos schema.messages.length (listFrom messagesOf number files)) :
    files.foldlM Schema.addFileMessages schema =
      (listFrom messagesOf number files).foldlM (declareMessage pos) schema := by
  induction files generalizing number schema with
  | nil => rfl
  | cons file rest ih =>
    rw [listFrom] at hn ⊢
    rw [List.foldlM_append, List.foldlM_cons, addFileMessages_eq (hpos number file) hn.left]
    refine bind_congr_ok fun after hafter => ih (number + 1) ?_
    obtain ⟨_, new, hnew, hlen, _⟩ := foldlM_declareMessage hafter
    rw [hnew, List.length_append, hlen]
    exact hn.right

/-! ## The walk over the enums -/

/-- **Paths are read along the parents**: where every listed message stands at its position, the names from there
outwards are the path of its place. -/
theorem namesAround_of_nodes {files : List File} {messages : List MessageDecl}
    (hnodes : ∀ i e, (batchMessages files)[i]? = some e →
      ∃ m, messages[i]? = some m ∧ MessageNode (positionOf files) e i m)
    {i : Nat} {e : Place × Message} (he : (batchMessages files)[i]? = some e) :
    namesAround messages (some i) = e.1.path := by
  -- the parent stands at an earlier position
  induction i using Nat.strongRecOn generalizing e with
  | ind i ih =>
    obtain ⟨m, hm, body, _, rfl⟩ := hnodes i e he
    rw [namesAround_some hm]
    rcases batchMessages_stands he with ⟨number, file, _, k, _, hplace⟩ | ⟨j, e', hj, he', k, _, hplace⟩
    · simp only [Place.declaration, hplace, Place.outer_inner, positionOf_ofFile, namesAround_none]
      rfl
    · have hlen : i < messages.length := (List.getElem?_eq_some_iff.1 hm).1
      have htake : namesAround (messages.take i) (some j) = namesAround messages (some j) := by
        have hj' : j < (messages.take i).length := by
          rw [List.length_take]
          omega
        rw [← namesAround_append hj' (messages.drop i), List.take_append_drop]
      simp only [Place.declaration, hplace, Place.outer_inner, positionOf_getElem he', htake, ih j hj he']
      rfl

/-- the enums inside one message or at the top of one file -/
theorem foldlM_addEnum {pos : Place → Option Nat} {file : File} {around : Place} (number : Nat) (enums : List Enum)
    {schema : Schema} (hp : Placed pos schema.messages file around) :
    enums.foldlM (Schema.addEnum file (pos around)) schema =
      ((enums.zipIdx number).map fun (e, number) => (around.inner number e.name, e)).foldlM (declareEnum pos)
        schema := by
  induction enums generalizing number schema with
  | nil => rfl
  | cons e rest ih =>
    rw [List.zipIdx_cons, List.map_cons, List.foldlM_cons, List.foldlM_cons]
    have hstep : Schema.addEnum file (pos around) schema e =
        declareEnum pos schema (around.inner number e.name, e) := by
      rw [Schema.addEnum, hp.declaration number e.name]
      rfl
    rw [hstep]
    refine bind_congr_ok fun after hafter => ih (number + 1) ?_
    obtain ⟨_, _, rfl⟩ := Schema.insertEnum_eq_ok_iff.1 hafter
    exact hp

/-- the enums inside messages that are listed -/
def enumsWithin (l : List (Place × Message)) : List (Place × Enum) := l.flatMap fun (p, m) => enumsInside p m.enums

theorem enumsWithin_cons (e : Place × Message) (l : List (Place × Message)) :
    enumsWithin (e :: l) = enumsInside e.1 e.2.enums ++ enumsWithin l := rfl

theorem enumsWithin_append (l l' : List (Place × Message)) : enumsWithin (l ++ l') = enumsWithin l ++ enumsWithin l' :=
  List.flatMap_append

mutual

/-- **The counter keeps step**: walking into a message whose position is the counter, every enum is added inside the
message around it, and the counter moves on by the number of messages entered. -/
theorem addNestedEnums_eq {pos : Place → Option Nat} {file : File} {around : Place} (number : Nat) (m : Message)
    {schema : Schema} {cursor : Nat} (hn : Numbers pos cursor (preorder (around.inner number m.name) m))
    (hp : ∀ e ∈ preorder (around.inner number m.name) m, Placed pos schema.messages file e.1) :
    Schema.addNestedEnums file (schema, cursor) m =
      (enumsWithin (preorder (around.inner number m.name) m)).foldlM (declareEnum pos) schema >>= fun after =>
        .ok (after, cursor + (preorder (around.inner number m.name) m).length) := by
  match m with
  | ⟨name, fields, nested, enums, oneofs, extensions⟩ =>
    rw [preorder_eq] at hn hp ⊢
    obtain ⟨hhere, hinside⟩ := List.forall_mem_cons.1 hp
    rw [enumsWithin_cons, List.foldlM_append, bind_assoc, Schema.addNestedEnums, ← hn.head,
      foldlM_addEnum 0 enums hhere]
    refine bind_congr_ok fun after hafter => ?_
    obtain ⟨hmessages, _, _⟩ := foldlM_declareEnum hafter
    rw [← hmessages] at hinside
    rw [addEnumsInside_eq 0 nested hn.tail hinside, List.length_cons, Nat.add_assoc, Nat.add_comm 1]

/-- the same for messages side by side -/
theorem addEnumsInside_eq {pos : Place → Option Nat} {file : File} {around : Place} (number : Nat)
    (ms : List Message) {schema : Schema} {cursor : Nat} (hn : Numbers pos cursor (preorderInside around number ms))
    (hp : ∀ e ∈ preorderInside around number ms, Placed pos schema.messages file e.1) :
    Schema.addEnumsInside file (schema, cursor) ms =
      (enumsWithin (preorderInside around number ms)).foldlM (declareEnum pos) schema >>= fun after =>
        .ok (after, cursor + (preorderInside around number ms).length) := by
  match ms with
  | [] => rfl
  | m :: rest =>
    rw [preorderInside] at hn hp ⊢
    rw [enumsWithin_append, List.foldlM_append, bind_assoc, Schema.addEnumsInside,
      addNestedEnums_eq number m hn.left (fun e he => hp e (List.mem_append_left _ he)), bind_assoc]
    refine bind_congr_ok fun after hafter => ?_
    obtain ⟨hmessages, _, _⟩ := foldlM_declareEnum hafter
    have hrest : ∀ e ∈ preorderInside around (number + 1) rest, Placed pos after.messages file e.1 := by
      rw [hmessages]
      exact fun e he => hp e (List.mem_append_right _ he)
    have := addEnumsInside_eq (number + 1) rest hn.right hrest
    rw [List.length_append, ← Nat.add_assoc]
    exact this

end

theorem addFileEnums_eq {pos : Place → Option Nat} {number : Nat} {file : File} {schema : Schema} {cursor : Nat}
    (hpos : pos (.ofFile number file) = none) (hn : Numbers pos cursor (messagesOf number file))
    (hp : ∀ e ∈ messagesOf number file, Placed pos schema.messages file e.1) :
    Schema.addFileEnums (schema, cursor) file =
      (enumsOf number file).foldlM (declareEnum pos) schema >>= fun after =>
        .ok (after, cursor + (messagesOf number file).length) := by
  have htop := foldlM_addEnum 0 file.enums (placed_ofFile schema.messages hpos)
  rw [hpos] at htop
  rw [enumsOf, List.foldlM_append, bind_assoc, Schema.addFileEnums, htop]
  refine bind_congr_ok fun after hafter => ?_
  obtain ⟨hmessages, _, _⟩ := foldlM_declareEnum hafter
  rw [← hmessages] at hp
  exact addEnumsInside_eq 0 file.messages hn hp

theorem foldlM_addFileEnums {pos : Place → Option Nat} (hpos : ∀ number file, pos (.ofFile number file) = none)
    (number : Nat) (files : List File) {schema : Schema} {cursor : Nat}
    (hn : Numbers pos cursor (listFrom messagesOf number files))
    (hp : ∀ e ∈ listFrom messagesOf number files, namesAround schema.messages (pos e.1) = e.1.path) :
    files.foldlM Schema.addFileEnums (schema, cursor) =
      (listFrom enumsOf number files).foldlM (declareEnum pos) schema >>= fun after =>
        .ok (after, cursor + (listFrom messagesOf number files).length) := by
  induction files generalizing number schema cursor with
  | nil => rfl
  | cons file rest ih =>
    rw [listFrom] at hn hp ⊢
    have hhere : ∀ e ∈ messagesOf number file, Placed pos schema.messages file e.1 := fun e he =>
      ⟨(file_of_mem_messagesOf he).1, (file_of_mem_messagesOf he).2, hp e (List.mem_append_left _ he)⟩
    rw [listFrom, List.foldlM_append, bind_assoc, List.foldlM_cons,
      addFileEnums_eq (hpos number file) hn.left hhere, bind_assoc]
    refine bind_congr_ok fun after hafter => ?_
    obtain ⟨hmessages, _, _⟩ := foldlM_declareEnum hafter
    have := ih (number + 1) hn.right (by rw [hmessages]; exact fun e he => hp e (List.mem_append_right _ he))
    rw [List.length_append, ← Nat.add_assoc]
    exact this

/-! ## Whole batches -/

theorem numbers_batch (files : List File) : Numbers (positionOf files) 0 (batchMessages files) := by
  intro i e he
  rw [Nat.zero_add]
  exact positionOf_getElem he

/-- **The two walks follow the listings**, up to and including the first fault. -/
theorem ofFiles_eq_listings (files : List File) :
    Schema.ofFiles files = (batchMessages files).foldlM (declareMessage (positionOf files)) {} >>= fun schema =>
      (batchEnums files).foldlM (declareEnum (positionOf files)) schema := by
  have hpos := positionOf_ofFile files
  have hn := numbers_batch files
  have hwalk : files.foldlM Schema.addFileMessages {} =
      (batchMessages files).foldlM (declareMessage (positionOf files)) {} := foldlM_addFileMessages hpos 0 files hn
  rw [Schema.ofFiles, hwalk]
  refine bind_congr_ok fun schema hschema => ?_
  obtain ⟨_, new, hnew, _, hnodes⟩ := foldlM_declareMessage hschema
  have hnodes' : ∀ i e, (batchMessages files)[i]? = some e →
      ∃ m, schema.messages[i]? = some m ∧ MessageNode (positionOf files) e i m := by
    intro i e he
    obtain ⟨m, hm, hnode⟩ := hnodes i e he
    refine ⟨m, by rw [hnew]; exact hm, ?_⟩
    simpa using hnode
  have hnames : ∀ e ∈ listFrom messagesOf 0 files, namesAround schema.messages (positionOf files e.1) = e.1.path := by
    intro e he
    obtain ⟨i, he⟩ := List.getElem?_of_mem he
    rw [positionOf_getElem he, namesAround_of_nodes hnodes' he]
  rw [foldlM_addFileEnums hpos 0 files hn hnames]
  rw [batchEnums]
  cases (listFrom enumsOf 0 files).foldlM (declareEnum (positionOf files)) schema <;> rfl

end ErlangRecords
