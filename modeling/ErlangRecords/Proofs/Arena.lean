/-
The arena of a batch: which declaration stands at which position once a batch is collected.

- `Collected`, `collected_of_ok`: the two lists hold exactly the listed declarations, in the order of the listings, and
  the name table finds each of them.
- `ofFiles_ok_iff`: a batch is collected exactly when all messages can be read, no enum is empty, and no two
  declarations share an absolute name.
- `Collected.messageDeclarations`, `Collected.enumDeclarations`: names and packages come from the listed places.
- `arena_faithful`: every parent is the message whose descriptor holds the declaration, and every name is made of the
  names along the parents.
-/
import ErlangRecords.Proofs.Walks

namespace ErlangRecords

open Descriptor (File Message Enum)

/-! ## What is collected -/

/-- the schema holds the listed declarations of the batch, and its table finds them -/
structure Collected (files : List File) (schema : Schema) : Prop where
  length : schema.messages.length = (batchMessages files).length
  node : ∀ i e, (batchMessages files)[i]? = some e →
    ∃ m, schema.messages[i]? = some m ∧ MessageNode (positionOf files) e i m
  enums : schema.enums = (batchEnums files).map (enumNode (positionOf files))
  values : ∀ e ∈ batchEnums files, e.2.values ≠ []
  indexed : schema.Indexed

theorem collected_of_ok {files : List File} {schema : Schema} (h : Schema.ofFiles files = .ok schema) :
    Collected files schema := by
  rw [ofFiles_eq_listings, bind_eq_ok] at h
  obtain ⟨withMessages, hm, he⟩ := h
  obtain ⟨henums0, new, hnew, hlen, hnodes⟩ := foldlM_declareMessage hm
  obtain ⟨hmessages, henums, hvalues⟩ := foldlM_declareEnum he
  have hindexed : withMessages.Indexed :=
    foldlM_keeps (fun e _ s s' hs hs' => Schema.insertMessage_indexed hs hs') Schema.indexed_empty hm
  refine ⟨?_, fun i e hie => ?_, ?_, hvalues, ?_⟩
  · rw [hmessages, hnew, ← hlen]
    rfl
  · obtain ⟨m, hmi, hnode⟩ := hnodes i e hie
    refine ⟨m, by rw [hmessages, hnew]; exact hmi, ?_⟩
    simpa using hnode
  · rw [henums, henums0]
    rfl
  · exact foldlM_keeps (fun e _ s s' hs hs' => Schema.insertEnum_indexed hs hs') hindexed he

theorem Collected.of_message {files : List File} {schema : Schema} (h : Collected files schema) {i : Nat}
    {m : MessageDecl} (hm : schema.messages[i]? = some m) :
    ∃ e, (batchMessages files)[i]? = some e ∧ MessageNode (positionOf files) e i m := by
  have hi : i < (batchMessages files).length := by
    rw [← h.length]
    exact (List.getElem?_eq_some_iff.1 hm).1
  have he := List.getElem?_eq_getElem hi
  obtain ⟨m', hm', hnode⟩ := h.node i _ he
  rw [hm] at hm'
  cases hm'
  exact ⟨_, he, hnode⟩

theorem Collected.of_enum {files : List File} {schema : Schema} (h : Collected files schema) {e : EnumDecl}
    (he : e ∈ schema.enums) : ∃ entry ∈ batchEnums files, e = enumNode (positionOf files) entry := by
  rw [h.enums] at he
  obtain ⟨entry, hentry, rfl⟩ := List.mem_map.1 he
  exact ⟨entry, hentry, rfl⟩

/-- nothing in a collected message is resolved yet -/
theorem Collected.fresh {files : List File} {schema : Schema} (h : Collected files schema) :
    ∀ m ∈ schema.messages, Fresh m.fields m.oneofs := by
  intro m hm
  obtain ⟨i, hm⟩ := List.getElem?_of_mem hm
  obtain ⟨e, _, body, hb, rfl⟩ := h.of_message hm
  have hfresh := fresh_of_bodyOf hb
  refine ⟨hfresh.target, hfresh.typing, fun o ho => ?_, fun o ho => ?_⟩
  · obtain ⟨o', ho', rfl⟩ := List.mem_map.1 ho
    exact hfresh.oneofTyping o' ho'
  · obtain ⟨o', ho', rfl⟩ := List.mem_map.1 ho
    exact hfresh.members o' ho'

/-! ## When a batch is collected -/

/-- the absolute names of all declarations of a batch -/
def batchNames (files : List File) : List String :=
  (batchMessages files).map (·.1.absoluteName) ++ (batchEnums files).map (·.1.absoluteName)

theorem declareMessage_ok_iff (pos : Place → Option Nat) (schema : Schema) (e : Place × Message) :
    (∃ after, declareMessage pos schema e = .ok after) ↔
      (∃ body, bodyOf e.2 = .ok body) ∧ schema.names.get? e.1.absoluteName = none := by
  simp only [declareMessage, Schema.insertMessage_eq_ok_iff]
  constructor
  · rintro ⟨_, body, hb, hnew, rfl⟩
    exact ⟨⟨body, hb⟩, hnew⟩
  · rintro ⟨⟨body, hb⟩, hnew⟩
    exact ⟨_, body, hb, hnew, rfl⟩

theorem declareEnum_ok_iff (pos : Place → Option Nat) (schema : Schema) (e : Place × Enum) :
    (∃ after, declareEnum pos schema e = .ok after) ↔
      e.2.values ≠ [] ∧ schema.names.get? e.1.absoluteName = none := by
  simp only [declareEnum, Schema.insertEnum_eq_ok_iff]
  constructor
  · rintro ⟨_, hv, hnew, rfl⟩
    exact ⟨hv, hnew⟩
  · rintro ⟨hv, hnew⟩
    exact ⟨_, hv, hnew, rfl⟩

theorem get?_declareMessage {pos : Place → Option Nat} {schema after : Schema} {e : Place × Message}
    (h : declareMessage pos schema e = .ok after) (n : String) :
    after.names.get? n = none ↔ n ≠ e.1.absoluteName ∧ schema.names.get? n = none := by
  obtain ⟨_, _, _, rfl⟩ := Schema.insertMessage_eq_ok_iff.1 h
  rw [NameTable.get?_cons]
  split <;> simp_all [Place.absoluteName, Declaration.absoluteName, Place.declaration]

theorem get?_declareEnum {pos : Place → Option Nat} {schema after : Schema} {e : Place × Enum}
    (h : declareEnum pos schema e = .ok after) (n : String) :
    after.names.get? n = none ↔ n ≠ e.1.absoluteName ∧ schema.names.get? n = none := by
  obtain ⟨_, _, rfl⟩ := Schema.insertEnum_eq_ok_iff.1 h
  rw [NameTable.get?_cons]
  split <;> simp_all [Place.absoluteName, Declaration.absoluteName, Place.declaration]

/-- **When a batch is collected**: exactly when every message can be read, every enum has a value, and all absolute
names of the batch, of messages and enums together, are distinct. -/
theorem ofFiles_ok_iff (files : List File) :
    (∃ schema, Schema.ofFiles files = .ok schema) ↔
      (∀ e ∈ batchMessages files, ∃ body, bodyOf e.2 = .ok body) ∧ (∀ e ∈ batchEnums files, e.2.values ≠ []) ∧
        (batchNames files).Nodup := by
  simp only [ofFiles_eq_listings, bind_eq_ok, batchNames, List.nodup_append]
  have hmessages := Schema.foldlM_insert_iff (declareMessage_ok_iff (positionOf files))
    (fun s e s' h => get?_declareMessage h) (batchMessages files) {}
  have henums := fun s => Schema.foldlM_insert_iff (declareEnum_ok_iff (positionOf files))
    (fun s e s' h => get?_declareEnum h) (batchEnums files) s
  have htaken := fun s (h : (batchMessages files).foldlM (declareMessage (positionOf files)) {} = .ok s) =>
    Schema.get?_foldlM_insert (fun s e s' h => get?_declareMessage h) h
  constructor
  · rintro ⟨schema, withMessages, hm, he⟩
    obtain ⟨hsound, hnodup, _⟩ := hmessages.1 ⟨withMessages, hm⟩
    obtain ⟨hvalues, henodup, hfree⟩ := (henums withMessages).1 ⟨schema, he⟩
    refine ⟨hsound, hvalues, hnodup, henodup, fun n hn n' hn' heq => ?_⟩
    obtain ⟨e, hein, rfl⟩ := List.mem_map.1 hn'
    exact ((htaken withMessages hm _).1 (hfree e hein)).1 (heq ▸ hn)
  · rintro ⟨hsound, hvalues, hnodup, henodup, hdisjoint⟩
    obtain ⟨withMessages, hm⟩ := hmessages.2 ⟨hsound, hnodup, fun _ _ => rfl⟩
    have hfree : ∀ e ∈ batchEnums files, withMessages.names.get? e.1.absoluteName = none := fun e he =>
      (htaken withMessages hm _).2 ⟨fun hn => hdisjoint _ hn _ (List.mem_map_of_mem he) rfl, rfl⟩
    obtain ⟨schema, he⟩ := (henums withMessages).2 ⟨hvalues, henodup, hfree⟩
    exact ⟨schema, withMessages, hm, he⟩

/-! ## Parents and names -/

/-- the inner declaration stands in the same file as the message around it, and its names continue that one's -/
structure NamedInside (outer inner : Declaration) : Prop where
  file : inner.file = outer.file
  package : inner.package = outer.package
  fullName : inner.fullName = outer.fullName ++ "." ++ inner.name
  absoluteName : inner.absoluteName = outer.absoluteName ++ "." ++ inner.name

/-- the declaration of a listed message or enum has its file's name and package, and for parent the position of the
message whose descriptor holds it, none at the top of a file; `top` and `inside` are the lists that hold such
declarations -/
inductive Parented {α : Type} (name : α → String) (top : File → List α) (inside : Message → List α) (files : List File)
    (schema : Schema) (e : Place × α) (d : Declaration) : Prop
  | top {number : Nat} {file : File} (hfile : files[number]? = some file)
      (hin : StandsIn name (.ofFile number file) (top file) e) (hparent : d.parent = none)
      (hfileName : d.file = file.name) (hpackage : d.package = file.package) (hname : d.fullName = d.name)
  | nested {position : Nat} {around : Place × Message} {m : MessageDecl}
      (haround : (batchMessages files)[position]? = some around)
      (hin : StandsIn name around.1 (inside around.2) e) (hm : schema.messages[position]? = some m)
      (hparent : d.parent = some position) (hname : NamedInside m.toDeclaration d)

theorem parented_top {α : Type} {name : α → String} {top : File → List α} {inside : Message → List α}
    {files : List File} {schema : Schema} {e : Place × α} {number : Nat} {file : File}
    (hfile : files[number]? = some file) (hin : StandsIn name (.ofFile number file) (top file) e) :
    Parented name top inside files schema e (e.1.declaration (positionOf files e.1.outer)) := by
  obtain ⟨k, _, hplace⟩ := id hin
  refine .top hfile hin ?_ ?_ ?_ ?_
  · simp only [Place.declaration, hplace, Place.outer_inner, positionOf_ofFile]
  · rw [hplace]
    rfl
  · rw [hplace]
    rfl
  · rw [hplace]
    exact Name.dotted_singleton _

theorem path_ne_nil {files : List File} {i : Nat} {e : Place × Message} (he : (batchMessages files)[i]? = some e) :
    e.1.path ≠ [] := by
  rcases batchMessages_stands he with ⟨_, _, _, _, _, h⟩ | ⟨_, _, _, _, _, _, h⟩ <;>
    simp [h, Place.inner]

theorem parented_nested {α : Type} {name : α → String} {top : File → List α} {inside : Message → List α}
    {files : List File} {schema : Schema} {e : Place × α} {position : Nat} {around : Place × Message} {m : MessageDecl}
    (haround : (batchMessages files)[position]? = some around)
    (hin : StandsIn name around.1 (inside around.2) e) (hm : schema.messages[position]? = some m)
    (hnode : MessageNode (positionOf files) around position m) :
    Parented name top inside files schema e (e.1.declaration (positionOf files e.1.outer)) := by
  obtain ⟨k, _, hplace⟩ := id hin
  have hne := path_ne_nil haround
  obtain ⟨body, _, rfl⟩ := hnode
  refine .nested haround hin hm ?_ ⟨?_, ?_, ?_, ?_⟩
  · simp only [Place.declaration, hplace, Place.outer_inner, positionOf_getElem haround]
  · rw [hplace]
    rfl
  · rw [hplace]
    rfl
  · rw [hplace]
    exact Name.dotted_cons _ hne
  · rw [hplace]
    exact Name.absolute_dotted_cons _ _ hne

theorem Collected.parented_message {files : List File} {schema : Schema} (h : Collected files schema) {i : Nat}
    {e : Place × Message} {m : MessageDecl} (he : (batchMessages files)[i]? = some e)
    (hm : schema.messages[i]? = some m) :
    Parented Message.name File.messages Message.nested files schema e m.toDeclaration ∧
      ∀ j, m.parent = some j → j < i := by
  obtain ⟨e', he', body, _, rfl⟩ := h.of_message hm
  rw [he] at he'
  cases he'
  rcases batchMessages_stands he with ⟨number, file, hf, hin⟩ | ⟨j, around, hj, haround, hin⟩
  · refine ⟨parented_top hf hin, fun j hj => ?_⟩
    obtain ⟨k, _, hplace⟩ := hin
    simp [Place.declaration, hplace, positionOf_ofFile] at hj
  · obtain ⟨p, hp, hnode⟩ := h.node j around haround
    refine ⟨parented_nested haround hin hp hnode, fun j' hj' => ?_⟩
    obtain ⟨k, _, hplace⟩ := hin
    simp only [Place.declaration, hplace, Place.outer_inner, positionOf_getElem haround, Option.some.injEq] at hj'
    omega

theorem Collected.parented_enum {files : List File} {schema : Schema} (h : Collected files schema)
    {e : Place × Enum} (he : e ∈ batchEnums files) :
    Parented Enum.name File.enums Message.enums files schema e
      (enumNode (positionOf files) e).toDeclaration := by
  rcases batchEnums_stand he with ⟨number, file, hf, hin⟩ | ⟨around, haround, hin⟩
  · exact parented_top hf hin
  · obtain ⟨j, haround⟩ := List.getElem?_of_mem haround
    obtain ⟨p, hp, hnode⟩ := h.node j around haround
    exact parented_nested haround hin hp hnode

/-- the names from the parent outwards are the rest of the path -/
theorem Collected.names_around {files : List File} {schema : Schema} (h : Collected files schema) {α : Type}
    {name : α → String} {top : File → List α} {inside : Message → List α} {e : Place × α} {d : Declaration}
    (hd : Parented name top inside files schema e d) (hfull : d.fullName = Name.dotted e.1.path)
    (hname : d.name = e.1.path.headD "") :
    d.fullName = Name.dotted (d.name :: namesAround schema.messages d.parent) := by
  cases hd with
  | top _ hin hparent =>
    obtain ⟨k, _, hplace⟩ := hin
    rw [hfull, hname, hparent, namesAround_none, hplace]
    rfl
  | nested haround hin _ hparent =>
    obtain ⟨k, _, hplace⟩ := hin
    rw [hfull, hname, hparent, namesAround_of_nodes h.node haround, hplace]
    rfl

/-! ## The arena -/

/-- the declaration of a listed message or enum bears the name and package of the file that lists it -/
def BearsFile {α : Type} (listing : Nat → File → List (Place × α)) (files : List File) (e : Place × α)
    (d : Declaration) : Prop :=
  ∃ number file, files[number]? = some file ∧ e ∈ listing number file ∧ d.file = file.name ∧ d.package = file.package

/-- the schema mirrors the declarations of the batch -/
structure Faithful (files : List File) (schema : Schema) : Prop where
  /-- the messages in pre-order, file by file, each with the body of its descriptor -/
  messages : List.Forall₂ (fun e m => MessageNode (positionOf files) e.1 e.2 m) (batchMessages files).zipIdx
    schema.messages
  /-- the enums at the top of each file, then those inside its messages -/
  enums : schema.enums = (batchEnums files).map (enumNode (positionOf files))
  fileMessage : ∀ (i : Nat) (e : Place × Message) (m : MessageDecl), (batchMessages files)[i]? = some e →
    schema.messages[i]? = some m → BearsFile messagesOf files e m.toDeclaration
  fileEnum : ∀ (i : Nat) (e : Place × Enum) (d : EnumDecl), (batchEnums files)[i]? = some e →
    schema.enums[i]? = some d → BearsFile enumsOf files e d.toDeclaration
  parentMessage : ∀ (i : Nat) (e : Place × Message) (m : MessageDecl), (batchMessages files)[i]? = some e →
    schema.messages[i]? = some m → Parented Message.name File.messages Message.nested files schema e m.toDeclaration
  parentEnum : ∀ (i : Nat) (e : Place × Enum) (d : EnumDecl), (batchEnums files)[i]? = some e →
    schema.enums[i]? = some d → Parented Enum.name File.enums Message.enums files schema e d.toDeclaration
  parent_lt : ∀ (i : Nat) (m : MessageDecl), schema.messages[i]? = some m → ∀ j, m.parent = some j → j < i
  /-- full names are read along the parents, outermost first -/
  fullName : ∀ m ∈ schema.messages, m.fullName = Name.dotted (m.name :: namesAround schema.messages m.parent)
  enumFullName : ∀ e ∈ schema.enums, e.fullName = Name.dotted (e.name :: namesAround schema.messages e.parent)
  values : ∀ e ∈ schema.enums, e.values ≠ []
  /-- the table finds exactly these declarations -/
  indexed : schema.Indexed
  distinct : (schema.messages.map (·.absoluteName) ++ schema.enums.map (·.absoluteName)).Nodup

theorem forall₂_zipIdx_iff {α β : Type} {R : α → Nat → β → Prop} {l : List α} {l' : List β} :
    List.Forall₂ (fun e b => R e.1 e.2 b) l.zipIdx l' ↔
      l'.length = l.length ∧ ∀ i a, l[i]? = some a → ∃ b, l'[i]? = some b ∧ R a i b := by
  rw [List.forall₂_iff_get]
  simp only [List.length_zipIdx, List.get_eq_getElem, List.getElem_zipIdx, Nat.zero_add]
  constructor
  · rintro ⟨hlen, h⟩
    refine ⟨hlen.symm, fun i a ha => ?_⟩
    obtain ⟨hi, rfl⟩ := List.getElem?_eq_some_iff.1 ha
    exact ⟨l'[i], List.getElem?_eq_getElem (hlen ▸ hi), h i hi (hlen ▸ hi)⟩
  · rintro ⟨hlen, h⟩
    refine ⟨hlen.symm, fun i hi hi' => ?_⟩
    obtain ⟨b, hb, hr⟩ := h i l[i] (List.getElem?_eq_getElem hi)
    rw [List.getElem?_eq_getElem hi'] at hb
    rwa [Option.some.inj hb]

theorem Collected.bearsFile_message {files : List File} {schema : Schema} (h : Collected files schema) {i : Nat}
    {e : Place × Message} {m : MessageDecl} (he : (batchMessages files)[i]? = some e)
    (hm : schema.messages[i]? = some m) : BearsFile messagesOf files e m.toDeclaration := by
  obtain ⟨e', he', body, _, rfl⟩ := h.of_message hm
  rw [he] at he'
  cases he'
  obtain ⟨k, file, hf, hin⟩ := mem_listFrom.1 (List.mem_of_getElem? he)
  rw [Nat.zero_add] at hin
  exact ⟨k, file, hf, hin, file_of_mem_messagesOf hin⟩

theorem bearsFile_enum {files : List File} {e : Place × Enum} (he : e ∈ batchEnums files) :
    BearsFile enumsOf files e (enumNode (positionOf files) e).toDeclaration := by
  obtain ⟨k, file, hf, hin⟩ := mem_listFrom.1 he
  rw [Nat.zero_add] at hin
  exact ⟨k, file, hf, hin, file_of_mem_enumsOf hin⟩

/-- the declarations of the messages are those of the listed places, but for parents -/
theorem Collected.messageDeclarations {files : List File} {schema : Schema} (h : Collected files schema) :
    schema.messages.map (fun m => { m.toDeclaration with parent := none }) =
      (batchMessages files).map (·.1.declaration none) := by
  apply List.ext_getElem?
  intro i
  rw [List.getElem?_map, List.getElem?_map]
  cases hm : schema.messages[i]? with
  | none =>
    have := List.getElem?_eq_none_iff.1 hm
    rw [List.getElem?_eq_none (by rw [← h.length]; exact this)]
    rfl
  | some m =>
    obtain ⟨e, he, body, _, rfl⟩ := h.of_message hm
    rw [he]
    rfl

theorem Collected.enumDeclarations {files : List File} {schema : Schema} (h : Collected files schema) :
    schema.enums.map (fun e => { e.toDeclaration with parent := none }) =
      (batchEnums files).map (·.1.declaration none) := by
  rw [h.enums, List.map_map]
  rfl

/-- the absolute names of the messages are those of the listing -/
theorem Collected.messageNames {files : List File} {schema : Schema} (h : Collected files schema) :
    schema.messages.map (·.absoluteName) = (batchMessages files).map (·.1.absoluteName) := by
  have hnames := congrArg (List.map Declaration.absoluteName) h.messageDeclarations
  rwa [List.map_map, List.map_map] at hnames

theorem Collected.enumNames {files : List File} {schema : Schema} (h : Collected files schema) :
    schema.enums.map (·.absoluteName) = (batchEnums files).map (·.1.absoluteName) := by
  have hnames := congrArg (List.map Declaration.absoluteName) h.enumDeclarations
  rwa [List.map_map, List.map_map] at hnames

/-- **The arena mirrors the batch.** Once a batch is collected, its messages and enums stand in the order of the
listings, under the name and package of their file; the parent of each is the message whose descriptor holds it, and
for messages one at an earlier position; full and absolute names continue those of the parent, no enum is empty, and
the name table finds every declaration under its own name. -/
theorem arena_faithful {files : List File} {schema : Schema} (h : Schema.ofFiles files = .ok schema) :
    Faithful files schema := by
  have hc := collected_of_ok h
  have henum : ∀ {i : Nat} {e : Place × Enum} {d : EnumDecl}, (batchEnums files)[i]? = some e →
      schema.enums[i]? = some d → e ∈ batchEnums files ∧ d = enumNode (positionOf files) e := by
    intro i e d he hd
    rw [hc.enums, List.getElem?_map, he] at hd
    exact ⟨List.mem_of_getElem? he, (Option.some.inj hd).symm⟩
  constructor
  case messages => exact forall₂_zipIdx_iff.2 ⟨hc.length, hc.node⟩
  case enums => exact hc.enums
  case fileMessage => exact fun i e m he hm => hc.bearsFile_message he hm
  case fileEnum =>
    intro i e d he hd
    obtain ⟨hin, rfl⟩ := henum he hd
    exact bearsFile_enum hin
  case parentMessage => exact fun i e m he hm => (hc.parented_message he hm).1
  case parentEnum =>
    intro i e d he hd
    obtain ⟨hin, rfl⟩ := henum he hd
    exact hc.parented_enum hin
  case parent_lt =>
    intro i m hm
    obtain ⟨e, he, _⟩ := hc.of_message hm
    exact (hc.parented_message he hm).2
  case fullName =>
    intro m hm
    obtain ⟨i, hm⟩ := List.getElem?_of_mem hm
    obtain ⟨e, he, hnode⟩ := hc.of_message hm
    have hparented := (hc.parented_message he hm).1
    obtain ⟨body, _, rfl⟩ := hnode
    exact hc.names_around hparented rfl rfl
  case enumFullName =>
    intro d hd
    obtain ⟨e, he, rfl⟩ := hc.of_enum hd
    exact hc.names_around (hc.parented_enum he) rfl rfl
  case values =>
    intro d hd
    obtain ⟨e, he, rfl⟩ := hc.of_enum hd
    simpa [enumNode, EnumDecl.ofDescriptor] using hc.values e he
  case indexed => exact hc.indexed
  case distinct =>
    rw [hc.messageNames, hc.enumNames]
    exact ((ofFiles_ok_iff files).1 ⟨schema, h⟩).2.2

/-- full name and parent of each message of `sampleFiles` -/
def sampleMessages : List (String × Option Nat) :=
  [("Order", none), ("Order.Line", some 0), ("Order.Note", some 0), ("Refund", none), ("Person", none)]

/-- full name and parent of each enum -/
def sampleEnums : List (String × Option Nat) :=
  [("Order.State", some 0), ("Order.Line.Unit", some 1), ("Refund.Reason", some 3), ("Role", none)]

theorem arena_faithful_sample : ∃ schema, Schema.ofFiles sampleFiles = .ok schema ∧ Faithful sampleFiles schema ∧
    schema.messages.map (fun m => (m.fullName, m.parent)) = sampleMessages ∧
    schema.enums.map (fun e => (e.fullName, e.parent)) = sampleEnums := by
  obtain ⟨schema, h, hmessages, henums⟩ := exists_ok_of_check (x := Schema.ofFiles sampleFiles)
    (P := fun schema => schema.messages.map (fun m => (m.fullName, m.parent)) = sampleMessages ∧
      schema.enums.map (fun e => (e.fullName, e.parent)) = sampleEnums) (by decide +kernel)
  exact ⟨schema, h, arena_faithful h, hmessages, henums⟩

end ErlangRecords
