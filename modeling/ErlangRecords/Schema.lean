/-
Schema: all declarations of a batch.

Messages and enums stand in two lists; a position in one of them denotes a declaration, and the name table finds
positions by absolute name.
-/
import ErlangRecords.Declaration

namespace ErlangRecords

structure Schema where
  messages : List MessageDecl := []
  enums : List EnumDecl := []
  names : NameTable := {}
deriving DecidableEq, Repr

namespace Schema

/-- the message with an absolute name, and its position -/
def message? (schema : Schema) (name : String) : Option (Nat × MessageDecl) :=
  (schema.names.message? name).bind fun position => (schema.messages[position]?).map (position, ·)

/-- the enum with an absolute name, and its position -/
def enum? (schema : Schema) (name : String) : Option (Nat × EnumDecl) :=
  (schema.names.enum? name).bind fun position => (schema.enums[position]?).map (position, ·)

theorem message?_eq_some_iff {schema : Schema} {name : String} {position : Nat} {m : MessageDecl} :
    schema.message? name = some (position, m) ↔
      schema.names.get? name = some (.message position) ∧ schema.messages[position]? = some m := by
  simp only [message?, Option.bind_eq_some_iff, Option.map_eq_some_iff, Prod.mk.injEq,
    NameTable.message?_eq_some_iff]
  constructor
  · rintro ⟨_, hname, _, hm, rfl, rfl⟩
    exact ⟨hname, hm⟩
  · rintro ⟨hname, hm⟩
    exact ⟨position, hname, m, hm, rfl, rfl⟩

theorem enum?_eq_some_iff {schema : Schema} {name : String} {position : Nat} {e : EnumDecl} :
    schema.enum? name = some (position, e) ↔
      schema.names.get? name = some (.enum position) ∧ schema.enums[position]? = some e := by
  simp only [enum?, Option.bind_eq_some_iff, Option.map_eq_some_iff, Prod.mk.injEq, NameTable.enum?_eq_some_iff]
  constructor
  · rintro ⟨_, hname, _, he, rfl, rfl⟩
    exact ⟨hname, he⟩
  · rintro ⟨hname, he⟩
    exact ⟨position, hname, e, he, rfl, rfl⟩

/-- the schema with no values left in the enums of the given absolute names -/
def clearEnums (schema : Schema) (names : List String) : Schema :=
  { schema with
    enums := schema.enums.map fun e => if names.contains e.absoluteName then { e with values := [] } else e }

end Schema

end ErlangRecords
