/-
Record layout: which fields and oneofs of a message get a slot in its record, and in which order.

A field outside every oneof has a slot of its own. A oneof that is not synthetic has one slot: at the first field that
belongs to it, or after all fields when there is none. Synthetic oneofs, and fields that belong to one or to no declared
oneof, have no slot.
-/
import ErlangRecords.Declaration

namespace ErlangRecords

inductive RecordSlot where
  | field (f : FieldDecl)
  | oneof (o : OneofDecl)
deriving DecidableEq, Repr

namespace RecordSlot

def name : RecordSlot → String
  | .field f => f.name
  | .oneof o => o.name

/-- type and default of the slot, once resolved -/
def typing : RecordSlot → Option (TypeExpr × Literal)
  | .field f => f.typing.map fun t => (t.slotType, t.default)
  | .oneof o => o.typing.map fun t => (t.slotType, t.default)

end RecordSlot

namespace RecordLayout

/-- the oneofs that are not synthetic and have no slot yet -/
def unplaced (oneofs : List OneofDecl) (placed : List Nat) : List RecordSlot :=
  oneofs.zipIdx.filterMap fun (o, k) => if o.synthetic || placed.contains k then none else some (.oneof o)

/-- the slots from a field on, when the oneofs `placed` have theirs -/
def slotsFrom (oneofs : List OneofDecl) (placed : List Nat) : List FieldDecl → List RecordSlot
  | [] => unplaced oneofs placed
  | f :: rest =>
    match f.oneof with
    | none => .field f :: slotsFrom oneofs placed rest
    | some k =>
      match oneofs[k]? with
      | none => slotsFrom oneofs placed rest
      | some o =>
        if o.synthetic || placed.contains k then slotsFrom oneofs placed rest
        else .oneof o :: slotsFrom oneofs (k :: placed) rest

end RecordLayout

/-- the slots of the message's record, in order -/
def MessageDecl.slots (m : MessageDecl) : List RecordSlot := RecordLayout.slotsFrom m.oneofs [] m.fields

end ErlangRecords
