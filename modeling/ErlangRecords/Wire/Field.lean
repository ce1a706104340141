/-
Fields: the records of a message, read by its format.

A record under a number that the format does not know is passed over, and so is everything between the two ends of such
a group; the ends must match. A record under a known number must store what the format says. A message is unreadable as
soon as one record is, or when a field lies deeper than the limit: an embedded message, and any field passed over, must
have fewer than `depthLimit` messages and groups around it, the outermost message not counted.

Of a text or number that is given more than once the last counts; one that is not given is unset. Small numbers are the
low 32 bits, as two's complement, and a flag is set by any number but zero.
-/
import ErlangRecords.Wire.Format
import ErlangRecords.Wire.Token

namespace ErlangRecords.Wire

/-- a field of a message, by number -/
inductive Field where
  | number (tag : Nat) (value : Nat)
  | text (tag : Nat) (value : String)
  | embedded (tag : Nat) (fields : List Field)
  /-- a well-formed field whose content is not kept -/
  | other (tag : Nat)
deriving Repr, Inhabited

/-- how many messages and groups may surround a field -/
def depthLimit : Nat := 100

/-- the records under known numbers, with what they must store; `opened` are the groups passed over, innermost first -/
def knownRecords (format : Format) (room : Nat) : (opened : List Nat) → List Record → Option (List (Content × Record))
  | [], [] => some []
  | _ :: _, [] => none
  | [], (number, token) :: rest =>
    match format.content? number with
    | some content => (knownRecords format room [] rest).map ((content, (number, token)) :: ·)
    | none =>
      if room = 0 then none
      else
        match token with
        | .groupStart => knownRecords format room [number] rest
        | .groupEnd => none
        | _ => knownRecords format room [] rest
  | innermost :: outer, (number, token) :: rest =>
    match token with
    | .groupEnd => if number = innermost then knownRecords format room outer rest else none
    | .groupStart =>
      if outer.length + 1 < room then knownRecords format room (number :: innermost :: outer) rest else none
    | _ => if outer.length + 1 < room then knownRecords format room (innermost :: outer) rest else none

/-- a known record as a field; `nested` reads embedded messages -/
def readField (nested : Format → List UInt8 → Option (List Field)) : Content × Record → Option Field
  | (.number, (tag, .varint value)) => some (.number tag value)
  | (.numbers, (tag, .varint _)) => some (.other tag)
  | (.numbers, (tag, .delimited bytes)) => if Varint.areNumbers bytes then some (.other tag) else none
  | (.double, (tag, .fixed64 _)) => some (.other tag)
  | (.text, (tag, .delimited bytes)) => (String.fromUTF8? ⟨bytes.toArray⟩).map (.text tag)
  | (.blob, (tag, .delimited _)) => some (.other tag)
  | (.embedded format, (tag, .delimited bytes)) => (nested format bytes).map (.embedded tag)
  | _ => none

/-- the fields of a message, when embedded messages are read by `nested` -/
def readFieldsWith (room : Nat) (nested : Format → List UInt8 → Option (List Field)) (format : Format)
    (bytes : List UInt8) : Option (List Field) := do
  let records ← readRecords bytes
  let known ← knownRecords format room [] records
  known.mapM (readField nested)

/-- the fields of a message that may hold `room` levels of messages and groups -/
def readFields : (room : Nat) → Format → List UInt8 → Option (List Field)
  | 0 => readFieldsWith 0 fun _ _ => none
  | room + 1 => readFieldsWith (room + 1) (readFields room)

/-! ## Access by number -/

def lastNumber? (tag : Nat) (fields : List Field) : Option Nat :=
  (fields.filterMap fun
    | .number t value => if t = tag then some value else none
    | _ => none).getLast?

def texts (tag : Nat) (fields : List Field) : List String :=
  fields.filterMap fun
    | .text t value => if t = tag then some value else none
    | _ => none

def embedded (tag : Nat) (fields : List Field) : List (List Field) :=
  fields.filterMap fun
    | .embedded t body => if t = tag then some body else none
    | _ => none

def lastText? (tag : Nat) (fields : List Field) : Option String := (texts tag fields).getLast?

def textOf (tag : Nat) (fields : List Field) : String := (lastText? tag fields).getD ""

/-- the low 32 bits, as two's complement -/
def int32? (tag : Nat) (fields : List Field) : Option Int :=
  (lastNumber? tag fields).map fun n => Int.bmod n 0x100000000

def isSet (tag : Nat) (fields : List Field) : Bool := (lastNumber? tag fields).any (· != 0)

end ErlangRecords.Wire
