/-
Tokens: the records of the wire format, read without knowing what they mean.

A record opens with a key, the field number times eight plus the wire type: 0 for a variable-length number, 1 and 5 for
eight and four bytes, 2 for bytes after their count, 3 and 4 for the two ends of a group. A key fits 32 bits and its
field number is not zero.
-/
import ErlangRecords.Wire.Varint

namespace ErlangRecords.Wire

inductive Token where
  | varint (value : Nat)
  | fixed64 (bytes : List UInt8)
  | delimited (bytes : List UInt8)
  | groupStart
  | groupEnd
  | fixed32 (bytes : List UInt8)
deriving DecidableEq, Repr

/-- a field number with what is stored under it -/
abbrev Record := Nat × Token

namespace Token

/-- the next `count` bytes, and those after them -/
def takeBytes (count : Nat) (bytes : List UInt8) : Option (List UInt8 × List UInt8) :=
  if count ≤ bytes.length then some (bytes.take count, bytes.drop count) else none

/-- what follows a key of the given wire type -/
def readValue (wireType : Nat) (bytes : List UInt8) : Option (Token × List UInt8) :=
  match wireType with
  | 0 => (Varint.read bytes).map fun (n, rest) => (.varint n, rest)
  | 1 => (takeBytes 8 bytes).map fun (value, rest) => (.fixed64 value, rest)
  | 2 => do
    let (count, rest) ← Varint.read bytes
    let (value, rest) ← takeBytes count rest
    return (.delimited value, rest)
  | 3 => some (.groupStart, bytes)
  | 4 => some (.groupEnd, bytes)
  | 5 => (takeBytes 4 bytes).map fun (value, rest) => (.fixed32 value, rest)
  | _ => none

/-- the first record, and the bytes after it -/
def read (bytes : List UInt8) : Option (Record × List UInt8) :=
  match Varint.read bytes with
  | none => none
  | some (key, rest) =>
    if key < 0x100000000 ∧ 8 ≤ key then
      (readValue (key % 8) rest).map fun (token, rest) => ((key / 8, token), rest)
    else none

theorem takeBytes_length {count : Nat} {bytes value rest : List UInt8}
    (h : takeBytes count bytes = some (value, rest)) : rest.length ≤ bytes.length := by
  unfold takeBytes at h
  split at h
  · simp only [Option.some.injEq, Prod.mk.injEq] at h
    rw [← h.2, List.length_drop]
    omega
  · simp at h

theorem readValue_length {wireType : Nat} {bytes rest : List UInt8} {token : Token}
    (h : readValue wireType bytes = some (token, rest)) : rest.length ≤ bytes.length := by
  unfold readValue at h
  split at h
  · simp only [Option.map_eq_some_iff, Prod.mk.injEq, Prod.exists] at h
    obtain ⟨n, tail, hr, -, rfl⟩ := h
    exact Nat.le_of_lt (Varint.read_length hr)
  · simp only [Option.map_eq_some_iff, Prod.mk.injEq, Prod.exists] at h
    obtain ⟨n, tail, hr, -, rfl⟩ := h
    exact takeBytes_length hr
  · simp only [Option.bind_eq_bind, Option.bind_eq_some_iff, Option.pure_def, Option.some.injEq, Prod.mk.injEq,
      Prod.exists] at h
    obtain ⟨count, middle, hc, value, tail, hv, -, rfl⟩ := h
    exact Nat.le_trans (takeBytes_length hv) (Nat.le_of_lt (Varint.read_length hc))
  · simp only [Option.some.injEq, Prod.mk.injEq] at h
    simp [h.2]
  · simp only [Option.some.injEq, Prod.mk.injEq] at h
    simp [h.2]
  · simp only [Option.map_eq_some_iff, Prod.mk.injEq, Prod.exists] at h
    obtain ⟨n, tail, hr, -, rfl⟩ := h
    exact takeBytes_length hr
  · simp at h

/-- reading a record leaves fewer bytes -/
theorem read_length {bytes rest : List UInt8} {record : Record} (h : read bytes = some (record, rest)) :
    rest.length < bytes.length := by
  unfold read at h
  split at h
  · simp at h
  · rename_i key tail hk
    split at h
    · simp only [Option.map_eq_some_iff, Prod.mk.injEq, Prod.exists] at h
      obtain ⟨token, tail', ht, -, rfl⟩ := h
      exact Nat.lt_of_le_of_lt (readValue_length ht) (Varint.read_length hk)
    · simp at h

end Token

/-- all records of a text of bytes -/
def readRecords (bytes : List UInt8) : Option (List Record) :=
  if bytes = [] then some []
  else
    match _h : Token.read bytes with
    | none => none
    | some (record, rest) => (readRecords rest).map (record :: ·)
termination_by bytes.length
decreasing_by exact Token.read_length (by assumption)

end ErlangRecords.Wire
