/-
Variable-length numbers: base 128, least digit first, and 128 added to every digit but the last.

Readers take at most ten digits, and the tenth may only be 0 or 1, so that a number read is below 2 ^ 64.
-/

namespace ErlangRecords.Wire.Varint

/-- the digits of a number -/
def write (n : Nat) : List UInt8 :=
  if n < 128 then [n.toUInt8] else (n % 128 + 128).toUInt8 :: write (n / 128)
termination_by n

/-- a number of at most `room` digits, and the bytes after it -/
def readDigits : (room : Nat) → List UInt8 → Option (Nat × List UInt8)
  | _, [] => none
  | 0, _ => none
  | room + 1, b :: rest =>
    if b < 128 then
      if room = 0 ∧ 2 ≤ b then none else some (b.toNat, rest)
    else (readDigits room rest).map fun (n, rest) => (b.toNat - 128 + 128 * n, rest)

def read (bytes : List UInt8) : Option (Nat × List UInt8) := readDigits 10 bytes

theorem readDigits_length {room : Nat} {bytes rest : List UInt8} {n : Nat}
    (h : readDigits room bytes = some (n, rest)) : rest.length < bytes.length := by
  induction bytes generalizing room n with
  | nil => cases room <;> simp [readDigits] at h
  | cons b bytes ih =>
    cases room with
    | zero => simp [readDigits] at h
    | succ room =>
      simp only [readDigits] at h
      split at h
      · split at h
        · simp at h
        · simp only [Option.some.injEq, Prod.mk.injEq] at h
          simp [← h.2]
      · simp only [Option.map_eq_some_iff, Prod.mk.injEq, Prod.exists] at h
        obtain ⟨m, tail, hm, -, rfl⟩ := h
        exact Nat.lt_succ_of_lt (ih hm)

/-- reading a number leaves fewer bytes -/
theorem read_length {bytes rest : List UInt8} {n : Nat} (h : read bytes = some (n, rest)) :
    rest.length < bytes.length :=
  readDigits_length h

/-- the bytes are numbers one after the other -/
def areNumbers (bytes : List UInt8) : Bool :=
  if bytes = [] then true
  else
    match _h : read bytes with
    | none => false
    | some (_, rest) => areNumbers rest
termination_by bytes.length
decreasing_by exact read_length (by assumption)

end ErlangRecords.Wire.Varint
