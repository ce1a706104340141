/-
Reading back what is written.

A number on the wire has at most ten digits, of which the tenth is 0 or 1, so what is written can be read as long as
every number, and with it every count of bytes, is below `Varint.limit`. Records are read one after the other: a record
under a known number gives its field, whatever follows it.

- `Varint.read_write`: numbers, in front of any bytes.
- `readFieldsWith_number`, `readFieldsWith_text`, `readFieldsWith_embedded`: a written field in front of others.
- `readFieldsWith_texts`, `readFieldsWith_all`: fields under one number.
- `read_write_response`: responses.
-/
import Mathlib.Data.List.Forall2
import ErlangRecords.Wire.Response

namespace ErlangRecords

namespace Wire

/-! ## Numbers -/

namespace Varint

/-- a number of `room + 1` digits, the last of which is 0 or 1, is below this -/
def capacity : (room : Nat) → Nat
  | 0 => 2
  | room + 1 => 128 * capacity room

/-- all numbers that can be read are below this: 64 bits -/
def limit : Nat := 0x10000000000000000

theorem capacity_nine : capacity 9 = limit := rfl

theorem write_small {n : Nat} (h : n < 128) : write n = [n.toUInt8] := by
  rw [write, if_pos h]

theorem write_large {n : Nat} (h : ¬n < 128) : write n = (n % 128 + 128).toUInt8 :: write (n / 128) := by
  rw [write, if_neg h]

theorem toNat_toUInt8 {n : Nat} (h : n < 256) : n.toUInt8.toNat = n := by
  rw [Nat.toUInt8, UInt8.toNat_ofNat']
  omega

theorem readDigits_write {room n : Nat} (h : n < capacity room) (rest : List UInt8) :
    readDigits (room + 1) (write n ++ rest) = some (n, rest) := by
  induction room generalizing n with
  | zero =>
    have hn : n < 2 := h
    have hdigit : n.toUInt8.toNat = n := toNat_toUInt8 (by omega)
    have hsmall : n.toUInt8 < 128 ∧ ¬2 ≤ n.toUInt8 := by
      simp only [UInt8.lt_iff_toNat_lt, UInt8.le_iff_toNat_le, hdigit]
      exact ⟨by simp; omega, by simp; omega⟩
    rw [write_small (by omega), List.singleton_append, readDigits, if_pos hsmall.1, if_neg (by simp [hsmall.2]), hdigit]
  | succ room ih =>
    by_cases hn : n < 128
    · have hdigit : n.toUInt8.toNat = n := toNat_toUInt8 (by omega)
      have hsmall : n.toUInt8 < 128 := by
        rw [UInt8.lt_iff_toNat_lt, hdigit]
        exact hn
      rw [write_small hn, List.singleton_append, readDigits, if_pos hsmall, if_neg (by simp), hdigit]
    · have hdigit : (n % 128 + 128).toUInt8.toNat = n % 128 + 128 := toNat_toUInt8 (by omega)
      have hlarge : ¬(n % 128 + 128).toUInt8 < 128 := by
        rw [UInt8.lt_iff_toNat_lt, hdigit]
        simp
      have hrest : n / 128 < capacity room := by
        simp only [capacity] at h
        omega
      have hvalue : n % 128 + 128 - 128 + 128 * (n / 128) = n := by omega
      rw [write_large hn, List.cons_append, readDigits, if_neg hlarge, ih hrest, Option.map_some, hdigit]
      simp only [hvalue]

/-- **Numbers** of 64 bits are read back, whatever follows. -/
theorem read_write {n : Nat} (h : n < limit) (rest : List UInt8) : read (write n ++ rest) = some (n, rest) :=
  readDigits_write (capacity_nine ▸ h) rest

end Varint

/-! ## Records -/

theorem Token.read_nil : Token.read [] = none := rfl

theorem takeBytes_append (bytes rest : List UInt8) :
    Token.takeBytes bytes.length (bytes ++ rest) = some (bytes, rest) := by
  simp [Token.takeBytes]

/-- the field numbers that fit a key -/
def IsTag (tag : Nat) : Prop := 0 < tag ∧ tag * 8 + 7 < 0x100000000

instance (tag : Nat) : Decidable (IsTag tag) := inferInstanceAs (Decidable (_ ∧ _))

variable {tag value : Nat} {bytes : List UInt8}

theorem read_key (htag : IsTag tag) (wireType : Nat) (hwire : wireType < 8) (rest : List UInt8) :
    Token.read (Varint.write (tag * 8 + wireType) ++ rest) =
      (Token.readValue wireType rest).map fun (token, rest) => ((tag, token), rest) := by
  obtain ⟨hpos, hfits⟩ := htag
  have hkey : tag * 8 + wireType < Varint.limit := by
    rw [Varint.limit]
    omega
  have hsplit : (tag * 8 + wireType) % 8 = wireType ∧ (tag * 8 + wireType) / 8 = tag := by omega
  rw [Token.read, Varint.read_write hkey]
  simp only
  rw [if_pos (by omega), hsplit.1, hsplit.2]

theorem read_writeNumber (htag : IsTag tag) (hvalue : value < Varint.limit) (rest : List UInt8) :
    Token.read (writeNumber tag value ++ rest) = some ((tag, .varint value), rest) := by
  have hkey := read_key htag 0 (by omega) (Varint.write value ++ rest)
  rw [writeNumber, numberKey, List.append_assoc]
  rw [Nat.add_zero] at hkey
  rw [hkey, Token.readValue, Varint.read_write hvalue]
  rfl

theorem read_writeBytes (htag : IsTag tag) (hlength : bytes.length < Varint.limit) (rest : List UInt8) :
    Token.read (writeBytes tag bytes ++ rest) = some ((tag, .delimited bytes), rest) := by
  have hkey := read_key htag 2 (by omega) (Varint.write bytes.length ++ (bytes ++ rest))
  rw [writeBytes, bytesKey, List.append_assoc, List.append_assoc, hkey, Token.readValue, Varint.read_write hlength]
  simp [takeBytes_append]

theorem readRecords_nil : readRecords [] = some [] := by
  rw [readRecords, if_pos rfl]

theorem readRecords_of_read {rest : List UInt8} {record : Record} (h : Token.read bytes = some (record, rest)) :
    readRecords bytes = (readRecords rest).map (record :: ·) := by
  have hne : bytes ≠ [] := by
    rintro rfl
    rw [Token.read_nil] at h
    cases h
  rw [readRecords, if_neg hne]
  split
  · rename_i hnone
    rw [h] at hnone
    cases hnone
  · rename_i record' rest' hsome
    rw [h] at hsome
    cases hsome
    rfl

/-! ## Fields -/

section

variable {format : Format} {room : Nat} {nested : Format → List UInt8 → Option (List Field)}

theorem readFieldsWith_nil : readFieldsWith room nested format [] = some [] := by
  simp [readFieldsWith, readRecords_nil, knownRecords]

/-- a record under a known number is read on its own -/
theorem readFieldsWith_of_read {rest : List UInt8} {token : Token} {content : Content} {field : Field}
    (h : Token.read bytes = some ((tag, token), rest)) (hknown : format.content? tag = some content)
    (hfield : readField nested (content, (tag, token)) = some field) :
    readFieldsWith room nested format bytes = (readFieldsWith room nested format rest).map (field :: ·) := by
  rw [readFieldsWith, readFieldsWith, readRecords_of_read h]
  cases readRecords rest with
  | none => rfl
  | some records =>
    simp only [Option.map_some, Option.bind_eq_bind, Option.bind_some, knownRecords, hknown]
    cases knownRecords format room [] records with
    | none => rfl
    | some known =>
      rw [Option.map_some, Option.bind_some, Option.bind_some, List.mapM_cons, hfield]
      cases known.mapM (readField nested) <;> rfl

theorem readFieldsWith_number (htag : IsTag tag) (hknown : format.content? tag = some .number)
    (hvalue : value < Varint.limit) (rest : List UInt8) :
    readFieldsWith room nested format (writeNumber tag value ++ rest) =
      (readFieldsWith room nested format rest).map (.number tag value :: ·) :=
  readFieldsWith_of_read (read_writeNumber htag hvalue rest) hknown rfl

theorem fromUTF8?_utf8 (text : String) : String.fromUTF8? ⟨(utf8 text).toArray⟩ = some text := by
  rw [utf8, Array.toArray_toList, String.fromUTF8?, dif_pos text.isValidUTF8]
  rfl

theorem readFieldsWith_text {text : String} (htag : IsTag tag) (hknown : format.content? tag = some .text)
    (hlength : (utf8 text).length < Varint.limit) (rest : List UInt8) :
    readFieldsWith room nested format (writeText tag text ++ rest) =
      (readFieldsWith room nested format rest).map (.text tag text :: ·) := by
  refine readFieldsWith_of_read (read_writeBytes htag hlength rest) hknown ?_
  rw [readField, fromUTF8?_utf8, Option.map_some]

theorem readFieldsWith_embedded {inner : Format} {fields : List Field} (htag : IsTag tag)
    (hknown : format.content? tag = some (.embedded inner)) (hinner : nested inner bytes = some fields)
    (hlength : bytes.length < Varint.limit) (rest : List UInt8) :
    readFieldsWith room nested format (writeBytes tag bytes ++ rest) =
      (readFieldsWith room nested format rest).map (.embedded tag fields :: ·) := by
  refine readFieldsWith_of_read (read_writeBytes htag hlength rest) hknown ?_
  rw [readField, hinner, Option.map_some]

/-- embedded messages under one number, one after the other, and nothing else -/
theorem readFieldsWith_all {inner : Format} {items : List (List UInt8)} {bodies : List (List Field)} (htag : IsTag tag)
    (hknown : format.content? tag = some (.embedded inner))
    (hinner : List.Forall₂ (fun bytes body => nested inner bytes = some body) items bodies)
    (hlength : ∀ bytes ∈ items, bytes.length < Varint.limit) :
    readFieldsWith room nested format (items.flatMap (writeBytes tag)) = some (bodies.map (.embedded tag)) := by
  induction hinner with
  | nil => exact readFieldsWith_nil
  | cons hbody _ ih =>
    obtain ⟨hitem, hitems⟩ := List.forall_mem_cons.1 hlength
    rw [List.flatMap_cons, readFieldsWith_embedded htag hknown hbody hitem, ih hitems]
    rfl

end

end Wire

/-! ## Responses -/

open Wire

/-- the fields of a file on the wire -/
def OutputFile.fields (file : OutputFile) : List Wire.Field := [.text 1 file.path, .text 15 file.content]

/-- the fields of a response on the wire, in the order of their numbers -/
def Response.fields (response : Response) : List Wire.Field :=
  (response.error.map (Wire.Field.text 1)).toList ++ .number 2 response.supportedFeatures ::
    response.files.map fun file => .embedded 15 file.fields

theorem length_writeBytes (tag : Nat) (bytes : List UInt8) : bytes.length ≤ (writeBytes tag bytes).length := by
  rw [writeBytes, List.length_append]
  exact Nat.le_add_left _ _

theorem length_write_le {files : List OutputFile} {file : OutputFile} (h : file ∈ files) :
    file.write.length ≤ (files.flatMap fun file => writeBytes 15 file.write).length := by
  have hfile := length_writeBytes 15 file.write
  obtain ⟨before, after, rfl⟩ := List.append_of_mem h
  simp only [List.flatMap_append, List.flatMap_cons, List.length_append]
  omega

theorem readFields_write_file {file : OutputFile} (h : file.write.length < Varint.limit) (room : Nat) :
    readFields room .responseFile file.write = some file.fields := by
  have hlengths : (utf8 file.path).length < Varint.limit ∧ (utf8 file.content).length < Varint.limit := by
    have hpath := length_writeBytes 1 (utf8 file.path)
    have hcontent := length_writeBytes 15 (utf8 file.content)
    simp only [OutputFile.write, writeText, List.length_append] at h
    omega
  have hread : ∀ room nested, readFieldsWith room nested .responseFile file.write = some file.fields := by
    intro room nested
    rw [OutputFile.write, readFieldsWith_text (by decide) rfl hlengths.1, ← List.append_nil (writeText 15 _),
      readFieldsWith_text (by decide) rfl hlengths.2, readFieldsWith_nil]
    rfl
  cases room <;> exact hread _ _

theorem readFieldsWith_files {files : List OutputFile} {room : Nat}
    (h : ∀ file ∈ files, file.write.length < Varint.limit) :
    readFieldsWith (room + 1) (readFields room) .response (files.flatMap fun file => writeBytes 15 file.write) =
      some (files.map fun file => .embedded 15 file.fields) := by
  have hinner : List.Forall₂ (fun bytes body => readFields room .responseFile bytes = some body)
      (files.map OutputFile.write) (files.map OutputFile.fields) := by
    rw [List.forall₂_map_left_iff, List.forall₂_map_right_iff, List.forall₂_same]
    exact fun file hfile => readFields_write_file (h file hfile) room
  have hread : readFieldsWith (room + 1) (readFields room) .response
      ((files.map OutputFile.write).flatMap (writeBytes 15)) =
        some ((files.map OutputFile.fields).map (.embedded 15)) :=
    readFieldsWith_all (by decide) rfl hinner (List.forall_mem_map.2 h)
  rwa [List.flatMap_map, List.map_map] at hread

/-- **Responses** are read back field by field. -/
theorem readFields_write_response {response : Response} (hfeatures : response.supportedFeatures < Varint.limit)
    (h : response.write.length < Varint.limit) :
    readFields depthLimit .response response.write = some response.fields := by
  have hfiles : ∀ file ∈ response.files, file.write.length < Varint.limit := by
    intro file hfile
    have hpart := length_write_le hfile
    simp only [Response.write, List.length_append] at h
    omega
  have hrest : readFields depthLimit .response (writeNumber 2 response.supportedFeatures ++
      response.files.flatMap fun file => writeBytes 15 file.write) =
      some (.number 2 response.supportedFeatures :: response.files.map fun file => .embedded 15 file.fields) := by
    rw [depthLimit, readFields, readFieldsWith_number (by decide) rfl hfeatures, readFieldsWith_files hfiles]
    rfl
  rw [Response.write, List.append_assoc, Response.fields]
  cases herror : response.error with
  | none => exact hrest
  | some message =>
    have hmessage : (utf8 message).length < Varint.limit := by
      have hpart := length_writeBytes 1 (utf8 message)
      simp only [Response.write, herror, writeText, List.length_append] at h
      omega
    rw [depthLimit, readFields] at hrest ⊢
    rw [readFieldsWith_text (by decide) rfl hmessage, hrest]
    rfl

/-- files are embedded fields and nothing else -/
theorem read_files (files : List OutputFile) :
    let fields := files.map fun file => Wire.Field.embedded 15 file.fields
    (embedded 15 fields).map OutputFile.ofWire = files ∧ texts 1 fields = [] ∧ lastNumber? 2 fields = none := by
  induction files with
  | nil => exact ⟨rfl, rfl, rfl⟩
  | cons file files ih =>
    obtain ⟨hfiles, htexts, hnumber⟩ := ih
    exact ⟨congrArg (file :: ·) hfiles, htexts, hnumber⟩

theorem lastNumber?_cons {tag : Nat} {fields : List Wire.Field} (h : lastNumber? tag fields = none) (value : Nat) :
    lastNumber? tag (.number tag value :: fields) = some value := by
  rw [lastNumber?, List.getLast?_eq_none_iff] at h
  rw [lastNumber?, List.filterMap_cons]
  simp only [if_true, h, List.getLast?_singleton]

/-- the fields tell the whole response -/
theorem Response.ofWire_fields (response : Response) : Response.ofWire response.fields = response := by
  obtain ⟨error, features, files⟩ := response
  obtain ⟨hfiles, htexts, hnumber⟩ := read_files files
  have hfeatures := lastNumber?_cons hnumber features
  rw [Response.ofWire, Response.mk.injEq]
  refine ⟨?_, ?_, ?_⟩
  · cases error with
    | none => exact congrArg List.getLast? htexts
    | some message => exact congrArg (fun later => (message :: later).getLast?) htexts
  · cases error <;> exact congrArg (·.getD 0) hfeatures
  · cases error <;> exact hfiles

/-- **Responses** are read back. -/
theorem read_write_response {response : Response} (hfeatures : response.supportedFeatures < Varint.limit)
    (h : response.write.length < Varint.limit) : Response.read response.write = some response := by
  rw [Response.read, readFields_write_response hfeatures h, Option.map_some, Response.ofWire_fields]

end ErlangRecords
