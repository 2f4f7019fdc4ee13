import CollectorFormal.Queue.PersistentQueue

/-! The wire format of the metadata message, and an encoding of simple requests.

Indices and sizes are unbounded in the model. Metadata that does not fit the fields of the message is written behind
a byte no message starts with; metadata that fits has the bytes the message has. -/

namespace CollectorFormal.Queue

open Lib List

def unary : List Nat → Bytes
  | [] => []
  | number :: rest => List.replicate number 1 ++ 0 :: unary rest

def incrementHead : List Nat → List Nat
  | [] => []
  | number :: rest => (number + 1) :: rest

def readUnary : Bytes → List Nat
  | [] => []
  | byte :: rest => if byte = 0 then 0 :: readUnary rest else incrementHead (readUnary rest)

theorem readUnary_unary (numbers : List Nat) : readUnary (unary numbers) = numbers := by
  induction numbers with
  | nil => rfl
  | cons number rest ih =>
    simp only [unary]
    induction number with
    | zero => simp [readUnary, ih]
    | succ number inner => simp [replicate_succ, readUnary, inner, incrementHead]

section wire

variable (tag : UInt8)

def field (number : Nat) : Bytes :=
  if number = 0 then [] else tag :: toLittleEndian 8 number

def takeField : Bytes → Option (Nat × Bytes)
  | [] => some (0, [])
  | byte :: rest =>
    if byte = tag then
      if rest.length < 8 then none else some (littleEndian (rest.take 8), rest.drop 8)
    else some (0, byte :: rest)

def packedField (numbers : List Nat) : Bytes :=
  if numbers = [] then []
  else tag :: (varint 10 (8 * numbers.length) ++ numbers.flatMap (toLittleEndian 8))

def takePacked : Bytes → Option (List Nat)
  | [] => some []
  | byte :: rest =>
    if byte = tag ∧ (readVarint rest).2.length = (readVarint rest).1 then
      some (readItemIndices ((readVarint rest).1 / 8) (readVarint rest).2)
    else none

def Follows (buf : Bytes) : Prop := ∀ byte ∈ buf.head?, tag < byte

theorem follows_field (first tag : UInt8) (number : Nat) (rest : Bytes) (larger : first < tag)
    (follows : Follows tag rest) : Follows first (field tag number ++ rest) := by
  intro byte head
  unfold field at head
  split at head
  · exact UInt8.lt_trans larger (follows byte head)
  · obtain rfl : tag = byte := Option.some.inj head
    exact larger

theorem takeField_field (number : Nat) (rest : Bytes) (fits : number < 2 ^ 64)
    (follows : Follows tag rest) : takeField tag (field tag number ++ rest) = some (number, rest) := by
  unfold field
  split
  · next zero =>
      cases rest with
      | nil => simp [takeField, zero]
      | cons byte rest =>
        have other : byte ≠ tag := (UInt8.ne_of_lt (follows byte rfl)).symm
        simp [takeField, other, zero]
  · simp [takeField, littleEndian_toLittleEndian 8 number fits]

theorem readItemIndices_packed (numbers : List Nat) (fits : ∀ number ∈ numbers, number < 2 ^ 64) :
    readItemIndices numbers.length (numbers.flatMap (toLittleEndian 8)) = numbers := by
  induction numbers with
  | nil => rfl
  | cons number rest ih =>
    have head := littleEndian_toLittleEndian 8 number (fits number mem_cons_self)
    have tail := ih fun other member => fits other (mem_cons_of_mem _ member)
    simp [readItemIndices, head, tail]

theorem takePacked_packedField (numbers : List Nat)
    (fits : ∀ number ∈ numbers, number < 2 ^ 64) (short : numbers.length < 2 ^ 60) :
    takePacked tag (packedField tag numbers) = some numbers := by
  unfold packedField
  split
  · next empty => simp [takePacked, empty]
  · have size : (numbers.flatMap (toLittleEndian 8)).length = 8 * numbers.length := by
      simp [length_flatMap, Nat.mul_comm]
    have prefixed := readVarint_varint 9 (8 * numbers.length) (numbers.flatMap (toLittleEndian 8)) (by omega)
    simp only [takePacked, prefixed, size, and_self, if_true]
    rw [Nat.mul_div_cancel_left _ (by decide), readItemIndices_packed numbers fits]

def toUint64 (size : Int) : Nat := (size % 2 ^ 64).toNat

def ofUint64 (number : Nat) : Int := if number < 2 ^ 63 then number else number - 2 ^ 64

theorem ofUint64_toUint64 (size : Int) (low : -2 ^ 63 ≤ size) (high : size < 2 ^ 63) :
    ofUint64 (toUint64 size) = size := by
  unfold ofUint64 toUint64
  split <;> omega

theorem toUint64_lt (size : Int) : toUint64 size < 2 ^ 64 := by
  unfold toUint64
  omega

end wire

namespace Metadata

variable (metadata : Metadata)

def Representable : Prop :=
  (-2 ^ 63 ≤ metadata.itemsSize ∧ metadata.itemsSize < 2 ^ 63) ∧
    (-2 ^ 63 ≤ metadata.bytesSize ∧ metadata.bytesSize < 2 ^ 63) ∧
    metadata.readIndex < 2 ^ 64 ∧ metadata.writeIndex < 2 ^ 64 ∧
    (∀ index ∈ metadata.currentlyDispatchedItems, index < 2 ^ 64) ∧
    metadata.currentlyDispatchedItems.length < 2 ^ 60

instance (metadata : Metadata) : Decidable metadata.Representable := by
  unfold Representable
  infer_instance

def wire : Bytes :=
  field 0x09 (toUint64 metadata.itemsSize) ++ (field 0x11 (toUint64 metadata.bytesSize) ++
    (field 0x19 metadata.readIndex ++ (field 0x21 metadata.writeIndex ++
      packedField 0x2a metadata.currentlyDispatchedItems)))

def ofWire (buf : Bytes) : Option Metadata := do
  let (itemsSize, buf) ← takeField 0x09 buf
  let (bytesSize, buf) ← takeField 0x11 buf
  let (readIndex, buf) ← takeField 0x19 buf
  let (writeIndex, buf) ← takeField 0x21 buf
  let dispatched ← takePacked 0x2a buf
  pure ⟨ofUint64 itemsSize, ofUint64 bytesSize, readIndex, writeIndex, dispatched⟩

theorem follows_packed (numbers : List Nat) : Follows 0x21 (packedField 0x2a numbers) := by
  intro byte head
  unfold packedField at head
  split at head
  · cases head
  · obtain rfl : 0x2a = byte := Option.some.inj head
    decide

theorem ofWire_wire (fits : metadata.Representable) : ofWire metadata.wire = some metadata := by
  obtain ⟨items, bytes, read, written, dispatched, short⟩ := fits
  have last := follows_packed metadata.currentlyDispatchedItems
  have third := follows_field 0x19 0x21 metadata.writeIndex _ (by decide) last
  have second := follows_field 0x11 0x19 metadata.readIndex _ (by decide) third
  have first := follows_field 0x09 0x11 (toUint64 metadata.bytesSize) _ (by decide) second
  simp [ofWire, wire, takeField_field _ _ _ (toUint64_lt _) first,
    takeField_field _ _ _ (toUint64_lt _) second, takeField_field _ _ _ read third,
    takeField_field _ _ _ written last, takePacked_packedField _ _ dispatched short,
    ofUint64_toUint64 _ items.1 items.2, ofUint64_toUint64 _ bytes.1 bytes.2]

/-- The two sizes as differences of natural numbers, the indices as they are. -/
def numbers : List Nat :=
  [metadata.itemsSize.toNat, (-metadata.itemsSize).toNat, metadata.bytesSize.toNat,
    (-metadata.bytesSize).toNat, metadata.readIndex, metadata.writeIndex] ++
    metadata.currentlyDispatchedItems

def ofNumbers : List Nat → Option Metadata
  | items :: lessItems :: bytes :: lessBytes :: readIndex :: writeIndex :: dispatched =>
    some ⟨(items : Int) - lessItems, (bytes : Int) - lessBytes, readIndex, writeIndex, dispatched⟩
  | _ => none

theorem ofNumbers_numbers : ofNumbers metadata.numbers = some metadata := by
  obtain ⟨itemsSize, bytesSize, readIndex, writeIndex, dispatched⟩ := metadata
  simp only [numbers, cons_append, nil_append, ofNumbers, Option.some.injEq, mk.injEq, and_true]
  omega

end Metadata

def orInvalid {α : Type} : Option α → Except String α
  | some value => .ok value
  | none => .error "proto: cannot parse invalid wire-format data"

def metadataProto : MetadataCodec where
  marshal metadata :=
    .ok (if metadata.Representable then metadata.wire else 0xff :: unary metadata.numbers)
  unmarshal buf :=
    if buf.head? = some 0xff then orInvalid (Metadata.ofNumbers (readUnary buf.tail))
    else orInvalid (Metadata.ofWire buf)

theorem metadataProto_lossless : metadataProto.Lossless := by
  intro metadata
  refine ⟨_, rfl, ?_⟩
  by_cases fits : metadata.Representable
  · have decoded := metadata.ofWire_wire fits
    have start : metadata.wire.head? ≠ some 0xff := by
      intro head
      rw [Metadata.wire] at head
      simp only [field, packedField] at head
      split at head <;> split at head <;> split at head <;> split at head <;> split at head <;>
        simp at head
    simp only [metadataProto, fits, if_true, if_neg start, decoded, orInvalid, true_and]
    constructor
    · intro empty
      rw [empty] at decoded
      exact (Option.some.inj decoded).symm
    · rintro rfl
      rfl
  · refine ⟨by simp [metadataProto, fits, readUnary_unary, Metadata.ofNumbers_numbers, orInvalid], ?_⟩
    simp only [fits, if_false, reduceCtorEq, false_iff]
    rintro rfl
    exact fits (by decide)

structure Parcel where
  items : Nat
  bytes : Nat
  deriving DecidableEq

instance : Request Parcel where
  itemsCount parcel := parcel.items
  bytesSize parcel := parcel.bytes

def parcelEncoding : Encoding Unit Parcel where
  marshal _ parcel := .ok (unary [parcel.items, parcel.bytes])
  unmarshal
    | none => .error "unexpected EOF"
    | some buf =>
      match readUnary buf with
      | [items, bytes] => .ok ((), ⟨items, bytes⟩)
      | _ => .error "unexpected EOF"

theorem parcelEncoding_lossless : parcelEncoding.Lossless := by
  intro ctx parcel
  exact ⟨_, (), rfl, by simp only [parcelEncoding, readUnary_unary]⟩

def parcelSettings (sizerType : SizerType) : Settings Unit Parcel :=
  ⟨sizerType, false, parcelEncoding, metadataProto⟩

end CollectorFormal.Queue
