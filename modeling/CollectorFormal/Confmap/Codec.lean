import CollectorFormal.Confmap.Value
import CollectorFormal.Lib.Traverse

/-! How a configuration is decoded into the type of its fields, by mapstructure with the hooks of confmap, and marshalled.

A type is given by the kinds of its fields; embedded fields are listed with those around them. -/

namespace CollectorFormal.Confmap

open Client (Text)
open Lib List Option

/-- A type that is decoded from one scalar: a number, a duration, a struct without fields that has UnmarshalText. -/
structure Scalar where
  isStruct : Bool
  zero : Value
  convert : Value → Option Value
  isZero : Value → Bool
  zero_isZero : isZero zero = true

structure Tag where
  name : Text
  omitEmpty : Bool
deriving DecidableEq

inductive Kind where
  | string
  /-- configopaque.String -/
  | opaqueString
  | scalar (type : Scalar)
  | any
  | pointer (elem : Kind)
  | slice (elem : Kind)
  | map (elem : Kind)
  | struct (fields : List (Tag × Kind))
  /-- configopaque.MapList -/
  | mapList

abbrev Fields := List (Tag × Kind)

mutual

/-- The values of a type. What may be nil is an option. -/
@[reducible] def Typed : Kind → Type
  | .string => Text
  | .opaqueString => Text
  | .scalar _ => Value
  | .any => Value
  | .pointer elem => Option (Typed elem)
  | .slice elem => Option (List (Typed elem))
  | .map elem => Option (List (Text × Typed elem))
  | .struct fields => TypedFields fields
  | .mapList => Option (List (Text × Text))

@[reducible] def TypedFields : Fields → Type
  | [] => Unit
  | (_, kind) :: rest => Typed kind × TypedFields rest

end

/-- What the hooks pass on. `nil` leaves the field as it is, `zero` is the zero value of its type. -/
inductive Input where
  | nil
  | zero
  | value (data : Value)

namespace Kind

@[induction_eliminator]
theorem induct {motive : Kind → Prop} (string : motive .string) (opaqueString : motive .opaqueString)
    (scalar : ∀ type, motive (.scalar type)) (any : motive .any)
    (pointer : ∀ elem, motive elem → motive (.pointer elem))
    (slice : ∀ elem, motive elem → motive (.slice elem)) (map : ∀ elem, motive elem → motive (.map elem))
    (struct : ∀ fields : Fields, (∀ field ∈ fields, motive field.2) → motive (.struct fields))
    (mapList : motive .mapList) : ∀ kind, motive kind := by
  apply @Kind.rec motive (fun fields => ∀ field ∈ fields, motive field.2) (fun field => motive field.2)
    string opaqueString scalar any pointer slice map struct mapList
  · intro field member
    cases member
  · intro head rest at_head at_rest
    exact forall_mem_cons.mpr ⟨at_head, at_rest⟩
  · intro tag kind at_kind
    exact at_kind

mutual

def zero : (kind : Kind) → Typed kind
  | .string => ([] : Text)
  | .opaqueString => ([] : Text)
  | .scalar type => type.zero
  | .any => Value.null
  | .pointer _ => none
  | .slice _ => none
  | .map _ => none
  | .struct fields => zeroFields fields
  | .mapList => none

def zeroFields : (fields : Fields) → TypedFields fields
  | [] => ()
  | (_, kind) :: rest => (kind.zero, zeroFields rest)

end

/-- string, *string, **string and so on -/
def isString : Kind → Bool
  | .string => true
  | .opaqueString => true
  | .pointer elem => elem.isString
  | _ => false

def isPointer : Kind → Bool
  | .pointer _ => true
  | _ => false

def nullInput : Kind → Input
  | .string => .value (.str [])
  | .opaqueString => .value (.str [])
  | .scalar type => if type.isStruct then .nil else .zero
  | _ => .nil

/-- The zero value in place of a reference to a null. That of a pointer, a slice, a map or
an interface is nil. -/
def zeroInput : Kind → Input
  | .scalar _ => .zero
  | .struct _ => .zero
  | _ => .nil

def useOriginal (kind : Kind) : Value → Bool
  | .null => kind.isString && !kind.isPointer
  | _ => kind.isString

def useExpandValue (kind : Kind) : Value → Input
  | .expanded value original =>
    if kind.useOriginal value then .value (.str original)
    else
      match value with
      | .null => kind.zeroInput
      | value => .value value
  | .null => kind.nullInput
  | data => .value data

end Kind

def decodeString (data : Value) : Option Text :=
  match Kind.useExpandValue .string data with
  | .value (.str s) => some s
  | _ => none

def isScalar : Value → Bool
  | .list _ => false
  | .map _ => false
  | .expanded _ _ => false
  | _ => true

def isEmptyMap : Value → Bool
  | .map [] => true
  | _ => false

/-- strings.Split at commas; an empty text has no elements. -/
def splitComma (s : Text) : List Text := if s = [] then [] else s.splitOn 44

/-- StringToSliceHookFunc, which is for []string only. -/
def stringToSlice : (elem : Kind) → Text → Option (List (Typed elem))
  | .string, s => some (splitComma s)
  | _, _ => none

def known (fields : Fields) (entries : Entries) : Bool :=
  entries.all fun entry => fields.any fun field => decide (field.1.name = entry.1)

/-- expandNilStructPointers: an element that is null becomes a pointer to the zero value. -/
def nilElement : (elem : Kind) → Value → Option (Typed elem)
  | .pointer (.struct fields), .null => some (some (Kind.zero (.struct fields)))
  | _, _ => none

def nameTag : Tag := ⟨ascii "name", false⟩

def valueTag : Tag := ⟨ascii "value", false⟩

/-- configopaque.Pair -/
def pairFields : Fields := [(nameTag, .string), (valueTag, .opaqueString)]

/-- A pair that is written as a map with its name and its value. -/
def decodePair (data : Value) : Option (Text × Text) :=
  match Kind.useExpandValue (.struct pairFields) data with
  | .value (.map entries) =>
    if known pairFields entries then do
      let name ← (find nameTag.name entries).elim (some []) decodeString
      let value ← (find valueTag.name entries).elim (some []) decodeString
      some (name, value)
    else none
  | .value _ => none
  | _ => some ([], [])

/-- An interface that is not nil is decoded into what it holds, which is left out. -/
def decodeAny : Value → Input → Option Value
  | .null, .value data => some data
  | current, .nil => some current
  | _, _ => none

theorem decodeAny_value {current data typed : Value} (decoded : decodeAny current (.value data) = some typed) :
    typed = data := by
  cases current with
  | null => exact (Option.some.inj decoded).symm
  | _ => cases decoded

theorem decodeAny_nil (current : Value) : decodeAny current .nil = some current := by
  cases current <;> rfl

def keepOthers {α : Type} (new current : List (Text × α)) : List (Text × α) :=
  new ++ current.filter fun entry => (find entry.1 new).isNone

mutual

/-- Decodes into the value that the field has already. None is an error of the decoder. -/
def decode : (kind : Kind) → Typed kind → Value → Option (Typed kind)
  | .string, _, data => decodeString data
  | .opaqueString, _, data => decodeString data
  | .scalar type, current, data =>
    match Kind.useExpandValue (.scalar type) data with
    | .value data =>
      if isScalar data then type.convert data
      else if type.isStruct && isEmptyMap data then some current else none
    | .zero => some type.zero
    | .nil => some current
  | .any, current, data => decodeAny current (Kind.useExpandValue .any data)
  | .pointer elem, current, data =>
    match Kind.useExpandValue (.pointer elem) data with
    | .value data => (decode elem (Option.getD current elem.zero) data).map some
    | _ => some current
  | .slice elem, current, data =>
    match Kind.useExpandValue (.slice elem) data with
    | .value (.list items) => (items.mapM fun item => decode elem elem.zero item).map some
    | .value (.str s) => (stringToSlice elem s).map some
    | .value _ => none
    | _ => some current
  | .map elem, current, data =>
    match Kind.useExpandValue (.map elem) data with
    | .value (.map entries) =>
      (onValues (fun data => (nilElement elem data).or (decode elem elem.zero data)) entries).map fun new =>
        some (keepOthers new (Option.getD current []))
    | .value _ => none
    | _ => some current
  | .struct fields, current, data =>
    match Kind.useExpandValue (.struct fields) data with
    | .value (.map entries) => if known fields entries then decodeFields fields current entries else none
    | .value _ => none
    | .zero => some (Kind.zeroFields fields)
    | .nil => some current
  | .mapList, current, data =>
    match Kind.useExpandValue .mapList data with
    -- MapList.Unmarshal sorts the pairs by name, and so are the entries of a map
    | .value (.map entries) => (onValues decodeString entries).map some
    | .value (.list items) => (items.mapM decodePair).map some
    | .value _ => none
    | _ => some current

def decodeFields : (fields : Fields) → TypedFields fields → Entries → Option (TypedFields fields)
  | [], _, _ => some ()
  | (tag, kind) :: rest, current, entries => do
      let typed ← (find tag.name entries).elim (some current.1) fun data => decode kind current.1 data
      let others ← decodeFields rest current.2 entries
      some (typed, others)

end

attribute [local simp] decode decodeFields

variable (kind : Kind) {elem : Kind}

@[simp] theorem useExpandValue_map (entries : Entries) :
    kind.useExpandValue (.map entries) = .value (.map entries) := rfl

theorem decode_pointer_value {current typed : Typed (.pointer elem)} {data given : Value}
    (input : Kind.useExpandValue (.pointer elem) data = .value given) :
    decode (.pointer elem) current data = some typed ↔
      ∃ target, decode elem (Option.getD current elem.zero) given = some target ∧ typed = some target := by
  rw [decode, input]
  exact map_eq_some

theorem decode_slice_list {current typed : Typed (.slice elem)} {items : List Value} :
    decode (.slice elem) current (.list items) = some typed ↔
      ∃ decoded, items.mapM (decode elem elem.zero) = some decoded ∧ typed = some decoded := by
  rw [decode]
  exact map_eq_some

def decodeElement (elem : Kind) (data : Value) : Option (Typed elem) :=
  (nilElement elem data).or (decode elem elem.zero data)

theorem decode_map_map {current typed : Typed (.map elem)} {entries : Entries} :
    decode (.map elem) current (.map entries) = some typed ↔
      ∃ new, onValues (decodeElement elem) entries = some new ∧
        typed = some (keepOthers new (Option.getD current [])) := by
  rw [decode]
  exact map_eq_some

theorem decode_struct_map {fields : Fields} {current typed : Typed (.struct fields)} {entries : Entries} :
    decode (.struct fields) current (.map entries) = some typed ↔
      known fields entries = true ∧ decodeFields fields current entries = some typed := by
  rw [decode]
  simp only [useExpandValue_map]
  split
  · next all => simp [all]
  · next some => simp [some]

theorem decodeFields_cons {tag : Tag} {kind : Kind} {rest : Fields} {entries : Entries}
    {current typed : TypedFields ((tag, kind) :: rest)} :
    decodeFields ((tag, kind) :: rest) current entries = some typed ↔
      ((find tag.name entries).elim (some current.1) fun data => decode kind current.1 data) = some typed.1 ∧
        decodeFields rest current.2 entries = some typed.2 := by
  rw [decodeFields]
  simp only [bind_eq_bind, bind_eq_some_iff, Option.some.injEq]
  constructor
  · rintro ⟨own, at_own, others, at_others, rfl⟩
    exact ⟨at_own, at_others⟩
  · rintro ⟨at_own, at_others⟩
    exact ⟨typed.1, at_own, typed.2, at_others, rfl⟩

variable {current typed : Typed .mapList}

theorem decode_mapList_list {items : List Value} :
    decode .mapList current (.list items) = some typed ↔
      ∃ pairs, items.mapM decodePair = some pairs ∧ typed = some pairs := by
  rw [decode]
  exact map_eq_some

theorem decodePair_map {entries : Entries} {pair : Text × Text} :
    decodePair (.map entries) = some pair ↔ known pairFields entries = true ∧
      (find nameTag.name entries).elim (some []) decodeString = some pair.1 ∧
      (find valueTag.name entries).elim (some []) decodeString = some pair.2 := by
  rw [decodePair]
  simp only [useExpandValue_map]
  split
  · next all =>
      simp only [all, true_and, bind_eq_bind, bind_eq_some_iff, Option.some.injEq]
      constructor
      · rintro ⟨name, at_name, value, at_value, rfl⟩
        exact ⟨at_name, at_value⟩
      · rintro ⟨at_name, at_value⟩
        exact ⟨pair.1, at_name, pair.2, at_value, rfl⟩
  · next some => simp [some]

theorem mem_names_of_known {fields : Fields} {entries : Entries} (all : known fields entries = true) {key : Text}
    (present : key ∈ entries.map Prod.fst) : ∃ field ∈ fields, field.1.name = key := by
  obtain ⟨entry, member, rfl⟩ := mem_map.mp present
  have one := all_eq_true.mp all entry member
  simpa using one

theorem find_keepOthers {α : Type} {new current : List (Text × α)} {key : Text} (given : key ∈ new.map Prod.fst) :
    find key (keepOthers new current) = find key new := by
  rw [keepOthers, find_append]
  cases found : find key new with
  | none => exact absurd given (find_eq_none_iff.mp found)
  | some value => rfl

/-- What configopaque.String marshals to. -/
def maskedString : Text := ascii "[REDACTED]"

mutual

/-- What an interface holds. A reference that is still in it is a struct like any other. -/
def encodeAny : Value → Value
  | .list items => .list (encodeAnyItems items)
  | .map entries => .map (encodeAnyEntries entries)
  | .expanded value original => .map [(ascii "value", encodeAny value), (ascii "original", .str original)]
  | value => value

def encodeAnyItems : List Value → List Value
  | [] => []
  | item :: rest => encodeAny item :: encodeAnyItems rest

def encodeAnyEntries : Entries → Entries
  | [] => []
  | (key, value) :: rest => (key, encodeAny value) :: encodeAnyEntries rest

end

mutual

/-- reflect.Value.IsZero -/
def isZero : (kind : Kind) → Typed kind → Bool
  | .string, s => List.isEmpty s
  | .opaqueString, s => List.isEmpty s
  | .scalar type, content => type.isZero content
  | .any, content =>
    match content with
    | .null => true
    | _ => false
  | .pointer _, target => Option.isNone target
  | .slice _, items => Option.isNone items
  | .map _, entries => Option.isNone entries
  | .struct fields, typed => isZeroFields fields typed
  | .mapList, pairs => Option.isNone pairs

def isZeroFields : (fields : Fields) → TypedFields fields → Bool
  | [], _ => true
  | (_, kind) :: rest, typed => isZero kind typed.1 && isZeroFields rest typed.2

end

def omitted (tag : Tag) (kind : Kind) (typed : Typed kind) : Bool := tag.omitEmpty && isZero kind typed

def encodePair (pair : Text × Text) : Value :=
  .map [(nameTag.name, .str pair.1), (valueTag.name, .str maskedString)]

mutual

def encode : (kind : Kind) → Typed kind → Value
  | .string, s => .str s
  | .opaqueString, _ => .str maskedString
  | .scalar _, content => content
  | .any, content => encodeAny content
  | .pointer elem, target =>
    match target with
    | none => .null
    | some typed => encode elem typed
  | .slice elem, items => .list ((Option.getD items []).map fun item => encode elem item)
  | .map elem, entries => .map ((Option.getD entries []).map fun entry => (entry.1, encode elem entry.2))
  | .struct fields, typed => .map (encodeFields fields typed)
  | .mapList, pairs => .list ((Option.getD pairs []).map encodePair)

def encodeFields : (fields : Fields) → TypedFields fields → Entries
  | [], _ => []
  | (tag, kind) :: rest, typed =>
    if omitted tag kind typed.1 then encodeFields rest typed.2
    else (tag.name, encode kind typed.1) :: encodeFields rest typed.2

end

attribute [local simp] encode encodeFields

def names (fields : Fields) : List Text := fields.map fun field => field.1.name

theorem keys_encodeFields (fields : Fields) (typed : TypedFields fields) :
    ((encodeFields fields typed).map Prod.fst).Sublist (names fields) := by
  induction fields with
  | nil => simp [encodeFields]
  | cons field rest ih =>
    rw [encodeFields]
    split
    · exact (ih typed.2).cons _
    · exact (ih typed.2).cons_cons _

theorem find_encodeFields_same {tag : Tag} {kind : Kind} {rest : Fields} (typed : TypedFields ((tag, kind) :: rest))
    (fresh : tag.name ∉ names rest) :
    find tag.name (encodeFields ((tag, kind) :: rest) typed) =
      if omitted tag kind typed.1 then none else some (encode kind typed.1) := by
  rw [encodeFields]
  split
  · rw [find_eq_none_iff]
    exact fun present => fresh ((keys_encodeFields rest typed.2).subset present)
  · rw [find, if_pos rfl]

theorem find_encodeFields_other {tag : Tag} {kind : Kind} {rest : Fields} {name : Text}
    (typed : TypedFields ((tag, kind) :: rest)) (different : name ≠ tag.name) :
    find name (encodeFields ((tag, kind) :: rest) typed) = find name (encodeFields rest typed.2) := by
  rw [encodeFields]
  split
  · rfl
  · rw [find, if_neg (Ne.symm different)]

end CollectorFormal.Confmap
