import CollectorFormal.Lib.Assoc
import CollectorFormal.Pdata.AnyValue

/-! Keys and string values of profiles as indices into the string table of the dictionary.

Marshaling puts the strings of all resource and scope attributes into the table; unmarshaling looks them up again.
Index 0 also stands for no reference. -/

namespace CollectorFormal.Pprofile

open Lib
open Client (Text)
open Pdata

section convert

/-- The variables of the closure getStringIndex; the map is made when it is first called. -/
structure Converter where
  stringTable : List Text
  stringIndex : Option (List (Text × Int32)) := none

def indexTable (stringTable : List Text) : List (Text × Int32) :=
  stringTable.zipIdx.foldl (fun stringIndex entry => set entry.1 (Int32.ofNat entry.2) stringIndex) []

def Converter.getStringIndex (c : Converter) (s : Text) : Int32 × Converter :=
  let stringIndex := c.stringIndex.getD (indexTable c.stringTable)
  match find s stringIndex with
  | some idx => (idx, { c with stringIndex := some stringIndex })
  | none =>
    let idx := Int32.ofNat c.stringTable.length
    (idx, { stringTable := c.stringTable ++ [s], stringIndex := some (set s idx stringIndex) })

def convertKey (key : Text) (keyStrindex : Int32) (c : Converter) : (Text × Int32) × Converter :=
  if key ≠ [] then
    let r := c.getStringIndex key
    (([], r.1), r.2)
  else ((key, keyStrindex), c)

mutual

def convertAnyValueToReference : AnyValue → Converter → AnyValue × Converter
  | .stringValueStrindex index, c => (.stringValueStrindex index, c)
  | .stringValue value, c =>
    if value ≠ [] then
      let r := c.getStringIndex value
      (.stringValueStrindex r.1, r.2)
    else (.stringValue value, c)
  | .kvlistValue values, c =>
    let r := convertKeyValueToReferences values c
    (.kvlistValue r.1, r.2)
  | .arrayValue values, c =>
    let r := convertValuesToReferences values c
    (.arrayValue r.1, r.2)
  | value, c => (value, c)

def convertValuesToReferences : List AnyValue → Converter → List AnyValue × Converter
  | [], c => ([], c)
  | value :: rest, c =>
    let v := convertAnyValueToReference value c
    let r := convertValuesToReferences rest v.2
    (v.1 :: r.1, r.2)

def convertKeyValueToReferences : List KeyValue → Converter → List KeyValue × Converter
  | [], c => ([], c)
  | .mk key value keyStrindex :: rest, c =>
    let k := convertKey key keyStrindex c
    let v := convertAnyValueToReference value k.2
    let r := convertKeyValueToReferences rest v.2
    (.mk k.1.1 v.1 k.1.2 :: r.1, r.2)

end

end convert

section resolve

def stringAt (stringTable : List Text) (index : Int32) : Option Text :=
  if 0 ≤ index.toInt then stringTable[index.toInt.toNat]? else none

mutual

def resolveAnyValueReference (stringTable : List Text) : AnyValue → AnyValue
  | .stringValueStrindex index =>
    match if index ≠ 0 then stringAt stringTable index else none with
    | some str => .stringValue str
    | none => .stringValueStrindex index
  | .kvlistValue values => .kvlistValue (resolveKeyValueReferences stringTable values)
  | .arrayValue values => .arrayValue (resolveValueReferences stringTable values)
  | value => value

def resolveValueReferences (stringTable : List Text) : List AnyValue → List AnyValue
  | [] => []
  | value :: rest => resolveAnyValueReference stringTable value :: resolveValueReferences stringTable rest

def resolveKeyValueReferences (stringTable : List Text) : List KeyValue → List KeyValue
  | [] => []
  | .mk key value keyStrindex :: rest =>
    .mk ((stringAt stringTable keyStrindex).getD key) (resolveAnyValueReference stringTable value) keyStrindex ::
      resolveKeyValueReferences stringTable rest

end

end resolve

section profiles

/-- `Y`, `X` and `Z` have what is neither read nor written here. -/
structure ScopeProfiles (Y : Type) where
  attributes : List KeyValue
  rest : Y

structure ResourceProfiles (X Y : Type) where
  attributes : List KeyValue
  scopeProfiles : List (ScopeProfiles Y)
  rest : X

structure Profiles (X Y Z : Type) where
  resourceProfiles : List (ResourceProfiles X Y)
  stringTable : List Text
  rest : Z

variable {X Y Z : Type}

def convertScopes : List (ScopeProfiles Y) → Converter → List (ScopeProfiles Y) × Converter
  | [], c => ([], c)
  | sp :: rest, c =>
    let a := convertKeyValueToReferences sp.attributes c
    let r := convertScopes rest a.2
    ({ sp with attributes := a.1 } :: r.1, r.2)

def convertResources : List (ResourceProfiles X Y) → Converter → List (ResourceProfiles X Y) × Converter
  | [], c => ([], c)
  | rp :: rest, c =>
    let a := convertKeyValueToReferences rp.attributes c
    let s := convertScopes rp.scopeProfiles a.2
    let r := convertResources rest s.2
    ({ rp with attributes := a.1, scopeProfiles := s.1 } :: r.1, r.2)

def convertProfilesToReferences (profiles : Profiles X Y Z) : Profiles X Y Z :=
  let r := convertResources profiles.resourceProfiles { stringTable := profiles.stringTable }
  { profiles with resourceProfiles := r.1, stringTable := r.2.stringTable }

def resolveScopes (stringTable : List Text) (scopes : List (ScopeProfiles Y)) : List (ScopeProfiles Y) :=
  scopes.map fun sp => { sp with attributes := resolveKeyValueReferences stringTable sp.attributes }

def resolveResources (stringTable : List Text) (resources : List (ResourceProfiles X Y)) :
    List (ResourceProfiles X Y) :=
  resources.map fun rp =>
    { rp with
      attributes := resolveKeyValueReferences stringTable rp.attributes
      scopeProfiles := resolveScopes stringTable rp.scopeProfiles }

def resolveProfilesReferences (profiles : Profiles X Y Z) : Profiles X Y Z :=
  { profiles with resourceProfiles := resolveResources profiles.stringTable profiles.resourceProfiles }

/-- A generated codec, by protobuf or by JSON, whose unmarshaling undoes its marshaling, with any bytes `B`. -/
structure Codec (B X Y Z : Type) where
  marshal : Profiles X Y Z → B
  unmarshal : B → Except String (Profiles X Y Z)
  unmarshal_marshal : ∀ profiles, unmarshal (marshal profiles) = .ok profiles

variable {B : Type} (codec : Codec B X Y Z)

def ProtoMarshaler.marshalProfiles (pd : Profiles X Y Z) : B :=
  codec.marshal (convertProfilesToReferences pd)

def ProtoUnmarshaler.unmarshalProfiles (buf : B) : Except String (Profiles X Y Z) := do
  let pd ← codec.unmarshal buf
  return resolveProfilesReferences pd

def JSONMarshaler.marshalProfiles (pd : Profiles X Y Z) : B :=
  codec.marshal (convertProfilesToReferences pd)

def migrateProfiles (pd : Profiles X Y Z) : Profiles X Y Z := pd

def JSONUnmarshaler.unmarshalProfiles (buf : B) : Except String (Profiles X Y Z) := do
  let pd ← codec.unmarshal buf
  return resolveProfilesReferences (migrateProfiles pd)

end profiles

end CollectorFormal.Pprofile
