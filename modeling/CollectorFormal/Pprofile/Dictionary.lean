import CollectorFormal.Lib.Outcomes
import CollectorFormal.Pdata.AnyValue

/-! Profiles whose records refer to each other by indices into the tables of a dictionary, and
how they are moved from one dictionary to another.

The records are over what stands for a reference: an index, or what it denotes. -/

namespace CollectorFormal.Pprofile.Merge

open Client (Text)
open Pdata
open Lib

section records
structure KeyValueAndUnit (S V : Type) where
  key : S
  value : V
  unit : S

structure Function (S : Type) where
  name : S
  systemName : S
  filename : S
  startLine : Int64
deriving DecidableEq

structure Mapping (S A : Type) where
  memoryStart : UInt64
  memoryLimit : UInt64
  fileOffset : UInt64
  filename : S
  attributes : List A
deriving DecidableEq

structure Line (F : Type) where
  function : F
  line : Int64
  column : Int64
deriving DecidableEq

structure Location (M A F : Type) where
  mapping : M
  address : UInt64
  lines : List (Line F)
  attributes : List A
deriving DecidableEq

structure Link where
  traceID : Vector UInt8 16
  spanID : Vector UInt8 8
deriving DecidableEq

structure Stack (L : Type) where
  locations : List L
deriving DecidableEq

structure ValueType (S : Type) where
  type : S
  unit : S

structure Sample (A K T : Type) where
  stack : T
  attributes : List A
  link : K
  values : List Int64
  timestampsUnixNano : List UInt64

structure Header where
  timeUnixNano : UInt64
  durationNano : UInt64
  period : Int64
  profileID : Vector UInt8 16
  droppedAttributesCount : UInt32
  originalPayloadFormat : Text
  originalPayload : List UInt8

structure Profile (S A K T : Type) where
  header : Header
  sampleType : ValueType S
  samples : List (Sample A K T)
  periodType : ValueType S
  attributes : List A

structure ScopeProfiles (Y P : Type) where
  scope : Y
  profiles : List P
  schemaURL : String

structure ResourceProfiles (X Y P : Type) where
  resource : X
  scopeProfiles : List (ScopeProfiles Y P)
  schemaURL : String

inductive Field where
  | key
  | unit
  | name
  | systemName
  | filename
  | type
  | attr
  | mapping
  | function
  | location
  | link
  | stack
deriving DecidableEq

inductive Part where
  | line
  | sample
  | profile
  | scopeProfile
  | resourceProfile
  | periodType
  | sampleType
deriving DecidableEq

end records

inductive Table where
  | string
  | attr
  | function
  | mapping
  | location
  | link
  | stack
deriving DecidableEq

@[reducible]
def Entry : Table → Type
  | .string => Text
  | .attr => KeyValueAndUnit Int Value
  | .function => Function Int
  | .mapping => Mapping Int Int
  | .location => Location Int Int Int
  | .link => Link
  | .stack => Stack Int

structure Dictionary where
  mappingTable : List (Entry .mapping) := []
  locationTable : List (Entry .location) := []
  functionTable : List (Entry .function) := []
  linkTable : List (Entry .link) := []
  stringTable : List (Entry .string) := []
  attributeTable : List (Entry .attr) := []
  stackTable : List (Entry .stack) := []
deriving Inhabited

namespace Dictionary

def table (d : Dictionary) : (t : Table) → List (Entry t)
  | .string => d.stringTable
  | .attr => d.attributeTable
  | .function => d.functionTable
  | .mapping => d.mappingTable
  | .location => d.locationTable
  | .link => d.linkTable
  | .stack => d.stackTable

def setTable (d : Dictionary) : (t : Table) → List (Entry t) → Dictionary
  | .string, table => { d with stringTable := table }
  | .attr, table => { d with attributeTable := table }
  | .function, table => { d with functionTable := table }
  | .mapping, table => { d with mappingTable := table }
  | .location, table => { d with locationTable := table }
  | .link, table => { d with linkTable := table }
  | .stack, table => { d with stackTable := table }

end Dictionary

/-- Equal of the entries. All but that of attributes compare every field. -/
def equal : (t : Table) → Entry t → Entry t → Bool
  | .string, a, b => a == b
  | .attr, a, b => a.key == b.key && a.unit == b.unit && a.value.equal b.value
  | .function, a, b => a == b
  | .mapping, a, b => a == b
  | .location, a, b => a == b
  | .link, a, b => a == b
  | .stack, a, b => a == b

inductive SwitchError where
  /-- invalid %s index %d -/
  | invalid (field : Field) (index : Int)
  /-- too many entries in %sTable -/
  | tooMany (table : Table)
  /-- couldn't set %s: %w -/
  | set (field : Field) (err : SwitchError)
  /-- couldn't set %s %d: %w -/
  | setAt (field : Field) (i : Nat) (err : SwitchError)
  /-- couldn't switch %s %d: %w -/
  | entry (table : Table) (i : Nat) (err : SwitchError)
  /-- couldn't switch dictionary for line %d: %w, error switching dictionary for %s %d: %w -/
  | part (part : Part) (i : Nat) (err : SwitchError)
  /-- error switching dictionary for %s: %w -/
  | valueType (part : Part) (err : SwitchError)

abbrev Switch := ExceptT SwitchError (StateM Dictionary)

def maxInt32 : Nat := 2147483647

/-- SetString, SetAttribute, SetFunction, SetMapping, SetLocation, SetLink and SetStack. -/
def setEntry (t : Table) (val : Entry t) : Switch Int := do
  let dst ← get
  match (dst.table t).findIdx? fun entry => equal t entry val with
  | some j => if maxInt32 < j then throw (.tooMany t) else pure j
  | none =>
    if maxInt32 ≤ (dst.table t).length then throw (.tooMany t)
    else
      set (dst.setTable t (dst.table t ++ [val]))
      pure (dst.table t).length

def switchIndex (t : Table) (src : Dictionary) (field : Field) (index : Int) : Switch Int :=
  if 0 < index then
    if inside : index.toNat < (src.table t).length then
      ExceptT.adapt (.set field) (setEntry t (src.table t)[index.toNat])
    else throw (.invalid field index)
  else pure index

def eachAt {α β : Type} (f : Nat → α → Switch β) : Nat → List α → Switch (List β)
  | _, [] => pure []
  | i, v :: rest => do
      let switched ← f i v
      let others ← eachAt f (i + 1) rest
      pure (switched :: others)

def switchIndices (t : Table) (src : Dictionary) (field : Field) (indices : List Int) : Switch (List Int) :=
  eachAt (fun i v =>
    if v < 0 then throw (.invalid field v)
    else if inside : v.toNat < (src.table t).length then
      ExceptT.adapt (.setAt field i) (setEntry t (src.table t)[v.toNat])
    else throw (.invalid field v)) 0 indices

section switch
variable (src : Dictionary)

def KeyValueAndUnit.switchDictionary (ms : Entry .attr) : Switch (Entry .attr) := do
  let key ← switchIndex .string src .key ms.key
  let unit ← switchIndex .string src .unit ms.unit
  pure { ms with key := key, unit := unit }

def Function.switchDictionary (fn : Entry .function) : Switch (Entry .function) := do
  let name ← switchIndex .string src .name fn.name
  let systemName ← switchIndex .string src .systemName fn.systemName
  let filename ← switchIndex .string src .filename fn.filename
  pure { fn with name := name, systemName := systemName, filename := filename }

def Mapping.switchDictionary (ms : Entry .mapping) : Switch (Entry .mapping) := do
  let filename ← switchIndex .string src .filename ms.filename
  let attributes ← switchIndices .attr src .attr ms.attributes
  pure { ms with filename := filename, attributes := attributes }

def Line.switchDictionary (l : Line Int) : Switch (Line Int) := do
  let function ← switchIndex .function src .function l.function
  pure { l with function := function }

def Location.switchDictionary (ms : Entry .location) : Switch (Entry .location) := do
  let mapping ← switchIndex .mapping src .mapping ms.mapping
  let attributes ← switchIndices .attr src .attr ms.attributes
  let lines ← eachAt (fun i v => ExceptT.adapt (.part .line i) (v.switchDictionary src)) 0 ms.lines
  pure { ms with mapping := mapping, attributes := attributes, lines := lines }

def Stack.switchDictionary (ms : Entry .stack) : Switch (Entry .stack) := do
  let locations ← switchIndices .location src .location ms.locations
  pure { ms with locations := locations }

def ValueType.switchDictionary (ms : ValueType Int) : Switch (ValueType Int) := do
  let type ← switchIndex .string src .type ms.type
  let unit ← switchIndex .string src .unit ms.unit
  pure { ms with type := type, unit := unit }

def Sample.switchDictionary (ms : Sample Int Int Int) : Switch (Sample Int Int Int) := do
  let attributes ← switchIndices .attr src .attr ms.attributes
  let link ← switchIndex .link src .link ms.link
  let stack ← switchIndex .stack src .stack ms.stack
  pure { ms with attributes := attributes, link := link, stack := stack }

def Profile.switchDictionary (ms : Profile Int Int Int Int) : Switch (Profile Int Int Int Int) := do
  let attributes ← switchIndices .attr src .attr ms.attributes
  let samples ← eachAt (fun i v => ExceptT.adapt (.part .sample i) (v.switchDictionary src)) 0 ms.samples
  let periodType ← ExceptT.adapt (.valueType .periodType) (ms.periodType.switchDictionary src)
  let sampleType ← ExceptT.adapt (.valueType .sampleType) (ms.sampleType.switchDictionary src)
  pure { ms with attributes := attributes, samples := samples, periodType := periodType, sampleType := sampleType }

variable {X Y : Type}

def ScopeProfiles.switchDictionary (ms : ScopeProfiles Y (Profile Int Int Int Int)) :
    Switch (ScopeProfiles Y (Profile Int Int Int Int)) := do
  let profiles ← eachAt (fun i v => ExceptT.adapt (.part .profile i) (v.switchDictionary src)) 0 ms.profiles
  pure { ms with profiles := profiles }

def ResourceProfiles.switchDictionary (ms : ResourceProfiles X Y (Profile Int Int Int Int)) :
    Switch (ResourceProfiles X Y (Profile Int Int Int Int)) := do
  let scopeProfiles ←
    eachAt (fun i v => ExceptT.adapt (.part .scopeProfile i) (v.switchDictionary src)) 0 ms.scopeProfiles
  pure { ms with scopeProfiles := scopeProfiles }

end switch

section profiles
variable {X Y : Type}

structure Profiles (X Y : Type) where
  dictionary : Dictionary := {}
  resourceProfiles : List (ResourceProfiles X Y (Profile Int Int Int Int)) := []
  readOnly : Bool := false

def switchTable (t : Table) (src : Dictionary) (f : Dictionary → Entry t → Switch (Entry t)) : Switch Dictionary := do
  let table ← eachAt (fun i v => ExceptT.adapt (.entry t i) (f src v)) 0 (src.table t)
  pure (src.setTable t table)

def Profiles.switchDictionary (ms : Profiles X Y) : Switch (Profiles X Y) := do
  let src ← switchTable .attr ms.dictionary KeyValueAndUnit.switchDictionary
  let src ← switchTable .function src Function.switchDictionary
  let src ← switchTable .mapping src Mapping.switchDictionary
  let src ← switchTable .location src Location.switchDictionary
  let src ← switchTable .stack src Stack.switchDictionary
  let resourceProfiles ←
    eachAt (fun i v => ExceptT.adapt (.part .resourceProfile i) (v.switchDictionary src)) 0 ms.resourceProfiles
  pure { ms with dictionary := src, resourceProfiles := resourceProfiles }

inductive MergeError where
  /-- Of AssertMutable. -/
  | panics
  | switch (err : SwitchError)

/-- For two distinct profiles: the source, unless there is an error, and the destination. A source that could not be
switched is left half done. -/
def Profiles.mergeTo (ms dest : Profiles X Y) : Except MergeError (Profiles X Y) × Profiles X Y :=
  if ms.readOnly ∨ dest.readOnly then (.error .panics, dest)
  else
    match ms.switchDictionary.run.run dest.dictionary with
    | (.error err, dst) => (.error (.switch err), { dest with dictionary := dst })
    | (.ok ms, dst) =>
      (.ok { ms with resourceProfiles := [], readOnly := true },
        { dest with dictionary := dst, resourceProfiles := dest.resourceProfiles ++ ms.resourceProfiles })

end profiles

end CollectorFormal.Pprofile.Merge
