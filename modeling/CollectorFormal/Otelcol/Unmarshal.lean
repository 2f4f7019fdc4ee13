import CollectorFormal.Confmap.Originals
import CollectorFormal.Service.Pipelines

/-! How the components are read from a resolved configuration.

The IDs are read from the keys of a section, with the spaces around them cut off. A component is looked up by the
text of its ID. -/

namespace CollectorFormal.Otelcol

open Client (Text)
open Component (ID IDError)
open Confmap Lib Option

/-- component.Factory, by the type of the configuration that it creates. -/
structure Factory where
  kind : Kind
  createDefaultConfig : Typed kind

/-- Conf.Unmarshal into the default configuration. A Conf that is nil leaves it as it is. -/
def Factory.unmarshal (factory : Factory) : Option Entries → Option (Typed factory.kind)
  | none => some factory.createDefaultConfig
  | some data => decode factory.kind factory.createDefaultConfig (.map data)

structure ComponentConfig where
  factory : Factory
  value : Typed factory.kind

inductive ConfigsError where
  | key (err : IDError)
  /-- duplicate name %q after unmarshaling %v -/
  | duplicateName
  /-- expected a map or struct, got %q -/
  | expectedMap
  /-- the logging exporter has been deprecated, use the debug exporter instead -/
  | loggingDeprecated
  /-- unknown type: %q for id: %q (valid values: %v) -/
  | unknownType (id : ID)
  /-- error reading configuration for %q: %w -/
  | reading (id : ID)

/-- The map that a value is or refers to. A null leaves what there is. -/
def asMap (value : Value) : Except ConfigsError (Option Entries) :=
  match value.core with
  | .map entries => .ok (some entries)
  | .null => .ok none
  | _ => .error .expectedMap

def sectionEntries (sec : Value) : Entries :=
  match sec.core with
  | .map entries => entries
  | _ => []

theorem getD_of_asMap {sec : Value} {data : Option Entries} (found : asMap sec = .ok data) :
    data.getD [] = sectionEntries sec := by
  rw [asMap] at found
  rw [sectionEntries]
  cases is : sec.core with
  | map | null =>
    rw [is] at found
    cases found
    rfl
  | _ =>
    rw [is] at found
    cases found

/-- Conf.Sub at one key. None stands for a Conf that is nil. -/
def sub (entries : Entries) (key : Text) : Except ConfigsError (Option Entries) :=
  asMap ((find key entries).getD .null)

namespace Configs
variable [Component.Unicode]

/-- The ID of an entry of a section, whose value is a map. -/
def readID (entry : Text × Value) : Except ConfigsError ID :=
  match ID.unmarshalText entry.1 with
  | .error err => .error (.key err)
  | .ok id =>
    match asMap entry.2 with
    | .error err => .error err
    | .ok _ => .ok id

def rawCfgs (entries : Entries) : Except ConfigsError (List ID) :=
  match entries.mapM readID with
  | .error err => .error err
  | .ok ids => if ids.Nodup then .ok ids else .error .duplicateName

variable (factories : Text → Option Factory)

def errorUnknownType (id : ID) : ConfigsError :=
  if id.typeVal = ascii "logging" then .loggingDeprecated else .unknownType id

def unmarshalConfig (entries : Entries) (id : ID) : Except ConfigsError ComponentConfig :=
  match factories id.typeVal with
  | none => .error (errorUnknownType id)
  | some factory =>
    match sub entries id.asString with
    | .error _ => .error (.reading id)
    | .ok data =>
      match factory.unmarshal data with
      | none => .error (.reading id)
      | some value => .ok ⟨factory, value⟩

def unmarshal (sec : Value) : Except ConfigsError (List (ID × ComponentConfig)) := do
  let data ← asMap sec
  let entries := data.getD []
  let ids ← rawCfgs entries
  ids.mapM fun id => (unmarshalConfig factories entries id).map (id, ·)

variable {factories}

theorem unmarshalText_of_readID {entry : Text × Value} {id : ID} (read : readID entry = .ok id) :
    ID.unmarshalText entry.1 = .ok id := by
  rw [readID] at read
  split at read
  · cases read
  · next parsed =>
      split at read
      · cases read
      · cases read
        exact parsed

theorem rawCfgs_ok {entries : Entries} {ids : List ID} (raw : rawCfgs entries = .ok ids) :
    ids.Nodup ∧ List.Forall₂ (fun entry id => ID.unmarshalText entry.1 = .ok id) entries ids := by
  rw [rawCfgs] at raw
  split at raw
  · cases raw
  · next read =>
      split at raw
      · next distinct =>
          cases raw
          exact ⟨distinct, (mapM_eq_ok_iff.mp read).imp fun _ _ => unmarshalText_of_readID⟩
      · cases raw

theorem unmarshal_ok {sec : Value} {configs : List (ID × ComponentConfig)}
    (done : unmarshal factories sec = .ok configs) :
    ∃ ids, rawCfgs (sectionEntries sec) = .ok ids ∧
      List.Forall₂ (fun id config => config.1 = id ∧ unmarshalConfig factories (sectionEntries sec) id = .ok config.2)
        ids configs := by
  rw [unmarshal, bind_eq_ok] at done
  obtain ⟨data, found, done⟩ := done
  rw [getD_of_asMap found, bind_eq_ok] at done
  obtain ⟨ids, raw, done⟩ := done
  refine ⟨ids, raw, (mapM_eq_ok_iff.mp done).imp ?_⟩
  intro id config read
  cases outcome : unmarshalConfig factories (sectionEntries sec) id with
  | error err =>
    rw [outcome] at read
    cases read
  | ok value =>
    rw [outcome] at read
    cases read
    exact ⟨rfl, rfl⟩

theorem entry_of_mem {sec : Value} {configs : List (ID × ComponentConfig)} (done : unmarshal factories sec = .ok configs)
    {id : ID} {config : ComponentConfig} (member : (id, config) ∈ configs) :
    (∃ entry ∈ sectionEntries sec, ID.unmarshalText entry.1 = .ok id) ∧
      unmarshalConfig factories (sectionEntries sec) id = .ok config := by
  obtain ⟨ids, raw, each⟩ := unmarshal_ok done
  obtain ⟨_, listed, rfl, read⟩ := exists_of_forall₂_mem each member
  obtain ⟨entry, inside, parsed⟩ := exists_of_forall₂_mem (rawCfgs_ok raw).2 listed
  exact ⟨⟨entry, inside, parsed⟩, read⟩

omit [Component.Unicode] in
theorem sub_some {entries data : Entries} {key : Text} (found : sub entries key = .ok (some data)) :
    ∃ value, find key entries = some value ∧ value.core = .map data := by
  rw [sub] at found
  cases value : find key entries with
  | none =>
    rw [value] at found
    cases found
  | some value' =>
    rw [value, getD_some, asMap] at found
    refine ⟨value', rfl, ?_⟩
    split at found
    · next is_map =>
        cases found
        exact is_map
    · cases found
    · cases found

end Configs

/-- The factory reads the same configuration from two that were parsed to the same. -/
def Factory.Agrees (factory : Factory) : Option Entries → Option Entries → Prop
  | none, none => True
  | none, some data => decode factory.kind factory.createDefaultConfig (.map data) = some factory.createDefaultConfig
  | some data, none => decode factory.kind factory.createDefaultConfig (.map data) = some factory.createDefaultConfig
  | some data, some data' => Reads factory.kind factory.createDefaultConfig (.map data) (.map data')

namespace Configs
variable {factories : Text → Option Factory}

def Agree (factories : Text → Option Factory) (entries entries' : Entries) (id : ID) : Prop :=
  ∀ factory data data', factories id.typeVal = some factory → sub entries id.asString = .ok data →
    sub entries' id.asString = .ok data' → factory.Agrees data data'

theorem unmarshalConfig_ok {entries : Entries} {id : ID} {config : ComponentConfig}
    (done : unmarshalConfig factories entries id = .ok config) :
    ∃ factory data value, factories id.typeVal = some factory ∧ sub entries id.asString = .ok data ∧
      factory.unmarshal data = some value ∧ config = ⟨factory, value⟩ := by
  rw [unmarshalConfig] at done
  split at done
  · cases done
  · next factory known =>
      split at done
      · cases done
      · next data found =>
          split at done
          · cases done
          · next value decoded =>
              cases done
              exact ⟨factory, data, value, known, found, decoded, rfl⟩

theorem unmarshalConfig_eq_iff {entries entries' : Entries} {id : ID} {config config' : ComponentConfig}
    (done : unmarshalConfig factories entries id = .ok config)
    (done' : unmarshalConfig factories entries' id = .ok config')
    (same : ∀ data data', sub entries id.asString = .ok (some data) → sub entries' id.asString = .ok (some data') →
      Value.Same (.map data) (.map data')) :
    config = config' ↔ Agree factories entries entries' id := by
  obtain ⟨factory, data, value, known, found, read, rfl⟩ := unmarshalConfig_ok done
  obtain ⟨factory', data', value', known', found', read', rfl⟩ := unmarshalConfig_ok done'
  obtain rfl : factory = factory' := Option.some.inj (known.symm.trans known')
  have agree : value = value' ↔ factory.Agrees data data' := by
    cases data with
    | none =>
      cases read
      cases data' with
      | none =>
        cases read'
        exact iff_of_true rfl trivial
      | some data' =>
        rw [Factory.unmarshal] at read'
        rw [Factory.Agrees, read', some_inj, eq_comm]
    | some data =>
      cases data' with
      | none =>
        cases read'
        rw [Factory.unmarshal] at read
        rw [Factory.Agrees, read, some_inj]
      | some data' => exact readsRight factory.kind _ _ _ _ _ (same data data' found found') read read'
  constructor
  · intro equal other d d' here at_d at_d'
    obtain rfl : factory = other := Option.some.inj (known.symm.trans here)
    obtain rfl : data = d := Except.ok.inj (found.symm.trans at_d)
    obtain rfl : data' = d' := Except.ok.inj (found'.symm.trans at_d')
    exact agree.mp (by simpa using equal)
  · intro all
    rw [agree.mpr (all factory data data' known found found')]

end Configs

end CollectorFormal.Otelcol
