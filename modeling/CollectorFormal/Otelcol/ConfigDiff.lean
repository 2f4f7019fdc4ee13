import CollectorFormal.Otelcol.Unmarshal

/-! Which change of the configuration is one of receivers only.

Configurations are compared by hashes of what Conf.Get returns, the parsed values. The components are decoded from
the configuration itself. -/

namespace CollectorFormal.Otelcol

open Client (Text)
open Component (ID IDError)
open Confmap Lib List Option Value

inductive ConfigSection where
  | receivers
  | processors
  | exporters
  | connectors
  | extensions
deriving DecidableEq

def ConfigSection.key : ConfigSection → Text
  | .receivers => ascii "receivers"
  | .processors => ascii "processors"
  | .exporters => ascii "exporters"
  | .connectors => ascii "connectors"
  | .extensions => ascii "extensions"

/-- The parts of service.Config that are not components. -/
structure ServiceConfig where
  extensions : List ID
  pipelines : Pipeline.Config

structure Config where
  receivers : List (ID × ComponentConfig)
  processors : List (ID × ComponentConfig)
  exporters : List (ID × ComponentConfig)
  connectors : List (ID × ComponentConfig)
  extensions : List (ID × ComponentConfig)
  service : ServiceConfig

def Config.components (cfg : Config) : ConfigSection → List (ID × ComponentConfig)
  | .receivers => cfg.receivers
  | .processors => cfg.processors
  | .exporters => cfg.exporters
  | .connectors => cfg.connectors
  | .extensions => cfg.extensions

/-- koanf's Get, null if there is nothing. -/
def unsanitizedGet : List Text → Entries → Value
  | [], _ => .null
  | [key], entries => (find key entries).getD .null
  | key :: path, entries =>
    match find key entries with
    | some (.map below) => unsanitizedGet path below
    | _ => .null

/-- Conf.Get -/
def get (conf : Entries) (path : List Text) : Value := (unsanitizedGet path conf).sanitize

section Unicode
variable [Component.Unicode]

def unmarshal (factories : ConfigSection → Text → Option Factory) (service : ServiceConfig) (conf : Entries) :
    Except ConfigsError Config := do
  let read := fun sec => Configs.unmarshal (factories sec) (unsanitizedGet [ConfigSection.key sec] conf)
  let receivers ← read .receivers
  let processors ← read .processors
  let exporters ← read .exporters
  let connectors ← read .connectors
  let extensions ← read .extensions
  pure ⟨receivers, processors, exporters, connectors, extensions, service⟩

structure PipelineFingerprint where
  receivers : List ID
  processors : List ID
  exporters : List ID

def pipelineFingerprint (pipe : Pipeline.PipelineConfig) : PipelineFingerprint :=
  ⟨pipe.receivers, pipe.processors, pipe.exporters⟩

structure ConfigFingerprint (H : Type) where
  nonReceiverHash : H
  receiverHashes : List (ID × H)
  extensions : List ID
  pipelines : List (Pipeline.ID × PipelineFingerprint)

inductive HashError where
  /-- could not encode value for fingerprint: %w -/
  | encode
  /-- expected a map under %q, got %T -/
  | expectedMap (key : Text)
  /-- invalid component id %q under %q: %w -/
  | invalidID (k key : Text) (err : IDError)

inductive FingerprintError where
  /-- could not fingerprint configuration: %w -/
  | configuration (err : HashError)
  /-- could not fingerprint receiver configuration: %w -/
  | receiverConfiguration (err : HashError)

/-- The paths that are hashed together, with their names in the order of the encoding. -/
def nonReceiverSections : List (Text × List Text) :=
  [(ascii "connectors", [ascii "connectors"]), (ascii "exporters", [ascii "exporters"]),
    (ascii "extensions", [ascii "extensions"]), (ascii "processors", [ascii "processors"]),
    (ascii "service::telemetry", [ascii "service", ascii "telemetry"])]

/-- What hashSections hashes. -/
def combined (conf : Entries) (keys : List (Text × List Text)) : Value :=
  .map (keys.map fun key => (key.1, get conf key.2))

/-- What hashEntriesByID hashes, by ID. -/
def entriesByID (conf : Entries) (key : Text) : Except HashError (List (ID × Value)) :=
  match get conf [key] with
  | .null => .ok []
  | .map m =>
    m.mapM fun entry =>
      match ID.unmarshalText entry.1 with
      | .ok id => .ok (id, entry.2)
      | .error err => .error (.invalidID entry.1 key err)
  | _ => .error (.expectedMap key)

section Fingerprint
variable {H : Type} (hashValue : Value → Option H)

def hashSections (conf : Entries) (keys : List (Text × List Text)) : Except HashError H :=
  match hashValue (combined conf keys) with
  | some hash => .ok hash
  | none => .error .encode

def hashEntriesByID (conf : Entries) (key : Text) : Except HashError (List (ID × H)) :=
  match entriesByID conf key with
  | .error err => .error err
  | .ok values =>
    match onValues hashValue values with
    | some hashes => .ok hashes
    | none => .error .encode

def fingerprintForPartialReload (conf : Entries) (cfg : Config) : Except FingerprintError (ConfigFingerprint H) :=
  match hashSections hashValue conf nonReceiverSections with
  | .error err => .error (.configuration err)
  | .ok nonReceiverHash =>
    match hashEntriesByID hashValue conf (ascii "receivers") with
    | .error err => .error (.receiverConfiguration err)
    | .ok receiverHashes =>
      .ok ⟨nonReceiverHash, receiverHashes, cfg.service.extensions,
        cfg.service.pipelines.map fun pipe => (pipe.1, pipelineFingerprint pipe.2)⟩

end Fingerprint

def filterIDs (ids : List ID) (pred : ID → Bool) : List ID := ids.filter pred

def isConnectorID (connectors : List (ID × ComponentConfig)) (id : ID) : Bool := (find id connectors).isSome

section Compare
variable {H : Type} [DecidableEq H]

def samePipeline (isConnector : ID → Bool) (oldPipe curPipe : PipelineFingerprint) : Bool :=
  decide (oldPipe.processors = curPipe.processors) && decide (oldPipe.exporters = curPipe.exporters) &&
    decide (filterIDs oldPipe.receivers isConnector = filterIDs curPipe.receivers isConnector)

def receiversOnlyChanged (old cur : ConfigFingerprint H) (isConnector : ID → Bool) : Bool :=
  decide (old.nonReceiverHash = cur.nonReceiverHash) && decide (old.extensions = cur.extensions) &&
    decide (old.pipelines.length = cur.pipelines.length) &&
    old.pipelines.all fun pipe => (find pipe.1 cur.pipelines).any (samePipeline isConnector pipe.2)

def changedReceivers (old cur : ConfigFingerprint H) : List ID :=
  (cur.receiverHashes.filter fun entry =>
    (find entry.1 old.receiverHashes).any fun oldHash => decide (oldHash ≠ entry.2)).map Prod.fst

end Compare

theorem service_of_unmarshal {factories : ConfigSection → Text → Option Factory} {service : ServiceConfig}
    {conf : Entries} {cfg : Config} (loads : unmarshal factories service conf = .ok cfg) : cfg.service = service := by
  rw [unmarshal] at loads
  simp only [bind_eq_ok] at loads
  obtain ⟨_, _, _, _, _, _, _, _, _, _, last⟩ := loads
  cases last
  rfl

theorem components_of_unmarshal {factories : ConfigSection → Text → Option Factory} {service : ServiceConfig}
    {conf : Entries} {cfg : Config} (loads : unmarshal factories service conf = .ok cfg) (sec : ConfigSection) :
    Configs.unmarshal (factories sec) (unsanitizedGet [sec.key] conf) = .ok (cfg.components sec) := by
  rw [unmarshal] at loads
  simp only [bind_eq_ok] at loads
  obtain ⟨receivers, at_receivers, processors, at_processors, exporters, at_exporters, connectors, at_connectors,
    extensions, at_extensions, last⟩ := loads
  cases last
  cases sec with
  | receivers => exact at_receivers
  | processors => exact at_processors
  | exporters => exact at_exporters
  | connectors => exact at_connectors
  | extensions => exact at_extensions

section Projections
variable {conf conf' : Entries}

omit [Component.Unicode] in
theorem resolved_section (resolved : (Value.map conf).Resolved) (key : Text) :
    (unsanitizedGet [key] conf).Resolved := by
  rw [resolved_map] at resolved
  rw [unsanitizedGet]
  cases found : find key conf with
  | none => trivial
  | some value => exact resolved _ (mem_of_find found)

omit [Component.Unicode] in
theorem resolved_entry (resolved : (Value.map conf).Resolved) {key : Text} {entry : Text × Value}
    (member : entry ∈ sectionEntries (unsanitizedGet [key] conf)) : entry.2.Resolved := by
  have whole := (resolved_section resolved key).core.2
  rw [sectionEntries] at member
  split at member
  · next is_map =>
      rw [is_map, resolved_map] at whole
      exact whole entry member
  · cases member

omit [Component.Unicode] in
theorem sanitize_entries {sec : Value} (resolved : sec.Resolved) {m : Entries} (sanitized : sec.sanitize = .map m) :
    List.Forall₂ (fun entry hashed => entry.1 = hashed.1 ∧ entry.2.parsed = hashed.2.parsed) (sectionEntries sec) m := by
  cases sec with
  | map entries =>
    rw [Value.sanitize, Value.map.injEq, sanitizeEntries_eq] at sanitized
    change List.Forall₂ _ entries m
    rw [← sanitized, forall₂_map_right_iff, forall₂_same]
    intro entry _
    exact ⟨rfl, (parsed_sanitize entry.2).symm⟩
  | expanded value original =>
    obtain rfl : value = .map m := sanitized
    change List.Forall₂ _ m m
    rw [forall₂_same]
    intro entry _
    exact ⟨rfl, rfl⟩
  | _ => cases sanitized

omit [Component.Unicode] in
theorem sectionEntries_of_null {sec : Value} (sanitized : sec.sanitize = .null) : sectionEntries sec = [] := by
  cases sec with
  | null => rfl
  | expanded value original =>
    obtain rfl : value = .null := sanitized
    rfl
  | _ => cases sanitized

theorem entriesByID_ok (resolved : (Value.map conf).Resolved) {key : Text} {values : List (ID × Value)}
    (listed : entriesByID conf key = .ok values) :
    List.Forall₂ (fun entry value => ID.unmarshalText entry.1 = .ok value.1 ∧ entry.2.parsed = value.2.parsed)
      (sectionEntries (unsanitizedGet [key] conf)) values := by
  rw [entriesByID, get] at listed
  split at listed
  · next null =>
      cases listed
      rw [sectionEntries_of_null null]
      exact List.Forall₂.nil
  · next is_map =>
      refine forall₂_comp ?_ (sanitize_entries (resolved_section resolved key) is_map) (mapM_eq_ok_iff.mp listed)
      rintro entry hashed value ⟨keys, values⟩ read
      split at read
      · next id parsed =>
          cases read
          rw [← keys] at parsed
          exact ⟨parsed, values⟩
      · cases read
  · cases listed

theorem ids_of_entriesByID {entries : Entries} {ids : List ID} {values : List (ID × Value)}
    (raw : Configs.rawCfgs entries = .ok ids)
    (each : List.Forall₂ (fun entry value => ID.unmarshalText entry.1 = .ok value.1 ∧ entry.2.parsed = value.2.parsed)
      entries values) : (values.map Prod.fst).Nodup := by
  obtain ⟨distinct, parsed⟩ := Configs.rawCfgs_ok raw
  have same : ids = values.map Prod.fst := by
    rw [← forall₂_eq_eq_eq, forall₂_map_right_iff]
    refine forall₂_comp ?_ parsed.flip each
    intro id entry value first second
    exact Except.ok.inj (first.symm.trans second.1)
  rw [← same]
  exact distinct

end Projections

structure Loaded {H : Type} (factories : ConfigSection → Text → Option Factory) (hashValue : Value → Option H) where
  conf : Entries
  service : ServiceConfig
  cfg : Config
  fingerprint : ConfigFingerprint H
  resolved : (Value.map conf).Resolved
  loads : unmarshal factories service conf = .ok cfg
  fingerprints : fingerprintForPartialReload hashValue conf cfg = .ok fingerprint

namespace Loaded
variable {H : Type} {factories : ConfigSection → Text → Option Factory} {hashValue : Value → Option H}
variable (loaded : Loaded factories hashValue)

def entries (sec : ConfigSection) : Entries := sectionEntries (unsanitizedGet [sec.key] loaded.conf)

def receiverValue (id : ID) : Option Value :=
  (entriesByID loaded.conf (ascii "receivers")).toOption.bind (find id)

theorem fingerprint_parts :
    hashValue (combined loaded.conf nonReceiverSections) = some loaded.fingerprint.nonReceiverHash ∧
    loaded.fingerprint.extensions = loaded.service.extensions ∧
    loaded.fingerprint.pipelines = loaded.service.pipelines.map (fun pipe => (pipe.1, pipelineFingerprint pipe.2)) ∧
    ∃ values, entriesByID loaded.conf (ascii "receivers") = .ok values ∧
      onValues hashValue values = some loaded.fingerprint.receiverHashes := by
  have whole := loaded.fingerprints
  rw [fingerprintForPartialReload] at whole
  split at whole
  · cases whole
  · next sections =>
      split at whole
      · cases whole
      · next receivers =>
          rw [hashSections] at sections
          rw [hashEntriesByID] at receivers
          rw [← Except.ok.inj whole, ← service_of_unmarshal loaded.loads]
          refine ⟨?_, rfl, rfl, ?_⟩
          · split at sections
            · next hash encoded =>
                cases sections
                exact encoded
            · cases sections
          · split at receivers
            · cases receivers
            · next values listed =>
                refine ⟨values, listed, ?_⟩
                split at receivers
                · next hashes encoded =>
                    cases receivers
                    exact encoded
                · cases receivers

theorem rawCfgs (sec : ConfigSection) : ∃ ids, Configs.rawCfgs (loaded.entries sec) = .ok ids := by
  obtain ⟨ids, raw, _⟩ := Configs.unmarshal_ok (components_of_unmarshal loaded.loads sec)
  exact ⟨ids, raw⟩

theorem receiverValue_of_entry {entry : Text × Value} {id : ID} (member : entry ∈ loaded.entries .receivers)
    (read : ID.unmarshalText entry.1 = .ok id) :
    ∃ value, loaded.receiverValue id = some value ∧ entry.2.parsed = value.parsed := by
  obtain ⟨values, listed, _⟩ := loaded.fingerprint_parts.2.2.2
  obtain ⟨ids, raw⟩ := loaded.rawCfgs .receivers
  have each := entriesByID_ok loaded.resolved listed
  obtain ⟨⟨id', value⟩, inside, read', parsed⟩ := exists_of_mem_forall₂ each member
  obtain rfl : id = id' := Except.ok.inj (read.symm.trans read')
  have found : find id values = some value := find_of_mem (ids_of_entriesByID raw each) inside
  refine ⟨value, ?_, parsed⟩
  rw [receiverValue, listed]
  exact found

theorem receiverHashes_nodup : (loaded.fingerprint.receiverHashes.map Prod.fst).Nodup := by
  obtain ⟨values, listed, hashes⟩ := loaded.fingerprint_parts.2.2.2
  obtain ⟨ids, raw⟩ := loaded.rawCfgs .receivers
  rw [keys_onValues hashes]
  exact ids_of_entriesByID raw (entriesByID_ok loaded.resolved listed)

theorem hash_of_receiverValue {id : ID} {value : Value} (at_id : loaded.receiverValue id = some value) :
    ∃ hash, hashValue value = some hash ∧ find id loaded.fingerprint.receiverHashes = some hash := by
  obtain ⟨values, listed, hashes⟩ := loaded.fingerprint_parts.2.2.2
  rw [receiverValue, listed] at at_id
  have hashed := find_onValues id hashes
  rw [show find id values = some value from at_id, bind_some] at hashed
  cases found : find id loaded.fingerprint.receiverHashes with
  | none =>
    rw [find_eq_none_iff, keys_onValues hashes] at found
    exact absurd (mem_map_of_mem (mem_of_find at_id)) found
  | some hash => exact ⟨hash, hashed.symm.trans found, rfl⟩

/-- A key of the connectors is read as the ID. -/
def isConnector (id : ID) : Bool :=
  (loaded.entries .connectors).any fun entry => decide ((ID.unmarshalText entry.1).toOption = some id)

theorem isConnectorID_eq : isConnectorID loaded.cfg.connectors = loaded.isConnector := by
  have loads := components_of_unmarshal loaded.loads .connectors
  obtain ⟨ids, raw, each⟩ := Configs.unmarshal_ok loads
  funext id
  rw [Bool.eq_iff_iff, isConnectorID, isConnector, List.any_eq_true, Option.isSome_iff_exists]
  constructor
  · rintro ⟨config, found⟩
    obtain ⟨⟨entry, member, read⟩, _⟩ := Configs.entry_of_mem loads (mem_of_find found)
    refine ⟨entry, member, ?_⟩
    rw [read]
    exact decide_eq_true rfl
  · rintro ⟨entry, member, read⟩
    obtain ⟨id', listed, read'⟩ := exists_of_mem_forall₂ (Configs.rawCfgs_ok raw).2 member
    rw [read'] at read
    obtain rfl : id' = id := Option.some.inj (of_decide_eq_true read)
    obtain ⟨config, inside, rfl, _⟩ := exists_of_mem_forall₂ each listed
    rw [← Option.isSome_iff_exists, Option.isSome_iff_ne_none, Ne, find_eq_none_iff, not_not]
    exact mem_map_of_mem inside

end Loaded

section Noticed
variable {H : Type} {factories : ConfigSection → Text → Option Factory} {hashValue : Value → Option H}
variable {old cur : Loaded factories hashValue}
variable (injective : ∀ a b hash, hashValue a = some hash → hashValue b = some hash → a = b)

/-- The parsed values of all other sections are the same, and the pipelines differ in receivers only. -/
structure OnlyReceivers (old cur : Loaded factories hashValue) : Prop where
  sections : ∀ key ∈ nonReceiverSections, get old.conf key.2 = get cur.conf key.2
  extensions : old.service.extensions = cur.service.extensions
  pipelines : old.service.pipelines.length = cur.service.pipelines.length
  pipeline : ∀ pipe ∈ old.service.pipelines, ∃ pipe', find pipe.1 cur.service.pipelines = some pipe' ∧
    pipe.2.processors = pipe'.processors ∧ pipe.2.exporters = pipe'.exporters ∧
    pipe.2.receivers.filter cur.isConnector = pipe'.receivers.filter cur.isConnector

include injective in
theorem nonReceiverHash_eq_iff :
    old.fingerprint.nonReceiverHash = cur.fingerprint.nonReceiverHash ↔
      ∀ key ∈ nonReceiverSections, get old.conf key.2 = get cur.conf key.2 := by
  have hashed := old.fingerprint_parts.1
  have hashed' := cur.fingerprint_parts.1
  constructor
  · intro equal
    have whole := injective _ _ _ hashed (equal ▸ hashed')
    rw [combined, combined, Value.map.injEq, map_inj_left] at whole
    exact fun key member => (Prod.mk.inj (whole key member)).2
  · intro equal
    have whole : combined old.conf nonReceiverSections = combined cur.conf nonReceiverSections := by
      rw [combined, combined, Value.map.injEq, map_inj_left]
      exact fun key member => congrArg (Prod.mk key.1) (equal key member)
    rw [whole, hashed', some_inj] at hashed
    exact hashed.symm

include injective in
theorem receiversOnlyChanged_iff [DecidableEq H] :
    receiversOnlyChanged old.fingerprint cur.fingerprint (isConnectorID cur.cfg.connectors) = true ↔
      OnlyReceivers old cur := by
  obtain ⟨_, extensions, pipelines, _⟩ := old.fingerprint_parts
  obtain ⟨_, extensions', pipelines', _⟩ := cur.fingerprint_parts
  rw [receiversOnlyChanged, extensions, extensions', pipelines, pipelines', cur.isConnectorID_eq]
  simp only [Bool.and_eq_true, decide_eq_true_eq, nonReceiverHash_eq_iff injective, length_map, List.all_map,
    List.all_eq_true, Function.comp_apply, find_map_value pipelineFingerprint, Option.any_map, Option.any_eq_true,
    samePipeline, filterIDs]
  constructor
  · rintro ⟨⟨⟨sections, extensions⟩, pipelines⟩, each⟩
    refine ⟨sections, extensions, pipelines, fun pipe member => ?_⟩
    obtain ⟨pipe', found, ⟨processors, exporters⟩, receivers⟩ := each pipe member
    exact ⟨pipe', found, processors, exporters, of_decide_eq_true receivers⟩
  · rintro ⟨sections, extensions, pipelines, each⟩
    refine ⟨⟨⟨sections, extensions⟩, pipelines⟩, fun pipe member => ?_⟩
    obtain ⟨pipe', found, processors, exporters, receivers⟩ := each pipe member
    exact ⟨pipe', found, ⟨processors, exporters⟩, decide_eq_true receivers⟩

theorem OnlyReceivers.get (only : OnlyReceivers old cur) {sec : ConfigSection} (other : sec ≠ .receivers) :
    get old.conf [sec.key] = get cur.conf [sec.key] := by
  apply only.sections (sec.key, [sec.key])
  cases sec with
  | receivers => exact absurd rfl other
  | _ => simp [nonReceiverSections, ConfigSection.key]

theorem same_of_get {sec : ConfigSection} (equal : get old.conf [sec.key] = get cur.conf [sec.key])
    {key : Text} {value value' : Value} (found : find key (old.entries sec) = some value)
    (found' : find key (cur.entries sec) = some value') : Value.Same value value' := by
  have gets := congrArg Value.parsed equal
  rw [get, get, parsed_sanitize, parsed_sanitize] at gets
  have whole := Value.Same.core ⟨gets, resolved_section old.resolved sec.key, resolved_section cur.resolved sec.key⟩
  have plain := (resolved_section cur.resolved sec.key).core.1
  rw [Loaded.entries, sectionEntries] at found found'
  split at found
  · next is_map =>
      rw [is_map] at whole
      obtain ⟨entries', is_map', each⟩ := whole.map plain
      rw [is_map'] at found'
      rcases find_same each key with ⟨none, _⟩ | ⟨x, y, here, here', same⟩
      · rw [none] at found
        cases found
      · rw [here, some_inj] at found
        rw [here', some_inj] at found'
        rw [← found, ← found']
        exact same
  · cases found

theorem same_of_receiverValue {id : ID} (equal : old.receiverValue id = cur.receiverValue id)
    (read : ID.unmarshalText id.asString = .ok id) {value value' : Value}
    (found : find id.asString (old.entries .receivers) = some value)
    (found' : find id.asString (cur.entries .receivers) = some value') : Value.Same value value' := by
  obtain ⟨hashed, at_old, parsed⟩ := old.receiverValue_of_entry (mem_of_find found) read
  obtain ⟨hashed', at_cur, parsed'⟩ := cur.receiverValue_of_entry (mem_of_find found') read
  obtain rfl : hashed = hashed' := by
    rw [at_old, at_cur, some_inj] at equal
    exact equal
  exact ⟨parsed.trans parsed'.symm, resolved_entry old.resolved (mem_of_find found),
    resolved_entry cur.resolved (mem_of_find found')⟩

theorem agree_of_unnoticed (only : OnlyReceivers old cur) {sec : ConfigSection} {id : ID}
    {config config' : ComponentConfig} (member : (id, config) ∈ old.cfg.components sec)
    (member' : (id, config') ∈ cur.cfg.components sec)
    (hashes : sec = .receivers → old.receiverValue id = cur.receiverValue id) :
    config = config' ↔ Configs.Agree (factories sec) (old.entries sec) (cur.entries sec) id := by
  obtain ⟨⟨entry, _, read⟩, done⟩ := Configs.entry_of_mem (components_of_unmarshal old.loads sec) member
  obtain ⟨_, done'⟩ := Configs.entry_of_mem (components_of_unmarshal cur.loads sec) member'
  refine Configs.unmarshalConfig_eq_iff done done' ?_
  intro data data' found found'
  obtain ⟨value, at_key, is_map⟩ := Configs.sub_some found
  obtain ⟨value', at_key', is_map'⟩ := Configs.sub_some found'
  have same : Value.Same value value' := by
    by_cases receiver : sec = .receivers
    · subst receiver
      have own := ID.unmarshalText_asString (ID.valid_of_unmarshalText read)
      exact same_of_receiverValue (hashes rfl) own at_key at_key'
    · exact same_of_get (only.get receiver) at_key at_key'
  have inner := same.core
  rw [is_map, is_map'] at inner
  exact inner

variable [DecidableEq H]

omit [Component.Unicode] in
theorem mem_changedReceivers {old cur : ConfigFingerprint H} (distinct : (cur.receiverHashes.map Prod.fst).Nodup)
    {id : ID} {oldHash curHash : H} (at_old : find id old.receiverHashes = some oldHash)
    (at_cur : find id cur.receiverHashes = some curHash) : id ∈ changedReceivers old cur ↔ oldHash ≠ curHash := by
  rw [changedReceivers, List.mem_map]
  constructor
  · rintro ⟨⟨id', hash⟩, listed, rfl⟩
    obtain ⟨inside, differs⟩ := mem_filter.mp listed
    rw [at_old, any_some, decide_eq_true_eq] at differs
    obtain rfl : hash = curHash := Option.some.inj ((find_of_mem distinct inside).symm.trans at_cur)
    exact differs
  · intro differs
    refine ⟨(id, curHash), mem_filter.mpr ⟨mem_of_find at_cur, ?_⟩, rfl⟩
    rw [at_old, any_some, decide_eq_true_eq]
    exact differs

include injective in
theorem unchanged_iff {id : ID} {config config' : ComponentConfig}
    (member : (id, config) ∈ old.cfg.components .receivers) (member' : (id, config') ∈ cur.cfg.components .receivers) :
    id ∉ changedReceivers old.fingerprint cur.fingerprint ↔ old.receiverValue id = cur.receiverValue id := by
  obtain ⟨⟨entry, inside, read⟩, _⟩ := Configs.entry_of_mem (components_of_unmarshal old.loads .receivers) member
  obtain ⟨⟨entry', inside', read'⟩, _⟩ := Configs.entry_of_mem (components_of_unmarshal cur.loads .receivers) member'
  obtain ⟨value, at_old, _⟩ := old.receiverValue_of_entry inside read
  obtain ⟨value', at_cur, _⟩ := cur.receiverValue_of_entry inside' read'
  obtain ⟨oldHash, hashed, found⟩ := old.hash_of_receiverValue at_old
  obtain ⟨curHash, hashed', found'⟩ := cur.hash_of_receiverValue at_cur
  rw [mem_changedReceivers cur.receiverHashes_nodup found found', at_old, at_cur, not_not, some_inj]
  constructor
  · rintro rfl
    exact injective value value' oldHash hashed hashed'
  · rintro rfl
    exact Option.some.inj (hashed.symm.trans hashed')

end Noticed

end Unicode

attribute [local instance] Component.asciiClasses

/-- A configuration with one string, in an exporter or in a receiver. -/
def tokenFactory : Factory := ⟨.struct [(⟨ascii "token", false⟩, .string)], (([] : Text), ())⟩

def tokenFactories (_ : ConfigSection) (type : Text) : Option Factory :=
  if type = ascii "otlp" then some tokenFactory else none

def tokenConfig (token : Text) : ComponentConfig := ⟨tokenFactory, (token, ())⟩

theorem tokenConfig_ne {token token' : Text} (unlike : token ≠ token') : tokenConfig token ≠ tokenConfig token' := by
  intro same
  have values : (token, ()) = (token', ()) := eq_of_heq (ComponentConfig.mk.inj same).2
  exact unlike (congrArg Prod.fst values)

def otlp : ID := ⟨ascii "otlp", []⟩

def itself (value : Value) : Option Value := some value

/-- The token of an exporter is a reference to a text that is parsed to 16. -/
def exporterToken (original : String) : Loaded tokenFactories itself where
  conf := [(ascii "exporters", .map [(ascii "otlp", .map [(ascii "token", .expanded (.int 16) (ascii original))])])]
  service := ⟨[], []⟩
  cfg := ⟨[], [], [(otlp, tokenConfig (ascii original))], [], [], ⟨[], []⟩⟩
  fingerprint := ⟨combined
    [(ascii "exporters", .map [(ascii "otlp", .map [(ascii "token", .expanded (.int 16) (ascii original))])])]
    nonReceiverSections, [], [], []⟩
  resolved := ⟨⟨⟨⟨rfl, trivial⟩, trivial⟩, trivial⟩, trivial⟩
  loads := rfl
  fingerprints := rfl

def receiverConf (key token : String) : Entries :=
  [(ascii "receivers", .map [(ascii key, .map [(ascii "token", .str (ascii token))])])]

def receiverToken (token : String) : Loaded tokenFactories itself where
  conf := receiverConf "otlp" token
  service := ⟨[], []⟩
  cfg := ⟨[(otlp, tokenConfig (ascii token))], [], [], [], [], ⟨[], []⟩⟩
  fingerprint := ⟨combined (receiverConf "otlp" token) nonReceiverSections,
    [(otlp, .map [(ascii "token", .str (ascii token))])], [], []⟩
  resolved := ⟨⟨⟨trivial, trivial⟩, trivial⟩, trivial⟩
  loads := rfl
  fingerprints := rfl

/-- The same with a space before the key, so that nothing is found under the ID. -/
def spacedReceiver (token : String) : Loaded tokenFactories itself where
  conf := receiverConf " otlp" token
  service := ⟨[], []⟩
  cfg := ⟨[(otlp, tokenConfig [])], [], [], [], [], ⟨[], []⟩⟩
  fingerprint := ⟨combined (receiverConf " otlp" token) nonReceiverSections,
    [(otlp, .map [(ascii "token", .str (ascii token))])], [], []⟩
  resolved := ⟨⟨⟨trivial, trivial⟩, trivial⟩, trivial⟩
  loads := rfl
  fingerprints := rfl

end CollectorFormal.Otelcol
