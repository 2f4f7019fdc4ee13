import CollectorFormal.Client
import CollectorFormal.Lib.Substring

/-! Partition keys made of client metadata.

The key is written without lengths, so names and values can be mistaken for each other. A batch goes out with the
metadata of its first request. -/

namespace CollectorFormal.Batcher

open Client Lib List

structure PartitionConfig where
  metadataKeys : List Text
  deriving DecidableEq

inductive PartitionError where
  /-- "duplicate entry in metadata_keys", with the entry in lower case. -/
  | duplicateEntry (entry : Text)
  deriving DecidableEq

section partitioner
variable (toLower : Text → Text)

def PartitionConfig.validate (cfg : PartitionConfig) : Option PartitionError :=
  (checkKeys toLower [] cfg.metadataKeys).map .duplicateEntry

/-- One round of the loop of GetKey, on the buffer and afterFirst. -/
def writeKey (metadata : Metadata) (kb : Text × Bool) (key : Text) : Text × Bool :=
  let values := metadata.get toLower key
  if values.length ≠ 0 then
    let named := (if kb.2 then kb.1 ++ [0] else kb.1) ++ key
    (values.foldl (fun kb val => kb ++ [0] ++ val) named, true)
  else kb

variable (keys : List Text)

def getKey (ctx : Context) : Text :=
  (keys.foldl (writeKey toLower (fromContext ctx)) ([], false)).1

/-- The context of two requests that are batched together; the second is not looked at. -/
def metadataKeysMergeCtx (ctx1 _ctx2 : Context) : Context :=
  let m1 := fromContext ctx1
  let m := (keys.map fun key => (key, m1.get toLower key)).filter fun entry => entry.2.length > 0
  ⟨some (newMetadata toLower m)⟩

/-- What GetKey writes, field by field. -/
def fields (metadata : Metadata) : List Text :=
  keys.flatMap fun key =>
    match metadata.get toLower key with
    | [] => []
    | values => key :: values

/-- The names and values that GetKey writes, cut at their NUL bytes. -/
def keyPieces (ctx : Context) : List Text :=
  pieces 0 (fields toLower keys (fromContext ctx))

def Ambiguous (ctx1 ctx2 : Context) : Prop :=
  keyPieces toLower keys ctx1 = keyPieces toLower keys ctx2 ∧
    ∃ key ∈ keys, (fromContext ctx1).get toLower key ≠ (fromContext ctx2).get toLower key

/-- No value has a NUL byte or is the name of a configured key. -/
def Plain (ctx : Context) : Prop :=
  ∀ key ∈ keys, ∀ value ∈ (fromContext ctx).get toLower key, 0 ∉ value ∧ value ∉ keys

/-- Requests of the two contexts are kept apart unless their values are the same, and
are sent with the values of both if they are batched together. -/
structure Separated (keys : List Text) (ctx1 ctx2 : Context) : Prop where
  apart : (∃ key ∈ keys, (fromContext ctx1).get toLower key ≠ (fromContext ctx2).get toLower key) →
    getKey toLower keys ctx1 ≠ getKey toLower keys ctx2
  together : getKey toLower keys ctx1 = getKey toLower keys ctx2 → ∀ key ∈ keys,
    (fromContext ctx1).get toLower key = (fromContext ctx2).get toLower key ∧
      (fromContext (metadataKeysMergeCtx toLower keys ctx1 ctx2)).get toLower key = (fromContext ctx2).get toLower key

end partitioner

section proofs
variable {toLower : Text → Text}

theorem writeValues_joined (written values : List Text) (some : written ≠ []) :
    values.foldl (fun kb val => kb ++ [0] ++ val) ([0].intercalate written) = [0].intercalate (written ++ values) := by
  induction values generalizing written with
  | nil => rw [append_nil, foldl_nil]
  | cons value rest ih =>
    rw [foldl_cons, ← joined_snoc 0 written value some, ih _ (by simp), append_assoc, singleton_append]

theorem writeKey_joined (metadata : Metadata) (written : List Text) (key : Text) :
    writeKey toLower metadata ([0].intercalate written, decide (written ≠ [])) key =
      ([0].intercalate (written ++ fields toLower [key] metadata),
        decide (written ++ fields toLower [key] metadata ≠ [])) := by
  cases values : metadata.get toLower key with
  | nil => simp [writeKey, fields, values]
  | cons first rest =>
    have named : (if decide (written ≠ []) then [0].intercalate written ++ [0]
        else [0].intercalate written) ++ key = [0].intercalate (written ++ [key]) := by
      by_cases none : written = []
      · simp [none]
      · simp [none, joined_snoc]
    simp only [writeKey, values, named]
    rw [writeValues_joined _ _ (by simp)]
    simp [fields, values]

variable (keys : List Text)

theorem getKey_eq (ctx : Context) :
    getKey toLower keys ctx = [0].intercalate (fields toLower keys (fromContext ctx)) := by
  have loop (written : List Text) :
      keys.foldl (writeKey toLower (fromContext ctx)) ([0].intercalate written, decide (written ≠ [])) =
        ([0].intercalate (written ++ fields toLower keys (fromContext ctx)),
          decide (written ++ fields toLower keys (fromContext ctx) ≠ [])) := by
    induction keys generalizing written with
    | nil => simp [fields]
    | cons key rest ih =>
      rw [foldl_cons, writeKey_joined, ih]
      simp [fields]
  exact congrArg Prod.fst (loop [])

theorem fields_length (metadata : Metadata) : (fields toLower keys metadata).length ≠ 1 := by
  induction keys with
  | nil => simp [fields]
  | cons key rest ih =>
    cases values : metadata.get toLower key with
    | nil => simpa [fields, values] using ih
    | cons first others => simp [fields, values]

theorem getKey_eq_iff (ctx1 ctx2 : Context) :
    getKey toLower keys ctx1 = getKey toLower keys ctx2 ↔
      keyPieces toLower keys ctx1 = keyPieces toLower keys ctx2 := by
  rw [getKey_eq, getKey_eq]
  exact joined_eq_iff 0 _ _ (fields_length _ _) (fields_length _ _)

theorem mergeCtx_get (ctx1 ctx2 : Context) (key : Text) (member : key ∈ keys) :
    (fromContext (metadataKeysMergeCtx toLower keys ctx1 ctx2)).get toLower key =
      (fromContext ctx1).get toLower key := by
  apply newMetadata_get
  · intro entry inside same
    obtain ⟨other, -, rfl⟩ := mem_map.mp (mem_filter.mp inside).1
    rw [Metadata.get, Metadata.get, same]
  · by_cases none : (fromContext ctx1).get toLower key = []
    · exact .inl none.symm
    · refine .inr ⟨(key, (fromContext ctx1).get toLower key), ?_, rfl⟩
      exact mem_filter.mpr ⟨mem_map_of_mem member, by simpa [length_pos_iff] using none⟩

theorem checkKeys_none (uniq keys : List Text) (valid : checkKeys toLower uniq keys = none) :
    keys.Nodup ∧ ∀ key ∈ keys, toLower key ∉ uniq := by
  induction keys generalizing uniq with
  | nil => simp
  | cons key rest ih =>
    rw [checkKeys] at valid
    split at valid
    · cases valid
    · next fresh =>
        obtain ⟨unique, apart⟩ := ih _ valid
        refine ⟨nodup_cons.mpr ⟨fun again => ?_, unique⟩, ?_⟩
        · exact apart key again mem_cons_self
        · intro other member
          rcases mem_cons.mp member with rfl | later
          · exact fresh
          · exact fun inside => apart other later (mem_cons_of_mem _ inside)

theorem fields_absent {key : Text} {metadata : Metadata} (none : metadata.get toLower key = [])
    (rest : List Text) : fields toLower (key :: rest) metadata = fields toLower rest metadata := by
  simp [fields, none]

theorem fields_present {key : Text} {metadata : Metadata} {value : Text} {others : List Text}
    (values : metadata.get toLower key = value :: others) (rest : List Text) :
    fields toLower (key :: rest) metadata = key :: (value :: others ++ fields toLower rest metadata) := by
  simp [fields, values]

variable (toLower) in
theorem fields_head (metadata : Metadata) : ∀ name ∈ (fields toLower keys metadata).head?, name ∈ keys := by
  induction keys with
  | nil => simp [fields]
  | cons key rest ih =>
    intro name first
    cases values : metadata.get toLower key with
    | nil =>
      rw [fields_absent values] at first
      exact mem_cons_of_mem _ (ih name first)
    | cons value others =>
      rw [fields_present values, head?_cons, Option.mem_some_iff] at first
      exact first ▸ mem_cons_self

variable (toLower) in
theorem takeWhile_fields (values keys : List Text) (metadata : Metadata) (plain : ∀ value ∈ values, value ∉ keys) :
    (values ++ fields toLower keys metadata).takeWhile (fun field => field ∉ keys) = values := by
  have stops : (fields toLower keys metadata).takeWhile (fun field => decide (field ∉ keys)) = [] := by
    have head := fields_head toLower keys metadata
    cases written : fields toLower keys metadata with
    | nil => rfl
    | cons name rest =>
      rw [written] at head
      simp [head name rfl]
  rw [takeWhile_append_of_pos (by simpa using plain), stops, append_nil]

theorem fields_injective (first second : Metadata) (unique : keys.Nodup)
    (plain : ∀ key ∈ keys, ∀ value ∈ first.get toLower key, value ∉ keys)
    (plain' : ∀ key ∈ keys, ∀ value ∈ second.get toLower key, value ∉ keys)
    (same : fields toLower keys first = fields toLower keys second) :
    ∀ key ∈ keys, first.get toLower key = second.get toLower key := by
  induction keys with
  | nil => simp
  | cons key rest ih =>
    obtain ⟨fresh, unique⟩ := nodup_cons.mp unique
    have inside (metadata : Metadata)
        (plain : ∀ name ∈ key :: rest, ∀ value ∈ metadata.get toLower name, value ∉ key :: rest) :
        ∀ name ∈ key :: rest, ∀ value ∈ metadata.get toLower name, value ∉ rest :=
      fun name member value written again =>
        plain name member value written (mem_cons_of_mem _ again)
    have missing (metadata : Metadata) (others : List Text) :
        fields toLower rest metadata ≠ key :: others := fun written =>
      fresh (fields_head toLower rest metadata key (by rw [written]; rfl))
    have here : first.get toLower key = second.get toLower key ∧
        fields toLower rest first = fields toLower rest second := by
      cases values : first.get toLower key with
      | nil =>
        rw [fields_absent values] at same
        cases values' : second.get toLower key with
        | nil => exact ⟨rfl, same.trans (fields_absent values' rest)⟩
        | cons value others => exact absurd (same.trans (fields_present values' rest)) (missing first _)
      | cons value others =>
        rw [fields_present values] at same
        cases values' : second.get toLower key with
        | nil => exact absurd (same.trans (fields_absent values' rest)).symm (missing second _)
        | cons value' others' =>
          have tails := (List.cons.inj (same.trans (fields_present values' rest))).2
          have whole := takeWhile_fields toLower (value :: others) rest first
            (values ▸ inside first plain key mem_cons_self)
          have whole' := takeWhile_fields toLower (value' :: others') rest second
            (values' ▸ inside second plain' key mem_cons_self)
          have equal : value :: others = value' :: others' := by
            rw [← whole, tails, whole']
          rw [equal] at tails
          exact ⟨equal, append_cancel_left tails⟩
    intro name member
    rcases mem_cons.mp member with rfl | later
    · exact here.1
    · exact ih unique (fun name member => inside first plain name (mem_cons_of_mem _ member))
        (fun name member => inside second plain' name (mem_cons_of_mem _ member)) here.2 name later

theorem separated_iff (ctx1 ctx2 : Context) :
    Separated toLower keys ctx1 ctx2 ↔ ¬ Ambiguous toLower keys ctx1 ctx2 := by
  constructor
  · rintro separated ⟨same, different⟩
    exact separated.apart different ((getKey_eq_iff keys ctx1 ctx2).mpr same)
  · intro clear
    constructor
    · intro different same
      exact clear ⟨(getKey_eq_iff keys ctx1 ctx2).mp same, different⟩
    · intro same key member
      have agree : (fromContext ctx1).get toLower key = (fromContext ctx2).get toLower key := by
        by_contra different
        exact clear ⟨(getKey_eq_iff keys ctx1 ctx2).mp same, key, member, different⟩
      exact ⟨agree, (mergeCtx_get keys ctx1 ctx2 key member).trans agree⟩

theorem plain_clear (cfg : PartitionConfig) (ctx1 ctx2 : Context)
    (valid : cfg.validate toLower = none) (names : ∀ key ∈ cfg.metadataKeys, 0 ∉ key)
    (plain1 : Plain toLower cfg.metadataKeys ctx1) (plain2 : Plain toLower cfg.metadataKeys ctx2) :
    ¬ Ambiguous toLower cfg.metadataKeys ctx1 ctx2 := by
  rintro ⟨same, key, member, different⟩
  have whole (ctx : Context) (plain : Plain toLower cfg.metadataKeys ctx) :
      keyPieces toLower cfg.metadataKeys ctx = fields toLower cfg.metadataKeys (fromContext ctx) := by
    apply pieces_plain
    intro field written
    obtain ⟨name, listed, entry⟩ := mem_flatMap.mp written
    cases values : (fromContext ctx).get toLower name with
    | nil => simp [values] at entry
    | cons value others =>
      rw [values] at entry
      rcases mem_cons.mp entry with rfl | inside
      · exact names _ listed
      · exact (plain name listed field (values ▸ inside)).1
  rw [whole ctx1 plain1, whole ctx2 plain2] at same
  exact different (fields_injective _ _ _ (checkKeys_none [] _ (Option.map_eq_none_iff.mp valid)).1
    (fun name listed value inside => (plain1 name listed value inside).2)
    (fun name listed value inside => (plain2 name listed value inside).2) same key member)

end proofs

/-- Whatever keys are configured, the key keeps two contexts apart iff different values are not written as the same
pieces. Under a valid configuration no two contexts are confused whose values are all plain. -/
theorem metadata_keys_separate_iff (toLower : Text → Text) (cfg : PartitionConfig) (ctx1 ctx2 : Context) :
    (Separated toLower cfg.metadataKeys ctx1 ctx2 ↔ ¬ Ambiguous toLower cfg.metadataKeys ctx1 ctx2) ∧
    (cfg.validate toLower = none → (∀ key ∈ cfg.metadataKeys, 0 ∉ key) →
      Plain toLower cfg.metadataKeys ctx1 → Plain toLower cfg.metadataKeys ctx2 →
      Separated toLower cfg.metadataKeys ctx1 ctx2) :=
  ⟨separated_iff _ ctx1 ctx2, fun valid names plain1 plain2 =>
    (separated_iff _ ctx1 ctx2).mpr (plain_clear cfg ctx1 ctx2 valid names plain1 plain2)⟩

def tenantKeys : PartitionConfig := ⟨[[97], [98]]⟩

/-- The value x, then the name b and the value y, all of them values of a. -/
def forgedTenant : Context := ⟨some (newMetadata asciiLower [([97], [[120], [98], [121]])])⟩

def honestTenant : Context := ⟨some (newMetadata asciiLower [([97], [[120]]), ([98], [[121]])])⟩

theorem tenants_share_key :
    tenantKeys.validate asciiLower = none ∧
    (fromContext forgedTenant).get asciiLower [98] ≠ (fromContext honestTenant).get asciiLower [98] ∧
    getKey asciiLower tenantKeys.metadataKeys forgedTenant = getKey asciiLower tenantKeys.metadataKeys honestTenant ∧
    ¬ Separated asciiLower tenantKeys.metadataKeys forgedTenant honestTenant := by
  have different : (fromContext forgedTenant).get asciiLower [98] ≠
      (fromContext honestTenant).get asciiLower [98] := by decide
  have same : getKey asciiLower tenantKeys.metadataKeys forgedTenant =
      getKey asciiLower tenantKeys.metadataKeys honestTenant := by decide
  exact ⟨by decide, different, same, fun separated => separated.apart ⟨[98], by decide, different⟩ same⟩

end CollectorFormal.Batcher
