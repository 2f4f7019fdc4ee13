import CollectorFormal.Batch.GiveUp
import CollectorFormal.Batch.Profiles

/-! Profiles split by bytes.

Every batch gets a copy of the whole dictionary, but room is only made for an empty one. -/

namespace CollectorFormal.Batch

open Lib List Envelope

variable {D R S F Q L H C : Type}

section sizes

/-- The sizes of the children that are taken, with the part of the one that is cut. -/
def takenSizes (size : C → Int) (part : C → Int → Option Int) (capacity : Int) (list : List C) : List Int :=
  (fitting size capacity list).map size ++
    (cutAt size capacity list).toList.flatMap fun place => (part place.1 place.2).toList

/-- The size of what is taken out of a message, if there is anything. -/
def Envelope.partSize (headerSize : H → Int) (size : C → Int) (part : C → Int → Option Int) (message : Envelope H C)
    (capacity : Int) : Option Int :=
  let taken := takenSizes size part (message.childCapacity headerSize size capacity) message.children
  if taken = [] then none
  else some (({ message with children := [] } : Envelope H C).sizeProto headerSize size + repeatedSize id taken)

/-- `part` says what an extract function takes, by its size. -/
def Parts (length : C → Nat) (size : C → Int) (extract : C → Int → Extracted C) (part : C → Int → Option Int) : Prop :=
  ∀ src capacity, part src capacity =
    if length (extract src capacity).dest > 0 then some (size (extract src capacity).dest) else none

variable {size : C → Int} {part : C → Int → Option Int} {extract : C → Int → Extracted C} {length : C → Nat} {empty : C}
  {headerSize : H → Int}

theorem takeRecord_sizes (capacity : Int) (list : List C) :
    (removeIf (takeRecord protoDelta size) { capacityLeft := capacity } list).1.dest.map size =
      takenSizes size (fun _ _ => none) capacity list := by
  rw [(takeRecord_dest size _ list).1, takenSizes]
  simp

theorem takeGroup_sizes (nothing : length empty = 0) (parts : Parts length size extract part) (capacity : Int)
    (list : List C) :
    (removeIf (takeGroup protoDelta size extract length empty) { capacityLeft := capacity } list).1.dest.map size =
      takenSizes size part capacity list := by
  rw [takeGroup_dest nothing, takenSizes, nil_append, map_append, map_flatMap]
  congr 2
  funext place
  rw [parts, cutOff]
  split <;> rfl

theorem Envelope.partSize_parts {visit : Extraction C → C → Extraction C × C × Bool}
    (sizes : ∀ capacity list, (removeIf visit { capacityLeft := capacity } list).1.dest.map size =
      takenSizes size part capacity list) :
    Parts (fun message : Envelope H C => message.children.length) (Envelope.sizeProto headerSize size)
      (Envelope.extract protoDelta (Envelope.sizeProto headerSize size) visit)
      (Envelope.partSize headerSize size part) := by
  intro src capacity
  have taken := sizes (src.childCapacity headerSize size capacity) src.children
  rw [Envelope.partSize, sizeProto_eq (Envelope.extract _ _ _ _ _).dest, ← taken]
  simp only [map_eq_nil_iff, repeatedSize_map, gt_iff_lt, length_pos_iff, ite_not]
  rfl

end sizes

section tree
variable (wire : TreeWire R S L)

def scopePart : Envelope S L → Int → Option Int := Envelope.partSize wire.scope wire.record fun _ _ => none

def resourcePart : Envelope R (Envelope S L) → Int → Option Int :=
  Envelope.partSize wire.resource (bytesSizer wire).scopeSize (scopePart wire)

def bytesWithin (capacity : Int) (tree : List (Envelope R (Envelope S L))) : Int :=
  repeatedSize id (takenSizes (bytesSizer wire).resourceSize (resourcePart wire) capacity tree)

theorem bytesSizer_dest_size [Inhabited R] [Inhabited S] (capacity : Int) (tree : List (Envelope R (Envelope S L))) :
    (bytesSizer wire).treeSize (extractBytes wire tree capacity).dest =
      bytesWithin wire capacity tree := by
  have scope : Parts (fun message => message.children.length) (bytesSizer wire).scopeSize
      (extractScope (bytesSizer wire)) (scopePart wire) :=
    partSize_parts takeRecord_sizes
  have resource : Parts (fun message => message.children.length) (bytesSizer wire).resourceSize
      (extractResourceBytes wire) (resourcePart wire) :=
    partSize_parts (takeGroup_sizes rfl scope)
  have whole : (extractBytes wire tree capacity).dest.map (bytesSizer wire).resourceSize =
        takenSizes (bytesSizer wire).resourceSize (resourcePart wire) (capacity - 0) tree :=
    takeGroup_sizes (by rfl) resource _ tree
  rw [bytesWithin, ← Int.sub_zero capacity, ← whole, repeatedSize_map, Int.sub_zero]
  rfl

end tree

section requests
variable (wire : ProfilesWire D R S F Q)

/-- SizeProto is never negative. -/
structure ProfilesWire.Nonneg : Prop where
  dictionary : ∀ dictionary, 0 ≤ wire.dictionary dictionary
  resource : ∀ resource, 0 ≤ wire.resource resource
  scope : ∀ scope, 0 ≤ wire.scope scope
  profile : ∀ profile, 0 ≤ wire.profile profile

def ProfilesWire.tree : TreeWire R S (Profile F Q) := ⟨wire.resource, wire.scope, wire.profile⟩

variable [Inhabited D] [Inhabited R] [Inhabited S]

def ProfilesWire.room (maxSize : Int) : Int := maxSize - protoDelta (wire.dictionary default)

variable {wire}

theorem extractProfiles_eq (resourceProfiles : List (ResourceProfiles R S F Q)) (capacity : Int) :
    extractProfiles (profilesBytesSizer wire) resourceProfiles capacity =
      extractBytes wire.tree resourceProfiles (wire.room capacity) := by
  have left : capacity - (0 + protoDelta (wire.dictionary default)) = wire.room capacity - 0 := by
    unfold ProfilesWire.room
    omega
  show extractAll _ _ _ _ = extractAll _ _ _ _
  unfold extractAll
  simp only [ProfilesSizer.treeSizer, profilesBytesSizer, bytesSizer, repeatedSize_nil, left]
  rfl

theorem profiles_extract_exact (dictionary : D) :
    Exact (profilesSplitter (profilesBytesSizer wire) dictionary).size
      (profilesSplitter (profilesBytesSizer wire) dictionary).extract := by
  intro src capacity
  have account := @bytesSizer_extract_exact _ _ _ _ _ wire.tree src (wire.room capacity)
  have size (data : List (ResourceProfiles R S F Q)) : (profilesSplitter (profilesBytesSizer wire) dictionary).size data =
      (bytesSizer wire.tree).treeSize data + protoDelta (wire.dictionary dictionary) := rfl
  have same : (profilesSplitter (profilesBytesSizer wire) dictionary).extract src capacity = _ :=
    extractProfiles_eq src capacity
  rw [same, size, size]
  omega

theorem profiles_dest_size (dictionary : D) (maxSize : Int) (resourceProfiles : List (ResourceProfiles R S F Q)) :
    (profilesBytesSizer wire).profilesSize dictionary
        (extractProfiles (profilesBytesSizer wire) resourceProfiles maxSize).dest =
      bytesWithin wire.tree (wire.room maxSize) resourceProfiles + protoDelta (wire.dictionary dictionary) := by
  rw [← bytesSizer_dest_size, extractProfiles_eq]
  rfl

theorem profiles_takes_iff (sizes : wire.Nonneg) (maxSize : Int) (resourceProfiles : List (ResourceProfiles R S F Q)) :
    sampleCount (extractProfiles (profilesBytesSizer wire) resourceProfiles maxSize).dest ≠ 0 ↔
      FirstHasRoom (fun profile => profile.samples.length) wire.tree (wire.room maxSize) resourceProfiles := by
  have nonneg : wire.tree.Nonneg := ⟨sizes.resource, sizes.scope, sizes.profile⟩
  rw [← bytesSizer_extract_takes_iff nonneg, extractProfiles_eq]
  rfl

end requests

section sound
variable [Inhabited D] [Inhabited R] [Inhabited S] (wire : ProfilesWire D R S F Q)

/-- Some profile, alone in its resource and scope and with the dictionary it needs, takes
more than `maxSize` bytes. -/
def ProfilesRequest.HasOversized (needed : D → R → S → Profile F Q → D) (maxSize : Int)
    (req : ProfilesRequest D R S F Q) : Prop :=
  ∃ rp ∈ req.request.data, ∃ sp ∈ rp.children, ∃ profile ∈ sp.children,
    (profilesBytesSizer wire).profilesSize (needed req.dictionary rp.header sp.header profile)
      [{ rp with children := [{ sp with children := [profile] }] }] > maxSize

instance ProfilesRequest.HasOversized.decidable (needed : D → R → S → Profile F Q → D) (maxSize : Int)
    (req : ProfilesRequest D R S F Q) : Decidable (req.HasOversized wire needed maxSize) :=
  inferInstanceAs (Decidable (∃ rp ∈ req.request.data, ∃ sp ∈ rp.children, ∃ profile ∈ sp.children, _ > maxSize))

/-- Every request is within the limit, and an error comes from an oversized profile and says how many samples are
missing. -/
structure BytesSound (needed : D → R → S → Profile F Q → D) (maxSize : Int) (given : List (ProfilesRequest D R S F Q))
    (answer : List (ProfilesRequest D R S F Q) × Option ProfilesError) : Prop where
  limit : ∀ returned ∈ answer.1,
    (profilesBytesSizer wire).profilesSize returned.dictionary returned.request.data ≤ maxSize
  err : answer.2 ≠ none → ∃ req ∈ given, req.HasOversized wire needed maxSize
  dropped : ∀ item dropped, answer.2 = some (.splitting (.oversized item dropped)) →
    (answer.1.map ProfilesRequest.itemsCount).sum + dropped = (given.map ProfilesRequest.itemsCount).sum

def ProfilesRequest.Iterates (maxSize : Int) (req : ProfilesRequest D R S F Q)
    (state : SplitLoop (ResourceProfiles R S F Q)) : Prop :=
  (profilesSplitter (profilesBytesSizer wire) req.dictionary).Iterates maxSize ⟨[], req.request⟩ state

/-- In every iteration that splits something off, the dictionary fits beside it. -/
def ProfilesRequest.DictionaryFits (maxSize : Int) (req : ProfilesRequest D R S F Q) : Prop :=
  ∀ state next, req.Iterates wire maxSize state →
    (profilesSplitter (profilesBytesSizer wire) req.dictionary).iterate maxSize state = some next →
      bytesWithin wire.tree (wire.room maxSize) state.req.data + protoDelta (wire.dictionary req.dictionary) ≤ maxSize

def ProfilesRequest.CacheHolds (maxSize : Int) (req : ProfilesRequest D R S F Q) : Prop :=
  ∀ state, req.Iterates wire maxSize state →
    (state.req.sized ((profilesBytesSizer wire).profilesSize req.dictionary)).cachedSize ≤ maxSize →
      (profilesBytesSizer wire).profilesSize req.dictionary state.req.data ≤ maxSize

/-- In every iteration that has more than `maxSize` bytes, its first sample has room. -/
def ProfilesRequest.SamplesHaveRoom (maxSize : Int) (req : ProfilesRequest D R S F Q) : Prop :=
  ∀ state, req.Iterates wire maxSize state →
    (state.req.sized ((profilesBytesSizer wire).profilesSize req.dictionary)).cachedSize > maxSize →
      FirstHasRoom (fun profile => profile.samples.length) wire.tree (wire.room maxSize) state.req.data

variable {wire}

theorem ProfilesRequest.split_limit_iff (maxSize : Int) (req : ProfilesRequest D R S F Q) :
    (∀ returned ∈ (req.split (profilesBytesSizer wire) maxSize).1,
        (profilesBytesSizer wire).profilesSize returned.dictionary returned.request.data ≤ maxSize) ↔
      req.DictionaryFits wire maxSize ∧ req.CacheHolds wire maxSize := by
  have batches := @Splitter.forall_split _ _ (profilesSplitter (profilesBytesSizer wire) req.dictionary) maxSize
    (fun data => (profilesBytesSizer wire).profilesSize req.dictionary data ≤ maxSize) [] req.request
  rw [ProfilesRequest.split, forall_mem_map, batches]
  constructor
  · intro all
    refine ⟨fun state next reached iterated => ?_, all.2.2⟩
    rw [← profiles_dest_size]
    exact all.2.1 state next reached iterated
  · intro both
    rcases both with ⟨fits, holds⟩
    refine ⟨by simp, fun state next reached iterated => ?_, holds⟩
    have within := fits state next reached iterated
    rw [← profiles_dest_size] at within
    exact within

theorem ProfilesRequest.split_right_iff (sizes : wire.Nonneg) (maxSize : Int) (req : ProfilesRequest D R S F Q) :
    (req.split (profilesBytesSizer wire) maxSize).2 = none ↔ req.SamplesHaveRoom wire maxSize := by
  have right : ((profilesSplitter (profilesBytesSizer wire) req.dictionary).split maxSize [] req.request).2 = none ↔ _ :=
    (profilesSplitter (profilesBytesSizer wire) req.dictionary).split_right_iff [] req.request
  rw [ProfilesRequest.split, Option.map_eq_none_iff, right]
  refine forall_congr' fun state => imp_congr_right fun reached => imp_congr_right fun exceeds => ?_
  exact profiles_takes_iff sizes maxSize state.req.data

theorem ProfilesRequest.cacheHolds (sizes : wire.Nonneg) {maxSize : Int} (positive : 0 < maxSize)
    {req : ProfilesRequest D R S F Q}
    (covered : req.request.Covered ((profilesBytesSizer wire).profilesSize req.dictionary)) :
    req.CacheHolds wire maxSize := by
  intro state reached within
  have resources := sizeProto_nonneg sizes.resource (sizeProto_nonneg sizes.scope sizes.profile)
  have nonneg (data : List (ResourceProfiles R S F Q)) : 0 ≤ (profilesBytesSizer wire).profilesSize req.dictionary data :=
    Int.add_nonneg (repeatedSize_nonneg resources data) (protoDelta_pos (sizes.dictionary req.dictionary)).le
  have kept : state.req.Covered ((profilesBytesSizer wire).profilesSize req.dictionary) :=
    Splitter.Iterates.covered reached (profiles_extract_exact req.dictionary) nonneg positive covered
  exact kept.trans within

/-- For any method MergeTo that keeps all samples and any notion of the dictionary that a profile needs. The cached
sizes only matter for requests that MergeTo has made larger than the two were together. -/
theorem profiles_bytes_sound_iff {mergeProfiles : MergeProfiles D R S F Q}
    (adds : ∀ src dst merged, mergeProfiles src dst = .ok merged →
      sampleCount merged.2 = sampleCount dst.2 + sampleCount src.2)
    (sizes : wire.Nonneg) (needed : D → R → S → Profile F Q → D) (maxSize : Int) (positive : 0 < maxSize)
    (req : ProfilesRequest D R S F Q) (r2 : Option (ProfilesRequest D R S F Q)) :
    (BytesSound wire needed maxSize (req :: r2.toList)
        (ProfilesRequest.mergeSplit mergeProfiles wire maxSize .bytes (r2.map .same) req) ↔
      (∀ merged, ProfilesRequest.merged mergeProfiles (profilesBytesSizer wire) r2 req = .ok merged →
        merged.DictionaryFits wire maxSize ∧ merged.CacheHolds wire maxSize) ∧
      ((∃ given ∈ req :: r2.toList, given.HasOversized wire needed maxSize) ∨
        ∃ merged, ProfilesRequest.merged mergeProfiles (profilesBytesSizer wire) r2 req = .ok merged ∧
          merged.SamplesHaveRoom wire maxSize)) ∧
    ∀ merged, ProfilesRequest.merged mergeProfiles (profilesBytesSizer wire) r2 req = .ok merged →
      merged.request.Covered ((profilesBytesSizer wire).profilesSize merged.dictionary) →
        merged.CacheHolds wire maxSize := by
  refine ⟨?_, fun merged _ covered => ProfilesRequest.cacheHolds sizes positive covered⟩
  have known : profilesSizers wire .bytes = some (profilesBytesSizer wire) := rfl
  rw [ProfilesRequest.mergeSplit_eq mergeProfiles positive.ne' known]
  cases done : ProfilesRequest.merged mergeProfiles (profilesBytesSizer wire) r2 req with
  | error err =>
    constructor
    · intro sound
      exact ⟨by simp, .inl (sound.err (by simp))⟩
    · intro condition
      refine ⟨by simp, fun _ => condition.2.resolve_right ?_, fun _ _ never => nomatch never⟩
      intro room
      rcases room with ⟨_, never, _⟩
      cases never
  | ok merged =>
    have limit := @ProfilesRequest.split_limit_iff _ _ _ _ _ _ _ _ wire maxSize merged
    have right := merged.split_right_iff sizes maxSize
    constructor
    · intro sound
      refine ⟨fun other same => ?_, ?_⟩
      · cases same
        exact limit.mp sound.limit
      · by_cases none : (merged.split (profilesBytesSizer wire) maxSize).2 = none
        · exact .inr ⟨merged, rfl, right.mp none⟩
        · exact .inl (sound.err none)
    · intro condition
      rcases condition with ⟨fits, room⟩
      refine ⟨limit.mpr (fits merged rfl), fun err => ?_, fun item dropped failed => ?_⟩
      · refine room.resolve_right ?_
        intro samples
        rcases samples with ⟨_, same, takes⟩
        cases same
        exact err (right.mpr takes)
      · rw [(merged.split_total (profilesBytesSizer wire) maxSize).2 item dropped failed, merged_itemsCount adds done]

end sound

/-- A dictionary of the given size, and one resource and scope with profiles of one sample
and the given sizes. -/
def sizedProfiles (dictionary : Nat) (profiles : List Nat) : ProfilesRequest Nat Unit Unit Nat Unit :=
  ⟨dictionary, ⟨[⟨(), "", [⟨(), "", profiles.map fun size => ⟨size, [()]⟩⟩]⟩], -1⟩⟩

def sizedWire : ProfilesWire Nat Unit Unit Nat Unit := ⟨fun size => size, fun _ => 0, fun _ => 0, fun profile => profile.fields⟩

def neverMerged : MergeProfiles Nat Unit Unit Nat Unit := fun _ _ => .error "not merged"

theorem profiles_bytes_sound_iff_plain :
    (BytesSound sizedWire (fun _ _ _ _ => 0) 24 [sizedProfiles 0 [9, 9]]
        (ProfilesRequest.mergeSplit neverMerged sizedWire 24 .bytes none (sizedProfiles 0 [9, 9])) ↔
      (∀ merged, ProfilesRequest.merged neverMerged (profilesBytesSizer sizedWire) none (sizedProfiles 0 [9, 9]) =
          .ok merged → merged.DictionaryFits sizedWire 24 ∧ merged.CacheHolds sizedWire 24) ∧
      ((∃ given ∈ [sizedProfiles 0 [9, 9]], given.HasOversized sizedWire (fun _ _ _ _ => 0) 24) ∨
        ∃ merged, ProfilesRequest.merged neverMerged (profilesBytesSizer sizedWire) none (sizedProfiles 0 [9, 9]) =
          .ok merged ∧ merged.SamplesHaveRoom sizedWire 24)) ∧
    (sizedProfiles 0 [9, 9]).CacheHolds sizedWire 24 := by
  have adds : ∀ src dst merged, neverMerged src dst = .ok merged →
      sampleCount merged.2 = sampleCount dst.2 + sampleCount src.2 := fun _ _ _ never => nomatch never
  have sizes : sizedWire.Nonneg :=
    ⟨fun size => Int.natCast_nonneg size, fun _ => le_refl 0, fun _ => le_refl 0, fun _ => Int.natCast_nonneg _⟩
  have sound := profiles_bytes_sound_iff adds sizes (fun _ _ _ _ => 0) 24 (by decide) (sizedProfiles 0 [9, 9]) none
  exact ⟨sound.1, sound.2 _ rfl (le_refl _)⟩

/-- With a limit of 50, a dictionary of 40 bytes makes the first batch too large; with one of 60 bytes there is an
error as well, which drops nothing. The profiles alone take 21 bytes. -/
theorem profiles_dictionary_left_out :
    ((ProfilesRequest.mergeSplit neverMerged sizedWire 50 .bytes none (sizedProfiles 40 [9, 9])).1.map fun returned =>
      (profilesBytesSizer sizedWire).profilesSize returned.dictionary returned.request.data) = [72, 42] ∧
    (ProfilesRequest.mergeSplit neverMerged sizedWire 50 .bytes none (sizedProfiles 60 [9, 9])).2.map
      ProfilesError.text = some "one sample size is greater than max size, dropping items: 0" ∧
    ¬(sizedProfiles 60 [9, 9]).HasOversized sizedWire (fun _ _ _ _ => 0) 50 := by
  decide +kernel

end CollectorFormal.Batch
