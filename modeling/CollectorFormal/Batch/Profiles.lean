import CollectorFormal.Batch.Items
import CollectorFormal.Pprofile.MergeTo

/-! Profiles split by items.

The loop of split and the errors count samples. The sizer counts profiles below the request, so a capacity in
samples is used up by profiles. -/

namespace CollectorFormal.Batch

open List

variable {D R S F Q L : Type}

section definitions

structure Profile (F Q : Type) where
  fields : F
  samples : List Q

abbrev ScopeProfiles (S F Q : Type) := Envelope S (Profile F Q)
abbrev ResourceProfiles (R S F Q : Type) := Envelope R (ScopeProfiles S F Q)

/-- The data and cachedSize of the request, with the dictionary that all of its profiles
refer to. -/
structure ProfilesRequest (D R S F Q : Type) where
  dictionary : D
  request : SignalRequest (ResourceProfiles R S F Q)

def sampleCount (resourceProfiles : List (ResourceProfiles R S F Q)) : Nat :=
  (resourceProfiles.map fun rp =>
    (rp.children.map fun sp => (sp.children.map fun profile => profile.samples.length).sum).sum).sum

def ProfilesRequest.itemsCount (req : ProfilesRequest D R S F Q) : Nat := sampleCount req.request.data

structure ProfilesSizer (D R S F Q : Type) where
  profilesSize : D → List (ResourceProfiles R S F Q) → Int
  resourceProfilesSize : ResourceProfiles R S F Q → Int
  scopeProfilesSize : ScopeProfiles S F Q → Int
  profileSize : Profile F Q → Int
  deltaSize : Int → Int

def profilesCountSizer : ProfilesSizer D R S F Q where
  profilesSize _ resourceProfiles := sampleCount resourceProfiles
  resourceProfilesSize rp := (rp.children.map fun sp => sp.children.length).sum
  scopeProfilesSize sp := sp.children.length
  profileSize _ := 1
  deltaSize newItemSize := newItemSize

/-- SizeProto of the messages at the leaves, and of the dictionary. -/
structure ProfilesWire (D R S F Q : Type) where
  dictionary : D → Int
  resource : R → Int
  scope : S → Int
  profile : Profile F Q → Int

def profilesBytesSizer (wire : ProfilesWire D R S F Q) : ProfilesSizer D R S F Q where
  profilesSize dictionary resourceProfiles :=
    repeatedSize (Envelope.sizeProto wire.resource (Envelope.sizeProto wire.scope wire.profile)) resourceProfiles +
      protoDelta (wire.dictionary dictionary)
  resourceProfilesSize := Envelope.sizeProto wire.resource (Envelope.sizeProto wire.scope wire.profile)
  scopeProfilesSize := Envelope.sizeProto wire.scope wire.profile
  profileSize := wire.profile
  deltaSize := protoDelta

def ProfilesSizer.treeSizer (sz : ProfilesSizer D R S F Q) (dictionary : D) : TreeSizer R S (Profile F Q) where
  treeSize := sz.profilesSize dictionary
  resourceSize := sz.resourceProfilesSize
  scopeSize := sz.scopeProfilesSize
  recordSize := sz.profileSize
  deltaSize := sz.deltaSize

variable [Inhabited D] (sz : ProfilesSizer D R S F Q)

def extractScopeProfiles : ScopeProfiles S F Q → Int → Extracted (ScopeProfiles S F Q) :=
  extractScope (sz.treeSizer default)

variable [Inhabited S]

def extractResourceProfiles : ResourceProfiles R S F Q → Int → Extracted (ResourceProfiles R S F Q) :=
  extractResource (sz.treeSizer default) (extractScopeProfiles sz)

variable [Inhabited R]

/-- The capacity is that of new profiles, whose dictionary is empty; the dictionary of the
source is copied to them afterwards. -/
def extractProfiles : List (ResourceProfiles R S F Q) → Int → Extracted (List (ResourceProfiles R S F Q)) :=
  extractTree (sz.treeSizer default) (extractResourceProfiles sz)

def Profile.flatten (profile : Profile F Q) : List (F × Q) := profile.samples.map fun sample => (profile.fields, sample)

def flattenResourceProfiles (rp : ResourceProfiles R S F Q) : List (R × String × S × String × F × Q) :=
  rp.flatten (Envelope.flatten Profile.flatten)

omit [Inhabited S] [Inhabited R] in
theorem sampleCount_eq (resourceProfiles : List (ResourceProfiles R S F Q)) :
    sampleCount resourceProfiles = (resourceProfiles.flatMap flattenResourceProfiles).length := by
  simp [sampleCount, flattenResourceProfiles, Envelope.flatten, Profile.flatten, length_flatMap]

/-- The functions of split, for requests with this dictionary. -/
def profilesSplitter (dictionary : D) : Splitter (ResourceProfiles R S F Q) (R × String × S × String × F × Q) where
  size := sz.profilesSize dictionary
  extract := extractProfiles sz
  count := sampleCount
  item := "sample"
  content := flattenResourceProfiles
  counted := sampleCount_eq
  conserves := extractTree_conserves_content (sz.treeSizer default) Profile.flatten

def profilesSizers (wire : ProfilesWire D R S F Q) : SizerType → Option (ProfilesSizer D R S F Q)
  | .items => some profilesCountSizer
  | .bytes => some (profilesBytesSizer wire)
  | .requests => none

inductive ProfilesError where
  | splitting (err : MergeError)
  | failedMerging (err : String)

def ProfilesError.text : ProfilesError → String
  | .splitting err => err.text
  | .failedMerging err => "failed merging profiles; " ++ err

/-- Another profiles request, or a request of another kind with its number of items. -/
inductive IncomingProfiles (D R S F Q : Type) where
  | same (req : ProfilesRequest D R S F Q)
  | other (itemsCount : Nat)

def IncomingProfiles.itemsCount : IncomingProfiles D R S F Q → Nat
  | .same req => req.itemsCount
  | .other itemsCount => itemsCount

/-- The method MergeTo: its receiver, its destination, and what becomes of the destination. -/
abbrev MergeProfiles (D R S F Q : Type) :=
  D × List (ResourceProfiles R S F Q) → D × List (ResourceProfiles R S F Q) →
    Except String (D × List (ResourceProfiles R S F Q))

def ProfilesRequest.mergeTo (mergeProfiles : MergeProfiles D R S F Q) (sz : ProfilesSizer D R S F Q)
    (req dst : ProfilesRequest D R S F Q) : Except String (ProfilesRequest D R S F Q) := do
  let cachedSize := (dst.request.sized (sz.profilesSize dst.dictionary)).cachedSize +
    (req.request.sized (sz.profilesSize req.dictionary)).cachedSize
  let merged ← mergeProfiles (req.dictionary, req.request.data) (dst.dictionary, dst.request.data)
  return ⟨merged.1, { data := merged.2, cachedSize := cachedSize }⟩

/-- Every request that is split off has a copy of the dictionary. -/
def ProfilesRequest.split (sz : ProfilesSizer D R S F Q) (maxSize : Int) (req : ProfilesRequest D R S F Q) :
    List (ProfilesRequest D R S F Q) × Option ProfilesError :=
  let r := (profilesSplitter sz req.dictionary).split maxSize [] req.request
  (r.1.map fun request => ⟨req.dictionary, request⟩, r.2.map .splitting)

def ProfilesRequest.mergeSplit (mergeProfiles : MergeProfiles D R S F Q) (wire : ProfilesWire D R S F Q)
    (maxSize : Int) (szt : SizerType) (r2 : Option (IncomingProfiles D R S F Q)) (req : ProfilesRequest D R S F Q) :
    List (ProfilesRequest D R S F Q) × Option ProfilesError :=
  match profilesSizers wire szt with
  | none => ([], some (.splitting .unknownSizerType))
  | some sz =>
    let finish (req : ProfilesRequest D R S F Q) :=
      if maxSize = 0 then ([req], none) else req.split sz maxSize
    match r2 with
    | none => finish req
    | some r2 =>
      if r2.itemsCount > 0 then
        match r2 with
        | .other _ => ([], some (.splitting .invalidInputType))
        | .same req2 =>
          match req2.mergeTo mergeProfiles sz req with
          | .error err => ([], some (.failedMerging err))
          | .ok merged => finish merged
      else finish req

def ProfilesRequest.merged (mergeProfiles : MergeProfiles D R S F Q) (sz : ProfilesSizer D R S F Q)
    (r2 : Option (ProfilesRequest D R S F Q)) (req : ProfilesRequest D R S F Q) :
    Except String (ProfilesRequest D R S F Q) :=
  match r2 with
  | none => .ok req
  | some req2 => if req2.itemsCount > 0 then req2.mergeTo mergeProfiles sz req else .ok req

end definitions

section merging
variable [Inhabited D] [Inhabited R] [Inhabited S]

theorem ProfilesRequest.mergeSplit_eq (mergeProfiles : MergeProfiles D R S F Q) {wire : ProfilesWire D R S F Q}
    {maxSize : Int} (limited : maxSize ≠ 0) {szt : SizerType} {sz : ProfilesSizer D R S F Q}
    (known : profilesSizers wire szt = some sz) (r2 : Option (ProfilesRequest D R S F Q))
    (req : ProfilesRequest D R S F Q) :
    ProfilesRequest.mergeSplit mergeProfiles wire maxSize szt (r2.map .same) req =
      match ProfilesRequest.merged mergeProfiles sz r2 req with
      | .error err => ([], some (.failedMerging err))
      | .ok merged => merged.split sz maxSize := by
  unfold ProfilesRequest.mergeSplit ProfilesRequest.merged
  rw [known]
  cases r2 with
  | none => simp only [Option.map_none, if_neg limited]
  | some req2 =>
    simp only [Option.map_some, IncomingProfiles.itemsCount, if_neg limited]
    split <;> rfl

end merging

section items
variable [Inhabited D] [Inhabited R] [Inhabited S]

def sampleCounts (resourceProfiles : List (ResourceProfiles R S F Q)) : List Nat :=
  resourceProfiles.flatMap fun rp => rp.children.flatMap fun sp => sp.children.map fun profile => profile.samples.length

omit [Inhabited R] [Inhabited S] in
theorem sampleCounts_eq (resourceProfiles : List (ResourceProfiles R S F Q)) :
    sampleCounts resourceProfiles =
      (resourceProfiles.flatMap flattenResource).map fun entry => entry.2.2.2.2.samples.length := by
  simp [sampleCounts, flattenResource, Envelope.flatten, map_flatMap, Function.comp_def]

omit [Inhabited R] [Inhabited S] in
theorem sampleCounts_length (resourceProfiles : List (ResourceProfiles R S F Q)) :
    (sampleCounts resourceProfiles).length = recordCount resourceProfiles := by
  rw [sampleCounts_eq, length_map, recordCount_eq]

omit [Inhabited R] [Inhabited S] in
theorem sampleCounts_sum (resourceProfiles : List (ResourceProfiles R S F Q)) :
    (sampleCounts resourceProfiles).sum = sampleCount resourceProfiles := by
  simp [sampleCounts, sampleCount, List.flatMap, sum_flatten, Function.comp_def]

theorem extractProfiles_counts (resourceProfiles : List (ResourceProfiles R S F Q)) (capacity : Int) :
    let ext := extractProfiles (profilesCountSizer : ProfilesSizer D R S F Q) resourceProfiles capacity
    sampleCounts ext.dest = (sampleCounts resourceProfiles).take capacity.toNat ∧
      sampleCounts ext.rest = (sampleCounts resourceProfiles).drop capacity.toNat ∧
      ext.removedSize = min capacity.toNat (sampleCounts resourceProfiles).length := by
  have same : extractProfiles (profilesCountSizer : ProfilesSizer D R S F Q) resourceProfiles capacity =
      extractTree countSizer (extractResource countSizer (extractScope (countSizer : TreeSizer R S (Profile F Q))))
        resourceProfiles capacity := rfl
  have counts := countSizer_extract_counts.dest resourceProfiles capacity
  have removed := countSizer_extract_counts.removed resourceProfiles capacity
  have whole := extractTree_conserves (countSizer : TreeSizer R S (Profile F Q)) resourceProfiles capacity
  rw [same]
  generalize extractTree countSizer (extractResource countSizer (extractScope (countSizer : TreeSizer R S (Profile F Q))))
    resourceProfiles capacity = ext at counts removed whole ⊢
  have joined : sampleCounts ext.dest ++ sampleCounts ext.rest = sampleCounts resourceProfiles := by
    rw [sampleCounts_eq, sampleCounts_eq, ← map_append, whole, ← sampleCounts_eq]
  rw [← sampleCounts_length, ← sampleCounts_length] at counts
  rw [← sampleCounts_length] at removed
  have lengths := congrArg List.length joined
  rw [length_append] at lengths
  refine ⟨?_, ?_, by rw [removed, counts]⟩
  · rcases Nat.le_total capacity.toNat (sampleCounts resourceProfiles).length with many | few
    · rw [← joined, take_left' (by omega)]
    · have nothing : sampleCounts ext.rest = [] := length_eq_zero_iff.mp (by omega)
      rw [take_of_length_le few, ← joined, nothing, append_nil]
  · rcases Nat.le_total capacity.toNat (sampleCounts resourceProfiles).length with many | few
    · rw [← joined, drop_left' (by omega)]
    · rw [drop_of_length_le few]
      exact length_eq_zero_iff.mp (by omega)

/-- Of the runs of as many profiles as the limit the first `iterations` have between one sample and the limit, and
what follows has no more. -/
def Chunked (limit : Nat) : (iterations : Nat) → List Nat → Prop
  | 0, counts => counts.sum ≤ limit
  | iterations + 1, counts => 1 ≤ (counts.take limit).sum ∧ (counts.take limit).sum ≤ limit ∧
      Chunked limit iterations (counts.drop limit)

instance decidableChunked (limit : Nat) : (iterations : Nat) → (counts : List Nat) →
    Decidable (Chunked limit iterations counts)
  | 0, counts => inferInstanceAs (Decidable (counts.sum ≤ limit))
  | iterations + 1, counts =>
    have := decidableChunked limit iterations (counts.drop limit)
    inferInstanceAs (Decidable (1 ≤ (counts.take limit).sum ∧ (counts.take limit).sum ≤ limit ∧
      Chunked limit iterations (counts.drop limit)))

theorem iterations_succ {cachedSize maxSize : Int} (positive : 0 < maxSize) (exceeds : cachedSize > maxSize) :
    (cachedSize.toNat - 1) / maxSize.toNat = ((cachedSize - maxSize).toNat - 1) / maxSize.toNat + 1 := by
  have round : cachedSize.toNat - 1 = (cachedSize - maxSize).toNat - 1 + maxSize.toNat := by omega
  rw [round, Nat.add_div_right _ (by omega)]

def itemsSize (dictionary : D) (req : SignalRequest (ResourceProfiles R S F Q)) : Int :=
  (req.sized (profilesCountSizer.profilesSize dictionary)).cachedSize

theorem split_items_iff (dictionary : D) {maxSize : Int} (positive : 0 < maxSize)
    (res : List (SignalRequest (ResourceProfiles R S F Q))) (req : SignalRequest (ResourceProfiles R S F Q))
    (known : 0 ≤ itemsSize dictionary req) (covered : itemsSize dictionary req ≤ sampleCount req.data) :
    (((profilesSplitter profilesCountSizer dictionary).split maxSize res req).2 = none ∧
      ∀ returned ∈ ((profilesSplitter profilesCountSizer dictionary).split maxSize res req).1,
        sampleCount returned.data ≤ maxSize) ↔
    (∀ batch ∈ res, sampleCount batch.data ≤ maxSize) ∧
      Chunked maxSize.toNat (((itemsSize dictionary req).toNat - 1) / maxSize.toNat) (sampleCounts req.data) := by
  unfold Splitter.split
  fun_induction (profilesSplitter profilesCountSizer dictionary).splitting maxSize res req with
  | case1 res req sized exceeds ext left none =>
    have taken : sampleCounts ext.dest = (sampleCounts req.data).take maxSize.toNat :=
      (extractProfiles_counts req.data maxSize).1
    have nothing : ((sampleCounts req.data).take maxSize.toNat).sum = 0 := by
      rw [← taken, sampleCounts_sum]
      exact none
    have more : itemsSize dictionary req > maxSize := exceeds
    rw [iterations_succ positive more, Chunked, nothing]
    constructor
    · intro sound
      cases sound.1
    · intro chunked
      exact absurd chunked.2.1 (by decide)
  | case2 res req sized exceeds ext left some resized ih =>
    have more : itemsSize dictionary req > maxSize := exceeds
    have dest : sampleCounts ext.dest = (sampleCounts req.data).take maxSize.toNat :=
      (extractProfiles_counts req.data maxSize).1
    have rest : sampleCounts ext.rest = (sampleCounts req.data).drop maxSize.toNat :=
      (extractProfiles_counts req.data maxSize).2.1
    have removed : ext.removedSize = min maxSize.toNat (sampleCounts req.data).length :=
      (extractProfiles_counts req.data maxSize).2.2
    have batch : sampleCount ext.dest = ((sampleCounts req.data).take maxSize.toNat).sum := by
      rw [← dest, sampleCounts_sum]
    have total := sampleCounts_sum req.data
    have parts : ((sampleCounts req.data).take maxSize.toNat).sum + ((sampleCounts req.data).drop maxSize.toNat).sum =
        (sampleCounts req.data).sum := by
      rw [← sum_append, take_append_drop]
    have cached : resized.cachedSize = itemsSize dictionary req := by
      have known' : itemsSize dictionary req ≠ -1 := by omega
      exact if_neg known'
    rw [iterations_succ positive more, Chunked]
    by_cases large : ((sampleCounts req.data).take maxSize.toNat).sum > maxSize.toNat
    · -- the batch is returned, and it is too large
      constructor
      · intro sound
        have all := ((profilesSplitter profilesCountSizer dictionary).forall_split
          (fun data => (sampleCount data : Int) ≤ maxSize) _ _).mp sound.2
        have returned := all.1 ⟨ext.dest, -1⟩ (by simp)
        simp only at returned
        omega
      · intro chunked
        exact absurd chunked.2.2.1 (by omega)
    · have many : maxSize.toNat ≤ (sampleCounts req.data).length := by
        by_contra few
        rw [take_of_length_le (by omega)] at large
        omega
      have left : itemsSize dictionary { resized with cachedSize := resized.cachedSize - ext.removedSize } =
          itemsSize dictionary req - maxSize := by
        rw [itemsSize, SignalRequest.sized_known _ (by omega)]
        simp only
        omega
      have remaining : sampleCount resized.data = ((sampleCounts req.data).drop maxSize.toNat).sum := by
        rw [← rest, sampleCounts_sum]
        rfl
      have covered' : itemsSize dictionary { resized with cachedSize := resized.cachedSize - ext.removedSize } ≤
          sampleCount resized.data := by omega
      rw [ih (by omega) covered', left, forall_mem_append, forall_mem_singleton]
      have any : sampleCount ext.dest ≠ 0 := some
      have data : resized.data = ext.rest := rfl
      simp only [data, rest, batch]
      constructor
      · intro chunked
        exact ⟨chunked.1.1, by omega, by omega, chunked.2⟩
      · intro chunked
        exact ⟨⟨chunked.1, by omega⟩, chunked.2.2.2⟩
  | case3 res req sized under =>
    have few : ¬ itemsSize dictionary req > maxSize := under
    have none : ((itemsSize dictionary req).toNat - 1) / maxSize.toNat = 0 := Nat.div_eq_of_lt (by omega)
    rw [none, Chunked, sampleCounts_sum, forall_mem_append, forall_mem_singleton]
    have last : sampleCount sized.data ≤ maxSize ↔ sampleCount req.data ≤ maxSize.toNat := by
      show (sampleCount req.data : Int) ≤ maxSize ↔ _
      omega
    rw [last]
    exact ⟨fun sound => sound.2, fun chunked => ⟨rfl, chunked⟩⟩

/-- No error, no request above the limit, and no sample lost. -/
structure SoundSplit (maxSize : Int) (given : Nat)
    (answer : List (ProfilesRequest D R S F Q) × Option ProfilesError) : Prop where
  err : answer.2 = none
  limit : ∀ returned ∈ answer.1, returned.itemsCount ≤ maxSize
  total : (answer.1.map ProfilesRequest.itemsCount).sum = given

section merging
variable {mergeProfiles : MergeProfiles D R S F Q} {sz : ProfilesSizer D R S F Q} {req merged : ProfilesRequest D R S F Q}

omit [Inhabited D] [Inhabited R] [Inhabited S]

theorem ProfilesRequest.merged_cases {r2 : Option (ProfilesRequest D R S F Q)}
    (done : ProfilesRequest.merged mergeProfiles sz r2 req = .ok merged) :
    (merged = req ∧ ∀ req2 ∈ r2, req2.itemsCount = 0) ∨
    ∃ req2 result, r2 = some req2 ∧
      mergeProfiles (req2.dictionary, req2.request.data) (req.dictionary, req.request.data) = .ok result ∧
      merged = ⟨result.1, { data := result.2
                            cachedSize := (req.request.sized (sz.profilesSize req.dictionary)).cachedSize +
                              (req2.request.sized (sz.profilesSize req2.dictionary)).cachedSize }⟩ := by
  cases r2 with
  | none =>
    cases done
    exact .inl ⟨rfl, by simp⟩
  | some req2 =>
    rw [ProfilesRequest.merged] at done
    split at done
    · right
      cases merging : mergeProfiles (req2.dictionary, req2.request.data) (req.dictionary, req.request.data) with
      | error err =>
        rw [ProfilesRequest.mergeTo, merging] at done
        cases done
      | ok result =>
        rw [ProfilesRequest.mergeTo, merging] at done
        cases done
        exact ⟨req2, result, rfl, merging, rfl⟩
    · next empty =>
        cases done
        left
        simp only [Option.mem_some_iff, forall_eq', true_and]
        omega

variable (adds : ∀ src dst merged, mergeProfiles src dst = .ok merged →
  sampleCount merged.2 = sampleCount dst.2 + sampleCount src.2) {r2 : Option (ProfilesRequest D R S F Q)}

include adds

theorem merged_itemsCount (done : ProfilesRequest.merged mergeProfiles sz r2 req = .ok merged) :
    merged.itemsCount = ((req :: r2.toList).map ProfilesRequest.itemsCount).sum := by
  rcases ProfilesRequest.merged_cases done with ⟨rfl, none⟩ | ⟨req2, result, rfl, merging, rfl⟩
  · cases r2 with
    | none => simp
    | some req2 => simp [none req2 rfl]
  · simpa [ProfilesRequest.itemsCount] using adds _ _ _ merging

theorem merged_measured
    (measured : ∀ given ∈ req :: r2.toList, given.request.Measured (profilesCountSizer.profilesSize given.dictionary))
    (done : ProfilesRequest.merged mergeProfiles profilesCountSizer r2 req = .ok merged) :
    (merged.request.sized (profilesCountSizer.profilesSize merged.dictionary)).cachedSize = merged.itemsCount := by
  have own := (measured req mem_cons_self).sized
  rcases ProfilesRequest.merged_cases done with ⟨rfl, _⟩ | ⟨req2, result, rfl, merging, rfl⟩
  · exact own
  · have other := (measured req2 (by simp)).sized
    have total := adds _ _ _ merging
    simp only [own, other]
    rw [SignalRequest.sized_known]
    · simp only [profilesCountSizer, ProfilesRequest.itemsCount, total, Nat.cast_add]
    · simp only [profilesCountSizer]
      omega

end merging

omit [Inhabited D] [Inhabited R] [Inhabited S] in
theorem itemsCount_sum (dictionary : D) (requests : List (SignalRequest (ResourceProfiles R S F Q))) :
    ((requests.map fun request => (⟨dictionary, request⟩ : ProfilesRequest D R S F Q)).map
      ProfilesRequest.itemsCount).sum = (flattenAll flattenResourceProfiles requests).length := by
  rw [map_map, flattenAll, length_flatMap]
  congr 1
  apply map_congr_left
  intro request _
  exact sampleCount_eq request.data

theorem ProfilesRequest.split_total (sz : ProfilesSizer D R S F Q) (maxSize : Int) (req : ProfilesRequest D R S F Q) :
    ((req.split sz maxSize).2 = none → ((req.split sz maxSize).1.map ProfilesRequest.itemsCount).sum = req.itemsCount) ∧
    ∀ item dropped, (req.split sz maxSize).2 = some (.splitting (.oversized item dropped)) →
      ((req.split sz maxSize).1.map ProfilesRequest.itemsCount).sum + dropped = req.itemsCount := by
  have accounts := (profilesSplitter sz req.dictionary).split_accounts maxSize [] req.request
  rw [ProfilesRequest.split, ProfilesRequest.itemsCount, sampleCount_eq]
  generalize (profilesSplitter sz req.dictionary).split maxSize [] req.request = answer at accounts ⊢
  simp only [itemsCount_sum]
  rcases answer with ⟨requests, _ | err⟩
  · refine ⟨fun _ => congrArg List.length accounts, fun _ _ failed => nomatch failed⟩
  · rcases accounts with ⟨missing, whole, rfl⟩
    refine ⟨(nomatch ·), fun item dropped failed => ?_⟩
    cases failed
    have lengths := congrArg List.length whole
    rw [length_append] at lengths
    exact lengths

/-- Requests whose cached sizes are unknown or right, a method MergeTo that keeps all
samples, and any limit. -/
theorem profiles_items_sound_iff {mergeProfiles : MergeProfiles D R S F Q}
    (adds : ∀ src dst merged, mergeProfiles src dst = .ok merged →
      sampleCount merged.2 = sampleCount dst.2 + sampleCount src.2)
    (wire : ProfilesWire D R S F Q) (maxSize : Int) (positive : 0 < maxSize)
    (req : ProfilesRequest D R S F Q) (r2 : Option (ProfilesRequest D R S F Q))
    (measured : ∀ given ∈ req :: r2.toList, given.request.Measured (profilesCountSizer.profilesSize given.dictionary)) :
    SoundSplit maxSize ((req :: r2.toList).map ProfilesRequest.itemsCount).sum
      (ProfilesRequest.mergeSplit mergeProfiles wire maxSize .items (r2.map .same) req) ↔
    ∃ merged, ProfilesRequest.merged mergeProfiles profilesCountSizer r2 req = .ok merged ∧
      Chunked maxSize.toNat ((merged.itemsCount - 1) / maxSize.toNat) (sampleCounts merged.request.data) := by
  have known : profilesSizers wire .items = some profilesCountSizer := rfl
  rw [ProfilesRequest.mergeSplit_eq mergeProfiles positive.ne' known]
  cases done : ProfilesRequest.merged mergeProfiles profilesCountSizer r2 req with
  | error err =>
    constructor
    · intro sound
      cases sound.err
    · intro some
      rcases some with ⟨_, never, _⟩
      cases never
  | ok merged =>
    have cached := merged_measured adds measured done
    have given := merged_itemsCount adds done
    have nonneg : 0 ≤ (merged.request.sized (profilesCountSizer.profilesSize merged.dictionary)).cachedSize := by
      omega
    have chunks := split_items_iff merged.dictionary positive [] merged.request nonneg cached.le
    rw [itemsSize, cached, Int.toNat_natCast] at chunks
    have splits : SoundSplit maxSize ((req :: r2.toList).map ProfilesRequest.itemsCount).sum
        (merged.split profilesCountSizer maxSize) ↔
        Chunked maxSize.toNat ((merged.itemsCount - 1) / maxSize.toNat) (sampleCounts merged.request.data) := by
      constructor
      · intro sound
        refine (chunks.mp ⟨Option.map_eq_none_iff.mp sound.err, fun returned member => ?_⟩).2
        exact sound.limit ⟨merged.dictionary, returned⟩ (mem_map_of_mem member)
      · intro chunked
        rcases chunks.mpr ⟨by simp, chunked⟩ with ⟨right, limit⟩
        have err : (merged.split profilesCountSizer maxSize).2 = none := Option.map_eq_none_iff.mpr right
        refine ⟨err, fun returned member => ?_, ?_⟩
        · rcases mem_map.mp member with ⟨request, listed, rfl⟩
          exact limit request listed
        · rw [(ProfilesRequest.split_total profilesCountSizer maxSize merged).1 err, given]
    rw [splits]
    constructor
    · intro chunked
      exact ⟨merged, rfl, chunked⟩
    · intro some
      rcases some with ⟨_, same, chunked⟩
      cases same
      exact chunked

end items

section mergeTo
open Pprofile

variable {X Y : Type}

/-- What a profile has beside its samples. -/
structure ProfileFields where
  header : Merge.Header
  sampleType : Merge.ValueType Int
  periodType : Merge.ValueType Int
  attributes : List Int

abbrev Sample := Merge.Sample Int Int Int

def toMerge (resourceProfiles : List (ResourceProfiles X Y ProfileFields Sample)) :
    List (Merge.ResourceProfiles X Y (Merge.Profile Int Int Int Int)) :=
  resourceProfiles.map fun rp => ⟨rp.header, rp.children.map fun sp => ⟨sp.header, sp.children.map fun profile =>
    ⟨profile.fields.header, profile.fields.sampleType, profile.samples, profile.fields.periodType,
      profile.fields.attributes⟩, sp.schemaUrl⟩, rp.schemaUrl⟩

def ofMerge (resourceProfiles : List (Merge.ResourceProfiles X Y (Merge.Profile Int Int Int Int))) :
    List (ResourceProfiles X Y ProfileFields Sample) :=
  resourceProfiles.map fun rp => ⟨rp.resource, rp.schemaURL, rp.scopeProfiles.map fun sp =>
    ⟨sp.scope, sp.schemaURL, sp.profiles.map fun profile =>
      ⟨⟨profile.header, profile.sampleType, profile.periodType, profile.attributes⟩, profile.samples⟩⟩⟩

/-- MergeTo as it is, with what its errors say. -/
def mergeTo (text : Merge.MergeError → String) : MergeProfiles Merge.Dictionary X Y ProfileFields Sample :=
  fun src dst =>
    let ms : Merge.Profiles X Y := { dictionary := src.1, resourceProfiles := toMerge src.2 }
    match ms.mergeTo { dictionary := dst.1, resourceProfiles := toMerge dst.2 } with
    | (.error err, _) => .error (text err)
    | (.ok _, dest) => .ok (dest.dictionary, ofMerge dest.resourceProfiles)

theorem sampleCount_toMerge (resourceProfiles : List (ResourceProfiles X Y ProfileFields Sample)) :
    Merge.sampleCount (toMerge resourceProfiles) = sampleCount resourceProfiles := by
  simp [Merge.sampleCount, toMerge, sampleCount, Function.comp_def]

theorem sampleCount_ofMerge (resourceProfiles : List (Merge.ResourceProfiles X Y (Merge.Profile Int Int Int Int))) :
    sampleCount (ofMerge resourceProfiles) = Merge.sampleCount resourceProfiles := by
  simp [Merge.sampleCount, ofMerge, sampleCount, Function.comp_def]

theorem mergeTo_adds (text : Merge.MergeError → String)
    (src dst merged : Merge.Dictionary × List (ResourceProfiles X Y ProfileFields Sample))
    (done : mergeTo text src dst = .ok merged) :
    sampleCount merged.2 = sampleCount dst.2 + sampleCount src.2 := by
  rw [mergeTo] at done
  split at done
  · cases done
  · next ended =>
    cases done
    have count := Merge.mergeTo_sampleCount (congrArg Prod.fst ended)
    rw [ended, sampleCount_toMerge, sampleCount_toMerge] at count
    exact (sampleCount_ofMerge _).trans count

end mergeTo

open Pprofile in
/-- One resource and scope with profiles of as many samples. -/
def profilesOf (counts : List Nat) : ProfilesRequest Merge.Dictionary Unit Unit ProfileFields Sample :=
  ⟨Merge.stacked [⟨[0]⟩], ⟨[⟨(), "", [⟨(), "", counts.map fun count =>
    ⟨⟨Merge.emptyHeader, ⟨0, 0⟩, ⟨0, 0⟩, []⟩, List.replicate count ⟨1, [], 0, [], []⟩⟩⟩]⟩], -1⟩⟩

def freeWire : ProfilesWire D R S F Q := ⟨fun _ => 0, fun _ => 0, fun _ => 0, fun _ => 0⟩

/-- Three profiles of one sample each, the last merged into the others, by twos. -/
theorem profiles_items_sound_iff_ones :
    SoundSplit 2 3 (ProfilesRequest.mergeSplit (mergeTo fun _ => "") freeWire 2 .items
      (some (.same (profilesOf [1]))) (profilesOf [1, 1])) := by
  have measured : ∀ given ∈ profilesOf [1, 1] :: (some (profilesOf [1])).toList,
      given.request.Measured (profilesCountSizer.profilesSize given.dictionary) := by
    simp [profilesOf, SignalRequest.Measured]
  refine (profiles_items_sound_iff (mergeTo_adds fun _ => "") freeWire 2 (by decide) (profilesOf [1, 1])
    (some (profilesOf [1])) measured).mpr ⟨_, rfl, ?_⟩
  decide +kernel

/-- Two profiles of two samples each, with a limit of two: both profiles are in the first
batch, and the second has none. -/
theorem profiles_items_limit_exceeded :
    (ProfilesRequest.mergeSplit (mergeTo fun _ => "") freeWire 2 .items none (profilesOf [2, 2])).1.map
      ProfilesRequest.itemsCount = [4, 0] := by
  decide +kernel

end CollectorFormal.Batch
