import CollectorFormal.Pprofile.MergeTo

/-! Profiles that are scraped and combined.

All are merged into new profiles, whose tables are empty. The first entry of a table therefore has the index 0,
which stands for no entry. -/

namespace CollectorFormal.Scraper

open Client (Text)
open Pdata (Value)
open Pprofile.Merge List

section scrape
variable {X Y : Type}

structure ScrapeError where
  text : Text
  partialScrape : Bool

structure Scrape (X Y : Type) where
  md : Profiles X Y
  err : Option ScrapeError
  mutable : md.readOnly = false

inductive ResultError where
  | scrape (scraper : Nat) (err : ScrapeError)
  | consume (err : Text)

/-- An error that is not partial: the profiles are not looked at. -/
def Scrape.failed (scrape : Scrape X Y) : Bool :=
  match scrape.err with
  | some err => !err.partialScrape
  | none => false

/-- The loop over the scrapers, from number `i` on. -/
def scrapeAll : Nat → List (Scrape X Y) → List ResultError × Profiles X Y → List ResultError × Profiles X Y
  | _, [], acc => acc
  | i, scrape :: rest, (errs, profiles) =>
    let errs := errs ++ (scrape.err.map (ResultError.scrape i)).toList
    if scrape.failed then scrapeAll (i + 1) rest (errs, profiles)
    -- the error of the merge is dropped
    else scrapeAll (i + 1) rest (errs, (scrape.md.mergeTo profiles).2)

def scrapeProfiles (scrapes : List (Scrape X Y)) (consumeProfiles : Profiles X Y → Option Text) :
    Profiles X Y × List ResultError :=
  let (errs, profiles) := scrapeAll 0 scrapes ([], {})
  (profiles, errs ++ ((consumeProfiles profiles).map ResultError.consume).toList)

end scrape

section lasting
variable (first : (t : Table) → Option (Dictionary × Entry t)) (src : Dictionary)

/-- What is left of a reference to a string when the first string of all has the index 0. -/
def lasting (i : Int) : Option Text :=
  (viewString 1 src i).filter fun text => (first .string).map Prod.snd ≠ some text

def lastingAttribute (ms : Entry .attr) : AttributeView := ms.map (lasting first src) Value.meaning

def SparedString (i : Int) : Prop := lasting first src i = viewString 1 src i

/-- Neither this attribute nor its strings are the first ones. In a list the index 0 is switched as well, and stays 0
if a zero value comes first. -/
def SparedAttribute (i : Int) : Prop :=
  if 0 < i then ∀ ms, src.attributeTable[i.toNat]? = some ms →
    SparedString first src ms.key ∧ SparedString first src ms.unit ∧
      ∀ src' ms', first .attr = some (src', ms') → lastingAttribute first src' ms' ≠ viewAttributeEntry 1 src ms
  else ∃ src', first .attr = some (src', zeroEntry .attr)

/-- Only samples refer to links and stacks, so that the first of these is always lost. -/
structure Spared (profile : Profile Int Int Int Int) : Prop where
  attributes : ∀ i ∈ profile.attributes, SparedAttribute first src i
  samples : ∀ sample ∈ profile.samples,
    (∀ i ∈ sample.attributes, SparedAttribute first src i) ∧ sample.link = 0 ∧ sample.stack = 0
  periodType : SparedString first src profile.periodType.type ∧ SparedString first src profile.periodType.unit
  sampleType : SparedString first src profile.sampleType.type ∧ SparedString first src profile.sampleType.unit

/-- The first entry of a table is the first that was switched into it. -/
def Begins (d : Dictionary) (t : Table) : Option (Dictionary × Entry t) → Prop
  | none => d.table t = []
  | some (src, val) => ∃ entry, (d.table t)[0]? = some entry ∧ MovedEntry d src t val entry

variable {first src} {d : Dictionary} {i j : Int}

theorem denotes_absent {α : Type} {t : Table} {onEntry : Entry t → α} (small : i ≤ 0) :
    denotes 1 d t onEntry i = none := by
  rw [denotes, if_pos (by omega)]

theorem denotes_present {α : Type} {t : Table} {onEntry : Entry t → α} {entry : Entry t} (positive : 0 < i)
    (found : (d.table t)[i.toNat]? = some entry) : denotes 1 d t onEntry i = some (onEntry entry) := by
  rw [denotes, if_neg (by omega), found, Option.map_some]

theorem movedField_zero {d src : Dictionary} {t : Table} {onEntry : Entry t → Entry t → Prop} {j : Int}
    (moved : MovedField d src t onEntry 0 j) : j = 0 := by
  rcases moved with ⟨_, same⟩ | ⟨impossible, _⟩
  · exact same
  · omega

theorem zero_equal {d src src' : Dictionary} {ms ms' : Entry .attr}
    (moved : MovedAttributeEntry d src (zeroEntry .attr) ms)
    (moved' : MovedAttributeEntry d src' (zeroEntry .attr) ms') : equal .attr ms ms' = true := by
  have value : ms.value.equal ms'.value = true := Value.equal_of_empty moved.value.symm moved'.value.symm
  simp only [equal, Bool.and_eq_true, beq_iff_eq]
  refine ⟨⟨?_, ?_⟩, value⟩
  · rw [movedField_zero moved.key, movedField_zero moved'.key]
  · rw [movedField_zero moved.unit, movedField_zero moved'.unit]

section begins
variable (begins : ∀ t, Begins d t (first t))
include begins

theorem viewString_moved (moved : MovedString d src i j) : viewString 1 d j = lasting first src i := by
  rw [lasting, viewString]
  rcases moved with ⟨small, rfl⟩ | ⟨positive, val, _, found, rfl, nonneg, ⟨entry, placed, same⟩, earlier⟩
  · rw [viewString, denotes_absent small, denotes_absent small, Option.filter_none]
  · have same : entry = val := same.elim id eq_of_beq
    subst same
    have begun := begins .string
    rw [viewString, denotes_present positive found]
    cases head : first .string with
    | none =>
      rw [head] at begun
      rw [begun] at placed
      cases placed
    | some known =>
      rw [head] at begun
      obtain ⟨text, at_zero, same⟩ := begun
      have same : known.2 = text := same
      rcases Int.lt_or_eq_of_le nonneg with positive' | rfl
      · have other : text ≠ entry := by
          rintro rfl
          have := earlier 0 (by omega) _ at_zero
          simp [equal] at this
        rw [denotes_present positive' placed]
        simp [Option.filter, same, other]
      · cases at_zero.symm.trans placed
        rw [denotes_absent (Int.le_refl 0)]
        simp [Option.filter, same]

theorem spared_string (spared : SparedString first src i) (moved : MovedString d src i j) :
    viewString 1 src i = viewString 1 d j :=
  spared.symm.trans (viewString_moved begins moved).symm

theorem viewAttributeEntry_moved {ms ms' : Entry .attr} (moved : MovedAttributeEntry d src ms ms') :
    viewAttributeEntry 1 d ms' = lastingAttribute first src ms :=
  KeyValueAndUnit.map_eq_iff.mpr
    ⟨viewString_moved begins moved.key, viewString_moved begins moved.unit, moved.value.symm⟩

theorem spared_attribute (zeros : ZeroFirst src) (spared : SparedAttribute first src i)
    (moved : MovedAttribute d src i j) : viewAttribute 1 src i = viewAttribute 1 d j := by
  obtain ⟨nonneg, val, switched, found, related, nonneg', ⟨entry, placed, same⟩, earlier⟩ := moved
  have begun := begins .attr
  rw [SparedAttribute] at spared
  split at spared
  · next positive =>
      obtain ⟨key, unit, other⟩ := spared val found
      have kept : viewAttributeEntry 1 d entry = viewAttributeEntry 1 src val := by
        have equal : viewAttributeEntry 1 d entry = viewAttributeEntry 1 d switched := by
          rcases same with rfl | same
          · rfl
          · exact viewEntry_of_equal same
        rw [equal]
        exact KeyValueAndUnit.map_eq_iff.mpr ⟨(spared_string begins key related.key).symm,
          (spared_string begins unit related.unit).symm, related.value.symm⟩
      have positive' : 0 < j := by
        rcases Int.lt_or_eq_of_le nonneg' with positive' | rfl
        · exact positive'
        · cases head : first .attr with
          | none =>
            rw [head] at begun
            rw [begun] at placed
            cases placed
          | some known =>
            rw [head] at begun
            obtain ⟨_, at_zero, moved⟩ := begun
            cases at_zero.symm.trans placed
            exact absurd ((viewAttributeEntry_moved begins moved).symm.trans kept) (other _ _ head)
      rw [viewAttribute, viewAttribute, denotes_present positive found, denotes_present positive' placed, kept]
  · next positive =>
      obtain rfl : i = 0 := by omega
      obtain ⟨src', head⟩ := spared
      rw [head] at begun
      obtain ⟨zero, at_zero, moved⟩ := begun
      cases (zeros .attr).symm.trans found
      have small : j ≤ 0 := by
        by_contra positive'
        have differ := earlier 0 (by omega) zero at_zero
        rw [zero_equal moved related] at differ
        cases differ
      rw [viewAttribute, viewAttribute, denotes_absent (Int.le_refl 0), denotes_absent small]

theorem spared_profile {profile profile' : Profile Int Int Int Int} (zeros : ZeroFirst src)
    (spared : Spared first src profile) (moved : MovedProfile d src profile profile') :
    viewProfile 1 d profile' = viewProfile 1 src profile := by
  have lists : ∀ {indices indices'}, (∀ i ∈ indices, SparedAttribute first src i) →
      List.Forall₂ (MovedAttribute d src) indices indices' →
      List.Forall₂ (fun i j => viewAttribute 1 src i = viewAttribute 1 d j) indices indices' := by
    intro indices indices' spared moved
    exact ((forall₂_and_left _ _).mpr ⟨spared, moved⟩).imp fun _ _ both => spared_attribute begins zeros both.1 both.2
  symm
  refine Profile.map_eq_iff.mpr ⟨lists spared.attributes moved.attributes, ?_, ?_, ?_, moved.header⟩
  · refine ((forall₂_and_left _ _).mpr ⟨spared.samples, moved.samples⟩).imp fun sample sample' both => ?_
    obtain ⟨⟨attributes, link, stack⟩, moved⟩ := both
    refine ⟨lists attributes moved.attributes, ?_, ?_, moved.values, moved.timestampsUnixNano⟩
    · have moved := moved.link
      rw [link] at moved ⊢
      rw [movedField_zero moved]
      rfl
    · have moved := moved.stack
      rw [stack] at moved ⊢
      rw [movedField_zero moved]
      rfl
  · exact ⟨spared_string begins spared.periodType.1 moved.periodType.type,
      spared_string begins spared.periodType.2 moved.periodType.unit⟩
  · exact ⟨spared_string begins spared.sampleType.1 moved.sampleType.type,
      spared_string begins spared.sampleType.2 moved.sampleType.unit⟩

end begins

end lasting

section run
variable {X Y : Type}

abbrev Resource (X Y : Type) := ResourceProfiles X Y (Profile Int Int Int Int)

inductive Outcome (X Y : Type) where
  | failed
  /-- The profiles could not be merged. -/
  | unmerged
  /-- What the resource profiles have become. -/
  | merged (added : List (Resource X Y))

def Outcome.added : Outcome X Y → List (Resource X Y)
  | .merged added => added
  | _ => []

def Scrape.outcome (scrape : Scrape X Y) (profiles : Profiles X Y) : Outcome X Y × Profiles X Y :=
  if scrape.failed then (.failed, profiles)
  else
    match scrape.md.mergeTo profiles with
    | (.ok _, dest) => (.merged (dest.resourceProfiles.drop profiles.resourceProfiles.length), dest)
    | (.error _, dest) => (.unmerged, dest)

def outcomes : List (Scrape X Y) → Profiles X Y → List (Scrape X Y × Outcome X Y)
  | [], _ => []
  | scrape :: rest, profiles =>
    (scrape, (scrape.outcome profiles).1) :: outcomes rest (scrape.outcome profiles).2

def Scrape.view (scrape : Scrape X Y) : List (ResourceProfiles X Y ProfileView) :=
  Pprofile.Merge.view 1 scrape.md.dictionary scrape.md.resourceProfiles

def expected (run : List (Scrape X Y × Outcome X Y)) : List (ResourceProfiles X Y ProfileView) :=
  run.flatMap fun step =>
    match step.2 with
    | .merged _ => step.1.view
    | _ => []

structure Faithful (scrapes : List (Scrape X Y)) (result : Profiles X Y × List ResultError) : Prop where
  combined : view 1 result.1.dictionary result.1.resourceProfiles = expected (outcomes scrapes {})
  reported : ∀ i scrape outcome, (outcomes scrapes {})[i]? = some (scrape, outcome) →
    (∀ added, outcome ≠ .merged added) → ∃ err, .scrape i err ∈ result.2

/-- What a merge appends is what was moved, for every later dictionary. -/
def Appended (d : Dictionary) (step : Scrape X Y × Outcome X Y) : Prop :=
  ∀ added, step.2 = .merged added →
    List.Forall₂ (ResourceProfiles.Rel (MovedProfile d step.1.md.dictionary)) step.1.md.resourceProfiles added

variable {scrape : Scrape X Y} {profiles : Profiles X Y}

structure Stepped (scrape : Scrape X Y) (profiles : Profiles X Y) (outcome : Outcome X Y) (after : Profiles X Y) :
    Prop where
  more : Extends profiles.dictionary after.dictionary
  resourceProfiles : after.resourceProfiles = profiles.resourceProfiles ++ outcome.added
  appended : ∀ later, Extends after.dictionary later → Appended later (scrape, outcome)
  mutable : after.readOnly = false
  skipped : scrape.failed = true → after = profiles
  merged : scrape.failed = false → Fits scrape.md.dictionary profiles.dictionary scrape.md.indices →
    outcome ≠ .unmerged ∧ Fills scrape.md.dictionary profiles.dictionary after.dictionary scrape.md.indices

theorem stepped_outcome (mutable : profiles.readOnly = false) :
    Stepped scrape profiles (scrape.outcome profiles).1 (scrape.outcome profiles).2 := by
  rw [Scrape.outcome]
  split
  · next failed =>
      refine ⟨.refl _, by simp [Outcome.added], ?_, mutable, fun _ => rfl, fun merged => by simp [failed] at merged⟩
      intro later _ added impossible
      cases impossible
  · next merges =>
      have ended := gives_switchDictionary scrape.md profiles.dictionary (.refl _)
      rw [Profiles.mergeTo, if_neg (by simp [mutable, scrape.mutable])]
      rcases ran : scrape.md.switchDictionary.run.run profiles.dictionary with ⟨err | switched, dst⟩
      · rw [ran] at ended
        refine ⟨ended.1, by simp [Outcome.added], ?_, mutable, fun failed => absurd failed merges,
          fun _ fits => absurd fits ended.2⟩
        intro later _ added impossible
        cases impossible
      · rw [ran] at ended
        refine ⟨ended.1.more, by simp [Outcome.added], ?_, mutable, fun failed => absurd failed merges,
          fun _ _ => ⟨by simp, ended.1⟩⟩
        rintro later more added same
        cases same
        simp only [drop_left]
        exact ended.2 later more

theorem scrapeAll_cons (i : Nat) (rest : List (Scrape X Y)) (errs : List ResultError) :
    scrapeAll i (scrape :: rest) (errs, profiles) =
      scrapeAll (i + 1) rest (errs ++ (scrape.err.map (ResultError.scrape i)).toList, (scrape.outcome profiles).2) := by
  rw [scrapeAll, Scrape.outcome]
  split
  · rfl
  · rcases scrape.md.mergeTo profiles with ⟨err | _, dest⟩ <;> rfl

variable (scrapes : List (Scrape X Y))

theorem scrapeAll_appended (i : Nat) (errs : List ResultError) (mutable : profiles.readOnly = false) :
    Extends profiles.dictionary (scrapeAll i scrapes (errs, profiles)).2.dictionary ∧
      (scrapeAll i scrapes (errs, profiles)).2.resourceProfiles =
        profiles.resourceProfiles ++ (outcomes scrapes profiles).flatMap (fun step => step.2.added) ∧
      ∀ step ∈ outcomes scrapes profiles, Appended (scrapeAll i scrapes (errs, profiles)).2.dictionary step := by
  induction scrapes generalizing i errs profiles with
  | nil => exact ⟨Extends.refl _, (append_nil _).symm, by simp [outcomes]⟩
  | cons scrape rest ih =>
    have step : Stepped scrape profiles _ _ := stepped_outcome mutable
    obtain ⟨more, resources, appended⟩ :=
      ih (i + 1) (errs ++ (scrape.err.map (ResultError.scrape i)).toList) step.mutable
    rw [scrapeAll_cons, outcomes]
    refine ⟨step.more.trans more, ?_, ?_⟩
    · rw [resources, step.resourceProfiles, flatMap_cons, append_assoc]
    · exact forall_mem_cons.mpr ⟨step.appended _ more, appended⟩

/-- The references into a table in the order in which they are switched, each with its dictionary. -/
def arrivals (t : Table) : List (Dictionary × Int) :=
  scrapes.flatMap fun scrape =>
    if scrape.failed then [] else (into t scrape.md.indices).map (Prod.mk scrape.md.dictionary)

def firstArrival (t : Table) : Option (Dictionary × Entry t) :=
  (arrivals scrapes t).head?.bind fun arrival => (arrival.1.table t)[arrival.2.toNat]?.map (Prod.mk arrival.1)

/-- The zero values come first, and every index is in range. -/
structure Conformant (ms : Profiles X Y) : Prop where
  zeros : ZeroFirst ms.dictionary
  indices : ∀ ref ∈ ms.indices, 0 ≤ ref.2 ∧ ref.2 < (ms.dictionary.table ref.1).length

section fills
variable {scrapes} (conformant : ∀ scrape ∈ scrapes, scrape.failed = false → Conformant scrape.md)
include conformant

theorem scrapeAll_begins (i : Nat) (errs : List ResultError) (mutable : profiles.readOnly = false)
    (room : ∀ t, (profiles.dictionary.table t).length + (arrivals scrapes t).length ≤ maxInt32) :
    (∀ t, profiles.dictionary.table t = [] →
      Begins (scrapeAll i scrapes (errs, profiles)).2.dictionary t (firstArrival scrapes t)) ∧
      ∀ step ∈ outcomes scrapes profiles, step.2 ≠ .unmerged := by
  induction scrapes generalizing i errs profiles with
  | nil => exact ⟨fun t empty => empty, by simp [outcomes]⟩
  | cons scrape rest ih =>
    obtain ⟨own, others⟩ := forall_mem_cons.mp conformant
    have step : Stepped scrape profiles _ _ := stepped_outcome mutable
    have ih := ih others (i + 1) (errs ++ (scrape.err.map (ResultError.scrape i)).toList) step.mutable
    rw [scrapeAll_cons, outcomes, forall_mem_cons]
    cases failed : scrape.failed with
    | true =>
      have skipped : ∀ t, arrivals (scrape :: rest) t = arrivals rest t := fun t => by simp [arrivals, failed]
      simp only [firstArrival, skipped] at room ⊢
      rw [step.skipped failed] at ih ⊢
      obtain ⟨begins, merged⟩ := ih room
      refine ⟨begins, ?_, merged⟩
      simp [Scrape.outcome, failed]
    | false =>
      have arrive : ∀ t, arrivals (scrape :: rest) t =
          (into t scrape.md.indices).map (Prod.mk scrape.md.dictionary) ++ arrivals rest t :=
        fun t => by simp [arrivals, failed]
      simp only [arrive, length_append, length_map] at room
      have fits : Fits scrape.md.dictionary profiles.dictionary scrape.md.indices :=
        ⟨(own failed).indices, fun t => by have := room t; omega⟩
      obtain ⟨here, fills⟩ := step.merged failed fits
      obtain ⟨begins, merged⟩ := ih fun t => by
        have := room t
        have := fills.room t
        omega
      refine ⟨fun t empty => ?_, here, merged⟩
      have heads := fills.first t empty
      rw [firstArrival, arrive, head?_append, head?_map]
      cases head : (into t scrape.md.indices).head? with
      | none =>
        rw [head] at heads
        exact begins t heads
      | some index =>
        rw [head] at heads
        obtain ⟨val, entry, found, placed, moved⟩ := heads
        have more := (scrapeAll_appended rest (i + 1) (errs ++ (scrape.err.map (ResultError.scrape i)).toList)
          step.mutable).1
        simp only [Option.map_some, Option.some_or, Option.bind_some, found]
        exact ⟨entry, getElem?_later more placed, moved _ more⟩

end fills

theorem mem_scrapeAll {i : Nat} {errs : List ResultError} {result : ResultError}
    (reported : result ∈ errs ∨ ∃ n scrape err, scrapes[n]? = some scrape ∧ scrape.err = some err ∧
      result = .scrape (i + n) err) :
    result ∈ (scrapeAll i scrapes (errs, profiles)).1 := by
  induction scrapes generalizing i errs profiles with
  | nil =>
    rcases reported with before | ⟨_, _, _, found, _⟩
    · exact before
    · cases found
  | cons scrape rest ih =>
    rw [scrapeAll_cons]
    apply ih
    rcases reported with before | ⟨n, other, err, found, has, rfl⟩
    · exact .inl (mem_append_left _ before)
    · cases n with
      | zero =>
        cases found
        exact .inl (mem_append_right _ (by simp [has]))
      | succ n => exact .inr ⟨n, other, err, found, has, by rw [Nat.add_right_comm, Nat.add_assoc]⟩

theorem getElem?_outcomes (n : Nat) : ((outcomes scrapes profiles)[n]?).map Prod.fst = scrapes[n]? := by
  induction scrapes generalizing n profiles with
  | nil => rfl
  | cons scrape rest ih =>
    cases n with
    | zero => rfl
    | succ n => exact ih n

theorem failed_of_outcome {outcome : Outcome X Y} {scrapes : List (Scrape X Y)}
    (member : (scrape, outcome) ∈ outcomes scrapes profiles) :
    outcome = .failed ∧ scrape.failed = true ∨ outcome ≠ .failed ∧ scrape.failed = false := by
  induction scrapes generalizing profiles with
  | nil => cases member
  | cons first rest ih =>
    rw [outcomes, mem_cons] at member
    rcases member with same | later
    · cases same
      rw [Scrape.outcome]
      split
      · next failed => exact .inl ⟨rfl, failed⟩
      · next merges =>
          rcases scrape.md.mergeTo profiles with ⟨err | _, dest⟩ <;> exact .inr ⟨by simp, by simpa using merges⟩
    · exact ih later

theorem err_of_failed (failed : scrape.failed = true) : ∃ err, scrape.err = some err := by
  cases has : scrape.err with
  | none => simp [Scrape.failed, has] at failed
  | some err => exact ⟨err, rfl⟩

theorem view_append (d : Dictionary) (front back : List (Resource X Y)) :
    view 1 d (front ++ back) = view 1 d front ++ view 1 d back :=
  map_append

theorem combined_of_views {d : Dictionary} {run : List (Scrape X Y × Outcome X Y)}
    (views : ∀ scrape added, (scrape, .merged added) ∈ run → view 1 d added = scrape.view) :
    view 1 d (run.flatMap fun step => step.2.added) = expected run := by
  induction run with
  | nil => rfl
  | cons step rest ih =>
    have ih := ih fun scrape added member => views scrape added (mem_cons_of_mem _ member)
    rw [flatMap_cons, view_append, ih, expected, expected, flatMap_cons]
    rcases step with ⟨scrape, outcome⟩
    cases outcome with
    | merged added => rw [Outcome.added, views scrape added mem_cons_self]
    | _ => rfl

end run

def cpu : Profiles Unit Unit where
  dictionary := { stacked [] with stringTable := [[], [99, 112, 117]] }
  resourceProfiles := [⟨(), [⟨(), [⟨emptyHeader, ⟨1, 0⟩, [], ⟨0, 0⟩, []⟩], ""⟩], ""⟩]

theorem conformant_cpu : Conformant cpu where
  zeros := by
    intro t
    cases t <;> rfl
  indices := by decide

/-- What comes first into the tables of strings and attributes is of a mapping that no location refers to. -/
def padded : Profiles Unit Unit where
  dictionary := { stacked [] with
    stringTable := [[], [112, 97, 100], [99, 112, 117], [105, 100]]
    attributeTable := [zeroEntry .attr, ⟨1, Value.none, 0⟩, ⟨3, ⟨.boolValue true, trivial⟩, 0⟩]
    mappingTable := [zeroEntry .mapping, ⟨0, 0, 0, 0, [1]⟩] }
  resourceProfiles := [⟨(), [⟨(), [⟨emptyHeader, ⟨2, 0⟩, [⟨0, [2], 0, [1], []⟩], ⟨0, 0⟩, [2]⟩], ""⟩], ""⟩]

theorem conformant_padded : Conformant padded where
  zeros := by
    intro t
    cases t <;> rfl
  indices := by decide

def paddedScrapes : List (Scrape Unit Unit) :=
  [⟨padded, some ⟨[], true⟩, rfl⟩, ⟨cpu, some ⟨[], false⟩, rfl⟩, ⟨padded, none, rfl⟩]

theorem sparedAttribute_padded : SparedAttribute (firstArrival paddedScrapes) padded.dictionary 2 := by
  rintro ms ⟨⟩
  refine ⟨rfl, rfl, ?_⟩
  rintro src ms ⟨⟩ same
  have keys : (none : Option Text) = some [105, 100] := congrArg KeyValueAndUnit.key same
  cases keys

def sampleTypes (resources : List (ResourceProfiles Unit Unit ProfileView)) : List (Option Text) :=
  resources.flatMap fun resource => resource.scopeProfiles.flatMap fun scope =>
    scope.profiles.map fun profile => profile.sampleType.type

end CollectorFormal.Scraper
