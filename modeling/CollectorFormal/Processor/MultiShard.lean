import CollectorFormal.Client
import CollectorFormal.Lib.Runs
import Mathlib.Data.List.Nodup

/-! The multiShardBatcher of the batch processor: one shard for each combination of metadata values, up to a limit.

consume looks the shard up without the lock and takes the lock only when there is none. The section under the lock
is one step. -/

namespace CollectorFormal.Processor

open Client Lib List Option Bool

/-- The values of the configured keys, as newShard gets them. -/
abbrev Combination (keys : List Text) :=
  { values : List (Text × List Text) // ∃ get : Text → List Text, values = keys.map fun k => (k, get k) }

def combination (toLower : Text → Text) (metadataKeys : List Text) (metadata : Metadata) : Combination metadataKeys :=
  ⟨metadataKeys.map fun k => (k, metadata.get toLower k), _, rfl⟩

inductive Attribute where
  | string (key value : Text)
  | stringSlice (key : Text) (values : List Text)
  deriving DecidableEq

def Attribute.ofEntry (entry : Text × List Text) : Attribute :=
  match entry.2 with
  | [value] => .string entry.1 value
  | vs => .stringSlice entry.1 vs

section sets
variable {keys : List Text}

def attributes (values : Combination keys) : List Attribute := values.1.map .ofEntry

/-- attribute.NewSet: the sets of two calls are equal only if the values of each key are. -/
class AttributeSets where
  Set : Type
  [decidableEq : DecidableEq Set]
  newSet : List Attribute → Set
  newSet_injective : ∀ {keys}, Function.Injective fun values : Combination keys => newSet (attributes values)

open AttributeSets

attribute [reducible, instance] decidableEq

variable [AttributeSets]

structure Shard (keys : List Text) (T : Type) where
  metadata : Combination keys
  /-- What was sent on newItem. -/
  received : List T := []

structure MultiShardBatcher (keys : List Text) (T : Type) where
  metadataLimit : Nat
  /-- The map, from attributes to the position of the shard. -/
  batchers : List (Set × Nat) := []
  /-- The shards that were started. -/
  shards : List (Shard keys T) := []
  size : Nat := 0

inductive Stage where
  | loading
  | locking
  | sending (shard : Nat)
  | accepted (shard : Nat)
  /-- errTooManyBatchers was returned; `known` if the call's combination had a shard. -/
  | refused (known : Bool)
  deriving DecidableEq

def Stage.ofLoad : Option Nat → Stage
  | some shard => .sending shard
  | none => .locking

structure Call (keys : List Text) (T : Type) where
  values : Combination keys
  data : T
  stage : Stage := .loading

section batcher
variable {T : Type}

namespace MultiShardBatcher

variable (mb : MultiShardBatcher keys T)

def load (values : Combination keys) : Option Nat :=
  mb.batchers.lookup (newSet (attributes values))

def full : Bool :=
  mb.metadataLimit ≠ 0 && mb.size ≥ mb.metadataLimit

/-- LoadOrStore of a new shard, which is started and counted if it was stored. -/
def loadOrStore (values : Combination keys) : MultiShardBatcher keys T × Nat :=
  match mb.load values with
  | some b => (mb, b)
  | none =>
    ({ mb with
        batchers := mb.batchers ++ [(newSet (attributes values), mb.shards.length)]
        shards := mb.shards ++ [{ metadata := values }]
        size := mb.size + 1 },
      mb.shards.length)

def locked (values : Combination keys) : MultiShardBatcher keys T × Stage :=
  if mb.full then (mb, .refused (mb.load values).isSome)
  else ((mb.loadOrStore values).1, .sending (mb.loadOrStore values).2)

def receive (shard : Nat) (data : T) : MultiShardBatcher keys T :=
  { mb with shards := mb.shards.modify shard fun b => { b with received := b.received ++ [data] } }

end MultiShardBatcher

structure ConsumeRun (keys : List Text) (T : Type) where
  mb : MultiShardBatcher keys T
  calls : List (Call keys T) := []

inductive ConsumeLabel (keys : List Text) (T : Type) where
  | consume
  | load
  | lock (others : List (Call keys T)) (call : Call keys T)
  | send

inductive ConsumeStep (toLower : Text → Text) : ConsumeLabel keys T → ConsumeRun keys T → ConsumeRun keys T → Prop where
  | consume (state : ConsumeRun keys T) (metadata : Metadata) (data : T) :
      ConsumeStep toLower .consume state { state with
        calls := state.calls ++ [{ values := combination toLower keys metadata, data := data }] }
  | load (state : ConsumeRun keys T) (front back : List (Call keys T)) (call : Call keys T)
      (here : state.calls = front ++ call :: back) (loading : call.stage = .loading) :
      ConsumeStep toLower .load state { state with
        calls := front ++ { call with stage := .ofLoad (state.mb.load call.values) } :: back }
  | lock (state : ConsumeRun keys T) (front back : List (Call keys T)) (call : Call keys T)
      (here : state.calls = front ++ call :: back) (locking : call.stage = .locking) :
      ConsumeStep toLower (.lock (front ++ back) call) state
        { mb := (state.mb.locked call.values).1
          calls := front ++ { call with stage := (state.mb.locked call.values).2 } :: back }
  | send (state : ConsumeRun keys T) (front back : List (Call keys T)) (call : Call keys T) (shard : Nat)
      (here : state.calls = front ++ call :: back) (sending : call.stage = .sending shard) :
      ConsumeStep toLower .send state
        { mb := state.mb.receive shard call.data
          calls := front ++ { call with stage := .accepted shard } :: back }

end batcher

section sound
variable {T : Type}

namespace MultiShardBatcher

def combinations (mb : MultiShardBatcher keys T) : List (Combination keys) := mb.shards.map (·.metadata)

/-- What holds of the map, the shards and their number in every state. -/
structure Sound (mb : MultiShardBatcher keys T) : Prop where
  counted : mb.size = mb.shards.length
  bounded : mb.metadataLimit ≠ 0 → mb.size ≤ mb.metadataLimit
  stored : ∀ values b, mb.load values = some b ↔ mb.combinations[b]? = some values

variable {mb : MultiShardBatcher keys T}

theorem Sound.single (sound : mb.Sound) : mb.combinations.Nodup := by
  rw [nodup_iff_injective_get]
  intro i j same
  have here (k : Fin mb.combinations.length) : mb.load (mb.combinations.get k) = some k.val := by
    rw [sound.stored]
    exact getElem?_eq_getElem k.isLt
  have first := here i
  rw [same, here j] at first
  exact Fin.ext (Option.some.inj first).symm

theorem sound_fresh (limit : Nat) : Sound ({ metadataLimit := limit } : MultiShardBatcher keys T) :=
  ⟨rfl, fun _ => Nat.zero_le _, by simp [load, combinations]⟩

theorem Sound.receive (sound : mb.Sound) (shard : Nat) (data : T) :
    (mb.receive shard data).Sound := by
  have same : (mb.receive shard data).combinations = mb.combinations := by
    apply ext_getElem?
    intro i
    simp only [MultiShardBatcher.receive, combinations, getElem?_map, getElem?_modify]
    split <;> cases mb.shards[i]? <;> rfl
  refine ⟨?_, sound.bounded, ?_⟩
  · simpa [MultiShardBatcher.receive] using sound.counted
  · intro values b
    rw [same]
    exact sound.stored values b

theorem lookup_stored (batchers : List (Set × Nat)) (values other : Combination keys) (shard : Nat) :
    (batchers ++ [(newSet (attributes values), shard)]).lookup (newSet (attributes other)) =
      (batchers.lookup (newSet (attributes other))).or (if other = values then some shard else none) := by
  rw [lookup_append]
  congr 1
  by_cases same : other = values
  · rw [same, lookup_cons_self, if_pos rfl]
  · have apart : (newSet (attributes other) == newSet (attributes values)) = false :=
      beq_eq_false_iff_ne.mpr (newSet_injective.ne same)
    rw [lookup_cons, if_neg same, apart]
    rfl

variable (values : Combination keys)

theorem Sound.store (sound : mb.Sound) (room : mb.full = false) : (mb.loadOrStore values).1.Sound := by
  unfold loadOrStore
  split
  · exact sound
  · next absent =>
      refine ⟨?_, ?_, ?_⟩
      · simpa using sound.counted
      · intro limited
        simp [full, limited] at room
        exact room
      · intro other b
        have length : mb.combinations.length = mb.shards.length := length_map _
        have before := sound.stored other b
        rw [load] at absent before
        simp only [load, lookup_stored, combinations, map_append, map_cons, map_nil]
        rw [getElem?_snoc_eq_some, ← combinations, ← before, length]
        by_cases same : other = values
        · subst same
          simp [absent, eq_comm]
        · simp [same]

theorem locked_full (full : mb.full = true) : mb.locked values = (mb, .refused (mb.load values).isSome) := by
  rw [MultiShardBatcher.locked, if_pos full]

theorem locked_room (room : mb.full = false) :
    mb.locked values = ((mb.loadOrStore values).1, .sending (mb.loadOrStore values).2) := by
  rw [MultiShardBatcher.locked, if_neg (by simp [room])]

theorem Sound.locked (sound : mb.Sound) : (mb.locked values).1.Sound := by
  cases full : mb.full with
  | true =>
    rw [locked_full values full]
    exact sound
  | false =>
    rw [locked_room values full]
    exact sound.store values full

/-- Shards are never replaced, and what they received stays. -/
def Grows (before after : MultiShardBatcher keys T) : Prop :=
  ∀ (b : Nat) (shard : Shard keys T), before.shards[b]? = some shard → ∃ later : Shard keys T, after.shards[b]? = some later ∧
    later.metadata = shard.metadata ∧ ∀ data ∈ shard.received, data ∈ later.received

theorem grows_loadOrStore (mb : MultiShardBatcher keys T) (values : Combination keys) : Grows mb (mb.loadOrStore values).1 := by
  intro b shard present
  unfold loadOrStore
  split
  · exact ⟨shard, present, rfl, fun _ => id⟩
  · exact ⟨shard, (getElem?_snoc_eq_some _ _ _).mpr (.inl present), rfl, fun _ => id⟩

theorem grows_locked (mb : MultiShardBatcher keys T) (values : Combination keys) : Grows mb (mb.locked values).1 := by
  unfold MultiShardBatcher.locked
  split
  · exact fun b shard present => ⟨shard, present, rfl, fun _ => id⟩
  · exact grows_loadOrStore mb values

theorem grows_receive (mb : MultiShardBatcher keys T) (index : Nat) (data : T) : Grows mb (mb.receive index data) := by
  intro b shard present
  simp only [MultiShardBatcher.receive, getElem?_modify, present, Option.map_eq_map, Option.map_some]
  split
  · exact ⟨_, rfl, rfl, fun _ member => mem_append_left _ member⟩
  · exact ⟨_, rfl, rfl, fun _ => id⟩

theorem loadOrStore_shard (sound : mb.Sound) :
    ∃ shard, (mb.loadOrStore values).1.shards[(mb.loadOrStore values).2]? = some shard ∧ shard.metadata = values := by
  unfold loadOrStore
  split
  · next b known =>
      have present := (sound.stored values b).mp known
      rwa [combinations, getElem?_map, map_eq_some_iff] at present
  · exact ⟨_, (getElem?_snoc_eq_some _ _ _).mpr (.inr ⟨rfl, rfl⟩), rfl⟩

end MultiShardBatcher

/-- A call is on its way to the shard of its own combination, or its item is there. -/
def Call.Routed (mb : MultiShardBatcher keys T) (call : Call keys T) : Prop :=
  match call.stage with
  | .sending b => ∃ shard, mb.shards[b]? = some shard ∧ shard.metadata = call.values
  | .accepted b => ∃ shard, mb.shards[b]? = some shard ∧ shard.metadata = call.values ∧ call.data ∈ shard.received
  | _ => True

theorem Call.Routed.grows {before after : MultiShardBatcher keys T} {call : Call keys T}
    (routed : call.Routed before) (grows : before.Grows after) : call.Routed after := by
  unfold Call.Routed at routed ⊢
  split at routed
  · obtain ⟨shard, present, same⟩ := routed
    obtain ⟨later, here, kept, -⟩ := grows _ _ present
    exact ⟨later, here, kept.trans same⟩
  · obtain ⟨shard, present, same, received⟩ := routed
    obtain ⟨later, here, kept, all⟩ := grows _ _ present
    exact ⟨later, here, kept.trans same, all _ received⟩
  · trivial

/-- What the cardinality limit promises in every state, but for the refusals. -/
structure Limited (limit : Nat) (state : ConsumeRun keys T) : Prop where
  limit : state.mb.metadataLimit = limit
  sound : state.mb.Sound
  routed : ∀ call ∈ state.calls, call.Routed state.mb

variable {toLower : Text → Text} {limit : Nat}

theorem locked_limit (mb : MultiShardBatcher keys T) (values : Combination keys) :
    (mb.locked values).1.metadataLimit = mb.metadataLimit := by
  unfold MultiShardBatcher.locked MultiShardBatcher.loadOrStore
  split
  · rfl
  · split <;> rfl

variable {mb : MultiShardBatcher keys T}

theorem locked_routed (sound : mb.Sound) (call : Call keys T) :
    ({ call with stage := (mb.locked call.values).2 } : Call keys T).Routed (mb.locked call.values).1 := by
  unfold MultiShardBatcher.locked
  split
  · trivial
  · exact MultiShardBatcher.loadOrStore_shard call.values sound

variable {label : ConsumeLabel keys T} {state next : ConsumeRun keys T}

theorem step_limited (limited : Limited limit state)
    (step : ConsumeStep toLower label state next) : Limited limit next := by
  obtain ⟨limit, sound, routed⟩ := limited
  cases step with
  | consume _ metadata data =>
    exact ⟨limit, sound, forall_snoc routed trivial⟩
  | load _ front back call here loading =>
    rw [here] at routed
    refine ⟨limit, sound, forall_placed routed ?_⟩
    cases known : state.mb.load call.values with
    | none => trivial
    | some b =>
      have present := (sound.stored call.values b).mp known
      rwa [MultiShardBatcher.combinations, getElem?_map, map_eq_some_iff] at present
  | lock _ front back call here locking =>
    rw [here] at routed
    refine ⟨(locked_limit _ _).trans limit, sound.locked call.values, fun other member => ?_⟩
    rcases mem_placed call member with rfl | inside
    · exact locked_routed sound call
    · exact (routed other inside).grows (MultiShardBatcher.grows_locked _ _)
  | send _ front back call shard here sending =>
    rw [here] at routed
    have own := routed call (by simp)
    rw [Call.Routed, sending] at own
    obtain ⟨b, present, same⟩ := own
    refine ⟨limit, sound.receive shard call.data, fun other member => ?_⟩
    rcases mem_placed call member with rfl | inside
    · refine ⟨{ b with received := b.received ++ [call.data] }, ?_, same, by simp⟩
      simp [MultiShardBatcher.receive, present]
    · exact (routed other inside).grows (MultiShardBatcher.grows_receive _ _ _)

theorem reached_limited {allowed : ConsumeLabel keys T → ConsumeRun keys T → Prop} {state : ConsumeRun keys T}
    (reached : Reached (ConsumeStep toLower) allowed { mb := { metadataLimit := limit } } state) :
    Limited limit state := by
  apply reached.invariant
  · exact ⟨rfl, MultiShardBatcher.sound_fresh limit, by simp⟩
  · intro label before after _ step limited
    exact step_limited limited step

/-- The shard that uses the limit up is not created while another call is past its Load
for a combination that has a shard, or gets it by this. -/
def Uncontested (label : ConsumeLabel keys T) (state : ConsumeRun keys T) : Prop :=
  match label with
  | .lock others call =>
    state.mb.size + 1 = state.mb.metadataLimit → state.mb.load call.values = none →
    ∀ other ∈ others, other.stage = .locking → other.values ≠ call.values ∧ state.mb.load other.values = none
  | _ => True

/-- errTooManyBatchers went only to calls whose combination had no shard. -/
def FairlyRefused (state : ConsumeRun keys T) : Prop := ∀ call ∈ state.calls, call.stage ≠ .refused true

def Excluded (state : ConsumeRun keys T) : Prop :=
  state.mb.full = true → ∀ call ∈ state.calls, call.stage = .locking → state.mb.load call.values = none

theorem load_loadOrStore {values other : Combination keys}
    (different : other ≠ values) : (mb.loadOrStore values).1.load other = mb.load other := by
  unfold MultiShardBatcher.loadOrStore
  split
  · rfl
  · simp [MultiShardBatcher.load, MultiShardBatcher.lookup_stored, different]

theorem full_loadOrStore {values : Combination keys} (room : mb.full = false)
    (full : (mb.loadOrStore values).1.full = true) :
    mb.size + 1 = mb.metadataLimit ∧ mb.load values = none := by
  unfold MultiShardBatcher.loadOrStore at full
  split at full
  · rw [room] at full
    cases full
  · next absent =>
      simp only [MultiShardBatcher.full, ne_eq, and_eq_true, decide_eq_true_eq, and_eq_false_iff,
        decide_eq_false_iff_not] at room full
      exact ⟨by omega, absent⟩

theorem step_excluded (excluded : Excluded state)
    (meets : Uncontested label state) (step : ConsumeStep toLower label state next) :
    Excluded next := by
  intro full
  cases step with
  | consume _ metadata data =>
    apply forall_snoc (excluded full)
    intro locking
    cases locking
  | load _ front back call here loading =>
    have before := excluded full
    rw [here] at before
    apply forall_placed before
    intro locking
    cases known : state.mb.load call.values with
    | none => rfl
    | some b =>
      rw [known] at locking
      cases locking
  | lock _ front back call here locking =>
    intro other member still
    cases before : state.mb.full with
    | true =>
      rw [MultiShardBatcher.locked_full _ before] at member ⊢
      rcases mem_others member with rfl | inside
      · cases still
      · exact excluded before other (here ▸ mem_of_others inside) still
    | false =>
      rw [MultiShardBatcher.locked_room _ before] at full member ⊢
      obtain ⟨last, absent⟩ := full_loadOrStore before full
      rcases mem_others member with rfl | inside
      · cases still
      · obtain ⟨different, none⟩ := meets last absent other inside still
        rw [load_loadOrStore different]
        exact none
  | send _ front back call shard here sending =>
    have before := excluded full
    rw [here] at before
    apply forall_placed before
    intro locking
    cases locking

theorem step_fair (excluded : Excluded state)
    (fair : FairlyRefused state) (step : ConsumeStep toLower label state next) :
    FairlyRefused next := by
  cases step with
  | consume _ metadata data =>
    exact forall_snoc fair Stage.noConfusion
  | load _ front back call here loading =>
    rw [FairlyRefused, here] at fair
    apply forall_placed fair
    cases state.mb.load call.values <;> exact Stage.noConfusion
  | lock _ front back call here locking =>
    rw [FairlyRefused, here] at fair
    apply forall_placed fair
    cases full : state.mb.full with
    | true =>
      have absent := excluded full call (by rw [here]; simp) locking
      simp [MultiShardBatcher.locked_full _ full, absent]
    | false => simp [MultiShardBatcher.locked_room _ full]
  | send _ front back call shard here sending =>
    rw [FairlyRefused, here] at fair
    apply forall_placed fair
    exact Stage.noConfusion

theorem load_loadOrStore_self (mb : MultiShardBatcher keys T) (values : Combination keys) :
    (mb.loadOrStore values).1.load values = some (mb.loadOrStore values).2 := by
  unfold MultiShardBatcher.loadOrStore
  split
  · next b known => exact known
  · next absent =>
      rw [MultiShardBatcher.load] at absent
      simp [MultiShardBatcher.load, MultiShardBatcher.lookup_stored, absent]

/-- A call that is past its Load when the limit is used up is refused, whatever it would
find. -/
theorem contested_unfair
    (contested : ¬ Uncontested label state) (step : ConsumeStep toLower label state next) :
    ∃ later last, ConsumeStep toLower later next last ∧ ¬ FairlyRefused last := by
  cases step with
  | consume | load | send => exact absurd trivial contested
  | lock _ front back call here locking =>
    simp only [Uncontested, Classical.not_imp, not_forall] at contested
    obtain ⟨last, absent, other, inside, waits, known⟩ := contested
    have room : state.mb.full = false := by
      simp only [MultiShardBatcher.full, ne_eq, and_eq_false_iff, decide_eq_false_iff_not]
      omega
    rw [MultiShardBatcher.locked_room _ room]
    have full : (state.mb.loadOrStore call.values).1.full = true := by
      simp only [MultiShardBatcher.loadOrStore, absent, MultiShardBatcher.full, ne_eq, and_eq_true, decide_eq_true_eq]
      omega
    have found : ((state.mb.loadOrStore call.values).1.load other.values).isSome = true := by
      by_cases same : other.values = call.values
      · rw [same, load_loadOrStore_self]
        rfl
      · rw [load_loadOrStore same]
        exact isSome_iff_ne_none.mpr fun none => known ⟨same, none⟩
    obtain ⟨front', back', split⟩ := append_of_mem (mem_of_others inside)
    refine ⟨_, _, .lock _ front' back' other split waits, fun fair => ?_⟩
    apply fair _ (mem_append_right front' mem_cons_self)
    rw [MultiShardBatcher.locked_full _ full, found]

end sound

/-- In every run: no more shards than the limit, one for each combination at most, and every accepted item in the
shard of its own combination. While the last shard is created uncontested, only calls without a shard are refused;
once it is created contested, a call is refused that has one. -/
theorem cardinality_limit_exact {T : Type} (toLower : Text → Text) (metadataKeys : List Text) (limit : Nat)
    (positive : 0 < limit) :
    (∀ state : ConsumeRun metadataKeys T,
      Reached (ConsumeStep toLower) Always { mb := { metadataLimit := limit } } state →
      state.mb.shards.length ≤ limit ∧ state.mb.combinations.Nodup ∧
      ∀ call ∈ state.calls, ∀ b, call.stage = .accepted b →
        ∃ shard, state.mb.shards[b]? = some shard ∧ shard.metadata = call.values ∧ call.data ∈ shard.received) ∧
    (∀ state : ConsumeRun metadataKeys T,
      Reached (ConsumeStep toLower) Uncontested { mb := { metadataLimit := limit } } state →
      FairlyRefused state) ∧
    ∀ (label : ConsumeLabel metadataKeys T) (state next : ConsumeRun metadataKeys T),
      Reached (ConsumeStep toLower) Always { mb := { metadataLimit := limit } } state →
      ConsumeStep toLower label state next → ¬ Uncontested label state →
      ∃ later last, ConsumeStep toLower later next last ∧ ¬ FairlyRefused last := by
  refine ⟨fun state reached => ?_, fun state reached => ?_, fun label state next _ step contested =>
    contested_unfair contested step⟩
  · obtain ⟨same, sound, routed⟩ := reached_limited reached
    refine ⟨?_, sound.single, ?_⟩
    · rw [← sound.counted, ← same]
      exact sound.bounded (by omega)
    · intro call member b accepted
      have own := routed call member
      rwa [Call.Routed, accepted] at own
  · have both : Excluded state ∧ FairlyRefused state := by
      apply reached.invariant
      · exact ⟨fun _ _ member => absurd member not_mem_nil, fun _ member => absurd member not_mem_nil⟩
      · rintro label before after meets step ⟨excluded, fair⟩
        exact ⟨step_excluded excluded meets step, step_fair excluded fair step⟩
    exact both.2

end sets

theorem ofEntry_injective : Function.Injective Attribute.ofEntry := by
  rintro ⟨key, values⟩ ⟨key', values'⟩ same
  simp only [Attribute.ofEntry] at same
  split at same <;> split at same <;> simp_all

instance : AttributeSets where
  Set := List Attribute
  newSet := id
  newSet_injective same := Subtype.ext (map_injective_iff.mpr ofEntry_injective same)

def tenantMetadata : Metadata := newMetadata asciiLower [([97], [[120]])]

theorem cardinality_limit_one :
    0 < 1 ∧ ∀ state : ConsumeRun [[97]] Nat,
      Reached (ConsumeStep asciiLower) Always { mb := { metadataLimit := 1 } } state →
      state.mb.shards.length ≤ 1 :=
  ⟨by decide, fun state reached => ((cardinality_limit_exact asciiLower [[97]] 1 (by decide)).1 state reached).1⟩

/-- Two first requests of one tenant, and room for one shard. -/
theorem race_refuses_known :
    ∃ state : ConsumeRun [[97]] Nat, Reached (ConsumeStep asciiLower) Always { mb := { metadataLimit := 1 } } state ∧
      state.mb.combinations.map Subtype.val = [[([97], [[120]])]] ∧ state.calls.map (·.stage) = [.sending 0, .refused true] ∧
      ∀ call ∈ state.calls, call.values.1 = [([97], [[120]])] := by
  refine ⟨_, .step (.step (.step (.step (.step (.step .start trivial
    (.consume _ tenantMetadata 1)) trivial (.consume _ tenantMetadata 2)) trivial
    (.load _ [] [_] _ rfl rfl)) trivial (.load _ [_] [] _ rfl rfl)) trivial
    (.lock _ [] [_] _ rfl rfl)) trivial (.lock _ [_] [] _ rfl rfl), ?_, ?_, ?_⟩
  · decide
  · decide
  · decide

end CollectorFormal.Processor
