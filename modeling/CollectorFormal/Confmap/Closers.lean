import CollectorFormal.Confmap.Merge
import CollectorFormal.Confmap.Source

/-! What a Resolver retrieves, it closes.

Providers, converters and the Close of what was retrieved have a state that they may read and change, so any call
may fail. What happens is recorded, each retrieved value under a number of its own. -/

namespace CollectorFormal.Confmap

open Client (Text)
open Lib List

section model
variable {ω : Type}

abbrev CloseFunc (ω : Type) := ω → Option Text × ω

/-- What Provider.Retrieve returns, with its closeFunc. -/
structure Held (ω : Type) where
  retrieved : Retrieved
  closeFunc : Option (CloseFunc ω)

def Held.close (ret : Held ω) : CloseFunc ω :=
  match ret.closeFunc with
  | none => fun world => (none, world)
  | some closeFunc => closeFunc

inductive Event where
  /-- In a call of Resolve, for one of its URIs or for a reference. -/
  | retrieved (call id : Nat) (located : Bool)
  /-- The value of a URI was merged. -/
  | merged (id : Nat)
  | returned (call : Nat) (failed : Bool)
  /-- The Close of the value was called. -/
  | closed (id : Nat)
  deriving DecidableEq

/-- The state of a Resolver and of what it works with. -/
structure Session (ω : Type) where
  world : ω
  closers : List (Nat × CloseFunc ω)
  count : Nat
  /-- How many calls of Resolve returned. -/
  calls : Nat
  events : List Event

inductive ResolveError where
  /-- cannot close previous watch: %w -/
  | closePrevious (errs : List Text)
  /-- cannot retrieve the configuration: %w -/
  | retrieve (err : ExpandError)
  /-- retrieved value (type=%T) cannot be used as a Conf -/
  | notConf (rawConf : Value)
  /-- Appending to what is no list panics. -/
  | mergePanics
  | expand (err : ExpandError)
  /-- cannot convert the confmap.Conf: %w -/
  | convert (err : Text)

def Retrieved.asConf (r : Retrieved) : Except ResolveError Entries :=
  match r.rawConf with
  | .null => .ok []
  | .map val => .ok val
  | raw => .error (.notConf raw)

structure LiveResolver (ω : Type) where
  uris : List Location
  providers : Text → Option (Text → ω → Except Text (Held ω) × ω)
  defaultScheme : Text
  converters : List (Value → ω → Except Text Value × ω)
  /-- Shutdown of the providers. -/
  shutdowns : List (CloseFunc ω)
  /-- The feature gate of merging lists by appending. -/
  appends : Bool
  /-- glob.Compile -/
  compile : Text → Option (Text → Bool)
  maps : Maps

namespace LiveResolver
variable (mr : LiveResolver ω)

def record (event : Event) : StateM (Session ω) Unit :=
  modify fun s => { s with events := s.events ++ [event] }

def retrieveValue (located : Bool) (uri : Location) : ExceptT ExpandError (StateM (Session ω)) (Nat × Held ω) := do
  match mr.providers uri.scheme with
  | none => throw (.schemeNotSupported uri.scheme uri.asString)
  | some retrieve =>
    let s ← get
    match retrieve uri.asString s.world with
    | (.ok ret, world) =>
      set { s with
        world := world
        count := s.count + 1
        events := s.events ++ [Event.retrieved s.calls s.count located] }
      pure (s.count, ret)
    | (.error err, world) =>
      set { s with world := world }
      throw (.retrieve err)

def appendCloser (id : Nat) (close : CloseFunc ω) : StateM (Session ω) Unit :=
  modify fun s => { s with closers := s.closers ++ [(id, close)] }

/-- What expandURI does once the location is known. -/
def retrieveReference (uri : Location) : ExceptT ExpandError (StateM (Session ω)) Retrieved := do
  let (id, ret) ← mr.retrieveValue false uri
  appendCloser id ret.close
  pure ret.retrieved

def source : Source (StateM (Session ω)) := ⟨mr.defaultScheme, mr.retrieveReference⟩

def runClosers : List (Nat × CloseFunc ω) → StateM (Session ω) (List Text)
  | [] => pure []
  | (id, close) :: rest => do
      let s ← get
      let (err, world) := close s.world
      set { s with world := world, events := s.events ++ [Event.closed id] }
      let errs ← runClosers rest
      pure (err.toList ++ errs)

def closeIfNeeded : StateM (Session ω) (List Text) := do
  let errs ← runClosers (← get).closers
  modify fun s => { s with closers := [] }
  pure errs

def merge (retMap retCfgMap : Entries) : Option Entries :=
  if mr.appends then @mergeAppend mr.maps mr.compile retCfgMap retMap else some (mr.maps.mergeEntries retCfgMap retMap)

def mergeConf (id : Nat) (retMap retCfgMap : Entries) : ExceptT ResolveError (StateM (Session ω)) Entries := do
  match mr.merge retMap retCfgMap with
  | none => throw .mergePanics
  | some merged =>
    ExceptT.lift (record (.merged id))
    pure merged

/-- The loop's body for one URI. -/
def mergeURI (retMap : Entries) (uri : Location) : ExceptT ResolveError (StateM (Session ω)) Entries := do
  let (id, ret) ← (mr.retrieveValue true uri).adapt .retrieve
  appendCloser id ret.close
  let retCfgMap ← ret.retrieved.asConf
  mr.mergeConf id retMap retCfgMap

def mergeURIs : Entries → List Location → ExceptT ResolveError (StateM (Session ω)) Entries
  | retMap, [] => pure retMap
  | retMap, uri :: rest => do
      let merged ← mr.mergeURI retMap uri
      mergeURIs merged rest

def convert : List (Value → ω → Except Text Value × ω) → Value → ExceptT ResolveError (StateM (Session ω)) Value
  | [], retMap => pure retMap
  | confConv :: rest, retMap => do
      let s ← get
      let (result, world) := confConv retMap s.world
      set { s with world := world }
      match result with
      | .ok converted => convert rest converted
      | .error err => throw (.convert err)

/-- What Resolve does once the previous values are closed. -/
def resolveAnew : ExceptT ResolveError (StateM (Session ω)) Value := do
  let retMap ← mr.mergeURIs [] mr.uris
  let cfgMap ← (mr.source.resolveKeys (Value.flattened retMap)).adapt .expand
  convert mr.converters (Value.unflattened cfgMap)

def resolve : ExceptT ResolveError (StateM (Session ω)) Value := do
  let errs ← ExceptT.lift closeIfNeeded
  if errs = [] then mr.resolveAnew else throw (.closePrevious errs)

def callResolve (s : Session ω) : Except ResolveError Value × Session ω :=
  let (result, s') := mr.resolve.run.run s
  (result, { s' with
    calls := s'.calls + 1
    events := s'.events ++ [.returned s'.calls (result matches .error _)] })

def shutdownProviders : List (CloseFunc ω) → StateM (Session ω) (List Text)
  | [] => pure []
  | shutdown :: rest => do
      let s ← get
      let (err, world) := shutdown s.world
      set { s with world := world }
      let errs ← shutdownProviders rest
      pure (err.toList ++ errs)

def shutdown : StateM (Session ω) (List Text) := do
  let closeErrs ← closeIfNeeded
  let errs ← shutdownProviders mr.shutdowns
  pure (closeErrs ++ errs)

def newSession (world : ω) : Session ω := ⟨world, [], 0, 0, []⟩

/-- Before each call of Resolve the world may have changed. -/
def callAll : List (ω → ω) → Session ω → Session ω
  | [], s => s
  | change :: rest, s => callAll rest (mr.callResolve { s with world := change s.world }).2

/-- A new Resolver after some calls of Resolve and one of Shutdown. -/
def lifetime (world : ω) (changes : List (ω → ω)) (last : ω → ω) : Session ω :=
  let s := mr.callAll changes (newSession world)
  (mr.shutdown.run { s with world := last s.world }).2

end LiveResolver
end model

namespace Event

def retrievedId : Event → Option Nat
  | .retrieved _ id _ => some id
  | _ => none

def closedId : Event → Option Nat
  | .closed id => some id
  | _ => none

/-- Something of this call's own. -/
def During (call : Nat) : Event → Prop
  | .retrieved here _ _ => here = call
  | .merged _ => True
  | _ => False

end Event

variable (events : List Event)

def retrievedIds : List Nat := events.filterMap Event.retrievedId

def closedIds : List Nat := events.filterMap Event.closedId

variable (front back : List Event)

@[simp] theorem retrievedIds_append :
    retrievedIds (front ++ back) = retrievedIds front ++ retrievedIds back := filterMap_append

@[simp] theorem closedIds_append :
    closedIds (front ++ back) = closedIds front ++ closedIds back := filterMap_append

theorem count_closed (id : Nat) : events.count (.closed id) = (closedIds events).count id := by
  induction events with
  | nil => rfl
  | cons event rest ih =>
    rw [count_cons, ih]
    cases event with
    | closed other => simp [closedIds, Event.closedId, count_cons]
    | _ => simp [closedIds, filterMap_cons, Event.closedId]

theorem closedIds_during {call : Nat} {events : List Event} (during : ∀ event ∈ events, event.During call) :
    closedIds events = [] := by
  rw [closedIds, filterMap_eq_nil_iff]
  intro event member
  have own := during event member
  cases event with
  | closed id => exact own.elim
  | _ => rfl

section steps
variable {ω : Type} {s s' s'' : Session ω}

/-- What was retrieved has the next numbers, and its closers were appended in that order. -/
structure Advances (s : Session ω) (events : List Event) (s' : Session ω) : Prop where
  recorded : s'.events = s.events ++ events
  calls : s'.calls = s.calls
  count : s'.count = s.count + (retrievedIds events).length
  closers : s'.closers.map Prod.fst = s.closers.map Prod.fst ++ retrievedIds events
  fresh : retrievedIds events = List.range' s.count (retrievedIds events).length
  during : ∀ event ∈ events, event.During s.calls

theorem Advances.world (world : ω) : Advances s [] { s with world := world } where
  recorded := by simp
  calls := rfl
  count := rfl
  closers := by simp [retrievedIds]
  fresh := rfl
  during := by simp

variable {first second : List Event}

theorem Advances.trans (before : Advances s first s')
    (after : Advances s' second s'') : Advances s (first ++ second) s'' where
  recorded := by rw [after.recorded, before.recorded, append_assoc]
  calls := by rw [after.calls, before.calls]
  count := by
    rw [after.count, before.count, retrievedIds_append, length_append, Nat.add_assoc]
  closers := by rw [after.closers, before.closers, retrievedIds_append, append_assoc]
  fresh := by
    rw [retrievedIds_append, length_append, ← range'_append_1, ← before.fresh, ← before.count, ← after.fresh]
  during := by
    rw [forall_mem_append]
    refine ⟨before.during, ?_⟩
    rw [← before.calls]
    exact after.during

theorem Advances.range {events : List Event} (advances : Advances s events s') :
    List.range s'.count = List.range s.count ++ retrievedIds events := by
  rw [advances.count, range_eq_range', range_eq_range', ← range'_append_1, Nat.zero_add, ← advances.fresh]

def AllMerged (events : List Event) : Prop :=
  ∀ call id, .retrieved call id true ∈ events → .merged id ∈ events

theorem AllMerged.append (before : AllMerged first) (after : AllMerged second) : AllMerged (first ++ second) := by
  intro call id member
  rcases mem_append.mp member with member | member
  · exact mem_append_left _ (before call id member)
  · exact mem_append_right _ (after call id member)

def Succeeds (s s' : Session ω) : Prop := ∃ events, Advances s events s' ∧ AllMerged events

def Fails (s s' : Session ω) : Prop := ∃ events, Advances s events s'

theorem succeeds_world (world : ω) : Succeeds s { s with world := world } :=
  ⟨[], .world world, fun _ _ member => by cases member⟩

theorem Succeeds.trans ⦃a b c : Session ω⦄ : Succeeds a b → Succeeds b c → Succeeds a c := by
  rintro ⟨first, before, merged⟩ ⟨second, after, merged'⟩
  exact ⟨first ++ second, before.trans after, merged.append merged'⟩

theorem Succeeds.fails ⦃a b c : Session ω⦄ : Succeeds a b → Fails b c → Fails a c := by
  rintro ⟨first, before, _⟩ ⟨second, after⟩
  exact ⟨first ++ second, before.trans after⟩

theorem Succeeds.weaken ⦃a b : Session ω⦄ : Succeeds a b → Fails a b := by
  rintro ⟨events, advances, _⟩
  exact ⟨events, advances⟩

theorem advances_retrieved (world : ω) (located : Bool) (close : CloseFunc ω) :
    Advances s [.retrieved s.calls s.count located]
      { s with
        world := world
        count := s.count + 1
        events := s.events ++ [.retrieved s.calls s.count located]
        closers := s.closers ++ [(s.count, close)] } where
  recorded := rfl
  calls := rfl
  count := rfl
  closers := by simp [retrievedIds, Event.retrievedId]
  fresh := rfl
  during := by simp [Event.During]

theorem advances_merged (id : Nat) : Advances s [.merged id] { s with events := s.events ++ [.merged id] } where
  recorded := rfl
  calls := rfl
  count := rfl
  closers := by simp [retrievedIds, Event.retrievedId]
  fresh := rfl
  during := by simp [Event.During]

namespace LiveResolver
variable (mr : LiveResolver ω)

theorem run_retrieveValue (located : Bool) (uri : Location) (s : Session ω) :
    (∃ err world, (mr.retrieveValue located uri).run.run s = (.error err, { s with world := world })) ∨
      ∃ ret world, (mr.retrieveValue located uri).run.run s =
        (.ok (s.count, ret), { s with
          world := world
          count := s.count + 1
          events := s.events ++ [.retrieved s.calls s.count located] }) := by
  rw [retrieveValue]
  cases mr.providers uri.scheme with
  | none => exact .inl ⟨_, s.world, rfl⟩
  | some retrieve =>
    rw [run_get_bind]
    rcases retrieve uri.asString s.world with ⟨err | ret, world⟩
    · exact .inl ⟨_, _, rfl⟩
    · exact .inr ⟨_, _, rfl⟩

theorem ends_retrieveReference (uri : Location) : Ends Succeeds Succeeds (mr.retrieveReference uri) := by
  intro s
  rw [retrieveReference, run_bind_eq]
  rcases mr.run_retrieveValue false uri s with ⟨err, world, failed⟩ | ⟨ret, world, retrieved⟩
  · rw [failed]
    exact succeeds_world world
  · rw [retrieved]
    refine ⟨_, advances_retrieved world false ret.close, ?_⟩
    intro call id member
    simp at member

theorem ends_mergeURI (retMap : Entries) (uri : Location) : Ends Succeeds Fails (mr.mergeURI retMap uri) := by
  intro s
  rw [mergeURI, run_bind_eq, run_adapt]
  rcases mr.run_retrieveValue true uri s with ⟨err, world, failed⟩ | ⟨ret, world, retrieved⟩
  · rw [failed]
    exact (succeeds_world world).weaken
  · rw [retrieved]
    have opened := advances_retrieved (s := s) world true ret.close
    dsimp only [Except.mapError]
    cases ret.retrieved.asConf with
    | error err => exact ⟨_, opened⟩
    | ok retCfgMap =>
      change EndsAt Succeeds Fails s ((mr.mergeConf s.count retMap retCfgMap).run.run _)
      rw [mergeConf]
      cases mr.merge retMap retCfgMap with
      | none => exact ⟨_, opened⟩
      | some merged =>
        refine ⟨_, opened.trans (advances_merged s.count), ?_⟩
        simp [AllMerged]

theorem ends_mergeURIs (retMap : Entries) (uris : List Location) : Ends Succeeds Fails (mr.mergeURIs retMap uris) := by
  induction uris generalizing retMap with
  | nil => exact ends_pure (fun s => succeeds_world s.world) _
  | cons uri rest ih =>
    rw [mergeURIs]
    exact (mr.ends_mergeURI retMap uri).bind Succeeds.trans Succeeds.fails ih

theorem ends_convert (converters : List (Value → ω → Except Text Value × ω)) (retMap : Value) :
    Ends Succeeds Fails (convert converters retMap) := by
  induction converters generalizing retMap with
  | nil => exact ends_pure (fun s => succeeds_world s.world) _
  | cons confConv rest ih =>
    intro s
    rw [convert, run_get_bind]
    rcases confConv retMap s.world with ⟨err | converted, world⟩
    · exact (succeeds_world world).weaken
    · exact (ih converted { s with world := world }).after Succeeds.trans Succeeds.fails (succeeds_world world)

theorem ends_resolveAnew : Ends Succeeds Fails mr.resolveAnew := by
  rw [resolveAnew]
  apply (mr.ends_mergeURIs [] mr.uris).bind Succeeds.trans Succeeds.fails
  intro retMap
  have expands : Ends Succeeds Succeeds (mr.source.resolveKeys (Value.flattened retMap)) :=
    Source.ends_resolveKeys (fun s => succeeds_world s.world) Succeeds.trans mr.ends_retrieveReference _
  apply Ends.bind Succeeds.trans Succeeds.fails
  · exact (expands.adapt ResolveError.expand).mono (fun _ _ => id) Succeeds.weaken
  · exact fun cfgMap => ends_convert mr.converters _

theorem run_runClosers (closers : List (Nat × CloseFunc ω)) (s : Session ω) :
    ∃ world, ((runClosers closers).run s).2 =
      { s with world := world, events := s.events ++ closers.map fun closer => .closed closer.1 } := by
  induction closers generalizing s with
  | nil =>
    refine ⟨s.world, ?_⟩
    rw [map_nil, append_nil]
    rfl
  | cons closer rest ih =>
    obtain ⟨world, ran⟩ := ih { s with
      world := (closer.2 s.world).2, events := s.events ++ [Event.closed closer.1] }
    refine ⟨world, ?_⟩
    rw [runClosers]
    change ((runClosers rest).run _).2 = _
    rw [ran, append_assoc]
    rfl

theorem run_closeIfNeeded (s : Session ω) :
    ∃ world, (closeIfNeeded.run s).2 =
      { s with
        world := world
        closers := []
        events := s.events ++ s.closers.map fun closer => .closed closer.1 } := by
  obtain ⟨world, ran⟩ := run_runClosers s.closers s
  refine ⟨world, ?_⟩
  rw [closeIfNeeded]
  change { ((runClosers s.closers).run s).2 with closers := [] } = _
  rw [ran]

theorem run_shutdownProviders (shutdowns : List (CloseFunc ω)) (s : Session ω) :
    ∃ world, ((shutdownProviders shutdowns).run s).2 = { s with world := world } := by
  induction shutdowns generalizing s with
  | nil => exact ⟨s.world, rfl⟩
  | cons shutdown rest ih => exact ih { s with world := (shutdown s.world).2 }

end LiveResolver
end steps

/-- The call that retrieved the value has returned, and unless it failed it has merged the values
of its URIs. -/
def Due (id : Nat) : Prop :=
  ∃ call located failed early late, events = early ++ .retrieved call id located :: late ∧
    .returned call failed ∈ late ∧
    (failed = false → ∀ other, .retrieved call other true ∈ events → .merged other ∈ events)

def Orderly : Prop :=
  ∀ front id back, events = front ++ .closed id :: back → Due front id

theorem Due.append {events more : List Event} {id calls : Nat} (due : Due events id)
    (past : ∀ call id located, .retrieved call id located ∈ events → call < calls)
    (later : ∀ call id located, .retrieved call id located ∈ more → calls ≤ call) : Due (events ++ more) id := by
  obtain ⟨call, located, failed, early, late, rfl, returned, merged⟩ := due
  refine ⟨call, located, failed, early, late ++ more, by simp, mem_append_left _ returned, ?_⟩
  intro succeeded other member
  rcases mem_append.mp member with member | member
  · exact mem_append_left _ (merged succeeded other member)
  · have := past call id located (by simp)
    have := later _ _ _ member
    omega

theorem Orderly.append {events more : List Event} (orderly : Orderly events)
    (next : ∀ front id back, more = front ++ .closed id :: back → Due (events ++ front) id) :
    Orderly (events ++ more) := by
  intro front id back split
  rcases append_eq_append_iff.mp split with ⟨between, rfl, rest⟩ | ⟨between, before, rest⟩
  · exact next between id back rest
  · cases between with
    | nil =>
      subst before
      simpa using next [] id back rest.symm
    | cons event between =>
      cases rest
      exact orderly front id between before

section runs
variable {ω : Type} {s s' : Session ω}

structure Tidy (s : Session ω) : Prop where
  numbered : retrievedIds s.events = List.range s.count
  closed : closedIds s.events ++ s.closers.map Prod.fst = List.range s.count
  past : ∀ call id located, .retrieved call id located ∈ s.events → call < s.calls
  due : ∀ id < s.count, Due s.events id
  orderly : Orderly s.events

theorem tidy_newSession (world : ω) : Tidy (LiveResolver.newSession world) where
  numbered := rfl
  closed := rfl
  past := by simp [LiveResolver.newSession]
  due := by simp [LiveResolver.newSession]
  orderly := by
    intro front id back split
    simp [LiveResolver.newSession] at split

theorem Tidy.world (tidy : Tidy s) (world : ω) : Tidy { s with world := world } :=
  { tidy with }

variable (closers : List (Nat × CloseFunc ω))

theorem retrievedIds_closed : retrievedIds (closers.map fun closer => .closed closer.1) = [] := by
  simp [retrievedIds, Event.retrievedId, filterMap_eq_nil_iff]

theorem closedIds_closed : closedIds (closers.map fun closer => .closed closer.1) = closers.map Prod.fst := by
  induction closers with
  | nil => rfl
  | cons closer rest ih =>
    rw [map_cons, map_cons, ← ih]
    rfl

theorem Tidy.close (tidy : Tidy s) (world : ω) :
    Tidy { s with
      world := world
      closers := []
      events := s.events ++ s.closers.map fun closer => .closed closer.1 } where
  numbered := by
    rw [retrievedIds_append, retrievedIds_closed, append_nil, tidy.numbered]
  closed := by
    change closedIds (s.events ++ _) ++ [] = _
    rw [closedIds_append, closedIds_closed, append_nil, tidy.closed]
  past := by
    intro call id located member
    simp only [mem_append, mem_map, reduceCtorEq, and_false, exists_false, or_false] at member
    exact tidy.past call id located member
  due := by
    intro id known
    apply (tidy.due id known).append tidy.past
    simp
  orderly := by
    apply tidy.orderly.append
    intro front id back split
    have known : id < s.count := by
      have member : .closed id ∈ s.closers.map fun closer => Event.closed closer.1 := by simp [split]
      obtain ⟨closer, inside, same⟩ := mem_map.mp member
      cases same
      have all : closer.1 ∈ List.range s.count := by
        rw [← tidy.closed]
        exact mem_append_right _ (mem_map_of_mem inside)
      exact mem_range.mp all
    apply (tidy.due id known).append tidy.past
    intro call other located member
    have inside : Event.retrieved call other located ∈ s.closers.map fun closer => Event.closed closer.1 := by
      rw [split]
      exact mem_append_left _ member
    simp at inside

theorem Tidy.return {events : List Event} {failed : Bool} (tidy : Tidy s) (advances : Advances s events s')
    (merged : failed = false → AllMerged events) :
    Tidy { s' with calls := s'.calls + 1, events := s'.events ++ [.returned s'.calls failed] } := by
  have own : ∀ call id located, .retrieved call id located ∈ events → call = s.calls :=
    fun _ _ _ member => advances.during _ member
  have whole : s'.events ++ [.returned s'.calls failed] = s.events ++ (events ++ [.returned s.calls failed]) := by
    rw [advances.recorded, advances.calls, append_assoc]
  have later : ∀ call id located, .retrieved call id located ∈ events ++ [.returned s.calls failed] →
      s.calls ≤ call := by
    intro call id located member
    rw [mem_append, mem_singleton] at member
    exact (own call id located (member.resolve_right (by simp))).ge
  rw [whole]
  constructor
  · change retrievedIds (s.events ++ (events ++ [_])) = List.range s'.count
    rw [retrievedIds_append, retrievedIds_append, tidy.numbered, advances.range]
    exact congrArg _ (append_nil _)
  · change closedIds (s.events ++ (events ++ [_])) ++ s'.closers.map Prod.fst = List.range s'.count
    rw [closedIds_append, closedIds_append, closedIds_during advances.during, advances.closers, advances.range,
      ← tidy.closed]
    simp [closedIds, Event.closedId]
  · intro call id located member
    change call < s'.calls + 1
    rw [advances.calls]
    rcases mem_append.mp member with member | member
    · have := tidy.past call id located member
      omega
    · rw [mem_append, mem_singleton] at member
      have := own call id located (member.resolve_right (by simp))
      omega
  · intro id known
    by_cases old : id < s.count
    · exact (tidy.due id old).append tidy.past later
    · have member : id ∈ List.range s.count ++ retrievedIds events := by
        rw [← advances.range]
        exact mem_range.mpr known
      rw [mem_append, mem_range] at member
      obtain ⟨event, inside, named⟩ := mem_filterMap.mp (member.resolve_left old)
      cases event with
      | retrieved call other located =>
        cases named
        cases own _ _ _ inside
        obtain ⟨early, late, rfl⟩ := append_of_mem inside
        refine ⟨s.calls, located, failed, s.events ++ early, late ++ [.returned s.calls failed], by simp, by simp, ?_⟩
        intro succeeded other member
        rw [mem_append] at member
        rcases member with before | member
        · exact absurd (tidy.past _ _ _ before) (lt_irrefl _)
        · rw [mem_append, mem_singleton] at member
          have done := merged succeeded _ _ (member.resolve_right (by simp))
          exact mem_append_right _ (mem_append_left _ done)
      | _ => cases named
  · apply tidy.orderly.append
    intro front id back split
    have member : .closed id ∈ events ++ [Event.returned s.calls failed] := by simp [split]
    rw [mem_append, mem_singleton] at member
    exact (advances.during _ (member.resolve_right (by simp))).elim

namespace LiveResolver
variable (mr : LiveResolver ω)

theorem ends_resolve (s : Session ω) : EndsAt Succeeds Fails (closeIfNeeded.run s).2 (mr.resolve.run.run s) := by
  rw [resolve, run_lift_bind]
  split
  · exact mr.ends_resolveAnew _
  · exact (succeeds_world _).weaken

theorem tidy_callResolve (tidy : Tidy s) : Tidy (mr.callResolve s).2 := by
  obtain ⟨world, closed⟩ := run_closeIfNeeded s
  have ready := tidy.close world
  have ended := mr.ends_resolve s
  rw [closed] at ended
  rw [callResolve]
  rcases ran : mr.resolve.run.run s with ⟨err | value, s'⟩
  · rw [ran] at ended
    obtain ⟨events, advances⟩ := ended
    exact ready.return advances (by simp)
  · rw [ran] at ended
    obtain ⟨events, advances, merged⟩ := ended
    exact ready.return advances fun _ => merged

theorem tidy_callAll (changes : List (ω → ω)) (tidy : Tidy s) : Tidy (mr.callAll changes s) := by
  induction changes generalizing s with
  | nil => exact tidy
  | cons change rest ih => exact ih (mr.tidy_callResolve (tidy.world _))

theorem tidy_shutdown (tidy : Tidy s) : Tidy (mr.shutdown.run s).2 ∧ (mr.shutdown.run s).2.closers = [] := by
  obtain ⟨world, closed⟩ := run_closeIfNeeded s
  obtain ⟨last, stopped⟩ := run_shutdownProviders mr.shutdowns (closeIfNeeded.run s).2
  change Tidy ((shutdownProviders mr.shutdowns).run (closeIfNeeded.run s).2).2 ∧
    ((shutdownProviders mr.shutdowns).run (closeIfNeeded.run s).2).2.closers = []
  rw [stopped, closed]
  exact ⟨tidy.close last, rfl⟩

/-- Each value is retrieved under a number of its own and closed once, when it is due. -/
theorem retrieved_closed_once (world : ω) (changes : List (ω → ω)) (last : ω → ω) :
    (retrievedIds (mr.lifetime world changes last).events).Nodup ∧
      (∀ call id located, .retrieved call id located ∈ (mr.lifetime world changes last).events →
        (mr.lifetime world changes last).events.count (.closed id) = 1) ∧
      Orderly (mr.lifetime world changes last).events := by
  have before := mr.tidy_callAll changes (tidy_newSession world)
  obtain ⟨tidy, empty⟩ := mr.tidy_shutdown (before.world (last (mr.callAll changes (newSession world)).world))
  change Tidy (mr.lifetime world changes last) at tidy
  change (mr.lifetime world changes last).closers = [] at empty
  have closed := tidy.closed
  rw [empty, map_nil, append_nil] at closed
  refine ⟨?_, ?_, tidy.orderly⟩
  · rw [tidy.numbered]
    exact nodup_range
  · intro call id located member
    have known : id ∈ retrievedIds (mr.lifetime world changes last).events :=
      mem_filterMap.mpr ⟨_, member, rfl⟩
    rw [tidy.numbered] at known
    rw [count_closed, closed]
    exact count_eq_one_of_mem nodup_range known

end LiveResolver
end runs

end CollectorFormal.Confmap
