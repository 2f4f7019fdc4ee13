import CollectorFormal.Componentstatus.Instance
import CollectorFormal.Lib.Outcomes
import CollectorFormal.Lib.Topological
import CollectorFormal.Service.Status

/-! The extensions, in an order in which each comes after those that it depends on. -/

namespace CollectorFormal.ExtensionOrder

open Componentstatus (Event InstanceID newInstanceID Reporter)
open Relation (TransGen)
open Lib

variable {E : Type}

structure Extension (E : Type) where
  /-- Dependencies, if the extension is a Dependent. -/
  dependencies : Option (List Component.ID)
  start : Option E
  shutdown : Option E

inductive NewError (E : Type) where
  /-- failed to create extension %q: %w -/
  | create (extID : Component.ID) (err : E)
  /-- factory for %q produced a nil extension -/
  | nilExtension (extID : Component.ID)
  /-- unable to find extension %s on which extension %s depends -/
  | unknown (depID extID : Component.ID)
  /-- unable to order extensions by dependencies, cycle found %s: %w -/
  | cycle

inductive Halt (ε : Type) where
  | panicked
  | failed (err : ε)

structure Extensions (E : Type) where
  extMap : Component.ID → Option (Extension E)
  instanceIDs : Component.ID → Option InstanceID
  /-- start order (and reverse stop order) -/
  extensionIDs : List Component.ID

/-- The loop of New over the configured extensions. -/
def createAll (create : Component.ID → Except E (Option (Extension E))) :
    List Component.ID → Extensions E → Except (NewError E) (Extensions E)
  | [], exts => .ok exts
  | extID :: rest, exts =>
    match create extID with
    | .error err => .error (.create extID err)
    | .ok none => .error (.nilExtension extID)
    | .ok (some ext) =>
      createAll create rest { exts with
        extMap := Function.update exts.extMap extID (some ext)
        instanceIDs := Function.update exts.instanceIDs extID (some (newInstanceID extID .extension [])) }

/-- The dependencies in the order in which they are read: each with the extension that has it. -/
def reads (extMap : Component.ID → Option (Extension E)) (order : List Component.ID) : List (Component.ID × Component.ID) :=
  order.flatMap fun extID =>
    (((extMap extID).bind Extension.dependencies).getD []).map (extID, ·)

def setEdge (edges : List (Component.ID × Component.ID)) (edge : Component.ID × Component.ID) :
    List (Component.ID × Component.ID) :=
  if edge ∈ edges then edges else edges ++ [edge]

/-- The edges of the graph. To set one from a node to itself panics. -/
def drawEdges (nodes : List Component.ID) :
    List (Component.ID × Component.ID) → List (Component.ID × Component.ID) →
      Except (Halt (NewError E)) (List (Component.ID × Component.ID))
  | [], edges => .ok edges
  | (extID, depID) :: rest, edges =>
    if depID ∉ nodes then .error (.failed (.unknown depID extID))
    else if depID = extID then .error .panicked
    else drawEdges nodes rest (setEdge edges (depID, extID))

/-- The map is visited in one order for the nodes and in another for the edges; `sorted` is what topo.Sort returns. -/
def computeOrder (exts : Extensions E) (nodeOrder edgeOrder : List Component.ID) (sorted : Option (List Component.ID)) :
    Except (Halt (NewError E)) (List Component.ID) :=
  match drawEdges nodeOrder (reads exts.extMap edgeOrder) [] with
  | .error halt => .error halt
  | .ok _ =>
    match sorted with
    | none => .error (.failed .cycle)
    | some order => .ok order

def new (create : Component.ID → Except E (Option (Extension E))) (cfg nodeOrder edgeOrder : List Component.ID)
    (sorted : Option (List Component.ID)) : Except (Halt (NewError E)) (Extensions E) :=
  match createAll create cfg ⟨fun _ => none, fun _ => none, []⟩ with
  | .error err => .error (.failed err)
  | .ok exts =>
    match computeOrder exts nodeOrder edgeOrder sorted with
    | .error halt => .error halt
    | .ok order => .ok { exts with extensionIDs := order }

inductive Call (E : Type) where
  | reportStatus (instanceID : Option InstanceID) (ev : Event (Option E))
  | reportOKIfStarting (instanceID : Option InstanceID)
  | start (extID : Component.ID)
  | shutdown (extID : Component.ID)

def Call.started : Call E → Option Component.ID
  | .start extID => some extID
  | _ => none

def Call.stopped : Call E → Option Component.ID
  | .shutdown extID => some extID
  | _ => none

/-- What a call is to the reporter of the statuses. -/
def Call.report (r : Reporter (Option InstanceID) (Option E)) : Call E → Reporter (Option InstanceID) (Option E)
  | .reportStatus instanceID ev => r.reportStatus instanceID ev
  | .reportOKIfStarting instanceID => r.reportOKIfStarting instanceID none
  | _ => r

theorem report_reached {r : Reporter (Option InstanceID) (Option E)} (reached : r.Reached) (calls : List (Call E)) :
    (calls.foldl Call.report r).Reached := by
  induction calls generalizing r with
  | nil => exact reached
  | cons call calls ih =>
    apply ih
    cases call with
    | reportStatus instanceID ev => exact .step reached trivial (.reportStatus r instanceID ev)
    | reportOKIfStarting instanceID => exact .step reached trivial (.reportOKIfStarting r instanceID none)
    | start | shutdown => exact reached

namespace Extensions

variable (exts : Extensions E)

def startStep (extID : Component.ID) (calls : List (Call E)) : List (Call E) × Option (Halt E) :=
  let instanceID := exts.instanceIDs extID
  let calls := calls ++ [.reportStatus instanceID ⟨.starting, none⟩]
  match exts.extMap extID with
  | none => (calls, some .panicked)
  | some ext =>
    match ext.start with
    | some err => (calls ++ [.start extID, .reportStatus instanceID ⟨.permanentError, some err⟩], some (.failed err))
    | none => (calls ++ [.start extID, .reportOKIfStarting instanceID], none)

/-- The calls that Start makes, and why it ends before the last extension. -/
def start : List (Call E) × Option (Halt E) := untilError exts.startStep exts.extensionIDs []

def shutdownStep (extID : Component.ID) (state : List (Call E) × List E) : (List (Call E) × List E) × Option (Halt E) :=
  let instanceID := exts.instanceIDs extID
  let calls := state.1 ++ [.reportStatus instanceID ⟨.stopping, none⟩]
  match exts.extMap extID with
  | none => ((calls, state.2), some .panicked)
  | some ext =>
    match ext.shutdown with
    | some err => ((calls ++ [.shutdown extID, .reportStatus instanceID ⟨.permanentError, some err⟩], state.2 ++ [err]), none)
    | none => ((calls ++ [.shutdown extID, .reportStatus instanceID ⟨.stopped, none⟩], state.2), none)

/-- The calls that Shutdown makes with the errors that it returns, and whether it panics. -/
def shutdown : (List (Call E) × List E) × Option (Halt E) :=
  untilError exts.shutdownStep exts.extensionIDs.reverse ([], [])

/-- What is passed on of the reports of Start and Shutdown follows the transitions. -/
theorem reports_follow : Reporter.Follows ((exts.start.1 ++ exts.shutdown.1.1).foldl Call.report {}) :=
  Reporter.Reached.follows (report_reached .start _)

end Extensions

section edges
variable {nodes : List Component.ID} {pairs edges : List (Component.ID × Component.ID)} {a b : Component.ID}

theorem mem_setEdge {edge edge' : Component.ID × Component.ID} : edge ∈ setEdge edges edge' ↔ edge ∈ edges ∨ edge = edge' := by
  rw [setEdge]
  split
  · next present => exact ⟨.inl, fun either => either.elim id fun same => same ▸ present⟩
  · rw [List.mem_append, List.mem_singleton]

/-- How drawing the edges ends: with all of them, or at the first dependency that is unknown or the extension itself. -/
inductive Draws (nodes : List Component.ID) (pairs edges : List (Component.ID × Component.ID)) :
    Except (Halt (NewError E)) (List (Component.ID × Component.ID)) → Prop
  | drawn {edges' : List (Component.ID × Component.ID)} (known : ∀ pair ∈ pairs, pair.2 ∈ nodes ∧ pair.2 ≠ pair.1)
      (all : ∀ a b, (a, b) ∈ edges' ↔ (a, b) ∈ edges ∨ (b, a) ∈ pairs) : Draws nodes pairs edges (.ok edges')
  | unknown {front back : List (Component.ID × Component.ID)} {extID depID : Component.ID}
      (whole : pairs = front ++ (extID, depID) :: back) (known : ∀ pair ∈ front, pair.2 ∈ nodes ∧ pair.2 ≠ pair.1)
      (absent : depID ∉ nodes) : Draws nodes pairs edges (.error (.failed (.unknown depID extID)))
  | panicked {front back : List (Component.ID × Component.ID)} {extID : Component.ID}
      (whole : pairs = front ++ (extID, extID) :: back) (known : ∀ pair ∈ front, pair.2 ∈ nodes ∧ pair.2 ≠ pair.1) :
      Draws nodes pairs edges (.error .panicked)

theorem drawEdges_draws : Draws nodes pairs edges (drawEdges (E := E) nodes pairs edges) := by
  induction pairs generalizing edges with
  | nil => exact .drawn (by simp) (by simp)
  | cons pair rest ih =>
    obtain ⟨extID, depID⟩ := pair
    rw [drawEdges]
    by_cases absent : depID ∉ nodes
    · rw [if_pos absent]
      exact @Draws.unknown E _ _ _ [] rest _ _ rfl (by simp) absent
    · rw [if_neg absent]
      by_cases self : depID = extID
      · subst self
        rw [if_pos rfl]
        exact @Draws.panicked E _ _ _ [] rest _ rfl (by simp)
      · rw [if_neg self]
        have fine : (extID, depID).2 ∈ nodes ∧ (extID, depID).2 ≠ (extID, depID).1 := ⟨not_not.mp absent, self⟩
        have later := @ih (setEdge edges (depID, extID))
        generalize drawEdges (E := E) nodes rest (setEdge edges (depID, extID)) = ended at later
        cases later with
        | drawn known all =>
          refine .drawn (List.forall_mem_cons.mpr ⟨fine, known⟩) ?_
          intro a b
          rw [all, mem_setEdge, List.mem_cons, or_assoc, Prod.mk.injEq, Prod.mk.injEq, and_comm (a := b = extID)]
        | unknown whole known absent =>
          exact .unknown (by rw [whole]; rfl) (List.forall_mem_cons.mpr ⟨fine, known⟩) absent
        | panicked whole known => exact .panicked (by rw [whole]; rfl) (List.forall_mem_cons.mpr ⟨fine, known⟩)

end edges

section loops
variable {exts : Extensions E}

def StartedThrough (done : List Component.ID) (calls : List (Call E)) : Prop := calls.filterMap Call.started = done

def StartFailed (done : List Component.ID) (extID : Component.ID) (calls : List (Call E)) (halt : Halt E) : Prop :=
  calls.filterMap Call.started = done ++ [extID] ∧ ∃ err, halt = .failed err

def StoppedThrough (done : List Component.ID) (state : List (Call E) × List E) : Prop :=
  state.1.filterMap Call.stopped = done

section
variable (present : ∀ extID ∈ exts.extensionIDs, ∃ ext, exts.extMap extID = some ext)
include present

theorem start_begins :
    exts.start.2 ≠ some .panicked ∧ exts.start.1.filterMap Call.started <+: exts.extensionIDs ∧
      (exts.start.2 = none → exts.start.1.filterMap Call.started = exts.extensionIDs) := by
  have ended : EndsIn StartedThrough StartFailed exts.extensionIDs exts.start := by
    apply untilError_ends StartedThrough StartFailed (show StartedThrough [] [] from rfl)
    intro done extID rest calls whole through
    obtain ⟨ext, found⟩ := present extID (by simp [whole])
    rw [Extensions.startStep, found]
    dsimp only
    cases ext.start with
    | none =>
      rw [StepsTo, StartedThrough, List.append_assoc, List.filterMap_append, through]
      rfl
    | some err =>
      rw [StepsTo, StartFailed, List.append_assoc, List.filterMap_append, through]
      exact ⟨rfl, err, rfl⟩
  cases run : exts.start with
  | mk calls halt =>
    rw [run] at ended
    cases halt with
    | none => exact ⟨nofun, ⟨[], by rw [List.append_nil]; exact ended⟩, fun _ => ended⟩
    | some halt =>
      obtain ⟨done, extID, rest, whole, calls, err, rfl⟩ := ended
      exact ⟨nofun, ⟨rest, by rw [calls, whole, List.append_assoc]; rfl⟩, nofun⟩

theorem shutdown_reverse :
    exts.shutdown.2 = none ∧ exts.shutdown.1.1.filterMap Call.stopped = exts.extensionIDs.reverse := by
  have ended : EndsIn StoppedThrough (fun _ _ _ _ => False) exts.extensionIDs.reverse exts.shutdown := by
    apply untilError_ends StoppedThrough (fun _ _ _ _ => False) (show StoppedThrough [] ([], []) from rfl)
    intro done extID rest state whole through
    obtain ⟨ext, found⟩ := present extID (List.mem_reverse.mp (by simp [whole]))
    rw [Extensions.shutdownStep, found]
    dsimp only
    cases ext.shutdown with
    | none | some =>
      rw [StepsTo, StoppedThrough, List.append_assoc, List.filterMap_append, through]
      rfl
  cases run : exts.shutdown with
  | mk state halt =>
    rw [run] at ended
    cases halt with
    | none => exact ⟨rfl, ended⟩
    | some halt =>
      obtain ⟨_, _, _, _, impossible⟩ := ended
      exact impossible.elim

end

end loops

section order
variable {create : Component.ID → Except E (Option (Extension E))} {cfg nodeOrder edgeOrder : List Component.ID}
  {sorted : Option (List Component.ID)} {ext : Component.ID → Extension E}

def DependsOn (ext : Component.ID → Extension E) (cfg : List Component.ID) (a b : Component.ID) : Prop :=
  a ∈ cfg ∧ b ∈ ((ext a).dependencies).getD []

structure UsesOrder (exts : Extensions E) : Prop where
  start_returns : exts.start.2 ≠ some .panicked
  starts : exts.start.1.filterMap Call.started <+: exts.extensionIDs
  starts_all : exts.start.2 = none → exts.start.1.filterMap Call.started = exts.extensionIDs
  shutdown_returns : exts.shutdown.2 = none
  stops : exts.shutdown.1.1.filterMap Call.stopped = exts.extensionIDs.reverse

/-- New fails with an error, or else its order puts every extension after its dependencies. -/
structure OrdersExtensions (ext : Component.ID → Extension E) (cfg : List Component.ID)
    (result : Except (Halt (NewError E)) (Extensions E)) : Prop where
  returns : ∀ halt, result = .error halt → halt ≠ .panicked
  ordered : ∀ exts, result = .ok exts → exts.extensionIDs.Nodup ∧ (∀ extID, extID ∈ exts.extensionIDs ↔ extID ∈ cfg) ∧
    (∀ extID depID, DependsOn ext cfg extID depID → Before exts.extensionIDs depID extID) ∧ UsesOrder exts
  fails_iff : (∃ err, result = .error (.failed err)) ↔
    (∃ extID depID, DependsOn ext cfg extID depID ∧ depID ∉ cfg) ∨ ∃ extID, TransGen (DependsOn ext cfg) extID extID

/-- No extension is read as its own dependency before a dependency is read that is unknown. -/
def UnknownFirst (pairs : List (Component.ID × Component.ID)) (cfg : List Component.ID) : Prop :=
  ∀ front extID back, pairs = front ++ (extID, extID) :: back → ∃ pair ∈ front, pair.2 ∉ cfg

theorem createAll_ok (creates : ∀ extID ∈ cfg, create extID = .ok (some (ext extID))) (exts : Extensions E) :
    ∃ exts', createAll create cfg exts = .ok exts' ∧
      exts'.extMap = fun extID => if extID ∈ cfg then some (ext extID) else exts.extMap extID := by
  induction cfg generalizing exts with
  | nil => exact ⟨exts, rfl, by simp⟩
  | cons extID rest ih =>
    rw [List.forall_mem_cons] at creates
    rw [createAll, creates.1]
    obtain ⟨exts', made, extMap⟩ := ih creates.2 _
    refine ⟨exts', made, extMap.trans ?_⟩
    funext other
    by_cases later : other ∈ rest
    · simp [later]
    · by_cases same : other = extID
      · simp [same]
      · simp [later, same]

theorem acyclic_iff {edges : List (Component.ID × Component.ID)} (all : ∀ a b, (a, b) ∈ edges ↔ DependsOn ext cfg b a) :
    Acyclic edges ↔ ¬∃ extID, TransGen (DependsOn ext cfg) extID extID := by
  have same : Edge edges = Function.swap (DependsOn ext cfg) := by
    funext a b
    exact propext (all a b)
  rw [Acyclic, same, not_exists]
  exact forall_congr' fun extID => not_congr Relation.transGen_swap

section result
variable (creates : ∀ extID ∈ cfg, create extID = .ok (some (ext extID))) (nodes : nodeOrder.Perm cfg.dedup)
  (edges : edgeOrder.Perm cfg.dedup)

include nodes in
theorem mem_nodes {extID : Component.ID} : extID ∈ nodeOrder ↔ extID ∈ cfg := by rw [nodes.mem_iff, List.mem_dedup]

include edges in
theorem mem_pairs {a b : Component.ID} : (a, b) ∈ reads (fun extID => some (ext extID)) edgeOrder ↔ DependsOn ext cfg a b := by
  simp only [reads, List.mem_flatMap, edges.mem_iff, List.mem_dedup, DependsOn, List.mem_map, Option.bind_some, Prod.mk.injEq]
  constructor
  · rintro ⟨extID, enabled, depID, listed, rfl, rfl⟩
    exact ⟨enabled, listed⟩
  · rintro ⟨enabled, listed⟩
    exact ⟨a, enabled, b, listed, rfl, rfl⟩

include creates edges in
theorem new_eq : ∃ exts : Extensions E, (∀ extID ∈ cfg, exts.extMap extID = some (ext extID)) ∧
    new create cfg nodeOrder edgeOrder sorted =
      match drawEdges nodeOrder (reads (fun extID => some (ext extID)) edgeOrder) [] with
      | .error halt => .error halt
      | .ok _ =>
        match sorted with
        | none => .error (.failed .cycle)
        | some order => .ok { exts with extensionIDs := order } := by
  obtain ⟨exts, made, extMap⟩ := createAll_ok creates ⟨fun _ => none, fun _ => none, []⟩
  have present : ∀ extID ∈ cfg, exts.extMap extID = some (ext extID) := by
    intro extID enabled
    rw [extMap]
    exact if_pos enabled
  have same : reads exts.extMap edgeOrder = reads (fun extID => some (ext extID)) edgeOrder := by
    apply List.flatMap_congr
    intro extID listed
    rw [present extID (List.mem_dedup.mp (edges.mem_iff.mp listed))]
  refine ⟨exts, present, ?_⟩
  rw [new, made]
  dsimp only
  unfold computeOrder
  rw [same]
  cases drawEdges (E := E) nodeOrder (reads (fun extID => some (ext extID)) edgeOrder) [] with
  | error halt => rfl
  | ok drawn => cases sorted <;> rfl

end result

theorem unknownFirst_of_unknown {pairs front back : List (Component.ID × Component.ID)} {extID depID : Component.ID}
    (whole : pairs = front ++ (extID, depID) :: back) (others : ∀ pair ∈ front, pair.2 ≠ pair.1) (enabled : extID ∈ cfg)
    (absent : depID ∉ cfg) : UnknownFirst pairs cfg := by
  intro front' selfID back' whole'
  rw [whole, List.append_eq_append_iff] at whole'
  rcases whole' with ⟨between, split, rest⟩ | ⟨between, split, rest⟩
  · cases between with
    | nil =>
      cases rest
      exact absurd enabled absent
    | cons pair between =>
      cases rest
      exact ⟨(extID, depID), by simp [split], absent⟩
  · cases between with
    | nil =>
      cases rest
      exact absurd enabled absent
    | cons pair between =>
      cases rest
      exact absurd rfl (others (selfID, selfID) (by simp [split]))

/-- New does what it should iff, in the order in which the dependencies are read, no extension comes as its own
dependency before one that is unknown. -/
theorem new_orders_iff (creates : ∀ extID ∈ cfg, create extID = .ok (some (ext extID)))
    (nodes : nodeOrder.Perm cfg.dedup) (edges : edgeOrder.Perm cfg.dedup)
    (sorts : ∀ drawn, drawEdges (E := E) nodeOrder (reads (fun extID => some (ext extID)) edgeOrder) [] = .ok drawn →
      SortsTo nodeOrder drawn sorted) :
    OrdersExtensions ext cfg (new create cfg nodeOrder edgeOrder sorted) ↔
      UnknownFirst (reads (fun extID => some (ext extID)) edgeOrder) cfg := by
  obtain ⟨exts, extMap, result⟩ := @new_eq E create cfg nodeOrder edgeOrder sorted ext creates edges
  have pairs := @mem_pairs E cfg edgeOrder ext edges
  rw [result]
  have draws := @drawEdges_draws E nodeOrder (reads (fun extID => some (ext extID)) edgeOrder) []
  generalize drawEdges nodeOrder (reads (fun extID => some (ext extID)) edgeOrder) [] = ended at draws sorts
  cases draws with
  | @drawn drawn known all =>
    have sortsTo := sorts drawn rfl
    have dependencies : ∀ a b, (a, b) ∈ drawn ↔ DependsOn ext cfg b a := by
      intro a b
      rw [all, or_iff_right List.not_mem_nil, pairs]
    have allKnown : ¬∃ extID depID, DependsOn ext cfg extID depID ∧ depID ∉ cfg := by
      rintro ⟨extID, depID, depends, absent⟩
      exact absent ((mem_nodes nodes).mp (known (extID, depID) (pairs.mpr depends)).1)
    have condition : UnknownFirst (reads (fun extID => some (ext extID)) edgeOrder) cfg := by
      intro front extID back whole
      exact absurd rfl (known (extID, extID) (by simp [whole])).2
    refine iff_of_true ?_ condition
    cases sorted with
    | none =>
      have cyclic : ∃ extID, TransGen (DependsOn ext cfg) extID extID := by
        by_contra none
        exact sortsTo ((acyclic_iff dependencies).mpr none)
      exact ⟨fun _ same => by cases same; nofun, nofun, iff_of_true ⟨.cycle, rfl⟩ (.inr cyclic)⟩
    | some order =>
      refine ⟨nofun, ?_, ?_⟩
      · intro exts' same
        cases same
        have members : ∀ extID, extID ∈ order ↔ extID ∈ cfg := fun extID => (sortsTo.visits extID).trans (mem_nodes nodes)
        have present : ∀ extID ∈ order, ∃ ext, exts.extMap extID = some ext :=
          fun extID mem => ⟨_, extMap extID ((members extID).mp mem)⟩
        obtain ⟨returns, begins, whole⟩ := @start_begins E { exts with extensionIDs := order } present
        obtain ⟨stops, reversed⟩ := @shutdown_reverse E { exts with extensionIDs := order } present
        exact ⟨sortsTo.distinct, members, fun extID depID depends => sortsTo.forward _ _ ((dependencies depID extID).mpr depends),
          returns, begins, whole, stops, reversed⟩
      · refine iff_of_false (fun failed => ?_) (not_or.mpr ⟨allKnown, (acyclic_iff dependencies).mp sortsTo.acyclic⟩)
        obtain ⟨_, impossible⟩ := failed
        cases impossible
  | @unknown front back extID depID whole known absent =>
    have depends : DependsOn ext cfg extID depID := pairs.mp (by simp [whole])
    have missing : depID ∉ cfg := fun enabled => absent ((mem_nodes nodes).mpr enabled)
    refine iff_of_true ?_ (unknownFirst_of_unknown whole (fun pair mem => (known pair mem).2) depends.1 missing)
    exact ⟨fun _ same => by cases same; nofun, nofun, iff_of_true ⟨_, rfl⟩ (.inl ⟨extID, depID, depends, missing⟩)⟩
  | @panicked front back extID whole known =>
    refine iff_of_false (fun orders => orders.returns _ rfl rfl) ?_
    intro unknownFirst
    obtain ⟨pair, mem, absent⟩ := unknownFirst front extID back whole
    exact absent ((mem_nodes nodes).mp (known pair mem).1)

section examples

def dependent (dependencies : List Component.ID) : Extension String := ⟨some dependencies, none, none⟩

def pairExt (extID : Component.ID) : Extension String :=
  if extID = ⟨[2], []⟩ then dependent [⟨[1], []⟩, ⟨[1], []⟩] else dependent []

theorem new_orders_pair :
    OrdersExtensions pairExt [⟨[2], []⟩, ⟨[1], []⟩]
      (new (fun extID => .ok (some (pairExt extID))) [⟨[2], []⟩, ⟨[1], []⟩] [⟨[2], []⟩, ⟨[1], []⟩] [⟨[1], []⟩, ⟨[2], []⟩]
        (some [⟨[1], []⟩, ⟨[2], []⟩])) := by
  refine (new_orders_iff (fun _ _ => rfl) (by decide) (by decide) ?_).mpr ?_
  · intro drawn same
    have edges : drawn = [(⟨[1], []⟩, ⟨[2], []⟩)] := by
      cases same
      rfl
    rw [edges]
    exact Topological.of_perm (by decide) (by decide) (by decide)
  · intro front extID back whole
    have mem : (extID, extID) ∈ reads (fun extID => some (pairExt extID)) [⟨[1], []⟩, ⟨[2], []⟩] := by simp [whole]
    have pairs : ∀ pair ∈ reads (fun extID => some (pairExt extID)) [⟨[1], []⟩, ⟨[2], []⟩], pair.1 ≠ pair.2 := by decide
    exact absurd rfl (pairs _ mem)

/-- An extension that lists itself. -/
theorem new_panics_on_self :
    new (fun _ => .ok (some (dependent [⟨[1], []⟩]))) [⟨[1], []⟩] [⟨[1], []⟩] [⟨[1], []⟩] none = .error .panicked ∧
      ¬OrdersExtensions (fun _ => dependent [⟨[1], []⟩]) [⟨[1], []⟩]
        (new (fun _ => .ok (some (dependent [⟨[1], []⟩]))) [⟨[1], []⟩] [⟨[1], []⟩] [⟨[1], []⟩] none) :=
  ⟨rfl, fun orders => orders.returns .panicked rfl rfl⟩

end examples

end order

end CollectorFormal.ExtensionOrder
