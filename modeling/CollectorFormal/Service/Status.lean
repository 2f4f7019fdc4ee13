import Mathlib.Data.List.Chain
import CollectorFormal.Lib.Runs

/-! The status of component instances: one reporter with a state machine for each instance. -/

namespace CollectorFormal.Componentstatus

open List

inductive Status where
  | none
  | starting
  | ok
  | recoverableError
  | permanentError
  | fatalError
  | stopping
  | stopped
deriving DecidableEq

/-- An event, with its error, attributes and timestamp as details. -/
structure Event (D : Type) where
  status : Status
  details : D

def Status.transitions : Status → List Status
  | .none => [.starting]
  | .starting => [.ok, .recoverableError, .permanentError, .fatalError, .stopping]
  | .ok => [.ok, .recoverableError, .permanentError, .fatalError, .stopping]
  | .recoverableError => [.recoverableError, .ok, .permanentError, .fatalError, .stopping]
  | .permanentError => [.stopping]
  | .fatalError => []
  | .stopping => [.recoverableError, .permanentError, .fatalError, .stopped]
  | .stopped => []

structure Reporter (I D : Type) where
  /-- The current status of each instance, which is that of newFSM if it has no fsm yet. -/
  fsmMap : I → Status := fun _ => .none
  /-- The calls of onStatusChange. -/
  changes : List (I × Event D) := []
  /-- cannot transition from %s to %s: invalid state transition -/
  invalid : List (Status × Status) := []

variable {I D : Type} [DecidableEq I]

namespace Reporter

def transition (id : I) (ev : Event D) (r : Reporter I D) : Reporter I D :=
  if ev.status ∈ (r.fsmMap id).transitions then
    { r with fsmMap := Function.update r.fsmMap id ev.status, changes := r.changes ++ [(id, ev)] }
  else { r with invalid := r.invalid ++ [(r.fsmMap id, ev.status)] }

def reportStatus (id : I) (ev : Event D) (r : Reporter I D) : Reporter I D := r.transition id ev

def reportOKIfStarting (id : I) (details : D) (r : Reporter I D) : Reporter I D :=
  if r.fsmMap id = .starting then r.transition id ⟨.ok, details⟩ else r

inductive Calls : Unit → Reporter I D → Reporter I D → Prop where
  | reportStatus (r : Reporter I D) (id : I) (ev : Event D) : Calls () r (r.reportStatus id ev)
  | reportOKIfStarting (r : Reporter I D) (id : I) (details : D) : Calls () r (r.reportOKIfStarting id details)

def Reached (r : Reporter I D) : Prop := Lib.Reached Calls Lib.Always {} r

def statuses (id : I) (r : Reporter I D) : List Status :=
  .none :: (r.changes.filter fun change => change.1 = id).map fun change => change.2.status

/-- The statuses of every instance follow the transitions up to its current one. -/
def Follows (r : Reporter I D) : Prop :=
  ∀ id, IsChain (fun before after => after ∈ before.transitions) (r.statuses id) ∧
    (r.statuses id).getLast? = some (r.fsmMap id)

variable {r : Reporter I D}

theorem transition_follows (follows : r.Follows) (id : I) (ev : Event D) : (r.transition id ev).Follows := by
  rw [transition]
  split
  · next allowed =>
    intro other
    obtain ⟨chain, last⟩ := follows other
    by_cases same : id = other
    · subst same
      have more : statuses id { r with
          fsmMap := Function.update r.fsmMap id ev.status, changes := r.changes ++ [(id, ev)] } =
          r.statuses id ++ [ev.status] := by simp [statuses]
      rw [more]
      refine ⟨isChain_append.mpr ⟨chain, isChain_singleton _, ?_⟩, by simp⟩
      rintro before first _ ⟨⟩
      rw [last] at first
      exact Option.some.inj first ▸ allowed
    · simpa [statuses, same, Function.update_of_ne (Ne.symm same)] using And.intro chain last
  · exact follows

theorem Reached.follows (reached : r.Reached) : r.Follows := by
  refine Lib.Reached.invariant (fun id => ⟨isChain_singleton _, rfl⟩) ?_ reached
  intro _ r next _ called follows
  cases called with
  | reportStatus _ id ev => exact transition_follows follows id ev
  | reportOKIfStarting _ id details =>
    unfold Reporter.reportOKIfStarting
    split
    · exact transition_follows follows id _
    · exact follows

/-- Whatever the calls, the statuses passed on for an instance follow the transitions, StatusStarting comes first
and only then, and the last one is current. -/
theorem reported_lifecycle (reached : r.Reached) (id : I) :
    (r.statuses id).getLast? = some (r.fsmMap id) ∧
    ∀ front before after back, r.statuses id = front ++ before :: after :: back →
      after ∈ before.transitions ∧ (after = .starting ↔ front = []) := by
  obtain ⟨chain, last⟩ := reached.follows id
  rw [isChain_iff_forall_rel_of_append_cons_cons] at chain
  refine ⟨last, fun front before after back parts => ⟨chain parts, fun starting => ?_, ?_⟩⟩
  · have only (status : Status) : .starting ∈ status.transitions → status = .none := by cases status <;> decide
    have never (status : Status) : .none ∉ status.transitions := by cases status <;> decide
    have first := only before (starting ▸ chain parts)
    rcases eq_nil_or_concat front with none | ⟨front, earlier, rfl⟩
    · exact none
    · rw [first, concat_append] at parts
      exact absurd (chain parts) (never earlier)
  · rintro rfl
    obtain ⟨rfl, -⟩ := cons.inj parts
    exact mem_singleton.mp (chain parts)

/-- A component that fails while it starts, and reports once more. -/
def failedReporter : Reporter Nat Unit :=
  reportOKIfStarting 0 () (reportStatus 0 ⟨.fatalError, ()⟩ (reportStatus 0 ⟨.starting, ()⟩ {}))

theorem reported_lifecycle_failed :
    failedReporter.statuses 0 = [.none, .starting, .fatalError] ∧
    (failedReporter.statuses 0).getLast? = some (failedReporter.fsmMap 0) ∧
    ∀ front before after back, failedReporter.statuses 0 = front ++ before :: after :: back →
      after ∈ before.transitions ∧ (after = .starting ↔ front = []) :=
  have starting : Reached (reportStatus 0 ⟨.starting, ()⟩ {}) := .step .start trivial (.reportStatus {} 0 _)
  have failed : Reached (reportStatus 0 ⟨.fatalError, ()⟩ (reportStatus 0 ⟨.starting, ()⟩ {})) :=
    .step starting trivial (.reportStatus _ 0 _)
  ⟨rfl, reported_lifecycle (.step failed trivial (.reportOKIfStarting _ 0 ())) 0⟩

end Reporter

end CollectorFormal.Componentstatus
