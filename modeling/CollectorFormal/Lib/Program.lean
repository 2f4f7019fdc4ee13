import Mathlib.Tactic.Common

/-! Programs that call a service, as finite interaction trees.

A program either returns or issues one call and continues with the reply. The same tree is run against a service
that always answers, with replies only constrained by a relation, with one call answered by a fault, or up to a
number of calls, as a crash leaves it. -/

namespace CollectorFormal.Lib

open List

inductive Program (C R α : Type) where
  | ret (value : α)
  | call (request : C) (next : R → Program C R α)

namespace Program

variable {C R S α β : Type}

def bind : Program C R α → (α → Program C R β) → Program C R β
  | .ret value, next => next value
  | .call request rest, next => .call request (fun reply => (rest reply).bind next)

instance : Monad (Program C R) where
  pure := .ret
  bind := bind

@[simp] theorem ret_bind (value : α) (next : α → Program C R β) :
    (Program.ret value >>= next) = next value := rfl

@[simp] theorem call_bind (request : C) (rest : R → Program C R α) (next : α → Program C R β) :
    (Program.call request rest >>= next) = .call request (fun reply => rest reply >>= next) := rfl

theorem bind_assoc {γ : Type} (program : Program C R α) (first : α → Program C R β) (second : β → Program C R γ) :
    (program >>= first >>= second) = (program >>= fun value => first value >>= second) := by
  induction program with
  | ret value => rfl
  | call request rest ih =>
    simp only [call_bind]
    congr 1
    funext reply
    exact ih reply

def run (serve : C → S → S × R) : Program C R α → S → S × α
  | .ret value, state => (state, value)
  | .call request next, state =>
    (next (serve request state).2).run serve (serve request state).1

/-- The service state once the process is gone after at most `limit` calls. -/
def stopAfter (serve : C → S → S × R) : Nat → Program C R α → S → S
  | 0, _, state => state
  | _ + 1, .ret _, state => state
  | limit + 1, .call request next, state =>
    (next (serve request state).2).stopAfter serve limit (serve request state).1

/-- Call number `position` is answered by `fault` and leaves the service as it
was; every other call is answered by the service. -/
def failAt (serve : C → S → S × R) (fault : C → R) : Nat → Program C R α → S → S × α
  | _, .ret value, state => (state, value)
  | 0, .call request next, state => (next (fault request)).run serve state
  | position + 1, .call request next, state =>
    (next (serve request state).2).failAt serve fault position (serve request state).1

inductive Runs (answers : C → S → S → R → Prop) : Program C R α → S → S → α → Prop where
  | ret (value : α) (state : S) : Runs answers (.ret value) state state value
  | call {request : C} {next : R → Program C R α} {first middle last : S} {reply : R} {value : α}
      (answered : answers request first middle reply)
      (rest : Runs answers (next reply) middle last value) :
      Runs answers (.call request next) first last value

/-- Every call the program can issue satisfies the predicate. -/
def Uses (allowed : C → Prop) : Program C R α → Prop
  | .ret _ => True
  | .call request next => allowed request ∧ ∀ reply, (next reply).Uses allowed

/-- Calls whose replies nobody looks at, and then the program. -/
def after : List C → Program C R α → Program C R α
  | [], program => program
  | request :: rest, program => .call request fun _ => after rest program

def performAll (serve : C → S → S × R) (requests : List C) (state : S) : S :=
  requests.foldl (fun state request => (serve request state).1) state

section run
variable (serve : C → S → S × R) (fault : C → R) (requests : List C) (program : Program C R α) (limit position : Nat)
  (request : C) (value : α) (next : R → Program C R α) (state : S)

@[simp] theorem run_ret :
    (Program.ret value : Program C R α).run serve state = (state, value) := rfl

@[simp] theorem run_call :
    (Program.call request next).run serve state =
      (next (serve request state).2).run serve (serve request state).1 := rfl

theorem run_bind (next : α → Program C R β) :
    (program >>= next).run serve state = (next (program.run serve state).2).run serve (program.run serve state).1 := by
  induction program generalizing state with
  | ret value => rfl
  | call request rest ih => exact ih _ _

theorem stopAfter_zero : program.stopAfter serve 0 state = state := by
  cases program <;> rfl

@[simp] theorem stopAfter_ret : (Program.ret value : Program C R α).stopAfter serve limit state = state := by
  cases limit <;> rfl

@[simp] theorem stopAfter_call :
    (Program.call request next).stopAfter serve (limit + 1) state =
      (next (serve request state).2).stopAfter serve limit (serve request state).1 := rfl

@[simp] theorem failAt_ret :
    (Program.ret value : Program C R α).failAt serve fault position state = (state, value) := by
  cases position <;> rfl

@[simp] theorem failAt_call_zero :
    (Program.call request next).failAt serve fault 0 state = (next (fault request)).run serve state := rfl

@[simp] theorem failAt_call_succ :
    (Program.call request next).failAt serve fault (position + 1) state =
      (next (serve request state).2).failAt serve fault position (serve request state).1 := rfl

theorem after_bind (next : α → Program C R β) :
    (after requests program >>= next) = after requests (program >>= next) := by
  induction requests with
  | nil => rfl
  | cons request rest ih => simp only [after, call_bind, ih]

theorem run_after : (after requests program).run serve state = program.run serve (performAll serve requests state) := by
  induction requests generalizing state with
  | nil => rfl
  | cons request rest ih => exact ih _

theorem stopAfter_within (within : limit ≤ requests.length) :
    (after requests program).stopAfter serve limit state = performAll serve (requests.take limit) state := by
  induction requests generalizing limit state with
  | nil =>
    obtain rfl := Nat.le_zero.mp within
    exact stopAfter_zero serve _ _
  | cons request rest ih =>
    cases limit with
    | zero => rfl
    | succ limit => exact ih limit _ (Nat.le_of_succ_le_succ within)

theorem stopAfter_beyond :
    (after requests program).stopAfter serve (requests.length + limit) state =
      program.stopAfter serve limit (performAll serve requests state) := by
  induction requests generalizing state with
  | nil => rw [length_nil, Nat.zero_add]; rfl
  | cons request rest ih =>
    rw [length_cons, Nat.add_right_comm]
    exact ih _

theorem failAt_within (within : position < requests.length) :
    (after requests program).failAt serve fault position state =
      program.run serve (performAll serve (requests.eraseIdx position) state) := by
  induction requests generalizing position state with
  | nil => exact absurd within (Nat.not_lt_zero _)
  | cons request rest ih =>
    cases position with
    | zero => exact run_after serve rest program state
    | succ position => exact ih position _ (Nat.lt_of_succ_lt_succ within)

theorem failAt_beyond :
    (after requests program).failAt serve fault (requests.length + position) state =
      program.failAt serve fault position (performAll serve requests state) := by
  induction requests generalizing state with
  | nil => rw [length_nil, Nat.zero_add]; rfl
  | cons request rest ih =>
    rw [length_cons, Nat.add_right_comm]
    exact ih _

end run

section kept
variable {serve : C → S → S × R} {allowed : C → Prop} (kept : S → Prop)
  (preserved : ∀ request state, allowed request → kept state → kept (serve request state).1)
  (fault : C → R) (program : Program C R α) (uses : program.Uses allowed) (limit position : Nat) (state : S)
  (start : kept state)
include preserved uses start

theorem run_kept : kept (program.run serve state).1 := by
  induction program generalizing state with
  | ret value => exact start
  | call request next ih => exact ih _ (uses.2 _) _ (preserved _ _ uses.1 start)

theorem stopAfter_kept : kept (program.stopAfter serve limit state) := by
  induction program generalizing limit state with
  | ret value => rwa [stopAfter_ret]
  | call request next ih =>
    cases limit with
    | zero => exact start
    | succ limit => exact ih _ (uses.2 _) limit _ (preserved _ _ uses.1 start)

theorem failAt_kept : kept (program.failAt serve fault position state).1 := by
  induction program generalizing position state with
  | ret value => rwa [failAt_ret]
  | call request next ih =>
    cases position with
    | zero => exact run_kept kept preserved _ (uses.2 _) state start
    | succ position => exact ih _ (uses.2 _) position _ (preserved _ _ uses.1 start)

end kept

section runs
variable {answers : C → S → S → R → Prop} {allowed : C → Prop} {program : Program C R α} {first last : S} {value : α}

@[simp] theorem runs_ret {result : α} :
    Runs answers (.ret value : Program C R α) first last result ↔ last = first ∧ result = value := by
  constructor
  · intro ran
    cases ran
    exact ⟨rfl, rfl⟩
  · rintro ⟨rfl, rfl⟩
    exact .ret _ _

@[simp] theorem runs_call {request : C} {next : R → Program C R α} :
    Runs answers (.call request next) first last value ↔
      ∃ middle reply, answers request first middle reply ∧
        Runs answers (next reply) middle last value := by
  constructor
  · intro ran
    cases ran with
    | call answered rest => exact ⟨_, _, answered, rest⟩
  · rintro ⟨middle, reply, answered, rest⟩
    exact .call answered rest

variable {next : α → Program C R β}

theorem runs_bind {value : β} :
    Runs answers (program >>= next) first last value ↔
      ∃ middle between, Runs answers program first middle between ∧
        Runs answers (next between) middle last value := by
  induction program generalizing first with
  | ret start =>
    constructor
    · intro ran
      exact ⟨first, start, .ret _ _, ran⟩
    · rintro ⟨middle, between, head, tail⟩
      obtain ⟨rfl, rfl⟩ := runs_ret.mp head
      exact tail
  | call request rest ih =>
    rw [call_bind, runs_call]
    constructor
    · rintro ⟨middle, reply, answered, tail⟩
      obtain ⟨later, between, head, tail⟩ := (ih reply).mp tail
      exact ⟨later, between, .call answered head, tail⟩
    · rintro ⟨later, between, head, tail⟩
      obtain ⟨middle, reply, answered, head⟩ := runs_call.mp head
      exact ⟨middle, reply, answered, (ih reply).mpr ⟨later, between, head, tail⟩⟩

theorem runs_of_run {serve : C → S → S × R} (program : Program C R α) (state : S)
    (reliable : ∀ request state, answers request state (serve request state).1 (serve request state).2) :
    Runs answers program state (program.run serve state).1 (program.run serve state).2 := by
  induction program generalizing state with
  | ret value => exact .ret _ _
  | call request next ih => exact .call (reliable request state) (ih _ _)

theorem uses_bind (head : program.Uses allowed) (tail : ∀ value, (next value).Uses allowed) :
    (program >>= next).Uses allowed := by
  induction program with
  | ret value => exact tail value
  | call request rest ih => exact ⟨head.1, fun reply => ih reply (head.2 reply)⟩

theorem uses_all (allowed : C → Prop) (all : ∀ request, allowed request) (program : Program C R α) :
    program.Uses allowed := by
  induction program with
  | ret value => trivial
  | call request next ih => exact ⟨all request, ih⟩

theorem runs_invariant (kept : S → Prop) (preserved : ∀ request before after reply, allowed request →
      answers request before after reply → kept before → kept after)
    (uses : program.Uses allowed) (ran : Runs answers program first last value)
    (start : kept first) : kept last := by
  induction ran with
  | ret => exact start
  | call answered _ ih =>
    exact ih (uses.2 _) (preserved _ _ _ _ uses.1 answered start)

end runs

end Program

end CollectorFormal.Lib
