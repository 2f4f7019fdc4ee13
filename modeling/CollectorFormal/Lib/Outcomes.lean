import Mathlib.Data.List.Basic

/-! What computations that may fail do to the state, by how they end, and loops over a list that end at an error. -/

namespace CollectorFormal.Lib

open List

section
variable {ε σ α β : Type}

/-- Related to the state before in one way after a success and in another after a failure. -/
def EndsAt (onOk onError : σ → σ → Prop) (s : σ) : Except ε α × σ → Prop
  | (.ok _, s') => onOk s s'
  | (.error _, s') => onError s s'

def Ends (onOk onError : σ → σ → Prop) (m : ExceptT ε (StateM σ) α) : Prop :=
  ∀ s, EndsAt onOk onError s (m.run.run s)

variable {onOk onError : σ → σ → Prop}

theorem EndsAt.after {a b : σ} {ended : Except ε α × σ} (succeeds : ∀ ⦃a b c⦄, onOk a b → onOk b c → onOk a c)
    (fails : ∀ ⦃a b c⦄, onOk a b → onError b c → onError a c)
    (begun : onOk a b) (rest : EndsAt onOk onError b ended) : EndsAt onOk onError a ended := by
  rcases ended with ⟨err | value, s'⟩
  · exact fails begun rest
  · exact succeeds begun rest

theorem run_bind_eq (m : ExceptT ε (StateM σ) α) (f : α → ExceptT ε (StateM σ) β) (s : σ) :
    (m >>= f).run.run s =
      match m.run.run s with
      | (.ok value, s') => (f value).run.run s'
      | (.error err, s') => (.error err, s') := by
  rw [ExceptT.run_bind, StateT.run_bind]
  rcases m.run.run s with ⟨_ | _, s'⟩ <;> rfl

theorem run_get_bind (f : σ → ExceptT ε (StateM σ) β) (s : σ) : (get >>= f).run.run s = (f s).run.run s := rfl

theorem run_lift_bind (m : StateM σ α) (f : α → ExceptT ε (StateM σ) β) (s : σ) :
    ((ExceptT.lift m : ExceptT ε (StateM σ) α) >>= f).run.run s = (f (m.run s).1).run.run (m.run s).2 := rfl

theorem run_adapt {ε' : Type} (wrap : ε → ε') (m : ExceptT ε (StateM σ) α) (s : σ) :
    (ExceptT.adapt wrap m).run.run s = ((m.run.run s).1.mapError wrap, (m.run.run s).2) := rfl

theorem ends_pure (refl : ∀ s, onOk s s) (value : α) :
    Ends onOk onError (pure value : ExceptT ε (StateM σ) α) := fun s => refl s

theorem ends_throw (refl : ∀ s, onError s s) (err : ε) :
    Ends onOk onError (throw err : ExceptT ε (StateM σ) α) := fun s => refl s

variable {m : ExceptT ε (StateM σ) α}

theorem Ends.bind {f : α → ExceptT ε (StateM σ) β} (succeeds : ∀ ⦃a b c⦄, onOk a b → onOk b c → onOk a c)
    (fails : ∀ ⦃a b c⦄, onOk a b → onError b c → onError a c)
    (first : Ends onOk onError m) (second : ∀ value, Ends onOk onError (f value)) :
    Ends onOk onError (m >>= f) := by
  intro s
  have begun := first s
  rw [run_bind_eq]
  rcases ran : m.run.run s with ⟨err | value, s'⟩
  · rwa [ran] at begun
  · rw [ran] at begun
    exact (second value s').after succeeds fails begun

theorem Ends.lift (ends : Ends onOk onOk m) :
    Ends onOk onError (ExceptT.lift m.run : ExceptT ε (StateM σ) (Except ε α)) := by
  intro s
  have ended := ends s
  change onOk s (m.run.run s).2
  rcases ran : m.run.run s with ⟨err | value, s'⟩ <;> rwa [ran] at ended

theorem Ends.adapt {ε' : Type} {m : ExceptT ε (StateM σ) α} (wrap : ε → ε') (ends : Ends onOk onError m) :
    Ends onOk onError (ExceptT.adapt wrap m) := by
  intro s
  have ended := ends s
  rw [run_adapt]
  rcases ran : m.run.run s with ⟨err | value, s'⟩ <;> rwa [ran] at ended

theorem Ends.mono {onOk' onError' : σ → σ → Prop} {m : ExceptT ε (StateM σ) α} (ends : Ends onOk onError m)
    (ok : ∀ ⦃a b⦄, onOk a b → onOk' a b) (error : ∀ ⦃a b⦄, onError a b → onError' a b) :
    Ends onOk' onError' m := by
  intro s
  have ended := ends s
  rcases ran : m.run.run s with ⟨err | value, s'⟩
  · rw [ran] at ended
    exact error ended
  · rw [ran] at ended
    exact ok ended

theorem ok_of_bind {ε α β : Type} {first : Except ε α} {rest : α → Except ε β} {result : β}
    (ends : (first >>= rest) = .ok result) : ∃ value, first = .ok value ∧ rest value = .ok result := by
  cases first with
  | error failure => cases ends
  | ok value => exact ⟨value, rfl, ends⟩

theorem ok_of_guard {ε α : Type} {refuses : Prop} [Decidable refuses] {err : ε} {rest : Except ε α} {result : α}
    (ends : (if refuses then .error err else rest) = .ok result) : ¬refuses ∧ rest = .ok result := by
  by_cases holds : refuses
  · rw [if_pos holds] at ends
    cases ends
  · rw [if_neg holds] at ends
    exact ⟨holds, ends⟩

theorem ok_of_mapError {ε δ α : Type} {wrap : ε → δ} {first : Except ε α} {value : α}
    (ends : first.mapError wrap = .ok value) : first = .ok value := by
  cases first with
  | error failure => cases ends
  | ok found =>
    cases ends
    rfl

end

variable {α σ ε : Type}

def untilError (step : α → σ → σ × Option ε) : List α → σ → σ × Option ε
  | [], s => (s, none)
  | a :: items, s =>
    match step a s with
    | (s, none) => untilError step items s
    | (s, some err) => (s, some err)

variable {step : α → σ → σ × Option ε} {items : List α} {s s' : σ} {a : α} {err : ε}

theorem untilError_cons_none (steps : step a s = (s', none)) :
    untilError step (a :: items) s = untilError step items s' := by rw [untilError, steps]

theorem untilError_cons_some (fails : step a s = (s', some err)) :
    untilError step (a :: items) s = (s', some err) := by rw [untilError, fails]

variable (holds : List α → σ → Prop) (fails : List α → α → σ → ε → Prop)

/-- What a step at an element has led to, after those that are done. -/
def StepsTo (done : List α) (a : α) :
    σ × Option ε → Prop
  | (s, none) => holds (done ++ [a]) s
  | (s, some err) => fails done a s err

def EndsIn (items : List α) : σ × Option ε → Prop
  | (s, none) => holds items s
  | (s, some err) => ∃ done a rest, items = done ++ a :: rest ∧ fails done a s err

theorem untilError_ends (starts : holds [] s)
    (steps : ∀ done a rest s, items = done ++ a :: rest → holds done s → StepsTo holds fails done a (step a s)) :
    EndsIn holds fails items (untilError step items s) := by
  have fromHere : ∀ rest done s, items = done ++ rest → holds done s →
      EndsIn holds fails items (untilError step rest s) := by
    intro rest
    induction rest with
    | nil =>
      intro done s whole here
      rw [append_nil] at whole
      exact whole ▸ here
    | cons a rest ih =>
      intro done s whole here
      have stepped := steps done a rest s whole here
      cases taken : step a s with
      | mk s' result =>
        rw [taken] at stepped
        cases result with
        | none =>
          rw [untilError_cons_none taken]
          exact ih (done ++ [a]) s' (by rw [whole, append_assoc, singleton_append]) stepped
        | some err =>
          rw [untilError_cons_some taken]
          exact ⟨done, a, rest, whole, stepped⟩
  exact fromHere items [] s rfl starts

section outputs
variable {ι ο : Type}

def outputs (step : σ → ι → σ × ο) : σ → List ι → List ο
  | _, [] => []
  | s, input :: inputs => (step s input).2 :: outputs step (step s input).1 inputs

variable {step : σ → ι → σ × ο}

theorem outputs_tracked (tracks : List ο → σ → Prop) (starts : tracks [] s)
    (steps : ∀ done s input, tracks done s → tracks (done ++ [(step s input).2]) (step s input).1)
    {inputs : List ι} {before after : List ο} {out : ο}
    (split : outputs step s inputs = before ++ out :: after) :
    ∃ s' input, tracks before s' ∧ out = (step s' input).2 := by
  have fromHere (inputs : List ι) : ∀ done s before, tracks done s → outputs step s inputs = before ++ out :: after →
      ∃ s' input, tracks (done ++ before) s' ∧ out = (step s' input).2 := by
    induction inputs with
    | nil =>
      intro done s before _ split
      simp [outputs] at split
    | cons input inputs ih =>
      intro done s before here split
      rcases cons_eq_append_iff.mp split with ⟨rfl, same⟩ | ⟨before, rfl, rest⟩
      · cases same
        refine ⟨s, input, ?_, rfl⟩
        rwa [append_nil]
      · have later := ih (done ++ [(step s input).2]) (step s input).1 before (steps done s input here) rest
        rwa [append_assoc, singleton_append] at later
  exact fromHere inputs [] s before starts split

end outputs

end CollectorFormal.Lib
