import Mathlib.Data.List.Forall2
import CollectorFormal.Lib.Assoc

/-! Partial functions on the elements of a list, and on the values of keyed entries. -/

namespace CollectorFormal.Lib

open List Option

variable {α β γ κ : Type}

theorem map_eq_some {f : α → β} {given : Option α} {result : β} :
    given.map f = some result ↔ ∃ value, given = some value ∧ result = f value := by
  rw [map_eq_some_iff]
  simp only [eq_comm]

variable {f : α → Option β} {items : List α}

variable {results : List β}

theorem mapM_eq_some_iff :
    items.mapM f = some results ↔ List.Forall₂ (fun item result => f item = some result) items results := by
  induction items generalizing results with
  | nil => simp [eq_comm]
  | cons item rest ih =>
    cases results with
    | nil => simp [mapM_cons, bind_eq_some_iff]
    | cons result results =>
      rw [forall₂_cons, ← ih, mapM_cons]
      simp [bind_eq_some_iff]

theorem bind_eq_ok {ε : Type} {m : Except ε α} {f : α → Except ε β} {result : β} :
    m >>= f = .ok result ↔ ∃ value, m = .ok value ∧ f value = .ok result := by
  cases m with
  | error | ok => simp [Bind.bind, Except.bind]

theorem mapM_eq_ok_iff {ε : Type} {f : α → Except ε β} {items : List α} {results : List β} :
    items.mapM f = .ok results ↔ List.Forall₂ (fun item result => f item = .ok result) items results := by
  induction items generalizing results with
  | nil => simp [Pure.pure, Except.pure, eq_comm]
  | cons item rest ih =>
    rw [mapM_cons]
    simp only [bind_eq_ok, ih]
    constructor
    · rintro ⟨value, here, others, later, last⟩
      cases last
      exact List.Forall₂.cons here later
    · intro each
      cases each with
      | cons here later => exact ⟨_, here, _, later, rfl⟩

theorem mapM_eq_iff {P R : α → α → Prop} {xs ys : List α} {ss ts : List β} (related : List.Forall₂ P xs ys)
    (each : ∀ x y s t, P x y → f x = some s → f y = some t → (s = t ↔ R x y))
    (left : xs.mapM f = some ss) (right : ys.mapM f = some ts) : ss = ts ↔ List.Forall₂ R xs ys := by
  rw [mapM_eq_some_iff] at left right
  induction related generalizing ss ts with
  | nil =>
    cases left
    cases right
    simp
  | cons head tail ih =>
    cases left with
    | cons first left =>
      cases right with
      | cons second right => rw [List.cons.injEq, each _ _ _ _ head first second, ih left right, forall₂_cons]

theorem forall₂_comp {δ : Type} {P : α → β → Prop} {Q : β → δ → Prop} {R : α → δ → Prop}
    (compose : ∀ a b d, P a b → Q b d → R a d) {as : List α} {bs : List β} {ds : List δ}
    (first : List.Forall₂ P as bs) (second : List.Forall₂ Q bs ds) : List.Forall₂ R as ds := by
  induction first generalizing ds with
  | nil =>
    cases second
    exact List.Forall₂.nil
  | cons head tail ih =>
    cases second with
    | cons head' tail' => exact List.Forall₂.cons (compose _ _ _ head head') (ih tail')

theorem forall₂_of_map_eq {f : α → γ} {P : α → α → Prop} {xs ys : List α} (equal : xs.map f = ys.map f)
    (each : ∀ x ∈ xs, ∀ y ∈ ys, f x = f y → P x y) : List.Forall₂ P xs ys := by
  induction xs generalizing ys with
  | nil =>
    rw [map_nil, eq_comm, map_eq_nil_iff] at equal
    rw [equal]
    exact List.Forall₂.nil
  | cons x xs ih =>
    cases ys with
    | nil => cases equal
    | cons y ys =>
      obtain ⟨head, tail⟩ := List.cons.inj equal
      refine List.Forall₂.cons (each x mem_cons_self y mem_cons_self head) (ih tail ?_)
      intro x' inside y' inside'
      exact each x' (mem_cons_of_mem _ inside) y' (mem_cons_of_mem _ inside')

variable {P : α → β → Prop}

theorem exists_of_forall₂_mem {as : List α} {bs : List β} (each : List.Forall₂ P as bs) {b : β}
    (member : b ∈ bs) : ∃ a ∈ as, P a b := by
  induction each with
  | nil => cases member
  | cons head tail ih =>
    rcases mem_cons.mp member with rfl | later
    · exact ⟨_, mem_cons_self, head⟩
    · obtain ⟨a, inside, at_a⟩ := ih later
      exact ⟨a, mem_cons_of_mem _ inside, at_a⟩

theorem exists_of_mem_forall₂ {as : List α} {bs : List β} (each : List.Forall₂ P as bs) {a : α}
    (member : a ∈ as) : ∃ b ∈ bs, P a b :=
  exists_of_forall₂_mem each.flip member

theorem getElem?_mapM (i : Nat) (defined : items.mapM f = some results) : results[i]? = items[i]?.bind f := by
  rw [mapM_eq_some_iff] at defined
  induction defined generalizing i with
  | nil => rfl
  | cons head tail ih =>
    cases i with
    | zero => exact head.symm
    | succ i => exact ih i

theorem length_mapM (defined : items.mapM f = some results) : results.length = items.length :=
  (mapM_eq_some_iff.mp defined).length_eq.symm

def onValues (f : β → Option γ) (entries : List (κ × β)) : Option (List (κ × γ)) :=
  entries.mapM fun entry => (f entry.2).map (entry.1, ·)

theorem onValues_cons {f : β → Option γ} {key : κ} {value : β} {rest : List (κ × β)} {results : List (κ × γ)} :
    onValues f ((key, value) :: rest) = some results ↔
      ∃ result others, f value = some result ∧ onValues f rest = some others ∧ results = (key, result) :: others := by
  simp only [onValues, mapM_cons, bind_eq_bind, bind_eq_some_iff, map_eq_some_iff]
  constructor
  · rintro ⟨_, ⟨result, at_value, rfl⟩, others, at_rest, same⟩
    exact ⟨result, others, at_value, at_rest, by simpa using same.symm⟩
  · rintro ⟨result, others, at_value, at_rest, rfl⟩
    exact ⟨_, ⟨result, at_value, rfl⟩, others, at_rest, rfl⟩

theorem keys_onValues {f : β → Option γ} {entries : List (κ × β)} {results : List (κ × γ)}
    (defined : onValues f entries = some results) : results.map Prod.fst = entries.map Prod.fst := by
  induction entries generalizing results with
  | nil =>
    simp only [onValues, mapM_nil, Option.pure_def, Option.some.injEq] at defined
    rw [← defined]
    rfl
  | cons entry rest ih =>
    obtain ⟨result, others, _, at_rest, rfl⟩ := onValues_cons.mp defined
    rw [map_cons, map_cons, ih at_rest]

theorem find_onValues [DecidableEq κ] {f : β → Option γ} {entries : List (κ × β)} {results : List (κ × γ)} (key : κ)
    (defined : onValues f entries = some results) : find key results = (find key entries).bind f := by
  induction entries generalizing results with
  | nil =>
    simp only [onValues, mapM_nil, Option.pure_def, Option.some.injEq] at defined
    rw [← defined]
    rfl
  | cons entry rest ih =>
    obtain ⟨result, others, at_value, at_rest, rfl⟩ := onValues_cons.mp defined
    by_cases same : entry.1 = key
    · simp [find, same, at_value]
    · simp [find, same, ih at_rest]

end CollectorFormal.Lib
