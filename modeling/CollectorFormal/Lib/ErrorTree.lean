/-! Errors that wrap others, and the search for one of a given kind.

The search looks at a node before what it wraps, and at joined errors from the first to the last. -/

namespace CollectorFormal.Lib

open List

inductive ErrorTree (α : Type) where
  | leaf (label : α)
  | wrap (label : α) (inner : ErrorTree α)
  | join (label : α) (first second : ErrorTree α)

namespace ErrorTree
variable {α β : Type}

/-- The first node that the target accepts, as errors.As finds it. -/
def as (target : α → Option β) : ErrorTree α → Option β
  | leaf label => target label
  | wrap label inner => (target label).or (inner.as target)
  | join label first second => (target label).or ((first.as target).or (second.as target))

def labels : ErrorTree α → List α
  | leaf label => [label]
  | wrap label inner => label :: inner.labels
  | join label first second => label :: (first.labels ++ second.labels)

variable (target : α → Option β) (err : ErrorTree α)

theorem as_eq_findSome : err.as target = err.labels.findSome? target := by
  have cons (label : α) (rest : List α) :
      (label :: rest).findSome? target = (target label).or (rest.findSome? target) := by
    rw [findSome?_cons]
    cases target label with
    | none | some => rfl
  induction err with
  | leaf label =>
    rw [labels, cons, findSome?_nil, Option.or_none]
    rfl
  | wrap label inner ih => rw [labels, cons, as, ih]
  | join label first second first_ih second_ih =>
    rw [labels, cons, as, first_ih, second_ih, findSome?_append]

theorem as_isSome_iff : (err.as target).isSome = true ↔ ∃ label ∈ err.labels, (target label).isSome = true := by
  rw [as_eq_findSome, findSome?_isSome_iff]

theorem as_isSome_iff_mem {wanted : α} (only : ∀ label, (target label).isSome = true ↔ label = wanted) :
    (err.as target).isSome = true ↔ wanted ∈ err.labels := by
  simp [as_isSome_iff, only]

theorem as_eq_some_iff {target : α → Option β} {form : β → α}
    (formed : ∀ label found, target label = some found ↔ label = form found) (err : ErrorTree α) (found : β) :
    err.as target = some found ↔ ∃ front back, err.labels = front ++ form found :: back ∧
      ∀ earlier ∈ front, target earlier = none := by
  rw [as_eq_findSome, findSome?_eq_some_iff]
  constructor
  · rintro ⟨front, label, back, labels, accepted, earlier⟩
    rw [(formed label found).mp accepted] at labels
    exact ⟨front, back, labels, earlier⟩
  · rintro ⟨front, back, labels, earlier⟩
    exact ⟨front, _, back, labels, (formed _ found).mpr rfl, earlier⟩

def root : ErrorTree α → α
  | leaf label => label
  | wrap label _ => label
  | join label _ _ => label

theorem root_mem_labels : err.root ∈ err.labels := by
  cases err with
  | leaf | wrap | join => exact mem_cons_self

/-- The nodes in the order of the search, each with what it wraps. -/
def nodes : ErrorTree α → List (ErrorTree α)
  | leaf label => [leaf label]
  | wrap label inner => wrap label inner :: inner.nodes
  | join label first second => join label first second :: (first.nodes ++ second.nodes)

theorem map_root_nodes : err.nodes.map root = err.labels := by
  induction err with
  | leaf label => rfl
  | wrap label inner ih => rw [nodes, labels, map_cons, ih, root]
  | join label first second first_ih second_ih =>
    rw [nodes, labels, map_cons, map_append, first_ih, second_ih, root]

def asNode : Option (β × ErrorTree α) :=
  err.nodes.findSome? fun node => (target node.root).map (·, node)

theorem map_fst_asNode : (err.asNode target).map Prod.fst = err.as target := by
  rw [as_eq_findSome, ← map_root_nodes, asNode, map_findSome?, findSome?_map]
  congr 1
  funext node
  rw [Function.comp_apply, Option.map_map]
  exact congrFun Option.map_id (target node.root)

end ErrorTree

end CollectorFormal.Lib
