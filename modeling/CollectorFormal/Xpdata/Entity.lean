import CollectorFormal.Pdata.Map

/-! Entities of a resource: lists of keys over one map of attributes that all of them share. -/

namespace CollectorFormal.Entities

open List
open Client (Text)
open Pdata (AnyValue KeyValue getValue)

/-- A pcommon.Map with distinct keys. -/
structure Attributes where
  entries : List KeyValue
  distinct : (Pdata.keys entries).Nodup

namespace Attributes
variable (m : Attributes) (key k : Text) (value : AnyValue)

def get : Option AnyValue := getValue key m.entries

theorem refines : Pdata.Map.Refines m.entries m.get := ⟨m.distinct, fun _ => rfl⟩

def put : Attributes := ⟨Pdata.Map.put k value m.entries, (Pdata.Map.refines_put m.refines).distinct⟩

def remove : Attributes := ⟨(Pdata.Map.remove key m.entries).1, (Pdata.Map.refines_remove m.refines).distinct⟩

def removeAll (removed : List Text) : Attributes := removed.foldl remove m

theorem get_put : (m.put k value).get key = if key = k then some value else m.get key := by
  have bound := (@Pdata.Map.refines_put m.entries k value m.get m.refines).get key
  rwa [Function.update_apply] at bound

theorem get_remove : (m.remove k).get key = if key = k then none else m.get key := by
  have bound := (@Pdata.Map.refines_remove m.entries k m.get m.refines).get key
  rwa [Function.update_apply] at bound

theorem get_removeAll (removed : List Text) :
    (m.removeAll removed).get key = if key ∈ removed then none else m.get key := by
  induction removed generalizing m with
  | nil => rfl
  | cons k removed ih =>
    rw [removeAll, foldl_cons, ← removeAll, ih, get_remove]
    grind

end Attributes

/-- A list of keys of an entity, with the map that has the values. -/
structure EntityAttributeMap where
  keys : List Text
  attributes : Attributes

namespace EntityAttributeMap
variable (m : EntityAttributeMap) (key k : Text)

def containsKey : Bool := m.keys.contains key

def get : Option AnyValue := if m.containsKey key then m.attributes.get key else none

def canPut : Bool := m.containsKey key || (m.attributes.get key).isNone

/-- What the Put functions share. -/
def put (value : AnyValue) : EntityAttributeMap where
  keys := if m.containsKey k then m.keys else m.keys ++ [k]
  attributes := m.attributes.put k value

def putEmpty : EntityAttributeMap := m.put k .empty

def putStr (v : Text) : EntityAttributeMap := m.put k (.stringValue v)

def remove : EntityAttributeMap × Bool :=
  if m.containsKey key then (⟨m.keys.filter (· ≠ key), m.attributes.remove key⟩, true) else (m, false)

def all : List (Text × AnyValue) := m.keys.filterMap fun k => (m.attributes.get k).map (k, ·)

end EntityAttributeMap

structure EntityRef where
  schemaUrl : Text := []
  type : Text
  idKeys : List Text := []
  descriptionKeys : List Text := []

inductive Kind where
  | identifying
  | descriptive

namespace EntityRef
variable (ref : EntityRef)

def keys : Kind → List Text
  | .identifying => ref.idKeys
  | .descriptive => ref.descriptionKeys

def withKeys (keys : List Text) : Kind → EntityRef
  | .identifying => { ref with idKeys := keys }
  | .descriptive => { ref with descriptionKeys := keys }

def listed : List Text := ref.idKeys ++ ref.descriptionKeys

@[simp]
theorem withKeys_type (keys : List Text) (kind : Kind) : (ref.withKeys keys kind).type = ref.type := by
  cases kind <;> rfl

@[simp]
theorem keys_withKeys (keys : List Text) (kind : Kind) : (ref.withKeys keys kind).keys kind = keys := by
  cases kind <;> rfl

@[simp]
theorem withKeys_withKeys (first second : List Text) (kind : Kind) :
    (ref.withKeys first kind).withKeys second kind = ref.withKeys second kind := by
  cases kind <;> rfl

@[simp]
theorem withKeys_keys (kind : Kind) : ref.withKeys (ref.keys kind) kind = ref := by
  cases kind <;> rfl

theorem mem_listed {key : Text} : key ∈ ref.listed ↔ ∃ kind, key ∈ ref.keys kind := by
  rw [listed, mem_append]
  constructor
  · intro member
    rcases member with identifying | descriptive
    · exact ⟨.identifying, identifying⟩
    · exact ⟨.descriptive, descriptive⟩
  · intro member
    rcases member with ⟨kind, member⟩
    cases kind with
    | identifying => exact .inl member
    | descriptive => exact .inr member

end EntityRef

structure Entity where
  ref : EntityRef
  attributes : Attributes

/-- IdentifyingAttributes and DescriptiveAttributes. -/
def Entity.attributeMap (e : Entity) (kind : Kind) : EntityAttributeMap := ⟨e.ref.keys kind, e.attributes⟩

structure EntityMap where
  refs : List EntityRef
  attributes : Attributes

namespace EntityMap
variable (em : EntityMap) (entityType : Text)

def find : Option EntityRef := em.refs.find? (·.type = entityType)

def get : Option Entity := if entityType = [] then none else (em.find entityType).map (⟨·, em.attributes⟩)

def remove : EntityMap × Bool :=
  match em.find entityType with
  | none => (em, false)
  | some ref =>
    (⟨em.refs.filter (·.type ≠ entityType), (em.attributes.removeAll ref.idKeys).removeAll ref.descriptionKeys⟩, true)

def putEmpty : EntityMap :=
  let removed := (em.remove entityType).1
  { removed with refs := removed.refs ++ [{ type := entityType }] }

def onEntity (position : Nat) (kind : Kind) (f : EntityAttributeMap → EntityAttributeMap) : EntityMap :=
  match em.refs[position]? with
  | none => em
  | some ref =>
    let changed := f ⟨ref.keys kind, em.attributes⟩
    ⟨em.refs.set position (ref.withKeys changed.keys kind), changed.attributes⟩

def removeAll (types : List Text) : EntityMap := types.foldl (fun em entityType => (em.remove entityType).1) em

def listed : List Text := em.refs.flatMap EntityRef.listed

theorem onEntity_placed (front back : List EntityRef) (ref : EntityRef) (attributes : Attributes) (kind : Kind)
    (f : EntityAttributeMap → EntityAttributeMap) :
    (EntityMap.mk (front ++ ref :: back) attributes).onEntity front.length kind f =
      ⟨front ++ ref.withKeys (f ⟨ref.keys kind, attributes⟩).keys kind :: back,
        (f ⟨ref.keys kind, attributes⟩).attributes⟩ := by
  simp [onEntity]

variable {em entityType}

theorem find_some {ref : EntityRef} (found : em.find entityType = some ref) : ref ∈ em.refs ∧ ref.type = entityType := by
  refine ⟨mem_of_find?_eq_some found, ?_⟩
  simpa using find?_some found

theorem find_eq_none : em.find entityType = none ↔ ∀ ref ∈ em.refs, ref.type ≠ entityType := by
  simp [find]

variable (em entityType)

theorem remove_refs : (em.remove entityType).1.refs = em.refs.filter (·.type ≠ entityType) := by
  unfold remove
  cases found : em.find entityType with
  | some ref => rfl
  | none =>
    refine (filter_eq_self.mpr ?_).symm
    simpa using find_eq_none.mp found

theorem get_remove (key : Text) :
    (em.remove entityType).1.attributes.get key =
      if ∃ ref, em.find entityType = some ref ∧ key ∈ ref.listed then none else em.attributes.get key := by
  unfold remove
  cases em.find entityType with
  | none => simp
  | some ref =>
    simp only [Attributes.get_removeAll, Option.some.injEq, exists_eq_left', EntityRef.listed, mem_append]
    grind

theorem find_remove_same : (em.remove entityType).1.find entityType = none := by
  rw [find_eq_none, remove_refs]
  intro ref member
  simpa using (mem_filter.mp member).2

theorem find_remove {other : Text} (different : other ≠ entityType) :
    (em.remove entityType).1.find other = em.find other := by
  rw [find, find, remove_refs, find?_filter]
  congr 1
  funext ref
  grind

end EntityMap

end CollectorFormal.Entities
