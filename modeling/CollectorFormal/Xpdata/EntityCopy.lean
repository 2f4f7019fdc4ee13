import CollectorFormal.Xpdata.Entity

/-! Copying an entity to a resource, which may have entities and attributes of its own. -/

namespace CollectorFormal.Entities

open List
open Client (Text)
open Pdata (AnyValue)

namespace EntityAttributeMap

/-- PutEmpty, and CopyTo into the value it returns. -/
def copyInto (m : EntityAttributeMap) (kv : Text × AnyValue) : EntityAttributeMap :=
  let put := m.putEmpty kv.1
  { put with attributes := put.attributes.put kv.1 kv.2 }

def fill (m : EntityAttributeMap) (pairs : List (Text × AnyValue)) : EntityAttributeMap := pairs.foldl copyInto m

end EntityAttributeMap

def EntityMap.copyAll (em : EntityMap) (position : Nat) (kind : Kind) (pairs : List (Text × AnyValue)) : EntityMap :=
  pairs.foldl (fun em kv => em.onEntity position kind (·.copyInto kv)) em

variable (e : Entity)

def Entity.copyToResource (res : EntityMap) : EntityMap :=
  let put := res.putEmpty e.ref.type
  let ent := put.refs.length - 1
  (put.copyAll ent .identifying (e.attributeMap .identifying).all).copyAll ent .descriptive
    (e.attributeMap .descriptive).all

/-- The entity of its type in the resource is a copy of e that keeps its attributes when others are removed, and
attributes of others are as before. -/
structure Faithful (e : Entity) (res after : EntityMap) : Prop where
  copied : ∃ ref, after.find e.ref.type = some ref ∧
    (e.ref.type ≠ [] → after.get e.ref.type = some ⟨ref, after.attributes⟩) ∧
    ref.type = e.ref.type ∧ ref.schemaUrl = e.ref.schemaUrl ∧
    ∀ kind, (Entity.attributeMap ⟨ref, after.attributes⟩ kind).all = (e.attributeMap kind).all
  others : ∀ key, key ∉ e.ref.listed → (∀ ref, res.find e.ref.type = some ref → key ∉ ref.listed) →
    after.attributes.get key = res.attributes.get key
  stays : ∀ types, e.ref.type ∉ types → ∃ ref, (after.removeAll types).find e.ref.type = some ref ∧
    ∀ kind, (Entity.attributeMap ⟨ref, (after.removeAll types).attributes⟩ kind).all = (e.attributeMap kind).all

def Entity.bound (kind : Kind) : List Text := (e.attributeMap kind).all.map Prod.fst

variable {m : EntityAttributeMap}

theorem mem_all {key : Text} {value : AnyValue} :
    (key, value) ∈ m.all ↔ key ∈ m.keys ∧ m.attributes.get key = some value := by
  rw [EntityAttributeMap.all, mem_filterMap]
  constructor
  · intro found
    rcases found with ⟨k, member, bound⟩
    rcases Option.map_eq_some_iff.mp bound with ⟨v, value_k, same⟩
    cases same
    exact ⟨member, value_k⟩
  · intro listed
    refine ⟨key, listed.1, ?_⟩
    rw [listed.2]
    rfl

theorem mem_bound {e : Entity} {kind : Kind} {key : Text} :
    key ∈ e.bound kind ↔ key ∈ e.ref.keys kind ∧ e.attributes.get key ≠ none := by
  rw [Entity.bound, mem_map]
  constructor
  · intro found
    rcases found with ⟨⟨k, value⟩, member, rfl⟩
    rcases mem_all.mp member with ⟨listed, bound⟩
    exact ⟨listed, Option.ne_none_iff_exists'.mpr ⟨value, bound⟩⟩
  · intro listed
    rcases Option.ne_none_iff_exists'.mp listed.2 with ⟨value, bound⟩
    exact ⟨(key, value), mem_all.mpr ⟨listed.1, bound⟩, rfl⟩

def Entity.allBound : List Text := e.bound .identifying ++ e.bound .descriptive

theorem mem_allBound {e : Entity} {key : Text} : key ∈ e.allBound ↔ ∃ kind, key ∈ e.bound kind := by
  rw [Entity.allBound, mem_append]
  constructor
  · intro found
    rcases found with member | member
    · exact ⟨.identifying, member⟩
    · exact ⟨.descriptive, member⟩
  · intro found
    rcases found with ⟨kind, member⟩
    cases kind with
    | identifying => exact .inl member
    | descriptive => exact .inr member

def addKey (keys : List Text) (k : Text) : List Text := if keys.contains k then keys else keys ++ [k]

theorem nodup_addKeys (added : List Text) {keys : List Text} (distinct : keys.Nodup) :
    (added.foldl addKey keys).Nodup := by
  induction added generalizing keys with
  | nil => exact distinct
  | cons k added ih =>
    apply ih
    unfold addKey
    split
    · exact distinct
    · next fresh =>
      rw [contains_iff_mem] at fresh
      exact nodup_append_comm.mp (nodup_cons.mpr ⟨fresh, distinct⟩)

variable (added keys : List Text)

theorem mem_addKeys (key : Text) : key ∈ added.foldl addKey keys ↔ key ∈ keys ∨ key ∈ added := by
  induction added generalizing keys with
  | nil => simp
  | cons k added ih =>
    rw [foldl_cons, ih, addKey]
    grind

theorem addKeys_of_nodup (distinct : (keys ++ added).Nodup) : added.foldl addKey keys = keys ++ added := by
  induction added generalizing keys with
  | nil => rw [foldl_nil, append_nil]
  | cons k added ih =>
    have fresh : k ∉ keys := by
      intro member
      exact (disjoint_of_nodup_append distinct) member mem_cons_self
    rw [foldl_cons, addKey, if_neg (mt contains_iff_mem.mp fresh), ih]
    · rw [append_assoc, singleton_append]
    · rwa [append_assoc, singleton_append]

theorem addKeys_nil_iff (added : List Text) : added.foldl addKey [] = added ↔ added.Nodup := by
  constructor
  · intro same
    rw [← same]
    exact nodup_addKeys added nodup_nil
  · exact addKeys_of_nodup added []

theorem fill_keys (pairs : List (Text × AnyValue)) (m : EntityAttributeMap) :
    (m.fill pairs).keys = (pairs.map Prod.fst).foldl addKey m.keys := by
  induction pairs generalizing m with
  | nil => rfl
  | cons kv pairs ih =>
    rw [EntityAttributeMap.fill, foldl_cons, ← EntityAttributeMap.fill, ih, map_cons, foldl_cons]
    simp [EntityAttributeMap.copyInto, EntityAttributeMap.putEmpty, EntityAttributeMap.put,
      EntityAttributeMap.containsKey, addKey]

theorem fill_get {source : Text → Option AnyValue} (pairs : List (Text × AnyValue))
    (from_source : ∀ kv ∈ pairs, source kv.1 = some kv.2) (m : EntityAttributeMap) (key : Text) :
    (m.fill pairs).attributes.get key =
      if key ∈ pairs.map Prod.fst then source key else m.attributes.get key := by
  induction pairs generalizing m with
  | nil => rfl
  | cons kv pairs ih =>
    rw [EntityAttributeMap.fill, foldl_cons, ← EntityAttributeMap.fill,
      ih (fun other member => from_source other (mem_cons_of_mem kv member)), EntityAttributeMap.copyInto,
      Attributes.get_put, EntityAttributeMap.putEmpty, EntityAttributeMap.put, Attributes.get_put, map_cons]
    grind

theorem copyAll_eq (others : List EntityRef) (ref : EntityRef) (attributes : Attributes) (kind : Kind)
    (pairs : List (Text × AnyValue)) :
    (EntityMap.mk (others ++ [ref]) attributes).copyAll others.length kind pairs =
      ⟨others ++ [ref.withKeys ((EntityAttributeMap.mk (ref.keys kind) attributes).fill pairs).keys kind],
        ((EntityAttributeMap.mk (ref.keys kind) attributes).fill pairs).attributes⟩ := by
  induction pairs generalizing ref attributes with
  | nil => simp [EntityMap.copyAll, EntityAttributeMap.fill]
  | cons kv pairs ih =>
    rw [EntityMap.copyAll, foldl_cons, ← EntityMap.copyAll, EntityMap.onEntity_placed, ih]
    simp [EntityAttributeMap.fill]

def Entity.copied : EntityRef where
  type := e.ref.type
  idKeys := (e.bound .identifying).foldl addKey []
  descriptionKeys := (e.bound .descriptive).foldl addKey []

theorem copied_keys (kind : Kind) : e.copied.keys kind = (e.bound kind).foldl addKey [] := by
  cases kind <;> rfl

section copying
variable (e : Entity) (res : EntityMap)

theorem copyToResource_refs : (e.copyToResource res).refs = res.refs.filter (·.type ≠ e.ref.type) ++ [e.copied] := by
  unfold Entity.copyToResource EntityMap.putEmpty
  simp only [length_append, length_singleton, Nat.add_sub_cancel]
  rw [copyAll_eq, copyAll_eq, EntityMap.remove_refs, fill_keys, fill_keys]
  rfl

theorem all_from_source (kind : Kind) : ∀ kv ∈ (e.attributeMap kind).all, e.attributes.get kv.1 = some kv.2 := by
  intro kv member
  exact (mem_all.mp member).2

theorem copyToResource_get (key : Text) :
    (e.copyToResource res).attributes.get key =
      if key ∈ e.allBound then e.attributes.get key else (res.remove e.ref.type).1.attributes.get key := by
  unfold Entity.copyToResource EntityMap.putEmpty
  simp only [length_append, length_singleton, Nat.add_sub_cancel]
  rw [copyAll_eq, copyAll_eq, fill_get _ (all_from_source e .descriptive), fill_get _ (all_from_source e .identifying),
    Entity.allBound, Entity.bound, Entity.bound]
  grind

theorem copyToResource_find : (e.copyToResource res).find e.ref.type = some e.copied := by
  rw [EntityMap.find, copyToResource_refs, find?_append]
  have none_left : (res.refs.filter (·.type ≠ e.ref.type)).find? (·.type = e.ref.type) = none := by
    simp
  rw [none_left]
  simp [Entity.copied]

theorem copyToResource_find_other {other : Text} (different : other ≠ e.ref.type) :
    (e.copyToResource res).find other = res.find other := by
  have kept := res.find_remove e.ref.type different
  rw [EntityMap.find, EntityMap.remove_refs] at kept
  rw [EntityMap.find, copyToResource_refs, find?_append, kept]
  simp [Entity.copied, different.symm]

end copying

structure Holds (e : Entity) (em : EntityMap) : Prop where
  found : em.find e.ref.type = some e.copied
  values : ∀ kind, ∀ key ∈ e.bound kind, em.attributes.get key = e.attributes.get key

theorem copyToResource_holds (res : EntityMap) : Holds e (e.copyToResource res) := by
  refine ⟨copyToResource_find e res, ?_⟩
  intro kind key member
  rw [copyToResource_get, if_pos (mem_allBound.mpr ⟨kind, member⟩)]

theorem all_of_pairs {pairs : List (Text × AnyValue)} (keys : m.keys = pairs.map Prod.fst)
    (values : ∀ kv ∈ pairs, m.attributes.get kv.1 = some kv.2) : m.all = pairs := by
  rw [EntityAttributeMap.all, keys, filterMap_map]
  calc
    _ = pairs.filterMap some := by
      apply filterMap_congr
      intro kv member
      rw [Function.comp_apply, values kv member]
      rfl
    _ = pairs := filterMap_some

theorem map_fst_all (bound : ∀ key ∈ m.keys, m.attributes.get key ≠ none) : m.all.map Prod.fst = m.keys := by
  rw [EntityAttributeMap.all, map_filterMap]
  calc
    _ = m.keys.filterMap some := by
      apply filterMap_congr
      intro key member
      rcases Option.ne_none_iff_exists'.mp (bound key member) with ⟨value, found⟩
      rw [found]
      rfl
    _ = m.keys := filterMap_some

theorem Holds.all_iff {e : Entity} {em : EntityMap} (holds : Holds e em) (kind : Kind) :
    (Entity.attributeMap ⟨e.copied, em.attributes⟩ kind).all = (e.attributeMap kind).all ↔ (e.bound kind).Nodup := by
  rw [← addKeys_nil_iff, ← copied_keys]
  constructor
  · intro same
    rw [Entity.bound, ← same, map_fst_all]
    · rfl
    · intro key member
      have added : key ∈ (e.bound kind).foldl addKey [] := copied_keys e kind ▸ member
      have listed := ((mem_addKeys _ _ key).mp added).resolve_left not_mem_nil
      have value : em.attributes.get key ≠ none := holds.values kind key listed ▸ (mem_bound.mp listed).2
      exact value
  · intro keys
    apply all_of_pairs keys
    intro kv member
    calc
      em.attributes.get kv.1 = e.attributes.get kv.1 := holds.values kind kv.1 (mem_map_of_mem member)
      _ = some kv.2 := all_from_source e kind kv member

theorem Holds.removeAll {e : Entity} {em : EntityMap} (holds : Holds e em)
    (apart : ∀ type ref, type ≠ e.ref.type → em.find type = some ref → ∀ kind, ∀ key ∈ e.bound kind, key ∉ ref.listed)
    (types : List Text) (others : e.ref.type ∉ types) : Holds e (em.removeAll types) := by
  induction types generalizing em with
  | nil => exact holds
  | cons type types ih =>
    have different : e.ref.type ≠ type := ne_of_not_mem_cons others
    apply ih _ _ (not_mem_of_not_mem_cons others)
    · refine ⟨?_, ?_⟩
      · rw [EntityMap.find_remove em type different]
        exact holds.found
      · intro kind key member
        rw [EntityMap.get_remove, if_neg, holds.values kind key member]
        intro shared
        rcases shared with ⟨ref, found, listed⟩
        exact apart type ref different.symm found kind key member listed
    · intro other ref differs found
      by_cases same : other = type
      · rw [same, EntityMap.find_remove_same] at found
        cases found
      · rw [EntityMap.find_remove em type same] at found
        exact apart other ref differs found

/-- The copy is faithful iff there is no schema URL, no key is twice in a list, and no entity of another type lists a
key of e. -/
theorem copyToResource_faithful_iff (e : Entity) (res : EntityMap) :
    Faithful e res (e.copyToResource res) ↔
      e.ref.schemaUrl = [] ∧ (∀ kind, (e.bound kind).Nodup) ∧
        ∀ type ref, type ≠ e.ref.type → res.find type = some ref → ∀ kind, ∀ key ∈ e.bound kind, key ∉ ref.listed := by
  have holds := copyToResource_holds e res
  constructor
  · intro faithful
    refine ⟨?_, ?_, ?_⟩
    · rcases faithful.copied with ⟨ref, found, _, _, schema, _⟩
      cases holds.found.symm.trans found
      exact schema.symm
    · intro kind
      rcases faithful.copied with ⟨ref, found, _, _, _, all⟩
      cases holds.found.symm.trans found
      exact (holds.all_iff kind).mp (all kind)
    · intro type ref different found kind key member listed
      rcases faithful.stays [type] (by simpa using different.symm) with ⟨left, still, all⟩
      -- The key is gone from the map, but e has a value for it.
      have gone : ((e.copyToResource res).removeAll [type]).attributes.get key = none := by
        have there := (copyToResource_find_other e res different).trans found
        exact (EntityMap.get_remove _ type key).trans (if_pos ⟨ref, there, listed⟩)
      rcases mem_map.mp member with ⟨⟨k, value⟩, pair, rfl⟩
      rw [← all kind] at pair
      have kept := (mem_all.mp pair).2
      cases gone.symm.trans kept
  · intro conditions
    rcases conditions with ⟨schema, distinct, apart⟩
    refine ⟨⟨e.copied, holds.found, ?_, rfl, schema.symm, fun kind => (holds.all_iff kind).mpr (distinct kind)⟩, ?_, ?_⟩
    · intro named
      rw [EntityMap.get, if_neg named, holds.found]
      rfl
    · intro key unlisted not_replaced
      have unbound : key ∉ e.allBound := by
        intro member
        rcases mem_allBound.mp member with ⟨kind, bound⟩
        exact unlisted (e.ref.mem_listed.mpr ⟨kind, (mem_bound.mp bound).1⟩)
      rw [copyToResource_get, if_neg unbound, EntityMap.get_remove, if_neg]
      intro replaced
      rcases replaced with ⟨ref, found, listed⟩
      exact not_replaced ref found listed
    · intro types others
      have still : Holds e ((e.copyToResource res).removeAll types) := by
        refine holds.removeAll ?_ types others
        intro type ref different found
        rw [copyToResource_find_other e res different] at found
        exact apart type ref different found
      exact ⟨e.copied, still.found, fun kind => (still.all_iff kind).mpr (distinct kind)⟩

/-- An entity of type 1 with the key 7, which may have a schema URL. -/
def oneKey (schemaUrl : Text) : Entity where
  ref := { type := [1], schemaUrl := schemaUrl, idKeys := [[7]] }
  attributes := ⟨[.mk [7] (.boolValue true) 0], nodup_singleton _⟩

def sameKey : EntityMap where
  refs := [{ type := [2], idKeys := [[7]] }]
  attributes := ⟨[.mk [7] (.boolValue false) 0], nodup_singleton _⟩

/-- The schema URL is not copied, and removing the other entity takes the attribute of the copy. -/
theorem copyToResource_loses :
    ¬Faithful (oneKey [9]) ⟨[], ⟨[], nodup_nil⟩⟩ ((oneKey [9]).copyToResource ⟨[], ⟨[], nodup_nil⟩⟩) ∧
      ¬Faithful (oneKey []) sameKey ((oneKey []).copyToResource sameKey) := by
  constructor
  · intro faithful
    obtain ⟨ref, found, _, _, schema, _⟩ := faithful.copied
    cases found
    cases schema
  · intro faithful
    obtain ⟨ref, found, all⟩ := faithful.stays [[2]] (by decide)
    cases found
    have count : 0 = 1 := congrArg List.length (all .identifying)
    cases count

end CollectorFormal.Entities
