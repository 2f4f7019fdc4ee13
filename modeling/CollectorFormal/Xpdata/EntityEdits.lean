import CollectorFormal.Lib.Runs
import CollectorFormal.Xpdata.Entity

/-! Edits of the entities of one map, each put after a CanPut that returned true.

The key lists then divide the attributes: each belongs to one list of one entity, or to none. -/

namespace CollectorFormal.Entities

open Client (Text)
open Pdata (AnyValue)
open Lib List

/-- The operations on a map, and on a list of its entity at a position. A put may be PutEmpty or PutStr. -/
inductive Op where
  | putEmpty (entityType : Text)
  | remove (entityType : Text)
  | put (position : Nat) (kind : Kind) (k : Text) (value : AnyValue)
  | removeKey (position : Nat) (kind : Kind) (key : Text)

namespace Op

def apply (em : EntityMap) : Op → EntityMap
  | .putEmpty entityType => em.putEmpty entityType
  | .remove entityType => (em.remove entityType).1
  | .put position kind k value => em.onEntity position kind (·.put k value)
  | .removeKey position kind key => em.onEntity position kind fun m => (m.remove key).1

def entity (em : EntityMap) : Op → Option EntityRef
  | .putEmpty entityType | .remove entityType => em.find entityType
  | .put position _ _ _ | .removeKey position _ _ => em.refs[position]?

/-- The entity is live, and CanPut returns true for a key that is put. -/
def Guarded (op : Op) (em : EntityMap) : Prop :=
  match op with
  | .putEmpty _ | .remove _ => True
  | .put position kind k _ =>
    ∃ ref, em.refs[position]? = some ref ∧ (EntityAttributeMap.mk (ref.keys kind) em.attributes).canPut k = true
  | .removeKey position _ _ => ∃ ref, em.refs[position]? = some ref

end Op

def Edits (op : Op) (em after : EntityMap) : Prop := after = op.apply em

namespace EntityMap

/-- No key is listed twice, and every listed key has a value. -/
structure Sound (em : EntityMap) : Prop where
  types : (em.refs.map EntityRef.type).Nodup
  distinct : em.listed.Nodup
  bound : ∀ key ∈ em.listed, em.attributes.get key ≠ none

def plain (em : EntityMap) (key : Text) : Option AnyValue := if em.listed.contains key then none else em.attributes.get key

/-- An edit of one entity: other attributes are left, listed by another or by none. -/
structure Edited (em : EntityMap) (entity : Option EntityRef) (after : EntityMap) : Prop where
  sound : after.Sound
  plain : ∀ key, after.plain key = em.plain key
  frame : ∀ key, em.attributes.get key ≠ none → (∀ ref, entity = some ref → key ∉ ref.listed) →
    after.attributes.get key = em.attributes.get key

variable {em : EntityMap}

theorem Edited.refl (sound : em.Sound) (entity : Option EntityRef) : Edited em entity em :=
  ⟨sound, fun _ => rfl, fun _ _ _ => rfl⟩

variable {front back : List EntityRef} {ref : EntityRef} {attributes : Attributes} {key k : Text}

abbrev others (front back : List EntityRef) : List Text := (front ++ back).flatMap EntityRef.listed

theorem listed_perm (front back : List EntityRef) (ref : EntityRef) (attributes : Attributes) :
    (EntityMap.mk (front ++ ref :: back) attributes).listed.Perm (ref.listed ++ others front back) :=
  flatMap_placed EntityRef.listed ref front back

theorem mem_listed_placed :
    key ∈ (EntityMap.mk (front ++ ref :: back) attributes).listed ↔ key ∈ ref.listed ∨ key ∈ others front back := by
  rw [(listed_perm front back ref attributes).mem_iff, mem_append]

theorem Sound.apart (sound : Sound ⟨front ++ ref :: back, attributes⟩) :
    ref.listed.Nodup ∧ (others front back).Nodup ∧ ∀ key ∈ ref.listed, key ∉ others front back := by
  have distinct := (listed_perm front back ref attributes).nodup_iff.mp sound.distinct
  rcases nodup_append'.mp distinct with ⟨own, rest, disjoint⟩
  exact ⟨own, rest, fun key member => disjoint member⟩

theorem filter_others (types : ((front ++ ref :: back).map EntityRef.type).Nodup) :
    (front ++ ref :: back).filter (·.type ≠ ref.type) = front ++ back := by
  rw [map_append, map_cons, nodup_middle, ← map_append, nodup_cons] at types
  have different : ∀ other ∈ front ++ back, other.type ≠ ref.type := by
    intro other member same
    exact types.1 (same ▸ mem_map_of_mem member)
  rw [filter_append, filter_cons_of_neg (by simp), ← filter_append]
  apply filter_eq_self.mpr
  simpa using different

theorem edited_remove (sound : em.Sound) (entityType : Text) :
    Edited em (em.find entityType) (em.remove entityType).1 := by
  have refs := em.remove_refs entityType
  have get := em.get_remove entityType
  cases found : em.find entityType with
  | none =>
    have unchanged : (em.remove entityType).1 = em := by rw [remove, found]
    rw [unchanged]
    exact .refl sound none
  | some ref =>
    rcases find_some found with ⟨member, rfl⟩
    simp only [found, Option.some.injEq, exists_eq_left'] at get
    rcases em with ⟨all, attributes⟩
    rcases append_of_mem member with ⟨front, back, rfl⟩
    rw [filter_others sound.types] at refs
    rcases sound.apart with ⟨_, rest, apart⟩
    have listed : ((EntityMap.mk (front ++ ref :: back) attributes).remove ref.type).1.listed = others front back := by
      rw [EntityMap.listed, refs]
    refine ⟨⟨?_, ?_, ?_⟩, ?_, ?_⟩
    · rw [refs]
      have types := sound.types
      rw [map_append, map_cons, nodup_middle, ← map_append, nodup_cons] at types
      exact types.2
    · rwa [listed]
    · intro key inside
      rw [listed] at inside
      rw [get, if_neg (fun own => apart key own inside)]
      exact sound.bound key (mem_listed_placed.mpr (.inr inside))
    · intro key
      simp only [plain, contains_iff_mem, listed, get, mem_listed_placed]
      grind
    · intro key _ not_listed
      exact (get key).trans (if_neg (not_listed ref rfl))

theorem edited_putEmpty (sound : em.Sound) (entityType : Text) :
    Edited em (em.find entityType) (em.putEmpty entityType) := by
  have removed := edited_remove sound entityType
  have listed : (em.putEmpty entityType).listed = (em.remove entityType).1.listed := by
    simp [EntityMap.listed, putEmpty, EntityRef.listed]
  refine ⟨⟨?_, ?_, ?_⟩, ?_, removed.frame⟩
  · rw [putEmpty, map_append]
    have fresh : entityType ∉ (em.remove entityType).1.refs.map EntityRef.type := by
      rw [remove_refs]
      simp
    exact nodup_append_comm.mp (nodup_cons.mpr ⟨fresh, removed.sound.types⟩)
  · rw [listed]
    exact removed.sound.distinct
  · rw [listed]
    exact removed.sound.bound
  · intro key
    rw [plain, listed]
    exact removed.plain key

theorem placed_of_live {position : Nat} (live : em.refs[position]? = some ref) :
    ∃ front back, em.refs = front ++ ref :: back ∧ position = front.length := by
  rcases List.getElem?_eq_some_iff.mp live with ⟨inside, rfl⟩
  refine ⟨em.refs.take position, em.refs.drop (position + 1), ?_, ?_⟩
  · rw [← List.drop_eq_getElem_cons inside, List.take_append_drop]
  · rw [List.length_take, Nat.min_eq_left (Nat.le_of_lt inside)]

theorem edited_placed (sound : Sound ⟨front ++ ref :: back, attributes⟩) {after : EntityRef} {changed : Attributes}
    (type : after.type = ref.type) (distinct : after.listed.Nodup)
    (bound : ∀ key ∈ after.listed, changed.get key ≠ none)
    (claimed : ∀ key ∈ after.listed, key ∈ ref.listed ∨ attributes.get key = none)
    (released : ∀ key ∈ ref.listed, key ∉ after.listed → changed.get key = none)
    (same : ∀ key, key ∉ ref.listed → key ∉ after.listed → changed.get key = attributes.get key) :
    Edited ⟨front ++ ref :: back, attributes⟩ (some ref) ⟨front ++ after :: back, changed⟩ := by
  rcases sound.apart with ⟨_, rest, apart⟩
  have others_bound : ∀ key ∈ others front back, attributes.get key ≠ none := by
    intro key member
    exact sound.bound key (mem_listed_placed.mpr (.inr member))
  have not_claimed : ∀ key ∈ after.listed, key ∉ others front back := by
    intro key member other
    rcases claimed key member with own | free
    · exact apart key own other
    · exact others_bound key other free
  have kept : ∀ key ∈ others front back, changed.get key = attributes.get key := by
    intro key other
    apply same key
    · exact fun own => apart key own other
    · exact fun own => not_claimed key own other
  refine ⟨⟨?_, ?_, ?_⟩, ?_, ?_⟩
  · have types := sound.types
    rwa [map_append, map_cons, ← type, ← map_cons, ← map_append] at types
  · rw [(listed_perm front back after changed).nodup_iff]
    exact nodup_append'.mpr ⟨distinct, rest, fun key => not_claimed key⟩
  · intro key member
    rcases mem_listed_placed.mp member with own | other
    · exact bound key own
    · rw [kept key other]
      exact others_bound key other
  · intro key
    simp only [plain, contains_iff_mem, mem_listed_placed]
    grind
  · intro key there not_listed
    apply same key (not_listed ref rfl)
    intro member
    rcases claimed key member with own | free
    · exact not_listed ref rfl own
    · exact there free

theorem listed_claim (ref : EntityRef) (kind : Kind) (k : Text) :
    (ref.withKeys (ref.keys kind ++ [k]) kind).listed.Perm (k :: ref.listed) := by
  cases kind with
  | identifying =>
    change ((ref.idKeys ++ [k]) ++ ref.descriptionKeys).Perm _
    rw [append_assoc, singleton_append]
    exact perm_middle
  | descriptive =>
    change (ref.idKeys ++ (ref.descriptionKeys ++ [k])).Perm _
    rw [← append_assoc]
    exact perm_append_singleton k ref.listed

theorem edited_put (sound : em.Sound) {position : Nat} {kind : Kind} (value : AnyValue)
    (live : em.refs[position]? = some ref)
    (can : (EntityAttributeMap.mk (ref.keys kind) em.attributes).canPut k = true) :
    Edited em (some ref) (em.onEntity position kind (·.put k value)) := by
  rcases em with ⟨all, attributes⟩
  rcases placed_of_live live with ⟨front, back, rfl, rfl⟩
  rw [onEntity_placed]
  have get := fun key => attributes.get_put key k value
  by_cases contained : k ∈ ref.keys kind
  · have own := (ref.mem_listed).mpr ⟨kind, contained⟩
    have keys : (EntityAttributeMap.put ⟨ref.keys kind, attributes⟩ k value).keys = ref.keys kind := by
      simp [EntityAttributeMap.put, EntityAttributeMap.containsKey, contained]
    rw [keys, EntityRef.withKeys_keys]
    apply edited_placed sound rfl sound.apart.1
    · intro key member
      rw [EntityAttributeMap.put, get]
      have before := sound.bound key (mem_listed_placed.mpr (.inl member))
      split
      · exact Option.some_ne_none value
      · exact before
    · exact fun key member => .inl member
    · exact fun key member gone => absurd member gone
    · intro key fresh _
      exact (get key).trans (if_neg (ne_of_mem_of_not_mem own fresh).symm)
  · have free : attributes.get k = none := by
      simpa [EntityAttributeMap.canPut, EntityAttributeMap.containsKey, contained] using can
    have fresh : k ∉ ref.listed := by
      intro own
      exact sound.bound k (mem_listed_placed.mpr (.inl own)) free
    have keys : (EntityAttributeMap.put ⟨ref.keys kind, attributes⟩ k value).keys = ref.keys kind ++ [k] := by
      simp [EntityAttributeMap.put, EntityAttributeMap.containsKey, contained]
    rw [keys]
    have claim := listed_claim ref kind k
    have mem_claim : ∀ key, key ∈ (ref.withKeys (ref.keys kind ++ [k]) kind).listed ↔ key = k ∨ key ∈ ref.listed := by
      intro key
      rw [claim.mem_iff, mem_cons]
    apply edited_placed sound (EntityRef.withKeys_type ref _ kind)
    · exact claim.nodup_iff.mpr (nodup_cons.mpr ⟨fresh, sound.apart.1⟩)
    · intro key member
      rw [EntityAttributeMap.put, get]
      split
      · exact Option.some_ne_none value
      · next different =>
          exact sound.bound key (mem_listed_placed.mpr (.inl (((mem_claim key).mp member).resolve_left different)))
    · intro key member
      rcases (mem_claim key).mp member with rfl | own
      · exact .inr free
      · exact .inl own
    · exact fun key own gone => absurd ((mem_claim key).mpr (.inr own)) gone
    · intro key _ unclaimed
      exact (get key).trans (if_neg fun same => unclaimed ((mem_claim key).mpr (.inl same)))

theorem mem_listed_release (distinct : ref.listed.Nodup) {kind : Kind} (contained : k ∈ ref.keys kind) :
    key ∈ (ref.withKeys ((ref.keys kind).filter (· ≠ k)) kind).listed ↔ key ∈ ref.listed ∧ key ≠ k := by
  rcases nodup_append'.mp distinct with ⟨_, _, disjoint⟩
  cases kind with
  | identifying =>
    have elsewhere : ∀ key ∈ ref.descriptionKeys, key ≠ k := by
      intro key member same
      exact disjoint contained (same ▸ member)
    simp only [EntityRef.listed, EntityRef.withKeys, EntityRef.keys, mem_append, mem_filter]
    grind
  | descriptive =>
    have elsewhere : ∀ key ∈ ref.idKeys, key ≠ k := by
      intro key member same
      exact disjoint (same ▸ member) contained
    simp only [EntityRef.listed, EntityRef.withKeys, EntityRef.keys, mem_append, mem_filter]
    grind

theorem release_sublist (ref : EntityRef) (kind : Kind) (k : Text) :
    (ref.withKeys ((ref.keys kind).filter (· ≠ k)) kind).listed.Sublist ref.listed := by
  cases kind with
  | identifying => exact filter_sublist.append (.refl _)
  | descriptive => exact (List.Sublist.refl _).append filter_sublist

theorem edited_removeKey (sound : em.Sound) {position : Nat} (kind : Kind)
    (live : em.refs[position]? = some ref) (k : Text) :
    Edited em (some ref) (em.onEntity position kind fun m => (m.remove k).1) := by
  rcases em with ⟨all, attributes⟩
  rcases placed_of_live live with ⟨front, back, rfl, rfl⟩
  rw [onEntity_placed]
  by_cases contained : k ∈ ref.keys kind
  · have own := (ref.mem_listed).mpr ⟨kind, contained⟩
    have removed : (EntityAttributeMap.mk (ref.keys kind) attributes).remove k =
        (⟨(ref.keys kind).filter (· ≠ k), attributes.remove k⟩, true) := by
      simp [EntityAttributeMap.remove, EntityAttributeMap.containsKey, contained]
    have mem_release := fun key => @mem_listed_release ref key k sound.apart.1 kind contained
    have get := fun key => attributes.get_remove key k
    rw [removed]
    apply edited_placed sound (EntityRef.withKeys_type ref _ kind)
    · exact (release_sublist ref kind k).nodup sound.apart.1
    · intro key member
      rcases (mem_release key).mp member with ⟨listed, different⟩
      rw [get, if_neg different]
      exact sound.bound key (mem_listed_placed.mpr (.inl listed))
    · exact fun key member => .inl ((mem_release key).mp member).1
    · intro key listed gone
      have same : key = k := by
        by_contra different
        exact gone ((mem_release key).mpr ⟨listed, different⟩)
      rw [get, if_pos same]
    · intro key fresh _
      exact (get key).trans (if_neg (ne_of_mem_of_not_mem own fresh).symm)
  · have unchanged : (EntityAttributeMap.mk (ref.keys kind) attributes).remove k = (⟨ref.keys kind, attributes⟩, false) := by
      simp [EntityAttributeMap.remove, EntityAttributeMap.containsKey, contained]
    rw [unchanged, EntityRef.withKeys_keys]
    exact .refl sound (some ref)

end EntityMap

open EntityMap

theorem Op.edited {em : EntityMap} (sound : em.Sound) (op : Op) (guarded : op.Guarded em) :
    Edited em (op.entity em) (op.apply em) := by
  cases op with
  | putEmpty entityType => exact edited_putEmpty sound entityType
  | remove entityType => exact edited_remove sound entityType
  | put position kind k value =>
    rcases guarded with ⟨ref, live, can⟩
    rw [Op.entity, live]
    exact edited_put sound value live can
  | removeKey position kind key =>
    rcases guarded with ⟨ref, live⟩
    rw [Op.entity, live]
    exact edited_removeKey sound kind live key

namespace EntityMap
variable {em start : EntityMap}

theorem removeAll_keeps (sound : em.Sound) (types : List Text) :
    (em.removeAll types).Sound ∧ (∀ key, (em.removeAll types).plain key = em.plain key) ∧
      ∀ ref ∈ (em.removeAll types).refs, ref ∈ em.refs ∧ ref.type ∉ types := by
  induction types generalizing em with
  | nil => exact ⟨sound, fun _ => rfl, fun ref member => ⟨member, not_mem_nil⟩⟩
  | cons type types ih =>
    have removed := edited_remove sound type
    rcases ih removed.sound with ⟨still, same, left⟩
    refine ⟨still, fun key => (same key).trans (removed.plain key), ?_⟩
    intro ref member
    rcases left ref member with ⟨before, later⟩
    rw [remove_refs, mem_filter, decide_eq_true_eq] at before
    exact ⟨before.1, not_mem_cons_of_ne_of_not_mem before.2 later⟩

theorem plain_of_empty (none_left : em.refs = []) (key : Text) : em.plain key = em.attributes.get key := by
  simp [plain, EntityMap.listed, none_left]

def Keeps (start em : EntityMap) : Prop := em.Sound ∧ ∀ key, em.plain key = start.plain key

theorem keeps_step {op : Op} {after : EntityMap} (guarded : op.Guarded em) (edits : Edits op em after)
    (kept : Keeps start em) : Keeps start after := by
  have edited := op.edited kept.1 guarded
  rw [edits]
  exact ⟨edited.sound, fun key => (edited.plain key).trans (kept.2 key)⟩

theorem keeps_run (sound : start.Sound) (reached : Reached Edits Op.Guarded start em) : Keeps start em := by
  apply Reached.invariant _ _ reached
  · exact ⟨sound, fun _ => rfl⟩
  · intro op em after
    exact keeps_step

/-- Guarded edits divide the attributes among the entities, leave all others, and these remain when all entities are
removed. -/
theorem guarded_edits (sound : start.Sound) (reached : Reached Edits Op.Guarded start em) :
    em.Sound ∧ (∀ key, em.plain key = start.plain key) ∧
      (∀ op : Op, op.Guarded em → ∀ key, em.attributes.get key ≠ none →
        (∀ ref, op.entity em = some ref → key ∉ ref.listed) →
        (op.apply em).attributes.get key = em.attributes.get key) ∧
      ∀ types, (∀ ref ∈ em.refs, ref.type ∈ types) → (em.removeAll types).refs = [] ∧
        ∀ key, (em.removeAll types).attributes.get key = start.plain key := by
  rcases keeps_run sound reached with ⟨still, same⟩
  refine ⟨still, same, ?_, ?_⟩
  · intro op guarded
    exact (op.edited still guarded).frame
  · intro types every
    rcases removeAll_keeps still types with ⟨_, unchanged, left⟩
    have none_left : (em.removeAll types).refs = [] := by
      apply eq_nil_iff_forall_not_mem.mpr
      intro ref member
      rcases left ref member with ⟨before, gone⟩
      exact gone (every ref before)
    refine ⟨none_left, ?_⟩
    intro key
    calc
      (em.removeAll types).attributes.get key = (em.removeAll types).plain key := (plain_of_empty none_left key).symm
      _ = em.plain key := unchanged key
      _ = start.plain key := same key

def onePlain : EntityMap := ⟨[], ⟨[.mk [5] (.boolValue true) 0], nodup_singleton _⟩⟩

def twoEntities : EntityMap :=
  [Op.putEmpty [1], .put 0 .identifying [7] .empty, .put 0 .descriptive [8] (.boolValue false), .putEmpty [2],
    .put 1 .identifying [9] .empty, .removeKey 0 .descriptive [8]].foldl Op.apply onePlain

theorem guarded_edits_twoEntities :
    twoEntities.listed = [[7], [9]] ∧ (twoEntities.removeAll [[1], [2]]).refs = [] ∧
      (twoEntities.removeAll [[1], [2]]).attributes.get [5] = some (.boolValue true) := by
  have sound : onePlain.Sound := ⟨nodup_nil, nodup_nil, fun _ none_listed => nomatch none_listed⟩
  have edit {em : EntityMap} (op : Op) (reached : Reached Edits Op.Guarded onePlain em) (guarded : op.Guarded em) :
      Reached Edits Op.Guarded onePlain (op.apply em) := reached.next rfl guarded
  have first := edit (.putEmpty [1]) .start trivial
  have named := edit (.put 0 .identifying [7] .empty) first ⟨_, rfl, rfl⟩
  have described := edit (.put 0 .descriptive [8] (.boolValue false)) named ⟨_, rfl, rfl⟩
  have second := edit (.putEmpty [2]) described trivial
  have other := edit (.put 1 .identifying [9] .empty) second ⟨_, rfl, rfl⟩
  have reached : Reached Edits Op.Guarded onePlain twoEntities := edit (.removeKey 0 .descriptive [8]) other ⟨_, rfl⟩
  rcases guarded_edits sound reached with ⟨_, _, _, removed⟩
  have every : ∀ ref ∈ twoEntities.refs, ref.type ∈ [[1], [2]] := by decide
  exact ⟨rfl, (removed _ every).1, (removed _ every).2 [5]⟩

end EntityMap

end CollectorFormal.Entities
