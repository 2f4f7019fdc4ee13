import CollectorFormal.Lib.Pairing
import CollectorFormal.Pdata.Map

/-! When the equality of values is an equivalence that means the same content.

A map from the wire may repeat a key, and Map.Equal only looks up each key of the one map in the other. -/

namespace CollectorFormal.Pdata

open List Option
open Client (Text)
open Map (entries entry entries_fst keys_append getValue_append getValue_eq_some mem_entries_of_getValue)

mutual

/-- The condition holds of the value and of all values inside of it. -/
def AnyValue.Everywhere (condition : AnyValue → Prop) : AnyValue → Prop
  | .arrayValue values => condition (.arrayValue values) ∧ EverywhereValues condition values
  | .kvlistValue values => condition (.kvlistValue values) ∧ EverywhereEntries condition values
  | value => condition value

def EverywhereValues (condition : AnyValue → Prop) : List AnyValue → Prop
  | [] => True
  | value :: rest => value.Everywhere condition ∧ EverywhereValues condition rest

def EverywhereEntries (condition : AnyValue → Prop) : List KeyValue → Prop
  | [] => True
  | .mk _ value _ :: rest => value.Everywhere condition ∧ EverywhereEntries condition rest

end

def AnyValue.NotNaN : AnyValue → Prop
  | .doubleValue bits => isNaN bits = false
  | _ => True

def AnyValue.KeysDistinct : AnyValue → Prop
  | .kvlistValue values => (keys values).Nodup
  | _ => True

def AnyValue.NaNFree (value : AnyValue) : Prop := value.Everywhere AnyValue.NotNaN

def AnyValue.Distinct (value : AnyValue) : Prop := value.Everywhere AnyValue.KeysDistinct

mutual

/-- The same type, equal scalars, slices equal element by element, and maps with equal
entries as often. -/
def AnyValue.Same : AnyValue → AnyValue → Prop
  | .stringValue a, .stringValue b => a = b
  | .boolValue a, .boolValue b => a = b
  | .doubleValue a, .doubleValue b => doubleEqual a b = true
  | .intValue a, .intValue b => a = b
  | .bytesValue a, .bytesValue b => a = b
  | .kvlistValue a, .kvlistValue b => SameEntries a b
  | .arrayValue a, .arrayValue b => SameValues a b
  | a, b => a.isEmpty = true ∧ b.isEmpty = true

def SameValues : List AnyValue → List AnyValue → Prop
  | [], [] => True
  | a :: rest, b :: rest' => a.Same b ∧ SameValues rest rest'
  | _, _ => False

def SameEntries : List KeyValue → List KeyValue → Prop
  | [], other => other = []
  | .mk key value _ :: rest, other => ∃ front found keyStrindex back,
      other = front ++ .mk key found keyStrindex :: back ∧ value.Same found ∧ SameEntries rest (front ++ back)

end

variable {condition : AnyValue → Prop} {a b : List KeyValue} {key : Text} {value other : AnyValue} {values : List AnyValue}

theorem everywhereValues_iff : EverywhereValues condition values ↔ ∀ value ∈ values, value.Everywhere condition := by
  induction values with
  | nil => simp [EverywhereValues]
  | cons first rest ih => rw [EverywhereValues, ih, forall_mem_cons]

theorem everywhereEntries_iff : EverywhereEntries condition a ↔ ∀ kv ∈ a, kv.value.Everywhere condition := by
  induction a with
  | nil => simp [EverywhereEntries]
  | cons first rest ih =>
    cases first with
    | mk key value keyStrindex => rw [EverywhereEntries, ih, forall_mem_cons, KeyValue.value]

theorem everywhere_array : (AnyValue.arrayValue values).Everywhere condition ↔
    condition (.arrayValue values) ∧ ∀ value ∈ values, value.Everywhere condition := by
  rw [AnyValue.Everywhere, everywhereValues_iff]

theorem everywhere_map : (AnyValue.kvlistValue a).Everywhere condition ↔
    condition (.kvlistValue a) ∧ ∀ kv ∈ a, kv.value.Everywhere condition := by
  rw [AnyValue.Everywhere, everywhereEntries_iff]

theorem everywhere_leaf (leaf : value.isLeaf = true) : value.Everywhere condition ↔ condition value := by
  cases value <;> first | rfl | cases leaf

variable {first second : List AnyValue}

theorem equalValues_iff :
    equalValues first second = true ↔ List.Forall₂ (fun a b => a.equal b = true) first second := by
  induction first generalizing second with
  | nil => cases second <;> simp [equalValues]
  | cons head rest ih => cases second <;> simp [equalValues, ih]

theorem sameValues_iff : SameValues first second ↔ List.Forall₂ AnyValue.Same first second := by
  induction first generalizing second with
  | nil => cases second <;> simp [SameValues]
  | cons head rest ih => cases second <;> simp [SameValues, ih]

theorem equalEntries_iff : equalEntries a b = true ↔
    ∀ kv ∈ a, ∃ found, getValue kv.key b = some found ∧ kv.value.equal found = true := by
  induction a with
  | nil => simp [equalEntries]
  | cons first rest ih =>
    cases first with
    | mk key value keyStrindex =>
      rw [forall_mem_cons, ← ih, equalEntries, KeyValue.key, KeyValue.value]
      cases getValue key b <;> simp

theorem equal_map : (AnyValue.kvlistValue a).equal (.kvlistValue b) = true ↔ a.length = b.length ∧
    ∀ kv ∈ a, ∃ found, getValue kv.key b = some found ∧ kv.value.equal found = true := by
  rw [AnyValue.equal, Bool.and_eq_true, beq_iff_eq, equalEntries_iff]

theorem equal_array :
    (AnyValue.arrayValue first).equal (.arrayValue second) = true ↔
      List.Forall₂ (fun a b => a.equal b = true) first second := by
  rw [AnyValue.equal, equalValues_iff]

theorem of_array_equal {first : List AnyValue} (same : (AnyValue.arrayValue first).equal other = true) :
    ∃ second, other = .arrayValue second ∧ List.Forall₂ (fun a b => a.equal b = true) first second := by
  cases other with
  | arrayValue second => exact ⟨second, rfl, equal_array.mp same⟩
  | _ => simp [AnyValue.equal, AnyValue.isEmpty] at same

theorem of_map_equal (same : (AnyValue.kvlistValue a).equal other = true) :
    ∃ b, other = .kvlistValue b ∧ a.length = b.length ∧
      ∀ kv ∈ a, ∃ found, getValue kv.key b = some found ∧ kv.value.equal found = true := by
  cases other with
  | kvlistValue b => exact ⟨b, rfl, equal_map.mp same⟩
  | _ => simp [AnyValue.equal, AnyValue.isEmpty] at same

theorem getValue_of_mem {kv : KeyValue} (distinct : (keys a).Nodup) (member : kv ∈ a) :
    getValue kv.key a = some kv.value :=
  (getValue_eq_some distinct).mpr (mem_map_of_mem member)

theorem mem_of_getValue (found : getValue key a = some value) : ∃ kv ∈ a, kv.key = key ∧ kv.value = value := by
  rcases mem_map.mp (mem_entries_of_getValue found) with ⟨kv, member, same⟩
  exact ⟨kv, member, (Prod.mk.inj same).1, (Prod.mk.inj same).2⟩

theorem equal_refl (value : AnyValue) (numbers : value.NaNFree) (distinct : value.Distinct) :
    value.equal value = true := by
  induction value using AnyValue.nested with
  | leaf value leaf =>
    cases value with
    | doubleValue bits =>
      have number : isNaN bits = false := numbers
      simp [AnyValue.equal, doubleEqual, number]
    | arrayValue | kvlistValue => cases leaf
    | _ => simp [AnyValue.equal, AnyValue.isEmpty]
  | array values ih =>
    have inside := (everywhere_array.mp numbers).2
    have inside' := (everywhere_array.mp distinct).2
    rw [equal_array, forall₂_same]
    intro value member
    exact ih value member (inside value member) (inside' value member)
  | map values ih =>
    have inside := (everywhere_map.mp numbers).2
    rcases everywhere_map.mp distinct with ⟨here, inside'⟩
    rw [equal_map]
    refine ⟨rfl, fun kv member => ⟨kv.value, getValue_of_mem here member, ?_⟩⟩
    exact ih kv member (inside kv member) (inside' kv member)

theorem of_leaf_equal (leaf : value.isLeaf = true) (same : value.equal other = true) : other = value ∨
    value.isEmpty = true ∧ other.isEmpty = true ∨
    ∃ x y, value = .doubleValue x ∧ other = .doubleValue y ∧ doubleEqual x y = true := by
  cases value <;> cases other <;> simp_all [AnyValue.equal, AnyValue.isEmpty, AnyValue.isLeaf]

theorem equal_of_empty (first : value.isEmpty = true) (second : other.isEmpty = true) : value.equal other = true := by
  cases value <;> cases other <;> simp_all [AnyValue.equal, AnyValue.isEmpty]

theorem isLeaf_of_empty (empty : value.isEmpty = true) : value.isLeaf = true := by
  cases value <;> first | rfl | cases empty

theorem doubleEqual_symm {x y : UInt64} (same : doubleEqual x y = true) : doubleEqual y x = true := by
  simp only [doubleEqual, Bool.and_eq_true, Bool.or_eq_true, beq_iff_eq] at same ⊢
  exact ⟨same.1.symm, same.2.imp Eq.symm And.symm⟩

theorem doubleEqual_trans {x y z : UInt64} (first : doubleEqual x y = true) (second : doubleEqual y z = true) :
    doubleEqual x z = true := by
  simp only [doubleEqual, Bool.and_eq_true, Bool.or_eq_true, beq_iff_eq] at first second ⊢
  refine ⟨⟨first.1.1, second.1.2⟩, ?_⟩
  rcases first.2 with rfl | zeros
  · exact second.2
  · rcases second.2 with rfl | zeros'
    · exact .inr zeros
    · exact .inr ⟨zeros.1, zeros'.2⟩

theorem equal_leaf_symm (leaf : value.isLeaf = true) (same : value.equal other = true) : other.equal value = true := by
  rcases of_leaf_equal leaf same with rfl | ⟨first, second⟩ | ⟨x, y, rfl, rfl, double⟩
  · exact same
  · exact equal_of_empty second first
  · rw [AnyValue.equal]
    exact doubleEqual_symm double

theorem equal_leaf_trans {third : AnyValue} (leaf : value.isLeaf = true) (first : value.equal other = true)
    (next : other.equal third = true) : value.equal third = true := by
  rcases of_leaf_equal leaf first with rfl | ⟨empty, empty'⟩ | ⟨x, y, rfl, rfl, double⟩
  · exact next
  · rcases of_leaf_equal (isLeaf_of_empty empty') next with rfl | ⟨_, last⟩ | ⟨_, _, rfl, _, _⟩
    · exact first
    · exact equal_of_empty empty last
    · cases empty'
  · rcases of_leaf_equal rfl next with rfl | ⟨empty, _⟩ | ⟨_, z, same, rfl, double'⟩
    · exact first
    · cases empty
    · cases same
      rw [AnyValue.equal]
      exact doubleEqual_trans double double'

theorem keys_perm (distinct : (keys a).Nodup) (size : a.length = b.length)
    (found : ∀ kv ∈ a, ∃ found, getValue kv.key b = some found ∧ kv.value.equal found = true) :
    (keys a).Perm (keys b) := by
  have subperm := distinct.subperm (keys_subset (equalEntries_iff.mpr found))
  exact subperm.perm_of_length_le (by simp [keys, size])

theorem equal_symm (value other : AnyValue) (distinct : value.Distinct) (same : value.equal other = true) :
    other.equal value = true := by
  induction value using AnyValue.nested generalizing other with
  | leaf value leaf => exact equal_leaf_symm leaf same
  | array values ih =>
    have inside := (everywhere_array.mp distinct).2
    rcases of_array_equal same with ⟨others, rfl, each⟩
    rw [equal_array]
    apply List.Forall₂.flip
    rw [forall₂_iff_get] at each ⊢
    refine ⟨each.1, fun i first second => ?_⟩
    have member := get_mem values ⟨i, first⟩
    exact ih _ member _ (inside _ member) (each.2 i first second)
  | map values ih =>
    rcases everywhere_map.mp distinct with ⟨here, inside⟩
    rcases of_map_equal same with ⟨others, rfl, size, found⟩
    have perm := keys_perm here size found
    rw [equal_map]
    refine ⟨size.symm, fun kv member => ?_⟩
    have present : kv.key ∈ keys values := perm.mem_iff.mpr (mem_map_of_mem member)
    rcases mem_map.mp present with ⟨first, member', sameKey⟩
    rcases found first member' with ⟨second, found', equal⟩
    rw [sameKey, getValue_of_mem (perm.nodup_iff.mp here) member] at found'
    cases found'
    refine ⟨first.value, ?_, ih first member' _ (inside first member') equal⟩
    rw [← sameKey]
    exact getValue_of_mem here member'

theorem equal_trans (value second third : AnyValue) (first : value.equal second = true)
    (next : second.equal third = true) : value.equal third = true := by
  induction value using AnyValue.nested generalizing second third with
  | leaf value leaf => exact equal_leaf_trans leaf first next
  | array values ih =>
    rcases of_array_equal first with ⟨others, rfl, each⟩
    rcases of_array_equal next with ⟨last, rfl, each'⟩
    rw [equal_array]
    rw [forall₂_iff_get] at each each' ⊢
    refine ⟨each.1.trans each'.1, fun i inside inside' => ?_⟩
    have between : i < others.length := each.1 ▸ inside
    exact ih _ (get_mem values ⟨i, inside⟩) _ _ (each.2 i inside between) (each'.2 i between inside')
  | map values ih =>
    rcases of_map_equal first with ⟨others, rfl, size, found⟩
    rcases of_map_equal next with ⟨last, rfl, size', found'⟩
    rw [equal_map]
    refine ⟨size.trans size', fun kv member => ?_⟩
    rcases found kv member with ⟨middle, has, equal⟩
    rcases mem_of_getValue has with ⟨kv', member', sameKey, rfl⟩
    rcases found' kv' member' with ⟨final, has', equal'⟩
    exact ⟨final, by rw [← sameKey]; exact has', ih kv member _ _ equal equal'⟩

theorem getValue_split (found : getValue key a = some value) :
    ∃ front keyStrindex back, a = front ++ .mk key value keyStrindex :: back := by
  rcases mem_of_getValue found with ⟨kv, member, rfl, rfl⟩
  rcases append_of_mem member with ⟨front, back, rfl⟩
  cases kv with
  | mk key value keyStrindex => exact ⟨front, keyStrindex, back, rfl⟩

theorem getValue_without {front back : List KeyValue} {k : Text} {keyStrindex : Int32} (different : k ≠ key) :
    getValue key (front ++ .mk k value keyStrindex :: back) = getValue key (front ++ back) := by
  rw [getValue_append, getValue_append, getValue, if_neg different]

theorem sameEntries_of (distinct : (keys a).Nodup) (size : a.length = b.length)
    (each : ∀ kv ∈ a, ∃ found, getValue kv.key b = some found ∧ kv.value.Same found) : SameEntries a b := by
  induction a generalizing b with
  | nil => exact length_eq_zero_iff.mp size.symm
  | cons first rest ih =>
    cases first with
    | mk key value keyStrindex =>
      rw [forall_mem_cons] at each
      rcases each with ⟨⟨found, has, same⟩, later⟩
      rw [keys, map_cons, nodup_cons, ← keys] at distinct
      rcases getValue_split has with ⟨front, keyStrindex', back, rfl⟩
      have size' : rest.length = (front ++ back).length := by
        rw [length_append, length_cons, length_cons] at size
        rw [length_append]
        omega
      refine ⟨front, found, keyStrindex', back, rfl, same, ih distinct.2 size' ?_⟩
      intro kv member
      have different : key ≠ kv.key := by
        intro equal
        apply distinct.1
        rw [KeyValue.key, equal]
        exact mem_map_of_mem member
      rw [← getValue_without different]
      exact later kv member

theorem same_of_equal (value other : AnyValue) (distinct : value.Distinct) (equal : value.equal other = true) :
    value.Same other := by
  induction value using AnyValue.nested generalizing other with
  | leaf value leaf =>
    cases value <;> cases other <;> simp_all [AnyValue.equal, AnyValue.isEmpty, AnyValue.isLeaf, AnyValue.Same]
  | array values ih =>
    have inside := (everywhere_array.mp distinct).2
    rcases of_array_equal equal with ⟨others, rfl, each⟩
    rw [AnyValue.Same, sameValues_iff]
    rw [forall₂_iff_get] at each ⊢
    refine ⟨each.1, fun i first second => ?_⟩
    have member := get_mem values ⟨i, first⟩
    exact ih _ member _ (inside _ member) (each.2 i first second)
  | map values ih =>
    rcases everywhere_map.mp distinct with ⟨here, inside⟩
    rcases of_map_equal equal with ⟨others, rfl, size, found⟩
    rw [AnyValue.Same]
    apply sameEntries_of here size
    intro kv member
    rcases found kv member with ⟨second, has, equal'⟩
    exact ⟨second, has, ih kv member _ (inside kv member) equal'⟩

theorem sameEntries_pairs (same : SameEntries a b) :
    Lib.Pairs (fun kv kv' : KeyValue => kv.key = kv'.key ∧ kv.value.Same kv'.value) a b := by
  induction a generalizing b with
  | nil => exact same
  | cons first rest ih =>
    cases first with
    | mk key value keyStrindex =>
      rcases same with ⟨front, found, keyStrindex', back, rfl, content, later⟩
      exact ⟨front, .mk key found keyStrindex', back, rfl, ⟨rfl, content⟩, ih later⟩

theorem exists_fresh (names : List Text) : ∃ name : Text, name ∉ names := by
  rcases Infinite.exists_notMem_finset names.toFinset with ⟨name, absent⟩
  exact ⟨name, fun member => absent (mem_toFinset.mpr member)⟩

theorem not_nodup_split (repeated : ¬(keys a).Nodup) : ∃ front first middle second back,
    a = front ++ first :: middle ++ second :: back ∧ second.key = first.key := by
  induction a with
  | nil => exact absurd nodup_nil repeated
  | cons first rest ih =>
    rw [keys, map_cons, nodup_cons, not_and_or, not_not, ← keys] at repeated
    rcases repeated with here | later
    · rcases mem_map.mp here with ⟨second, member, same⟩
      rcases append_of_mem member with ⟨middle, back, rfl⟩
      exact ⟨[], first, middle, second, back, rfl, same⟩
    · rcases ih later with ⟨front, first', middle, second, back, rfl, same⟩
      exact ⟨first :: front, first', middle, second, back, rfl, same⟩

theorem getValue_renamed {front back middle : List KeyValue} {first : KeyValue} {fresh : Text} {keyStrindex : Int32}
    (different : fresh ≠ key) :
    getValue key (front ++ first :: middle ++ .mk fresh value keyStrindex :: back) =
      getValue key (front ++ first :: middle ++ .mk first.key value keyStrindex :: back) := by
  by_cases here : first.key = key
  · have found : ∃ earlier, getValue key (front ++ first :: middle) = some earlier := by
      rw [← ne_none_iff_exists', Ne, getValue_eq_none, not_not, ← here]
      exact mem_map_of_mem (mem_append_right _ mem_cons_self)
    rcases found with ⟨earlier, found⟩
    rw [getValue_append (m := front ++ first :: middle), getValue_append (m := front ++ first :: middle), found,
      some_or, some_or]
  · rw [getValue_without different, getValue_without here]

/-- A value whose equality means the same content repeats no key in its own entries. -/
theorem keys_nodup_of (numbers : (AnyValue.kvlistValue a).NaNFree)
    (itself : (AnyValue.kvlistValue a).equal (.kvlistValue a) = true)
    (content : ∀ other : AnyValue, other.NaNFree → (AnyValue.kvlistValue a).equal other = true →
      (AnyValue.kvlistValue a).Same other) : (keys a).Nodup := by
  by_contra repeated
  rcases not_nodup_split repeated with ⟨front, first, middle, second, back, rfl, sameKey⟩
  rcases exists_fresh (keys (front ++ first :: middle ++ second :: back)) with ⟨fresh, absent⟩
  cases second with
  | mk key value keyStrindex =>
    subst sameKey
    have numbers' := (everywhere_map.mp numbers).2
    have renamed : (AnyValue.kvlistValue (front ++ first :: middle ++ .mk fresh value keyStrindex :: back)).NaNFree := by
      refine everywhere_map.mpr ⟨trivial, ?_⟩
      simp only [forall_mem_append, forall_mem_cons] at numbers' ⊢
      exact numbers'
    have equal := equal_map.mp itself
    have looked : (AnyValue.kvlistValue (front ++ first :: middle ++ .mk first.key value keyStrindex :: back)).equal
        (.kvlistValue (front ++ first :: middle ++ .mk fresh value keyStrindex :: back)) = true := by
      rw [equal_map]
      refine ⟨by simp, fun kv member => ?_⟩
      have different : fresh ≠ kv.key := fun same => absent (by rw [same]; exact mem_map_of_mem member)
      rw [getValue_renamed different]
      exact equal.2 kv member
    have same := content _ renamed looked
    apply absent
    have perm := (sameEntries_pairs same).map_perm fun _ _ related => related.1
    rw [keys, perm.mem_iff, map_append]
    exact mem_append_right _ mem_cons_self

/-- Equality to itself, and only to values of the same content, forces the keys to be distinct at every depth. -/
theorem distinct_of (value : AnyValue) (numbers : value.NaNFree) (itself : value.equal value = true)
    (content : ∀ other : AnyValue, other.NaNFree → value.equal other = true → value.Same other) :
    value.Distinct := by
  induction value using AnyValue.nested with
  | leaf value leaf =>
    rw [AnyValue.Distinct, everywhere_leaf leaf]
    cases value <;> trivial
  | array values ih =>
    refine everywhere_array.mpr ⟨trivial, fun value member => ?_⟩
    have inside := (everywhere_array.mp numbers).2
    have each := forall₂_same.mp (equal_array.mp itself)
    refine ih value member (inside value member) (each value member) fun other number equal => ?_
    rcases append_of_mem member with ⟨front, back, rfl⟩
    have replaced : (AnyValue.arrayValue (front ++ other :: back)).NaNFree := by
      refine everywhere_array.mpr ⟨trivial, ?_⟩
      simp only [forall_mem_append, forall_mem_cons] at inside ⊢
      exact ⟨inside.1, number, inside.2.2⟩
    have looked : (AnyValue.arrayValue (front ++ value :: back)).equal (.arrayValue (front ++ other :: back)) = true := by
      simp only [forall_mem_append, forall_mem_cons] at each
      rw [equal_array]
      exact rel_append (forall₂_same.mpr each.1) (.cons equal (forall₂_same.mpr each.2.2))
    have same := content _ replaced looked
    rw [AnyValue.Same, sameValues_iff, forall₂_iff_get] at same
    have at_front := same.2 front.length (by simp) (by simp)
    simpa using at_front
  | map values ih =>
    have here := keys_nodup_of numbers itself content
    refine everywhere_map.mpr ⟨here, fun kv member => ?_⟩
    have inside := (everywhere_map.mp numbers).2
    have equal := (equal_map.mp itself).2
    have self : ∀ kv ∈ values, kv.value.equal kv.value = true := by
      intro kv member
      rcases equal kv member with ⟨found, has, same⟩
      rw [getValue_of_mem here member] at has
      cases has
      exact same
    refine ih kv member (inside kv member) (self kv member) fun other number equalParts => ?_
    rcases append_of_mem member with ⟨front, back, rfl⟩
    cases kv with
    | mk key value keyStrindex =>
      have here' : (keys (front ++ .mk key other keyStrindex :: back)).Nodup := by
        simpa [keys, KeyValue.key] using here
      have put : KeyValue.mk key other keyStrindex ∈ front ++ .mk key other keyStrindex :: back := by simp
      have found : getValue key (front ++ .mk key other keyStrindex :: back) = some other :=
        getValue_of_mem here' put
      have replaced : (AnyValue.kvlistValue (front ++ .mk key other keyStrindex :: back)).NaNFree := by
        refine everywhere_map.mpr ⟨trivial, ?_⟩
        simp only [forall_mem_append, forall_mem_cons] at inside ⊢
        exact ⟨inside.1, number, inside.2.2⟩
      have looked : (AnyValue.kvlistValue (front ++ .mk key value keyStrindex :: back)).equal
          (.kvlistValue (front ++ .mk key other keyStrindex :: back)) = true := by
        rw [equal_map]
        refine ⟨by simp, fun kv member => ?_⟩
        rw [mem_append, mem_cons] at member
        rcases member with early | rfl | late
        · exact ⟨kv.value, getValue_of_mem here' (mem_append_left _ early), self kv (by simp [early])⟩
        · exact ⟨other, found, equalParts⟩
        · exact ⟨kv.value, getValue_of_mem here' (by simp [late]), self kv (by simp [late])⟩
      have same := content _ replaced looked
      rcases (sameEntries_pairs same).mem member with ⟨kv', member', sameKey, same'⟩
      have first := getValue_of_mem here' member'
      rw [← sameKey, KeyValue.key, found] at first
      cases first
      exact same'

def AnyValue.Lawful (value : AnyValue) : Prop :=
  value.equal value = true ∧
  (∀ other : AnyValue, other.NaNFree → value.equal other = true → other.equal value = true) ∧
  (∀ second third : AnyValue, second.NaNFree → third.NaNFree → value.equal second = true →
    second.equal third = true → value.equal third = true) ∧
  ∀ other : AnyValue, other.NaNFree → value.equal other = true → value.Same other

theorem equal_lawful_iff (value : AnyValue) (numbers : value.NaNFree) : value.Lawful ↔ value.Distinct := by
  constructor
  · intro lawful
    exact distinct_of value numbers lawful.1 lawful.2.2.2
  · intro distinct
    exact ⟨equal_refl value numbers distinct, fun other _ => equal_symm value other distinct,
      fun second third _ _ => equal_trans value second third, fun other _ => same_of_equal value other distinct⟩

def counts (pairs : List (Text × Int64)) : AnyValue :=
  .kvlistValue (pairs.map fun pair => .mk pair.1 (.intValue pair.2) 0)

theorem equal_lawful_two_keys : (counts [([97], 1), ([98], 2)]).NaNFree ∧ (counts [([97], 1), ([98], 2)]).Lawful := by
  have numbers : (counts [([97], 1), ([98], 2)]).NaNFree := by
    simp [counts, AnyValue.NaNFree, AnyValue.Everywhere, EverywhereEntries, AnyValue.NotNaN]
  refine ⟨numbers, (equal_lawful_iff _ numbers).mpr ?_⟩
  simp [counts, AnyValue.Distinct, AnyValue.Everywhere, EverywhereEntries, AnyValue.KeysDistinct, keys, KeyValue.key]

/-- With a key repeated, equality holds in one direction only, or not even of the map and
itself. -/
theorem repeated_key_unlawful : (counts [([97], 1), ([97], 1)]).equal (counts [([97], 1), ([98], 2)]) = true ∧
    (counts [([97], 1), ([98], 2)]).equal (counts [([97], 1), ([97], 1)]) = false ∧
    (counts [([97], 1), ([97], 2)]).equal (counts [([97], 1), ([97], 2)]) = false := by
  simp [counts, AnyValue.equal, equalEntries, getValue]

end CollectorFormal.Pdata
