import CollectorFormal.Lib.Assoc
import CollectorFormal.Pdata.Equivalence

/-! Values as plain Go values, and back.

A Go map is listed in the order of a range over it, which is not fixed: trees are compared up to that order. -/

namespace CollectorFormal.Pdata

open List
open Client (Text)

inductive IntKind where
  | int | int8 | int16 | int32 | int64 | uint | uint8 | uint16 | uint32 | uint64
  deriving DecidableEq

/-- A float32 is kept by the bits of the float64 it converts to. -/
inductive Raw where
  | nil
  | string (value : Text)
  | int (kind : IntKind) (value : Int)
  | float32 (bits : UInt64)
  | float64 (bits : UInt64)
  | bool (value : Bool)
  | bytes (value : List UInt8)
  | map (values : List (Text × Raw))
  | slice (values : List Raw)
  | other (typeName : String)

mutual

def AnyValue.asRaw : AnyValue → Raw
  | .stringValue value => .string value
  | .boolValue value => .bool value
  | .doubleValue bits => .float64 bits
  | .intValue value => .int .int64 value.toInt
  | .bytesValue value => .bytes value
  | .kvlistValue values => .map (asRawMap [] values)
  | .arrayValue values => .slice (asRawSlice values)
  | _ => .nil

def asRawMap (rawMap : List (Text × Raw)) : List KeyValue → List (Text × Raw)
  | [] => rawMap
  | .mk k value _ :: rest => asRawMap (Lib.set k value.asRaw rawMap) rest

def asRawSlice : List AnyValue → List Raw
  | [] => []
  | value :: rest => value.asRaw :: asRawSlice rest

end

mutual

/-- Sets a value that was `current`, and answers the errors. -/
def AnyValue.fromRaw (current : AnyValue) : Raw → AnyValue × List String
  | .nil => (.empty, [])
  | .string value => (.stringValue value, [])
  | .int _ value => (.intValue (Int64.ofInt value), [])
  | .float32 bits => (.doubleValue bits, [])
  | .float64 bits => (.doubleValue bits, [])
  | .bool value => (.boolValue value, [])
  | .bytes value => (.bytesValue value, [])
  | .map values => let r := fromRawMap values; (.kvlistValue r.1, r.2)
  | .slice values => let r := fromRawSlice values; (.arrayValue r.1, r.2)
  | .other typeName => (current, ["<Invalid value type " ++ typeName ++ ">"])

def fromRawMap : List (Text × Raw) → List KeyValue × List String
  | [] => ([], [])
  | (k, iv) :: rest =>
    let r := AnyValue.empty.fromRaw iv
    let rs := fromRawMap rest
    (.mk k r.1 0 :: rs.1, r.2 ++ rs.2)

def fromRawSlice : List Raw → List AnyValue × List String
  | [] => ([], [])
  | iv :: rest =>
    let r := AnyValue.empty.fromRaw iv
    let rs := fromRawSlice rest
    (r.1 :: rs.1, r.2 ++ rs.2)

end

mutual

def Raw.SameTree : Raw → Raw → Prop
  | .map a, .map b => SameMap a b
  | .slice a, .slice b => SameSlice a b
  | a, b => a = b

def SameMap : List (Text × Raw) → List (Text × Raw) → Prop
  | [], other => other = []
  | (k, iv) :: rest, other => ∃ front found back,
      other = front ++ (k, found) :: back ∧ iv.SameTree found ∧ SameMap rest (front ++ back)

def SameSlice : List Raw → List Raw → Prop
  | [], [] => True
  | iv :: rest, found :: others => iv.SameTree found ∧ SameSlice rest others
  | _, _ => False

end

variable {values : List KeyValue} {a b : List (Text × Raw)} {raw : Raw}

def rawEntry (kv : KeyValue) : Text × Raw := (kv.key, kv.value.asRaw)

theorem asRawMap_foldl (rawMap : List (Text × Raw)) (values : List KeyValue) :
    asRawMap rawMap values = (values.map rawEntry).foldl (fun map entry => Lib.set entry.1 entry.2 map) rawMap := by
  induction values generalizing rawMap with
  | nil => rfl
  | cons first rest ih =>
    cases first with
    | mk k value keyStrindex =>
      rw [asRawMap, ih]
      rfl

theorem asRawMap_eq (distinct : (keys values).Nodup) : asRawMap [] values = values.map rawEntry := by
  have names : (values.map rawEntry).map Prod.fst = keys values := by
    rw [map_map]
    rfl
  rw [asRawMap_foldl, Lib.foldl_set]
  rw [names]
  exact distinct

theorem asRawSlice_eq (values : List AnyValue) : asRawSlice values = values.map AnyValue.asRaw := by
  induction values with
  | nil => rfl
  | cons first rest ih => rw [asRawSlice, ih, map_cons]

def ofEntry (entry : Text × Raw) : KeyValue := .mk entry.1 (AnyValue.empty.fromRaw entry.2).1 0

theorem fromRawMap_eq (right : ∀ entry ∈ b, (AnyValue.empty.fromRaw entry.2).2 = []) :
    fromRawMap b = (b.map ofEntry, []) := by
  induction b with
  | nil => rfl
  | cons entry rest ih =>
    rw [forall_mem_cons] at right
    rcases entry with ⟨k, iv⟩
    rw [fromRawMap, ih right.2, right.1]
    rfl

theorem fromRawSlice_eq {raws : List Raw} (right : ∀ iv ∈ raws, (AnyValue.empty.fromRaw iv).2 = []) :
    fromRawSlice raws = (raws.map (fun iv => (AnyValue.empty.fromRaw iv).1), []) := by
  induction raws with
  | nil => rfl
  | cons iv rest ih =>
    rw [forall_mem_cons] at right
    rw [fromRawSlice, ih right.2, right.1]
    rfl

theorem of_map_sameTree (same : (Raw.map a).SameTree raw) : ∃ b, raw = .map b ∧ SameMap a b := by
  cases raw with
  | map b => exact ⟨b, rfl, same⟩
  | _ => simp [Raw.SameTree] at same

theorem of_slice_sameTree {raws : List Raw} (same : (Raw.slice raws).SameTree raw) :
    ∃ others, raw = .slice others ∧ SameSlice raws others := by
  cases raw with
  | slice others => exact ⟨others, rfl, same⟩
  | _ => simp [Raw.SameTree] at same

theorem of_leaf_sameTree {value : AnyValue} (leaf : value.isLeaf = true) (same : value.asRaw.SameTree raw) :
    raw = value.asRaw := by
  cases value with
  | arrayValue | kvlistValue => cases leaf
  | _ => cases raw <;> simp_all [AnyValue.asRaw, Raw.SameTree]

theorem sameMap_pairs (same : SameMap a b) :
    Lib.Pairs (fun first second => first.1 = second.1 ∧ first.2.SameTree second.2) a b := by
  induction a generalizing b with
  | nil => exact same
  | cons first rest ih =>
    rcases first with ⟨k, iv⟩
    rcases same with ⟨front, found, back, rfl, tree, later⟩
    exact ⟨front, (k, found), back, rfl, ⟨rfl, tree⟩, ih later⟩

theorem sameSlice_iff {raws others : List Raw} : SameSlice raws others ↔ List.Forall₂ Raw.SameTree raws others := by
  induction raws generalizing others with
  | nil => cases others <;> simp [SameSlice]
  | cons first rest ih => cases others <;> simp [SameSlice, ih]

/-- Setting a value from its raw tree makes no error, and gives that tree and, without a NaN, an equal value again. -/
structure Returns (value : AnyValue) (raw : Raw) (result : AnyValue × List String) : Prop where
  errors : result.2 = []
  distinct : result.1.Distinct
  tree : result.1.asRaw = raw
  equal : value.NaNFree → value.equal result.1 = true

theorem returns_leaf {value : AnyValue} (current : AnyValue) (leaf : value.isLeaf = true) :
    Returns value value.asRaw (current.fromRaw value.asRaw) := by
  cases value with
  | arrayValue | kvlistValue => cases leaf
  | intValue n =>
    refine ⟨rfl, trivial, ?_, fun _ => ?_⟩
    · simp [AnyValue.asRaw, AnyValue.fromRaw]
    · simp [AnyValue.asRaw, AnyValue.fromRaw, AnyValue.equal]
  | stringValueStrindex _ => exact ⟨rfl, trivial, rfl, fun _ => equal_of_empty rfl rfl⟩
  | _ => exact ⟨rfl, trivial, rfl, fun numbers => equal_refl _ numbers trivial⟩

theorem returns_slice {elements : List AnyValue} {raws : List Raw} (current : AnyValue)
    (same : SameSlice (asRawSlice elements) raws)
    (each : ∀ value ∈ elements, ∀ raw, value.asRaw.SameTree raw → Returns value raw (AnyValue.empty.fromRaw raw)) :
    Returns (.arrayValue elements) (.slice raws) (current.fromRaw (.slice raws)) := by
  rw [asRawSlice_eq, sameSlice_iff, forall₂_map_left_iff] at same
  have back : List.Forall₂ (fun value raw => Returns value raw (AnyValue.empty.fromRaw raw)) elements raws := by
    rw [forall₂_iff_get] at same ⊢
    exact ⟨same.1, fun i first second => each _ (get_mem _ _) _ (same.2 i first second)⟩
  have right : ∀ iv ∈ raws, ∃ value, Returns value iv (AnyValue.empty.fromRaw iv) := by
    intro iv member
    rcases forall₂_iff_get.mp back with ⟨size, at_i⟩
    rcases get_of_mem member with ⟨⟨i, inside⟩, rfl⟩
    have inside' : i < elements.length := size ▸ inside
    exact ⟨_, at_i i inside' inside⟩
  have errors : ∀ iv ∈ raws, (AnyValue.empty.fromRaw iv).2 = [] := fun iv member =>
    (right iv member).elim fun _ returns => returns.errors
  have tree : ∀ iv ∈ raws, (AnyValue.empty.fromRaw iv).1.asRaw = iv := fun iv member =>
    (right iv member).elim fun _ returns => returns.tree
  rw [AnyValue.fromRaw, fromRawSlice_eq errors]
  refine ⟨rfl, everywhere_array.mpr ⟨trivial, ?_⟩, ?_, fun numbers => ?_⟩
  · intro value member
    rcases mem_map.mp member with ⟨iv, listed, rfl⟩
    exact (right iv listed).elim fun _ returns => returns.distinct
  · rw [AnyValue.asRaw, asRawSlice_eq, map_map]
    exact congrArg Raw.slice ((map_congr_left tree).trans (map_id' raws))
  · have inside := (everywhere_array.mp numbers).2
    rw [equal_array, forall₂_map_right_iff]
    rw [forall₂_iff_get] at back ⊢
    exact ⟨back.1, fun i first second => (back.2 i first second).equal (inside _ (get_mem _ _))⟩

theorem returns_map (current : AnyValue) (distinct : (keys values).Nodup) (same : SameMap (asRawMap [] values) b)
    (each : ∀ kv ∈ values, ∀ raw, kv.value.asRaw.SameTree raw → Returns kv.value raw (AnyValue.empty.fromRaw raw)) :
    Returns (.kvlistValue values) (.map b) (current.fromRaw (.map b)) := by
  have pairs := sameMap_pairs same
  rw [asRawMap_eq distinct] at pairs
  have size := pairs.length_eq
  have names := pairs.map_perm fun _ _ related => related.1
  have right : ∀ entry ∈ b, ∃ value, Returns value entry.2 (AnyValue.empty.fromRaw entry.2) := by
    intro entry member
    rcases pairs.mem_right member with ⟨_, listed, _, tree⟩
    rcases mem_map.mp listed with ⟨kv, member', rfl⟩
    exact ⟨kv.value, each kv member' entry.2 tree⟩
  have errors : ∀ entry ∈ b, (AnyValue.empty.fromRaw entry.2).2 = [] := fun entry member =>
    (right entry member).elim fun _ returns => returns.errors
  have tree : ∀ entry ∈ b, rawEntry (ofEntry entry) = entry := fun entry member =>
    (right entry member).elim fun _ returns => Prod.ext rfl returns.tree
  have distinct' : (keys (b.map ofEntry)).Nodup := by
    have keys_eq : keys (b.map ofEntry) = b.map Prod.fst := by
      rw [keys, map_map]
      rfl
    rw [keys_eq]
    apply names.nodup_iff.mp
    rw [map_map]
    exact distinct
  rw [AnyValue.fromRaw, fromRawMap_eq errors]
  refine ⟨rfl, everywhere_map.mpr ⟨distinct', ?_⟩, ?_, fun numbers => ?_⟩
  · intro kv member
    rcases mem_map.mp member with ⟨entry, listed, rfl⟩
    exact (right entry listed).elim fun _ returns => returns.distinct
  · rw [AnyValue.asRaw, asRawMap_eq distinct', map_map]
    exact congrArg Raw.map ((map_congr_left tree).trans (map_id' b))
  · have inside := (everywhere_map.mp numbers).2
    rw [equal_map]
    refine ⟨by simpa using size, fun kv member => ?_⟩
    rcases pairs.mem (mem_map_of_mem member) with ⟨entry, member', sameKey, tree⟩
    have found := getValue_of_mem distinct' (mem_map_of_mem member')
    have name : kv.key = (ofEntry entry).key := sameKey
    rw [← name] at found
    exact ⟨_, found, (each kv member entry.2 tree).equal (inside kv member)⟩

theorem fromRaw_returns (value current : AnyValue) (raw : Raw) (distinct : value.Distinct)
    (tree : value.asRaw.SameTree raw) : Returns value raw (current.fromRaw raw) := by
  induction value using AnyValue.nested generalizing raw current with
  | leaf value leaf =>
    rw [of_leaf_sameTree leaf tree]
    exact returns_leaf current leaf
  | array elements ih =>
    have inside := (everywhere_array.mp distinct).2
    rcases of_slice_sameTree tree with ⟨raws, rfl, same⟩
    exact returns_slice current same fun value member raw => ih value member .empty raw (inside value member)
  | map values ih =>
    rcases everywhere_map.mp distinct with ⟨here, inside⟩
    rcases of_map_sameTree tree with ⟨b, rfl, same⟩
    exact returns_map current here same fun kv member raw => ih kv member .empty raw (inside kv member)

theorem naNFree_of_equal (value other : AnyValue) (same : value.equal other = true) : value.NaNFree := by
  induction value using AnyValue.nested generalizing other with
  | leaf value leaf =>
    rw [AnyValue.NaNFree, everywhere_leaf leaf]
    cases value with
    | doubleValue bits => cases other <;> simp_all [AnyValue.equal, AnyValue.isEmpty, doubleEqual, AnyValue.NotNaN]
    | _ => trivial
  | array elements ih =>
    rcases of_array_equal same with ⟨others, rfl, each⟩
    refine everywhere_array.mpr ⟨trivial, fun value member => ?_⟩
    rcases get_of_mem member with ⟨i, rfl⟩
    rw [forall₂_iff_get] at each
    exact ih _ member _ (each.2 i i.2 (each.1 ▸ i.2))
  | map values ih =>
    rcases of_map_equal same with ⟨others, rfl, _, each⟩
    refine everywhere_map.mpr ⟨trivial, fun kv member => ?_⟩
    rcases each kv member with ⟨found, _, equal⟩
    exact ih kv member found equal

/-- A value with distinct keys comes back from its raw tree, without error and with the same tree; it is equal iff it
has no NaN. -/
theorem raw_conversion_returns (value : AnyValue) (raw : Raw) (distinct : value.Distinct)
    (tree : value.asRaw.SameTree raw) :
    (AnyValue.empty.fromRaw raw).2 = [] ∧ (AnyValue.empty.fromRaw raw).1.asRaw = raw ∧
      ((AnyValue.empty.fromRaw raw).1.equal value = true ↔ value.NaNFree) := by
  have returns := fromRaw_returns value .empty raw distinct tree
  refine ⟨returns.errors, returns.tree, fun same => ?_, fun numbers => ?_⟩
  · exact naNFree_of_equal value _ (equal_symm _ value returns.distinct same)
  · exact equal_symm value _ distinct (returns.equal numbers)

theorem raw_conversion_returns_two_keys :
    (AnyValue.empty.fromRaw (.map [([98], .int .int64 2), ([97], .int .int64 1)])).1.equal
      (counts [([97], 1), ([98], 2)]) = true := by
  have distinct : (counts [([97], 1), ([98], 2)]).Distinct := by
    simp [counts, AnyValue.Distinct, AnyValue.Everywhere, EverywhereEntries, AnyValue.KeysDistinct, keys, KeyValue.key]
  have numbers : (counts [([97], 1), ([98], 2)]).NaNFree := by
    simp [counts, AnyValue.NaNFree, AnyValue.Everywhere, EverywhereEntries, AnyValue.NotNaN]
  have tree : (counts [([97], 1), ([98], 2)]).asRaw.SameTree (.map [([98], .int .int64 2), ([97], .int .int64 1)]) :=
    ⟨[([98], .int .int64 2)], .int .int64 1, [], rfl, rfl, [], .int .int64 2, [], rfl, rfl, rfl⟩
  exact (raw_conversion_returns _ _ distinct tree).2.2.mpr numbers

/-- A NaN comes back with its bits, and is not equal to itself. -/
theorem nan_comes_back_unequal : (AnyValue.doubleValue 0x7FF8000000000000).Distinct ∧
    AnyValue.empty.fromRaw (AnyValue.doubleValue 0x7FF8000000000000).asRaw = (.doubleValue 0x7FF8000000000000, []) ∧
    (AnyValue.doubleValue 0x7FF8000000000000).equal (.doubleValue 0x7FF8000000000000) = false := by
  refine ⟨trivial, rfl, ?_⟩
  rw [AnyValue.equal]
  decide

end CollectorFormal.Pdata
