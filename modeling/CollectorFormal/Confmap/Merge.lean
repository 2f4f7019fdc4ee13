import CollectorFormal.Confmap.Conf
import Mathlib.Algebra.Order.Ring.Nat

/-! Merging of configurations, with lists appended at the keys of component lists.

Conf.mergeAppend copies the source first, so that reflect.DeepEqual compares contents. A call of reflect.Value.Cap
on anything but a list panics: there is no result then. -/

namespace CollectorFormal.Confmap

open Client (Text)
open Lib List Bool

/-- Exponent all ones, and a fraction. -/
def isNaN (bits : BitVec 64) : Bool := 0x7FF0000000000000 < bits.toNat % 2 ^ 63

/-- The comparison of two float64: zeros are equal whatever their sign. -/
def floatEqual (a b : BitVec 64) : Bool :=
  !isNaN a && !isNaN b && (a == b || (a.toNat % 2 ^ 63 == 0 && b.toNat % 2 ^ 63 == 0))

namespace Value

mutual

/-- reflect.DeepEqual -/
def deepEqual : Value → Value → Bool
  | .null, .null => true
  | .bool a, .bool b => a == b
  | .int a, .int b => a == b
  | .float a, .float b => floatEqual a b
  | .str a, .str b => a == b
  | .list a, .list b => deepEqualItems a b
  | .map a, .map b => a.length == b.length && deepEqualEntries a b
  | .expanded a original, .expanded b original' => deepEqual a b && original == original'
  | _, _ => false

def deepEqualItems : List Value → List Value → Bool
  | [], [] => true
  | a :: rest, b :: rest' => deepEqual a b && deepEqualItems rest rest'
  | _, _ => false

def deepEqualEntries : Entries → Entries → Bool
  | [], _ => true
  | (key, a) :: rest, other =>
    (match find key other with
      | some b => deepEqual a b
      | none => false) && deepEqualEntries rest other

end

mutual

def hasNaN : Value → Bool
  | .float bits => isNaN bits
  | .list items => hasNaNItems items
  | .map entries => hasNaNEntries entries
  | .expanded value _ => value.hasNaN
  | _ => false

def hasNaNItems : List Value → Bool
  | [] => false
  | item :: rest => item.hasNaN || hasNaNItems rest

def hasNaNEntries : Entries → Bool
  | [] => false
  | (_, value) :: rest => value.hasNaN || hasNaNEntries rest

end

end Value

def isPresent (slice : List Value) (val : Value) : Bool := slice.any fun item => val.deepEqual item

/-- The source's elements that are not present, each once it is appended. -/
def mergeSlice (src dest : List Value) : List Value :=
  src.foldl (fun slice item => if isPresent slice item then slice else slice ++ [item]) dest

def patterns : List Text :=
  [ascii "service::extensions", ascii "service::**::receivers", ascii "service::**::exporters"]

/-- `compile` is glob.Compile: the keys that a pattern matches, unless it is none. -/
def isMatch (compile : Text → Option (Text → Bool)) (key : Text) : Bool :=
  (patterns.filterMap compile).any fun glob => glob key

/-- maps.Merge: the source into the destination. -/
class Maps where
  mergeEntries : Entries → Entries → Entries

open Maps

def mergeValue [Maps] : Value → Option Value → Value
  | .map src, some (.map dest) => .map (mergeEntries src dest)
  | val, _ => val

/-- What is used of it. -/
class LawfulMaps extends Maps where
  find_mergeEntries : ∀ {src}, (src.map Prod.fst).Nodup → ∀ dest key, find key (mergeEntries src dest) =
    match find key src with
    | none => find key dest
    | some value => some (mergeValue value (find key dest))
  mergeEntries_nil : ∀ {src}, (src.map Prod.fst).Nodup → mergeEntries src [] = src
  mergeEntries_same : ∀ {src dest}, (∀ entry ∈ src, find entry.1 dest = some (mergeValue entry.2 (find entry.1 dest))) →
    mergeEntries src dest = dest
  nodup_mergeEntries : ∀ src {dest}, (dest.map Prod.fst).Nodup → ((mergeEntries src dest).map Prod.fst).Nodup

section Append
variable [Maps] (compile : Text → Option (Text → Bool))

/-- The loop's body for one key of the source. -/
def appendAt (destFlat : List (Text × Value)) (leaf : Text × Value) : Option (Text × Value) :=
  if isMatch compile leaf.1 then
    match find leaf.1 destFlat, leaf.2 with
    | some (.list dest), .list src => some (leaf.1, .list (mergeSlice src dest))
    | some _, .list _ => none
    | _, _ => some leaf
  else some leaf

def mergeAppend (src dest : Entries) : Option Entries := do
  let srcFlat ← (Value.flattened src).mapM (appendAt compile (Value.flattened dest))
  let mergedSrc := Value.unflattened srcFlat
  pure (mergeEntries mergedSrc.entries dest)

def newItems : List Value → List Value → List Value
  | _, [] => []
  | slice, item :: rest =>
    if isPresent slice item then newItems slice rest else item :: newItems (slice ++ [item]) rest

/-- The list at a key that is selected and has lists on both sides. -/
def appended (src dest : Entries) (path : Path) : Option (List Value) :=
  if isMatch compile (Value.joinKey path) then
    match Value.leaf path (.map src), Value.leaf path (.map dest) with
    | some (.list s), some (.list d) => some (d ++ newItems d s)
    | _, _ => none
  else none

end Append

theorem mergeSlice_eq (src dest : List Value) : mergeSlice src dest = dest ++ newItems dest src := by
  induction src generalizing dest with
  | nil => simp [mergeSlice, newItems]
  | cons item rest ih =>
    rw [mergeSlice, foldl_cons, ← mergeSlice, ih, newItems]
    split
    · rfl
    · simp

theorem floatEqual_self {bits : BitVec 64} (number : isNaN bits = false) : floatEqual bits bits = true := by
  simp [floatEqual, number]

namespace Value

theorem deepEqualItems_self {items : List Value} (each : ∀ item ∈ items, item.deepEqual item = true) :
    deepEqualItems items items = true := by
  induction items with
  | nil => rfl
  | cons item rest ih =>
    rw [forall_mem_cons] at each
    rw [deepEqualItems, each.1, ih each.2]
    rfl

theorem deepEqualEntries_iff (entries other : Entries) :
    deepEqualEntries entries other = true ↔
      ∀ entry ∈ entries, ∃ b, find entry.1 other = some b ∧ entry.2.deepEqual b = true := by
  induction entries with
  | nil => simp [deepEqualEntries]
  | cons entry rest ih =>
    rw [deepEqualEntries, and_eq_true, ih, forall_mem_cons]
    cases found : find entry.1 other with
    | none | some => simp

theorem hasNaNItems_iff (items : List Value) : hasNaNItems items = false ↔ ∀ item ∈ items, item.hasNaN = false := by
  induction items with
  | nil => simp [hasNaNItems]
  | cons item rest ih => simp [hasNaNItems, ih]

theorem hasNaNEntries_iff (entries : Entries) :
    hasNaNEntries entries = false ↔ ∀ entry ∈ entries, entry.2.hasNaN = false := by
  induction entries with
  | nil => simp [hasNaNEntries]
  | cons entry rest ih => simp [hasNaNEntries, ih]

theorem deepEqual_self {value : Value} (distinct : value.Distinct) (number : value.hasNaN = false) :
    value.deepEqual value = true := by
  induction value with
  | float bits => exact floatEqual_self number
  | list items ih =>
    rw [distinct_list] at distinct
    rw [hasNaN, hasNaNItems_iff] at number
    apply deepEqualItems_self
    intro item member
    exact ih item member (distinct item member) (number item member)
  | map entries ih =>
    rw [distinct_map] at distinct
    rw [hasNaN, hasNaNEntries_iff] at number
    rw [deepEqual, BEq.rfl, Bool.true_and, deepEqualEntries_iff]
    intro entry member
    exact ⟨entry.2, find_of_mem distinct.1 member, ih entry member (distinct.2 entry member) (number entry member)⟩
  | expanded value original ih => rw [deepEqual, ih distinct number, BEq.rfl, Bool.and_self]
  | null => rfl
  | bool | int | str => exact BEq.rfl

theorem hasNaN_of_deepEqualItems {items other : List Value}
    (each : ∀ item ∈ items, ∀ b, item.deepEqual b = true → item.hasNaN = false)
    (same : deepEqualItems items other = true) : hasNaNItems items = false := by
  induction items generalizing other with
  | nil => rfl
  | cons item rest ih =>
    rw [forall_mem_cons] at each
    cases other with
    | nil => cases same
    | cons b rest' =>
      rw [deepEqualItems, and_eq_true] at same
      rw [hasNaNItems, each.1 b same.1, ih each.2 same.2]
      rfl

theorem hasNaN_of_deepEqual {a b : Value} (same : a.deepEqual b = true) : a.hasNaN = false := by
  induction a generalizing b with
  | float bits =>
    cases b with
    | float bits' =>
      rw [deepEqual, floatEqual, and_eq_true, and_eq_true, not_eq_true'] at same
      exact same.1.1
    | _ => cases same
  | list items ih =>
    cases b with
    | list items' => exact hasNaN_of_deepEqualItems (fun item member b => ih item member) same
    | _ => cases same
  | map entries ih =>
    cases b with
    | map entries' =>
      rw [deepEqual, and_eq_true, deepEqualEntries_iff] at same
      rw [hasNaN, hasNaNEntries_iff]
      intro entry member
      obtain ⟨b, _, equal⟩ := same.2 entry member
      exact ih entry member equal
    | _ => cases same
  | expanded value original ih =>
    cases b with
    | expanded value' original' =>
      rw [deepEqual, and_eq_true] at same
      exact ih same.1
    | _ => cases same
  | _ => rfl

end Value

theorem newItems_eq_nil (slice src : List Value) :
    newItems slice src = [] ↔ ∀ item ∈ src, isPresent slice item = true := by
  induction src with
  | nil => simp [newItems]
  | cons item rest ih =>
    rw [newItems, forall_mem_cons]
    split
    · next present => rw [ih, and_iff_right present]
    · next absent => simp [absent]

theorem isPresent_append {slice : List Value} {item : Value} (present : isPresent slice item = true) (more : List Value) :
    isPresent (slice ++ more) item = true := by
  rw [isPresent, any_append, ← isPresent, present]
  rfl

theorem isPresent_newItems {src slice : List Value} {item : Value} (member : item ∈ src)
    (self : item.deepEqual item = true) : isPresent (slice ++ newItems slice src) item = true := by
  induction src generalizing slice with
  | nil => cases member
  | cons first rest ih =>
    rw [newItems]
    cases member with
    | head =>
      split
      · next present => exact isPresent_append present _
      · rw [isPresent, any_eq_true]
        exact ⟨item, by simp, self⟩
    | tail _ later =>
      split
      · exact ih later
      · have rest := @ih (slice ++ [first]) later
        simpa using rest

theorem newItems_again {slice src : List Value} (distinct : ∀ item ∈ src, item.Distinct)
    (has : ∀ item ∈ src, item.deepEqual item = true → isPresent slice item = true) :
    newItems slice src = [] ↔ ∀ item ∈ src, item.hasNaN = false := by
  rw [newItems_eq_nil]
  constructor
  · intro present item member
    have equal := present item member
    rw [isPresent, any_eq_true] at equal
    obtain ⟨other, -, same⟩ := equal
    exact Value.hasNaN_of_deepEqual same
  · intro numbers item member
    exact has item member (Value.deepEqual_self (distinct item member) (numbers item member))

namespace Value

def oldEntries (old : Option Value) : Entries := (old.map entries).getD []

section Merged
open LawfulMaps
variable [LawfulMaps]

theorem mergeValue_map {src : Entries} (distinct : (src.map Prod.fst).Nodup) (old : Option Value) :
    mergeValue (.map src) old = .map (mergeEntries src (oldEntries old)) := by
  have fresh := mergeEntries_nil distinct
  match old with
  | none | some .null | some (.bool _) | some (.int _) | some (.float _) | some (.str _) | some (.list _)
  | some (.expanded _ _) =>
    rw [oldEntries, mergeValue]
    · exact congrArg Value.map fresh.symm
    · simp
  | some (.map dest) => rw [mergeValue]; rfl

theorem mergeValue_other {value : Value} (other : ∀ entries, value ≠ .map entries) (old : Option Value) :
    mergeValue value old = value := by
  rw [mergeValue]
  intro src dest same
  exact absurd same (other src)

theorem mergeValue_again {value : Value} (distinct : value.Distinct) (old : Option Value) :
    mergeValue value (some (mergeValue value old)) = mergeValue value old := by
  induction value generalizing old with
  | map src ih =>
    rw [distinct_map] at distinct
    rw [mergeValue_map distinct.1, mergeValue_map distinct.1]
    apply congrArg
    apply mergeEntries_same
    intro entry member
    have found : find entry.1 src = some entry.2 := find_of_mem distinct.1 member
    change find entry.1 (mergeEntries src (oldEntries old)) =
      some (mergeValue entry.2 (find entry.1 (mergeEntries src (oldEntries old))))
    rw [find_mergeEntries distinct.1, found]
    exact congrArg some (ih entry member (distinct.2 entry member) _).symm
  | _ => rw [mergeValue_other (by simp), mergeValue_other (by simp)]

end Merged

end Value

mutual

/-- The merge as koanf has it. -/
def koanfEntries : Entries → Entries → Entries
  | [], dest => dest
  | (key, val) :: rest, dest => koanfEntries rest (set key (koanfValue val (find key dest)) dest)

def koanfValue : Value → Option Value → Value
  | .map src, some (.map dest) => .map (koanfEntries src dest)
  | val, _ => val

end

theorem koanfEntries_cons (entry : Text × Value) (rest dest : Entries) :
    koanfEntries (entry :: rest) dest =
      koanfEntries rest (set entry.1 (@mergeValue ⟨koanfEntries⟩ entry.2 (find entry.1 dest)) dest) := by
  rw [koanfEntries, koanfValue.eq_def, @mergeValue.eq_def ⟨koanfEntries⟩]
  rfl

theorem koanfEntries_append {src done : Entries} (distinct : ((done ++ src).map Prod.fst).Nodup) :
    koanfEntries src done = done ++ src := by
  induction src generalizing done with
  | nil => rw [koanfEntries, append_nil]
  | cons entry rest ih =>
    have absent : find entry.1 done = none := by
      rw [find_eq_none_iff]
      intro present
      rw [map_append, map_cons, nodup_append] at distinct
      exact distinct.2.2 entry.1 present entry.1 mem_cons_self rfl
    have alone : koanfValue entry.2 none = entry.2 := by
      rw [koanfValue]
      simp
    rw [koanfEntries, absent, alone, set_of_find_none absent, ih]
    · simp
    · simpa using distinct

instance koanf : LawfulMaps where
  mergeEntries := koanfEntries
  find_mergeEntries := by
    intro src distinct dest key
    induction src generalizing dest with
    | nil => rw [koanfEntries]; rfl
    | cons entry rest ih =>
      rw [map_cons, nodup_cons] at distinct
      rw [koanfEntries_cons, ih distinct.2, find]
      by_cases same : entry.1 = key
      · have absent : find key rest = none := by
          rw [← same]
          exact find_eq_none_iff.mpr distinct.1
        rw [if_pos same, absent, same]
        exact find_set_same
      · rw [if_neg same, find_set_other (Ne.symm same)]
  mergeEntries_nil distinct := koanfEntries_append distinct
  mergeEntries_same := by
    intro src dest same
    induction src with
    | nil => rw [koanfEntries]
    | cons entry rest ih =>
      rw [forall_mem_cons] at same
      rw [koanfEntries_cons, set_of_find same.1, ih same.2]
  nodup_mergeEntries := by
    intro src dest distinct
    induction src generalizing dest with
    | nil => rwa [koanfEntries]
    | cons entry rest ih =>
      rw [koanfEntries_cons]
      exact ih (nodup_set distinct)

end CollectorFormal.Confmap
