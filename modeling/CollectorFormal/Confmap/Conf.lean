import CollectorFormal.Confmap.Value
import CollectorFormal.Lib.Assoc

/-! The maps of a configuration, by their nested entries and by their flattened keys.

A key is the path to it. Flatten, Unflatten and Merge are those of koanf: a map without entries is a value of its
own, and only a map is merged into a map. A new Conf reads the path off the joined key again. -/

namespace CollectorFormal.Confmap

open Client (Text)
open Lib

abbrev Path := List Text

namespace Value

def entries : Value → Entries
  | .map entries => entries
  | _ => []

mutual

def Distinct : Value → Prop
  | .list items => DistinctItems items
  | .map entries => (entries.map Prod.fst).Nodup ∧ DistinctEntries entries
  | .expanded value _ => value.Distinct
  | _ => True

def DistinctItems : List Value → Prop
  | [] => True
  | item :: rest => item.Distinct ∧ DistinctItems rest

def DistinctEntries : Entries → Prop
  | [] => True
  | (_, value) :: rest => value.Distinct ∧ DistinctEntries rest

end

theorem distinctEntries_iff (entries : Entries) : DistinctEntries entries ↔ ∀ entry ∈ entries, entry.2.Distinct := by
  induction entries with
  | nil => simp [DistinctEntries]
  | cons entry rest ih => simp [DistinctEntries, ih]

theorem distinctItems_iff (items : List Value) : DistinctItems items ↔ ∀ item ∈ items, item.Distinct := by
  induction items with
  | nil => simp [DistinctItems]
  | cons item rest ih => simp [DistinctItems, ih]

theorem distinct_list (items : List Value) : (list items).Distinct ↔ ∀ item ∈ items, item.Distinct := by
  rw [Distinct, distinctItems_iff]

theorem distinct_map (entries : Entries) :
    (map entries).Distinct ↔ (entries.map Prod.fst).Nodup ∧ ∀ entry ∈ entries, entry.2.Distinct := by
  rw [Distinct, distinctEntries_iff]

mutual

def flatten (path : Path) : Value → List (Path × Value)
  | .map [] => [(path, .map [])]
  | .map (first :: rest) => flattenEntries path (first :: rest)
  | value => [(path, value)]

def flattenEntries (path : Path) : Entries → List (Path × Value)
  | [] => []
  | (key, value) :: rest => flatten (path ++ [key]) value ++ flattenEntries path rest

end

def put (value : Value) : Path → Value → Value
  | [], _ => value
  | key :: rest, tree => .map (set key (put value rest ((find key tree.entries).getD (.map []))) tree.entries)

def unflatten (leaves : List (Path × Value)) : Value :=
  leaves.foldl (fun tree leaf => put leaf.2 leaf.1 tree) (.map [])

def joinKey (path : Path) : Text := [58, 58].intercalate path

/-- Split at KeyDelimiter. -/
def splitKey : Text → Path
  | 58 :: 58 :: rest => [] :: splitKey rest
  | c :: rest => (splitKey rest).modifyHead (c :: ·)
  | [] => [[]]

/-- maps.Flatten -/
def flattened (entries : Entries) : List (Text × Value) :=
  (flattenEntries [] entries).map fun leaf => (joinKey leaf.1, leaf.2)

/-- maps.Unflatten, also of NewFromStringMap. -/
def unflattened (data : List (Text × Value)) : Value := unflatten (data.map fun leaf => (splitKey leaf.1, leaf.2))

/-- The joined keys are split into what they were joined from: no key contains the delimiter. -/
def KeysKept (entries : Entries) : Prop :=
  ∀ leaf ∈ flattenEntries [] entries, splitKey (joinKey leaf.1) = leaf.1

mutual

/-- Every value that flatten finds replaced, given the key to it. -/
def mapLeaves (g : Path → Value → Value) : Value → Value
  | .map [] => g [] (.map [])
  | .map (first :: rest) => .map (mapLeavesEntries g (first :: rest))
  | value => g [] value

def mapLeavesEntries (g : Path → Value → Value) : Entries → Entries
  | [] => []
  | (key, value) :: rest => (key, mapLeaves (fun path => g (key :: path)) value) :: mapLeavesEntries g rest

end

def IsLeaf : Value → Prop
  | .map (_ :: _) => False
  | _ => True

variable {value : Value}

theorem flatten_leaf (leaf : value.IsLeaf) (path : Path) : value.flatten path = [(path, value)] := by
  cases value with
  | map entries =>
    cases entries with
    | nil => rfl
    | cons => cases leaf
  | _ => rfl

theorem mapLeaves_leaf (leaf : value.IsLeaf) (g : Path → Value → Value) : value.mapLeaves g = g [] value := by
  cases value with
  | map entries =>
    cases entries with
    | nil => rfl
    | cons => cases leaf
  | _ => rfl

theorem treeInduct {motive : Value → Prop} (leaf : ∀ value, value.IsLeaf → motive value)
    (node : ∀ first rest, (∀ entry ∈ first :: rest, motive entry.2) → motive (.map (first :: rest)))
    (value : Value) : motive value := by
  induction value with
  | map entries ih =>
    cases entries with
    | nil => exact leaf _ trivial
    | cons first rest => exact node first rest ih
  | _ => exact leaf _ trivial

theorem mem_flattenEntries {entries : Entries} {path : Path} {leaf : Path × Value} :
    leaf ∈ flattenEntries path entries ↔ ∃ entry ∈ entries, leaf ∈ entry.2.flatten (path ++ [entry.1]) := by
  induction entries with
  | nil => simp [flattenEntries]
  | cons entry rest ih => simp [flattenEntries, ih]

theorem flatten_ne_nil (value : Value) (path : Path) : value.flatten path ≠ [] := by
  induction value using treeInduct generalizing path with
  | leaf value leaf => simp [flatten_leaf leaf]
  | node first rest ih =>
    rw [flatten, flattenEntries]
    intro empty
    exact ih first List.mem_cons_self _ (List.append_eq_nil_iff.mp empty).1

def under (path : Path) (leaf : Path × Value) : Path × Value := (path ++ leaf.1, leaf.2)

theorem flattenEntries_under {entries : Entries} (path : Path)
    (each : ∀ entry ∈ entries, ∀ path, entry.2.flatten path = (entry.2.flatten []).map (under path)) :
    flattenEntries path entries = (flattenEntries [] entries).map (under path) := by
  induction entries with
  | nil => rfl
  | cons entry rest ih =>
    rw [List.forall_mem_cons] at each
    rw [flattenEntries, flattenEntries, List.map_append, ih each.2, each.1 (path ++ [entry.1]),
      each.1 ([] ++ [entry.1]), List.map_map]
    congr 2
    funext leaf
    simp [under]

theorem flatten_under (value : Value) (path : Path) : value.flatten path = (value.flatten []).map (under path) := by
  induction value using treeInduct generalizing path with
  | leaf value leaf => simp [flatten_leaf leaf, under]
  | node first rest ih => exact flattenEntries_under path ih

theorem flattenEntries_cons (key : Text) (value : Value) (rest : Entries) :
    flattenEntries [] ((key, value) :: rest) = (value.flatten []).map (under [key]) ++ flattenEntries [] rest := by
  rw [flattenEntries, List.nil_append, flatten_under]

theorem foldl_put_under (key : Text) {leaves : List (Path × Value)} (some : leaves ≠ []) (entries : Entries) :
    (leaves.map (under [key])).foldl (fun tree leaf => put leaf.2 leaf.1 tree) (.map entries) =
      .map (set key (leaves.foldl (fun tree leaf => put leaf.2 leaf.1 tree)
        ((find key entries).getD (.map []))) entries) := by
  induction leaves generalizing entries with
  | nil => exact absurd rfl some
  | cons leaf rest ih =>
    rw [List.map_cons, List.foldl_cons, List.foldl_cons]
    cases rest with
    | nil => rfl
    | cons second rest =>
      refine (ih (List.cons_ne_nil _ _) _).trans ?_
      rw [find_set_same, set_set]
      rfl

theorem foldl_put_entries {entries done : Entries} (g : Path → Value → Value)
    (distinct : ((done ++ entries).map Prod.fst).Nodup)
    (each : ∀ entry ∈ entries, ∀ g : Path → Value → Value,
      unflatten ((entry.2.flatten []).map fun leaf => (leaf.1, g leaf.1 leaf.2)) = entry.2.mapLeaves g) :
    ((flattenEntries [] entries).map fun leaf => (leaf.1, g leaf.1 leaf.2)).foldl
      (fun tree leaf => put leaf.2 leaf.1 tree) (.map done) = .map (done ++ mapLeavesEntries g entries) := by
  induction entries generalizing done with
  | nil => simp [flattenEntries, mapLeavesEntries]
  | cons entry rest ih =>
    obtain ⟨key, value⟩ := entry
    rw [List.forall_mem_cons] at each
    have block : (((value.flatten []).map (under [key])).map fun leaf => (leaf.1, g leaf.1 leaf.2)) =
        ((value.flatten []).map fun leaf => (leaf.1, g (key :: leaf.1) leaf.2)).map (under [key]) := by
      rw [List.map_map, List.map_map]
      rfl
    have absent : find key done = none := by
      rw [find_eq_none_iff]
      intro present
      rw [List.map_append, List.map_cons, List.nodup_append] at distinct
      exact distinct.2.2 key present key List.mem_cons_self rfl
    have entry := each.1 fun path => g (key :: path)
    rw [unflatten] at entry
    rw [flattenEntries_cons, List.map_append, List.foldl_append, block,
      foldl_put_under key (by simpa using flatten_ne_nil value []), absent, Option.getD_none,
      entry, set_of_find_none absent, ih _ each.2]
    · rw [mapLeavesEntries, List.append_assoc, List.singleton_append]
    · simpa using distinct

theorem unflatten_flatten (distinct : value.Distinct) (g : Path → Value → Value) :
    unflatten ((value.flatten []).map fun leaf => (leaf.1, g leaf.1 leaf.2)) = value.mapLeaves g := by
  induction value using treeInduct generalizing g with
  | leaf value leaf =>
    rw [flatten_leaf leaf, mapLeaves_leaf leaf]
    rfl
  | node first rest ih =>
    rw [distinct_map] at distinct
    apply @foldl_put_entries (first :: rest) [] g distinct.1
    intro entry member
    exact ih entry member (distinct.2 entry member)

theorem mapLeaves_same (value : Value) : value.mapLeaves (fun _ leaf => leaf) = value := by
  induction value using treeInduct with
  | leaf value leaf => rw [mapLeaves_leaf leaf]
  | node first rest ih =>
    have each (entries : Entries) (same : ∀ entry ∈ entries, entry.2.mapLeaves (fun _ leaf => leaf) = entry.2) :
        mapLeavesEntries (fun _ leaf => leaf) entries = entries := by
      induction entries with
      | nil => rfl
      | cons entry rest ih =>
        rw [List.forall_mem_cons] at same
        rw [mapLeavesEntries, same.1, ih same.2]
    rw [mapLeaves, each _ ih]

theorem unflatten_flattenEntries {entries : Entries} (distinct : (map entries).Distinct) :
    unflatten (flattenEntries [] entries) = .map entries := by
  cases entries with
  | nil => rfl
  | cons first rest =>
    have whole := unflatten_flatten distinct fun _ leaf => leaf
    rw [mapLeaves_same, List.map_id'] at whole
    exact whole

theorem unflattened_kept {entries : Entries} (kept : KeysKept entries) (g : Path → Value → Value) :
    unflattened ((flattenEntries [] entries).map fun leaf => (joinKey leaf.1, g leaf.1 leaf.2)) =
      unflatten ((flattenEntries [] entries).map fun leaf => (leaf.1, g leaf.1 leaf.2)) := by
  rw [unflattened, List.map_map]
  congr 1
  apply List.map_congr_left
  intro leaf member
  exact congrArg (·, g leaf.1 leaf.2) (kept leaf member)

theorem splitKey_ne_nil (key : Text) : splitKey key ≠ [] := by
  fun_induction splitKey key with
  | case1 | case3 => simp
  | case2 c rest _ ih => simpa [List.modifyHead_eq_nil_iff] using ih

def leaf : Path → Value → Option Value
  | [], .map (_ :: _) => none
  | [], value => some value
  | key :: rest, value => (find key value.entries).bind (leaf rest)

theorem leaf_nil (here : value.IsLeaf) : leaf [] value = some value := by
  cases value with
  | map entries =>
    cases entries with
    | nil => rfl
    | cons => cases here
  | _ => rfl

theorem entries_leaf (here : value.IsLeaf) : value.entries = [] := by
  cases value with
  | map entries =>
    cases entries with
    | nil => rfl
    | cons => cases here
  | _ => rfl

theorem find_under (key : Text) (path : Path) (leaves : List (Path × Value)) :
    find path (leaves.map (under [key])) =
      match path with
      | [] => none
      | first :: rest => if first = key then find rest leaves else none := by
  induction leaves with
  | nil =>
    cases path with
    | nil => rfl
    | cons first rest => simp [find]
  | cons leaf later ih =>
    rw [List.map_cons, find, ih]
    cases path with
    | nil => simp [under]
    | cons first rest =>
      by_cases same : first = key
      · simp [under, same, find]
      · simp [under, same, Ne.symm same]

theorem find_flattenEntries {entries : Entries} (distinct : (entries.map Prod.fst).Nodup)
    (each : ∀ entry ∈ entries, ∀ path, find path (entry.2.flatten []) = leaf path entry.2) (path : Path) :
    find path (flattenEntries [] entries) =
      match path with
      | [] => none
      | key :: rest => (find key entries).bind (leaf rest) := by
  induction entries with
  | nil =>
    cases path with
    | nil | cons => rfl
  | cons entry later ih =>
    rw [List.map_cons, List.nodup_cons] at distinct
    rw [List.forall_mem_cons] at each
    rw [flattenEntries_cons, find_append, find_under, ih distinct.2 each.2]
    cases path with
    | nil => rfl
    | cons key rest =>
      by_cases same : key = entry.1
      · have absent : find entry.1 later = none := find_eq_none_iff.mpr distinct.1
        simp [same, find, each.1, absent]
      · simp [same, find, Ne.symm same]

theorem find_flatten (distinct : value.Distinct) (path : Path) : find path (value.flatten []) = leaf path value := by
  induction value using treeInduct generalizing path with
  | leaf value here =>
    rw [flatten_leaf here]
    cases path with
    | nil => rw [leaf_nil here, find, if_pos rfl]
    | cons key rest =>
      rw [leaf, entries_leaf here]
      rfl
  | node first rest ih =>
    rw [distinct_map] at distinct
    rw [flatten, find_flattenEntries distinct.1 fun entry member => ih entry member (distinct.2 entry member)]
    cases path with
    | nil | cons => rfl

theorem path_ne_nil {entries : Entries} {leaf : Path × Value} (member : leaf ∈ flattenEntries [] entries) :
    leaf.1 ≠ [] := by
  rw [mem_flattenEntries] at member
  obtain ⟨entry, -, inside⟩ := member
  rw [flatten_under, List.mem_map] at inside
  obtain ⟨below, -, rfl⟩ := inside
  simp [under]

theorem find_flattened {entries : Entries} (distinct : (map entries).Distinct) (kept : KeysKept entries) {path : Path}
    (whole : splitKey (joinKey path) = path) : find (joinKey path) (flattened entries) = leaf path (.map entries) := by
  rw [distinct_map] at distinct
  rw [flattened, find_map_key]
  · rw [find_flattenEntries distinct.1 fun entry member => find_flatten (distinct.2 entry member)]
    cases path with
    | nil => exact absurd whole (splitKey_ne_nil _)
    | cons key rest => rfl
  · intro entry member same
    rw [← kept entry member, same, whole]

theorem leaf_of_mem (distinct : value.Distinct) {path : Path} {here : Value}
    (member : (path, here) ∈ value.flatten []) : leaf path value = some here := by
  induction value using treeInduct generalizing path with
  | leaf value is_leaf =>
    rw [flatten_leaf is_leaf, List.mem_singleton] at member
    cases member
    exact leaf_nil is_leaf
  | node first rest ih =>
    rw [distinct_map] at distinct
    rw [flatten, mem_flattenEntries] at member
    obtain ⟨entry, listed, inside⟩ := member
    rw [List.nil_append, flatten_under, List.mem_map] at inside
    obtain ⟨⟨path', here'⟩, inside, same⟩ := inside
    cases same
    have below := ih entry listed (distinct.2 entry listed) inside
    change (find entry.1 (first :: rest)).bind (leaf path') = _
    rw [find_of_mem distinct.1 listed, Option.bind_some, below]

section Strings
variable {f : Text → Text} {P : Text → Prop}

theorem flattenEntries_congr {entries : Entries} {path : Path}
    (each : ∀ entry ∈ entries, ∀ path,
      (entry.2.mapStrings f).flatten path = (entry.2.flatten path).map fun leaf => (leaf.1, leaf.2.mapStrings f)) :
    flattenEntries path (mapEntries f entries) =
      (flattenEntries path entries).map fun leaf => (leaf.1, leaf.2.mapStrings f) := by
  induction entries with
  | nil => rfl
  | cons entry rest ih =>
    rw [List.forall_mem_cons] at each
    rw [mapEntries, flattenEntries, flattenEntries, List.map_append, each.1, ih each.2]

theorem flatten_mapStrings (value : Value) (path : Path) :
    (value.mapStrings f).flatten path = (value.flatten path).map fun leaf => (leaf.1, leaf.2.mapStrings f) := by
  induction value using treeInduct generalizing path with
  | leaf value leaf =>
    have still : (value.mapStrings f).IsLeaf := by
      cases value with
      | map entries =>
        cases entries with
        | nil => trivial
        | cons => cases leaf
      | _ => trivial
    rw [flatten_leaf leaf, flatten_leaf still]
    rfl
  | node first rest ih => exact flattenEntries_congr ih

theorem flattenEntries_mapStrings (entries : Entries) (path : Path) :
    flattenEntries path (mapEntries f entries) =
      (flattenEntries path entries).map fun leaf => (leaf.1, leaf.2.mapStrings f) :=
  flattenEntries_congr fun entry _ path => flatten_mapStrings entry.2 path

theorem every_flatten {value : Value} (all : value.Every P) (path : Path) :
    ∀ leaf ∈ value.flatten path, leaf.2.Every P := by
  induction value using treeInduct generalizing path with
  | leaf value leaf => simpa [flatten_leaf leaf] using all
  | node first rest ih =>
    intro leaf member
    rw [every_map] at all
    rw [flatten, mem_flattenEntries] at member
    obtain ⟨entry, listed, inside⟩ := member
    exact ih entry listed (all entry listed) _ leaf inside

theorem every_flattenEntries {entries : Entries} (all : (map entries).Every P) (path : Path) :
    ∀ leaf ∈ flattenEntries path entries, leaf.2.Every P := by
  intro leaf member
  rw [every_map] at all
  rw [mem_flattenEntries] at member
  obtain ⟨entry, listed, inside⟩ := member
  exact every_flatten (all entry listed) _ leaf inside

end Strings

end Value

end CollectorFormal.Confmap
