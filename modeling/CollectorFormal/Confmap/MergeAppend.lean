import CollectorFormal.Confmap.Merge

/-! When mergeAppend is a merge that keeps the elements of component lists.

It merges the source with some of its lists replaced: at the keys of these the result is the list, at any other that
of a plain merge. -/

namespace CollectorFormal.Confmap

open Client (Text)
open Lib List Maps LawfulMaps

namespace Value

variable (g : Path → Value → Value)

def OnLists : Prop :=
  ∀ path value, g path value = value ∨ ∃ s s', value = .list s ∧ g path value = .list s'

/-- The list at a key if the source has one there, and else what is there otherwise. -/
def listOr (path : Path) (own other : Option Value) : Option Value :=
  match own with
  | some (.list s) => some (g path (.list s))
  | _ => other

section Lists
variable {g : Path → Value → Value} {key : Text} {path : Path}

theorem OnLists.under (lists : OnLists g) (key : Text) : OnLists fun path => g (key :: path) :=
  fun path value => lists (key :: path) value

theorem OnLists.list (lists : OnLists g) (path : Path) (s : List Value) : ∃ s', g path (.list s) = .list s' := by
  rcases lists path (.list s) with same | ⟨_, s', _, replaced⟩
  · exact ⟨s, same⟩
  · exact ⟨s', replaced⟩

theorem OnLists.other (lists : OnLists g) (path : Path) {value : Value} (other : ∀ s, value ≠ .list s) :
    g path value = value := by
  rcases lists path value with same | ⟨s, _, list, _⟩
  · exact same
  · exact absurd list (other s)

theorem onLists_same : OnLists fun _ value => value := fun _ _ => .inl rfl

theorem keys_mapLeavesEntries (g : Path → Value → Value) (entries : Entries) :
    (mapLeavesEntries g entries).map Prod.fst = entries.map Prod.fst := by
  induction entries generalizing g with
  | nil => rfl
  | cons entry rest ih => rw [mapLeavesEntries, map_cons, ih, map_cons]

theorem find_mapLeavesEntries (g : Path → Value → Value) (entries : Entries) :
    find key (mapLeavesEntries g entries) = (find key entries).map (mapLeaves fun path => g (key :: path)) := by
  induction entries with
  | nil => rfl
  | cons entry rest ih =>
    rw [mapLeavesEntries, find, find]
    by_cases same : entry.1 = key
    · rw [if_pos same, if_pos same, same, Option.map_some]
    · rw [if_neg same, if_neg same, ih]

theorem leaf_node {entries : Entries} (some : entries ≠ []) (path : Path) :
    leaf path (.map entries) =
      match path with
      | [] => none
      | key :: rest => (find key entries).bind (leaf rest) := by
  cases entries with
  | nil => exact absurd rfl some
  | cons first rest =>
    cases path with
    | nil | cons => rfl

theorem isLeaf_list (s : List Value) : (list s).IsLeaf := trivial

theorem isLeaf_empty : (map []).IsLeaf := trivial

theorem kinds (value : Value) :
    (∃ s, value = .list s) ∨ (∃ first rest, value = .map (first :: rest)) ∨ value.IsLeaf ∧ ∀ s, value ≠ .list s := by
  match value with
  | .list s => exact .inl ⟨s, rfl⟩
  | .map (first :: rest) => exact .inr (.inl ⟨first, rest, rfl⟩)
  | .map [] => exact .inr (.inr ⟨trivial, by simp⟩)
  | .null | .bool _ | .int _ | .float _ | .str _ | .expanded _ _ => exact .inr (.inr ⟨trivial, by simp⟩)

theorem listOr_other {own other : Option Value} (unlike : ∀ s, own ≠ some (.list s)) :
    listOr g path own other = other := by
  match own with
  | some (.list s) => exact absurd rfl (unlike s)
  | none | some .null | some (.bool _) | some (.int _) | some (.float _) | some (.str _) | some (.map _)
  | some (.expanded _ _) => rfl

theorem leaf_ne_list {value : Value} (here : value.IsLeaf) (other : ∀ s, value ≠ .list s) (path : Path) (s : List Value) :
    leaf path value ≠ some (.list s) := by
  cases path with
  | nil =>
    rw [leaf_nil here]
    intro same
    exact other s (Option.some.inj same)
  | cons key rest =>
    rw [leaf, entries_leaf here]
    intro same
    cases same

end Lists

theorem mapLeavesEntries_eq (entries : Entries) :
    mapLeavesEntries g entries = entries.map fun entry => (entry.1, entry.2.mapLeaves fun path => g (entry.1 :: path)) := by
  induction entries with
  | nil => rfl
  | cons entry rest ih => rw [mapLeavesEntries, ih, map_cons]

variable {entries : Entries}

theorem leaf_entry (distinct : (entries.map Prod.fst).Nodup) {entry : Text × Value}
    (member : entry ∈ entries) (path : Path) : leaf (entry.1 :: path) (.map entries) = leaf path entry.2 := by
  change (find entry.1 entries).bind (leaf path) = _
  rw [find_of_mem distinct member, Option.bind_some]

theorem distinct_leaf {value : Value} (distinct : value.Distinct) {path : Path} {here : Value}
    (found : leaf path value = some here) : here.Distinct := by
  induction path generalizing value with
  | nil =>
    rcases kinds value with ⟨s, list⟩ | ⟨first, rest, node⟩ | ⟨is_leaf, _⟩
    · rw [list, leaf_nil (isLeaf_list s), Option.some_inj] at found
      rwa [← found, ← list]
    · rw [node] at found
      cases found
    · rw [leaf_nil is_leaf, Option.some_inj] at found
      rwa [← found]
  | cons key rest ih =>
    rw [leaf, Option.bind_eq_some_iff] at found
    obtain ⟨child, entry, below⟩ := found
    cases value with
    | map entries =>
      rw [distinct_map] at distinct
      exact ih (distinct.2 _ (mem_of_find entry)) below
    | _ => cases entry

theorem distinct_mapLeaves {g : Path → Value → Value} {value : Value} (distinct : value.Distinct)
    (each : ∀ path here, leaf path value = some here → here.Distinct → (g path here).Distinct) :
    (value.mapLeaves g).Distinct := by
  induction value using treeInduct generalizing g with
  | leaf value here =>
    rw [mapLeaves_leaf here]
    exact each [] value (leaf_nil here) distinct
  | node first rest ih =>
    rw [distinct_map] at distinct
    rw [mapLeaves, distinct_map, keys_mapLeavesEntries, mapLeavesEntries_eq, forall_mem_map]
    refine ⟨distinct.1, ?_⟩
    intro entry member
    apply ih entry member (distinct.2 entry member)
    intro path here found
    exact each (entry.1 :: path) here (by rw [leaf_entry distinct.1 member, found])

theorem mapLeaves_congr {g g' : Path → Value → Value} {value : Value} (distinct : value.Distinct)
    (same : ∀ path here, leaf path value = some here → g path here = g' path here) :
    value.mapLeaves g = value.mapLeaves g' := by
  induction value using treeInduct generalizing g g' with
  | leaf value here =>
    rw [mapLeaves_leaf here, mapLeaves_leaf here]
    exact same [] value (leaf_nil here)
  | node first rest ih =>
    rw [distinct_map] at distinct
    rw [mapLeaves, mapLeaves, mapLeavesEntries_eq, mapLeavesEntries_eq]
    apply congrArg
    apply map_congr_left
    intro entry member
    apply congrArg (entry.1, ·)
    apply ih entry member (distinct.2 entry member)
    intro path here found
    exact same (entry.1 :: path) here (by rw [leaf_entry distinct.1 member, found])

theorem mapLeavesEntries_congr {g g' : Path → Value → Value} {entries : Entries} (distinct : (map entries).Distinct)
    (same : ∀ path here, leaf path (.map entries) = some here → g path here = g' path here) :
    mapLeavesEntries g entries = mapLeavesEntries g' entries := by
  cases entries with
  | nil => rfl
  | cons first rest => exact Value.map.inj (mapLeaves_congr distinct same)

theorem mapLeavesEntries_same (entries : Entries) : mapLeavesEntries (fun _ here => here) entries = entries := by
  rw [mapLeavesEntries_eq]
  simp [mapLeaves_same]

theorem unflatten_leaves (distinct : (map entries).Distinct) (g : Path → Value → Value) :
    unflatten ((flattenEntries [] entries).map fun leaf => (leaf.1, g leaf.1 leaf.2)) =
      .map (mapLeavesEntries g entries) := by
  cases entries with
  | nil => rfl
  | cons first rest => exact unflatten_flatten distinct g

theorem leaf_of_mem_entries (distinct : (map entries).Distinct) {path : Path} {here : Value}
    (member : (path, here) ∈ flattenEntries [] entries) : leaf path (.map entries) = some here := by
  cases entries with
  | nil => cases member
  | cons first rest => exact leaf_of_mem distinct member

theorem kept_of_leaf (distinct : (map entries).Distinct) (kept : KeysKept entries) {path : Path} (nonempty : path ≠ [])
    {here : Value} (found : leaf path (.map entries) = some here) : splitKey (joinKey path) = path := by
  rw [distinct_map] at distinct
  apply kept (path, here)
  apply mem_of_find
  rw [find_flattenEntries distinct.1 fun entry member => find_flatten (distinct.2 entry member), ← found]
  cases path with
  | nil => exact absurd rfl nonempty
  | cons key rest => rfl

theorem list_ne_nil {path : Path} {s : List Value} (here : leaf path (.map entries) = some (.list s)) : path ≠ [] := by
  intro empty
  rw [empty] at here
  cases entries with
  | nil | cons => cases here

variable [LawfulMaps]

theorem mergeEntries_ne_nil {first : Text × Value} {rest : Entries} (distinct : ((first :: rest).map Prod.fst).Nodup)
    (dest : Entries) : mergeEntries (first :: rest) dest ≠ [] := by
  intro empty
  have found := find_mergeEntries distinct dest first.1
  rw [empty, find_of_mem distinct mem_cons_self] at found
  cases found

theorem leaf_mergeValue {g : Path → Value → Value} (lists : OnLists g) {value : Value} (distinct : value.Distinct)
    (path : Path) (old : Option Value) :
    leaf path (mergeValue (value.mapLeaves g) old) =
      listOr g path (leaf path value) (leaf path (mergeValue value old)) := by
  induction path generalizing g value old with
  | nil =>
    rcases kinds value with ⟨s, list⟩ | ⟨first, rest, node⟩ | ⟨here, other⟩
    · obtain ⟨s', replaced⟩ := lists.list [] s
      rw [list, mapLeaves_leaf (isLeaf_list s), replaced, mergeValue_other (by simp)]
      exact congrArg some replaced.symm
    · rw [node, distinct_map] at distinct
      have same := keys_mapLeavesEntries g (first :: rest)
      rw [node, mapLeaves, mergeValue_map distinct.1, mergeValue_map (by rw [same]; exact distinct.1),
        leaf_node (mergeEntries_ne_nil distinct.1 _), leaf_node]
      · rfl
      · exact mergeEntries_ne_nil (by rw [← mapLeavesEntries, same]; exact distinct.1) _
    · rw [mapLeaves_leaf here, lists.other [] other, listOr_other (leaf_ne_list here other [])]
  | cons key rest ih =>
    rcases kinds value with ⟨s, list⟩ | ⟨first, later, node⟩ | ⟨here, other⟩
    · obtain ⟨s', replaced⟩ := lists.list [] s
      rw [list, mapLeaves_leaf (isLeaf_list s), replaced, mergeValue_other (by simp), mergeValue_other (by simp)]
      rfl
    · rw [node, distinct_map] at distinct
      have same := keys_mapLeavesEntries g (first :: later)
      rw [node, mapLeaves, mergeValue_map distinct.1, mergeValue_map (by rw [same]; exact distinct.1)]
      change (find key (mergeEntries _ _)).bind (leaf rest) =
        listOr g (key :: rest) ((find key (first :: later)).bind (leaf rest)) ((find key (mergeEntries _ _)).bind (leaf rest))
      rw [find_mergeEntries distinct.1, find_mergeEntries (by rw [same]; exact distinct.1), find_mapLeavesEntries]
      cases found : find key (first :: later) with
      | none => rfl
      | some child =>
        have member := mem_of_find found
        exact ih (lists.under key) (distinct.2 _ member) _
    · rw [mapLeaves_leaf here, lists.other [] other, listOr_other (leaf_ne_list here other _)]

theorem distinct_mergeValue {value : Value} (distinct : value.Distinct) {old : Option Value}
    (before : ∀ there ∈ old, there.Distinct) : (mergeValue value old).Distinct := by
  induction value generalizing old with
  | map src ih =>
    rw [distinct_map] at distinct
    have merged : ∀ dest : Entries, (map dest).Distinct → (map (mergeEntries src dest)).Distinct := by
      intro dest distinct'
      rw [distinct_map] at distinct' ⊢
      have nodup := nodup_mergeEntries src distinct'.1
      refine ⟨nodup, fun entry member => ?_⟩
      have found := find_of_mem nodup member
      rw [find_mergeEntries distinct.1] at found
      cases own : find entry.1 src with
      | none =>
        rw [own] at found
        exact distinct'.2 _ (mem_of_find found)
      | some value =>
        rw [own, Option.some_inj] at found
        rw [← found]
        exact ih _ (mem_of_find own) (distinct.2 _ (mem_of_find own)) fun there old => distinct'.2 _ (mem_of_find old)
    rw [mergeValue_map distinct.1]
    apply merged
    cases old with
    | none => exact ⟨nodup_nil, trivial⟩
    | some there =>
      cases there with
      | map dest => exact before _ rfl
      | _ => exact ⟨nodup_nil, trivial⟩
  | _ => rwa [mergeValue_other (by simp)]

theorem leaf_mergeEntries {g : Path → Value → Value} (lists : OnLists g) {src : Entries} (distinct : (map src).Distinct)
    (dest : Entries) (path : Path) :
    leaf path (.map (mergeEntries (mapLeavesEntries g src) dest)) =
      listOr g path (leaf path (.map src)) (leaf path (.map (mergeEntries src dest))) := by
  cases src with
  | nil =>
    have none : ∀ s, leaf path (.map []) ≠ some (.list s) := leaf_ne_list isLeaf_empty (by simp) path
    rw [listOr_other none]
    rfl
  | cons first rest =>
    have merged := leaf_mergeValue lists distinct path (some (.map dest))
    rwa [mapLeaves, mergeValue, mergeValue] at merged

theorem leaf_of_mergeValue {value : Value} (distinct : value.Distinct) {old : Option Value} {path : Path} {here : Value}
    (found : leaf path (mergeValue value old) = some here) :
    (∃ own, leaf path value = some own) ∨ ∃ there, old = some there ∧ leaf path there = some here := by
  induction path generalizing value old with
  | nil =>
    rcases kinds value with ⟨s, list⟩ | ⟨first, rest, node⟩ | ⟨is_leaf, _⟩
    · exact .inl ⟨_, leaf_nil (list ▸ isLeaf_list s)⟩
    · rw [node, distinct_map] at distinct
      rw [node, mergeValue_map distinct.1, leaf_node (mergeEntries_ne_nil distinct.1 _)] at found
      cases found
    · exact .inl ⟨_, leaf_nil is_leaf⟩
  | cons key rest ih =>
    cases value with
    | map src =>
      rw [distinct_map] at distinct
      rw [mergeValue_map distinct.1, leaf, entries, find_mergeEntries distinct.1] at found
      cases child : find key src with
      | none =>
        rw [child] at found
        cases old with
        | none => cases found
        | some there => exact .inr ⟨there, rfl, found⟩
      | some own =>
        rw [child] at found
        rcases ih (distinct.2 _ (mem_of_find child)) found with ⟨x, below⟩ | ⟨there, same, below⟩
        · exact .inl ⟨x, by rw [leaf, entries, child, Option.bind_some, below]⟩
        · cases old with
          | none => cases same
          | some old =>
            change find key old.entries = some there at same
            exact .inr ⟨old, rfl, by rw [leaf, same, Option.bind_some, below]⟩
    | _ =>
      rw [mergeValue_other (by simp)] at found
      exact .inl ⟨here, found⟩

end Value

open Value

section Append
variable (compile : Text → Option (Text → Bool))

def appendLists (dest : Entries) (path : Path) (value : Value) : Value :=
  if isMatch compile (joinKey path) then
    match leaf path (.map dest), value with
    | some (.list d), .list s => .list (mergeSlice s d)
    | _, _ => value
  else value

abbrev mergedLists [Maps] (src dest : Entries) : Entries := mergeEntries (mapLeavesEntries (appendLists compile dest) src) dest

/-- At no selected key the source has a list and the destination another value. -/
def Mergeable (src dest : Entries) : Prop :=
  ∀ path s, isMatch compile (joinKey path) = true → leaf path (.map src) = some (.list s) →
    ∀ old, leaf path (.map dest) = some old → ∃ d, old = .list d

variable {compile}

theorem onLists_appendLists (dest : Entries) : OnLists (appendLists compile dest) := by
  intro path value
  rw [appendLists.eq_def]
  split
  · split
    · next d s _ => exact .inr ⟨s, mergeSlice s d, rfl, rfl⟩
    · exact .inl rfl
  · exact .inl rfl

variable {src dest : Entries}

theorem appendAt_eq (distinct : (map dest).Distinct) (kept : KeysKept dest) {item : Path × Value}
    (whole : splitKey (joinKey item.1) = item.1)
    (lists : isMatch compile (joinKey item.1) = true → ∀ s, item.2 = .list s →
      ∀ old, leaf item.1 (.map dest) = some old → ∃ d, old = .list d) :
    appendAt compile (flattened dest) (joinKey item.1, item.2) =
      some (joinKey item.1, appendLists compile dest item.1 item.2) := by
  cases selected : isMatch compile (joinKey item.1) with
  | false => rw [appendAt, selected, appendLists.eq_def, selected]; rfl
  | true =>
    rw [appendAt, if_pos selected, find_flattened distinct kept whole, appendLists.eq_def, if_pos selected]
    split
    · next d s there list =>
        change item.2 = _ at list
        rw [there, list]
    · next old s unlike found list =>
        obtain ⟨d, same⟩ := lists selected s list old found
        exact absurd same (unlike d)
    · next unlike _ =>
        split
        · next d s there list => exact absurd list (unlike d s there)
        · rfl

theorem appendAt_none (distinct : (map dest).Distinct) (kept : KeysKept dest) {path : Path} {s : List Value} {old : Value}
    (whole : splitKey (joinKey path) = path) (selected : isMatch compile (joinKey path) = true)
    (there : leaf path (.map dest) = some old) (other : ∀ d, old ≠ .list d) :
    appendAt compile (flattened dest) (joinKey path, .list s) = none := by
  rw [appendAt, if_pos selected, find_flattened distinct kept whole, there]
  split
  · next d _ found _ => exact absurd (Option.some.inj found) (other d)
  · rfl
  · next unlike => exact absurd rfl (unlike old s rfl)

theorem mapM_some {α β : Type} {f : α → Option β} {g : α → β} {items : List α} (each : ∀ item ∈ items, f item = some (g item)) :
    items.mapM f = some (items.map g) := by
  induction items with
  | nil => rfl
  | cons item rest ih =>
    rw [forall_mem_cons] at each
    rw [mapM_cons, each.1, ih each.2]
    rfl

theorem isSome_of_mapM {α β : Type} {f : α → Option β} {items : List α} {results : List β}
    (done : items.mapM f = some results) {item : α} (member : item ∈ items) : f item ≠ none := by
  induction items generalizing results with
  | nil => cases member
  | cons first rest ih =>
    intro missing
    cases member with
    | head => simp [missing] at done
    | tail _ later =>
      cases here : f first with
      | none => simp [here] at done
      | some value =>
        cases tail : rest.mapM f with
        | none => simp [here, tail] at done
        | some values => exact ih tail later missing

theorem appendLists_list (path : Path) (s : List Value) :
    appendLists compile dest path (.list s) = .list s ∨
      ∃ d, isMatch compile (joinKey path) = true ∧ leaf path (.map dest) = some (.list d) ∧
        appendLists compile dest path (.list s) = .list (mergeSlice s d) := by
  rw [appendLists.eq_def]
  split
  · next selected =>
      split
      · next d s' there same =>
          cases same
          exact .inr ⟨d, selected, there, rfl⟩
      · exact .inl rfl
  · exact .inl rfl

theorem mem_newItems {slice s : List Value} {item : Value} (member : item ∈ newItems slice s) : item ∈ s := by
  induction s generalizing slice with
  | nil => cases member
  | cons first rest ih =>
    rw [newItems] at member
    split at member
    · exact mem_cons_of_mem _ (ih member)
    · rcases mem_cons.mp member with here | later
      · rw [here]
        exact mem_cons_self
      · exact mem_cons_of_mem _ (ih later)

theorem appendLists_again {path : Path} {s l : List Value} (distinct : ∀ item ∈ s, item.Distinct)
    (merged : appendLists compile dest path (.list s) = .list l) :
    mergeSlice s l = l ↔ ∀ item ∈ s, item.hasNaN = false := by
  rw [mergeSlice_eq, append_right_eq_self]
  apply newItems_again distinct
  intro item member self
  rcases appendLists_list path s with same | ⟨d, _, _, same⟩
  · rw [same] at merged
    rw [← Value.list.inj merged, isPresent, any_eq_true]
    exact ⟨item, member, self⟩
  · rw [same, mergeSlice_eq] at merged
    rw [← Value.list.inj merged]
    exact isPresent_newItems member self

theorem distinct_appendLists (distinct : (map dest).Distinct) (path : Path) {here : Value} (own : here.Distinct) :
    (appendLists compile dest path here).Distinct := by
  rcases onLists_appendLists dest path here with same | ⟨s, _, list, _⟩
  · rwa [same]
  · rw [list] at own ⊢
    rcases appendLists_list path s with same | ⟨d, _, there, same⟩
    · rwa [same]
    · have old := distinct_leaf distinct there
      rw [distinct_list] at own old
      rw [same, mergeSlice_eq, distinct_list]
      intro item member
      rcases mem_append.mp member with first | second
      · exact old item first
      · exact own item (mem_newItems second)

theorem distinct_appended (distinct : (map src).Distinct) (distinct' : (map dest).Distinct) :
    (map (mapLeavesEntries (appendLists compile dest) src)).Distinct := by
  cases src with
  | nil => exact distinct
  | cons first rest => exact distinct_mapLeaves distinct fun path _ _ own => distinct_appendLists distinct' path own

variable [LawfulMaps]

section
variable (distinct : (map src).Distinct) (distinct' : (map dest).Distinct) (kept : KeysKept src)
  (kept' : KeysKept dest)
include distinct distinct' kept kept'

theorem mergeAppend_eq (mergeable : Mergeable compile src dest) :
    mergeAppend compile src dest = some (mergedLists compile src dest) := by
  have loop : (flattened src).mapM (appendAt compile (flattened dest)) =
      some ((flattenEntries [] src).map fun leaf => (joinKey leaf.1, appendLists compile dest leaf.1 leaf.2)) := by
    rw [flattened.eq_def src, mapM_map]
    apply mapM_some
    intro item member
    apply appendAt_eq distinct' kept' (kept item member)
    intro selected s list
    have here := leaf_of_mem_entries distinct member
    rw [list] at here
    exact mergeable item.1 s selected here
  rw [mergeAppend, loop]
  simp only [Option.pure_def, Option.bind_eq_bind, Option.bind_some, unflattened_kept kept, unflatten_leaves distinct,
    entries]

theorem mergeable_of_mergeAppend {merged : Entries} (done : mergeAppend compile src dest = some merged) :
    Mergeable compile src dest := by
  intro path s selected here old there
  by_contra other
  rw [not_exists] at other
  rw [mergeAppend] at done
  have whole := kept_of_leaf distinct kept (list_ne_nil here) here
  cases loop : (flattened src).mapM (appendAt compile (flattened dest)) with
  | none => simp [loop] at done
  | some srcFlat =>
    have member : (joinKey path, Value.list s) ∈ flattened src := by
      apply mem_of_find
      rw [find_flattened distinct kept whole, here]
    exact isSome_of_mapM loop member (appendAt_none distinct' kept' whole selected there other)

end

section
variable (distinct : (map src).Distinct)
include distinct

theorem mergeEntries_again : mergeEntries src (mergeEntries src dest) = mergeEntries src dest := by
  have again := mergeValue_again distinct (some (.map dest))
  exact Value.map.inj again

theorem distinct_merged (distinct' : (map dest).Distinct) :
    (map (mergedLists compile src dest)).Distinct := by
  have merged : (mergeValue (.map (mapLeavesEntries (appendLists compile dest) src)) (some (.map dest))).Distinct := by
    apply distinct_mergeValue (distinct_appended distinct distinct')
    intro there same
    cases same
    exact distinct'
  rwa [mergeValue] at merged

theorem leaf_merged (path : Path) :
    leaf path (.map (mergedLists compile src dest)) =
      match appended compile src dest path with
      | some items => some (.list items)
      | none => leaf path (.map (mergeEntries src dest)) := by
  rw [leaf_mergeEntries (onLists_appendLists dest) distinct]
  by_cases list : ∃ s, leaf path (.map src) = some (.list s)
  · obtain ⟨s, here⟩ := list
    have plain : leaf path (.map (mergeEntries src dest)) = some (.list s) := by
      have merged := leaf_mergeEntries onLists_same distinct dest path
      rwa [mapLeavesEntries_same, here] at merged
    rw [here, listOr, appended, appendLists.eq_def, here, plain]
    cases isMatch compile (joinKey path) with
    | false => rfl
    | true =>
      rw [if_pos rfl, if_pos rfl]
      split
      · next d s' there same =>
          cases same
          rw [there, mergeSlice_eq]
      · next unlike =>
          split
          · next items found =>
              split at found
              · next s' d same there => exact absurd rfl (unlike d s there)
              · cases found
          · rfl
  · rw [not_exists] at list
    have none : appended compile src dest path = none := by
      rw [appended]
      split
      · split
        · next s d here there => exact absurd here (list s)
        · rfl
      · rfl
    rw [listOr_other list, none]

theorem mergeable_merged :
    Mergeable compile src (mergedLists compile src dest) := by
  intro path s selected here old there
  obtain ⟨l, list⟩ := (onLists_appendLists dest).list path s
  rw [leaf_mergeEntries (onLists_appendLists dest) distinct, here] at there
  exact ⟨l, (Option.some.inj there).symm.trans list⟩

theorem kept_merged (distinct' : (map dest).Distinct) (kept : KeysKept src) (kept' : KeysKept dest) :
    KeysKept (mergedLists compile src dest) := by
  intro item member
  have nonempty := path_ne_nil member
  have found := leaf_of_mem_entries (distinct_merged distinct distinct') member
  rw [leaf_mergeEntries (onLists_appendLists dest) distinct] at found
  by_cases list : ∃ s, leaf item.1 (.map src) = some (.list s)
  · obtain ⟨s, here⟩ := list
    exact kept_of_leaf distinct kept nonempty here
  · rw [listOr_other (not_exists.mp list)] at found
    have merged : leaf item.1 (mergeValue (.map src) (some (.map dest))) = some item.2 := by rwa [mergeValue]
    rcases leaf_of_mergeValue distinct merged with ⟨own, here⟩ | ⟨there, same, here⟩
    · exact kept_of_leaf distinct kept nonempty here
    · cases same
      exact kept_of_leaf distinct' kept' nonempty here

/-- The lists of a source do not change any more in a second merge exactly if no NaN is in them. -/
theorem mergeAppend_again_iff (distinct' : (map dest).Distinct) (kept : KeysKept src) (kept' : KeysKept dest) :
    mergeAppend compile src (mergedLists compile src dest) =
        some (mergedLists compile src dest) ↔
      ∀ path s, isMatch compile (joinKey path) = true → leaf path (.map src) = some (.list s) →
        ∀ item ∈ s, item.hasNaN = false := by
  rw [mergeAppend_eq distinct (distinct_merged distinct distinct') kept (kept_merged distinct distinct' kept kept')
    (mergeable_merged distinct), Option.some_inj]
  have second {path : Path} {s : List Value} (selected : isMatch compile (joinKey path) = true)
      (here : leaf path (.map src) = some (.list s)) :
      ∃ l, appendLists compile dest path (.list s) = .list l ∧
        leaf path (.map (mergedLists compile src dest)) = some (.list l) ∧
        appendLists compile (mergedLists compile src dest) path (.list s) =
          .list (mergeSlice s l) ∧
        (mergeSlice s l = l ↔ ∀ item ∈ s, item.hasNaN = false) := by
    obtain ⟨l, list⟩ := (onLists_appendLists dest).list path s
    have there : leaf path (.map (mergedLists compile src dest)) = some (.list l) := by
      rw [leaf_mergeEntries (onLists_appendLists dest) distinct, here]
      exact congrArg some list
    refine ⟨l, list, there, ?_, ?_⟩
    · rw [appendLists.eq_def, if_pos selected, there]
    · exact appendLists_again ((distinct_list s).mp (distinct_leaf distinct here)) list
  constructor
  · intro again path s selected here
    obtain ⟨l, -, there, list, numbers⟩ := second selected here
    have both := congrArg (fun entries => leaf path (.map entries)) again
    simp only [there] at both
    rw [leaf_mergeEntries (onLists_appendLists _) distinct, here, listOr, list, Option.some_inj] at both
    exact numbers.mp (Value.list.inj both)
  · intro numbers
    have same : mapLeavesEntries (appendLists compile (mergedLists compile src dest)) src =
        mapLeavesEntries (appendLists compile dest) src := by
      apply mapLeavesEntries_congr distinct
      intro path here found
      by_cases list : ∃ s, here = .list s
      · obtain ⟨s, list⟩ := list
        rw [list] at found ⊢
        by_cases selected : isMatch compile (joinKey path) = true
        · obtain ⟨l, first, -, again, iff⟩ := second selected found
          rw [first, again, iff.mpr (numbers path s selected found)]
        · rw [appendLists.eq_def, if_neg selected, appendLists.eq_def, if_neg selected]
      · rw [not_exists] at list
        rw [(onLists_appendLists _).other path list, (onLists_appendLists _).other path list]
    rw [mergedLists, same]
    exact mergeEntries_again (distinct_appended distinct distinct')

end

/-- Merging with appended lists does not panic, keeps all elements of the lists at the selected keys, is a plain merge
at all others and can be repeated, iff at the selected keys the lists of the source meet no other values than lists
and have no NaN in them. -/
theorem mergeAppend_lossless_iff (compile : Text → Option (Text → Bool)) (src dest : Entries)
    (distinct : (map src).Distinct) (distinct' : (map dest).Distinct) (kept : KeysKept src) (kept' : KeysKept dest) :
    (∃ merged, mergeAppend compile src dest = some merged ∧
      (∀ path, leaf path (.map merged) =
        match appended compile src dest path with
        | some items => some (.list items)
        | none => leaf path (.map (mergeEntries src dest))) ∧
      mergeAppend compile src merged = some merged) ↔
    ∀ path s, isMatch compile (joinKey path) = true → leaf path (.map src) = some (.list s) →
      (∀ item ∈ s, item.hasNaN = false) ∧ ∀ old, leaf path (.map dest) = some old → ∃ d, old = .list d := by
  constructor
  · rintro ⟨merged, done, -, again⟩
    have mergeable := mergeable_of_mergeAppend distinct distinct' kept kept' done
    rw [mergeAppend_eq distinct distinct' kept kept' mergeable, Option.some_inj] at done
    rw [← done] at again
    have numbers := (mergeAppend_again_iff distinct distinct' kept kept').mp again
    intro path s selected here
    exact ⟨numbers path s selected here, mergeable path s selected here⟩
  · intro condition
    have mergeable : Mergeable compile src dest := fun path s selected here => (condition path s selected here).2
    refine ⟨_, mergeAppend_eq distinct distinct' kept kept' mergeable, leaf_merged distinct, ?_⟩
    rw [mergeAppend_again_iff distinct distinct' kept kept']
    exact fun path s selected here => (condition path s selected here).1

end Append

section Extensions

/-- The patterns without wildcards. -/
def literally (pattern : Text) : Option (Text → Bool) := some fun key => key == pattern

def extensions (value : Value) : Entries := [(ascii "service", .map [(ascii "extensions", value)])]

def extensionsPath : Path := [ascii "service", ascii "extensions"]

/-- How many elements there are in the list after one merge and after two. -/
def lengths (src dest : Entries) : Option (Nat × Nat) := do
  let once ← mergeAppend literally src dest
  let twice ← mergeAppend literally src once
  match leaf extensionsPath (.map once), leaf extensionsPath (.map twice) with
  | some (.list items), some (.list items') => pure (items.length, items'.length)
  | _, _ => none

/-- A list that is merged into a key without a value is a panic, and a NaN is appended
whenever it is merged. -/
theorem mergeAppend_fails :
    mergeAppend literally (extensions (.list [.str (ascii "zpages")])) (extensions .null) = none ∧
      lengths (extensions (.list [.float 0x7FF8000000000000])) (extensions (.list [])) = some (1, 2) := by
  decide +kernel

def twoExtensions : Entries := extensions (.list [.str (ascii "zpages"), .str (ascii "pprof")])

def oneExtension : Entries := extensions (.list [.str (ascii "pprof")])

theorem mergeAppend_lossless_iff_extensions :
    ∃ merged, mergeAppend literally twoExtensions oneExtension = some merged ∧
      (∀ path, leaf path (.map merged) =
        match appended literally twoExtensions oneExtension path with
        | some items => some (.list items)
        | none => leaf path (.map (mergeEntries twoExtensions oneExtension))) ∧
      mergeAppend literally twoExtensions merged = some merged := by
  have distinct : (map twoExtensions).Distinct := by
    simp [twoExtensions, extensions, Distinct, DistinctEntries, DistinctItems]
  have distinct' : (map oneExtension).Distinct := by
    simp [oneExtension, extensions, Distinct, DistinctEntries, DistinctItems]
  have kept : KeysKept twoExtensions := by
    intro leaf member
    cases mem_singleton.mp member
    rfl
  have kept' : KeysKept oneExtension := by
    intro leaf member
    cases mem_singleton.mp member
    rfl
  apply (mergeAppend_lossless_iff literally twoExtensions oneExtension distinct distinct' kept kept').mpr
  intro path s selected here
  have member : (joinKey path, Value.list s) ∈ flattened twoExtensions := by
    apply mem_of_find
    rw [find_flattened distinct kept (kept_of_leaf distinct kept (list_ne_nil here) here), here]
  have whole := kept_of_leaf distinct kept (list_ne_nil here) here
  obtain ⟨key, list⟩ := Prod.mk.inj (mem_singleton.mp member)
  cases list
  rw [← whole, key]
  constructor
  · simp [hasNaN]
  · intro old there
    exact ⟨_, (Option.some.inj there).symm⟩

end Extensions

end CollectorFormal.Confmap
