import Mathlib.Data.List.Nodup

/-! Maps listed by their entries.

An entry that is set takes the place of the old one of its key, or else the last place. -/

namespace CollectorFormal.Lib

open List

variable {κ β : Type} [DecidableEq κ] {key other : κ} {value : β} {entries : List (κ × β)}

def find (key : κ) : List (κ × β) → Option β
  | [] => none
  | entry :: rest => if entry.1 = key then some entry.2 else find key rest

def set (key : κ) (value : β) : List (κ × β) → List (κ × β)
  | [] => [(key, value)]
  | entry :: rest => if entry.1 = key then (key, value) :: rest else entry :: set key value rest

theorem find_set_same : find key (set key value entries) = some value := by
  induction entries with
  | nil => simp [set, find]
  | cons entry rest ih =>
    rw [set]
    split
    · simp [find]
    · next unlike => rw [find, if_neg unlike, ih]

theorem find_set_other (different : other ≠ key) : find other (set key value entries) = find other entries := by
  induction entries with
  | nil => simp [set, find, Ne.symm different]
  | cons entry rest ih =>
    rw [set]
    split
    · next same => simp [find, same, Ne.symm different]
    · rw [find, find, ih]

theorem set_of_find (present : find key entries = some value) : set key value entries = entries := by
  induction entries with
  | nil => cases present
  | cons entry rest ih =>
    rw [find] at present
    rw [set]
    split
    · next same =>
        rw [if_pos same, Option.some_inj] at present
        rw [← present, ← same]
    · next unlike =>
        rw [if_neg unlike] at present
        rw [ih present]

theorem find_eq_none_iff : find key entries = none ↔ key ∉ entries.map Prod.fst := by
  induction entries with
  | nil => simp [find]
  | cons entry rest ih =>
    rw [find, map_cons, mem_cons, not_or]
    split
    · next same => simp [same]
    · next unlike => rw [ih, and_iff_right (Ne.symm unlike)]

theorem mem_of_find (present : find key entries = some value) : (key, value) ∈ entries := by
  induction entries with
  | nil => cases present
  | cons entry rest ih =>
    rw [find] at present
    split at present
    · next same =>
        cases present
        rw [← same]
        exact mem_cons_self
    · exact mem_cons_of_mem _ (ih present)

theorem find_of_mem (distinct : (entries.map Prod.fst).Nodup) (member : (key, value) ∈ entries) :
    find key entries = some value := by
  induction entries with
  | nil => cases member
  | cons entry rest ih =>
    rw [map_cons, nodup_cons] at distinct
    rw [find]
    cases member with
    | head => rw [if_pos rfl]
    | tail _ later =>
      have unlike : entry.1 ≠ key := by
        intro same
        rw [same] at distinct
        exact distinct.1 (mem_map_of_mem later)
      rw [if_neg unlike, ih distinct.2 later]

theorem eq_of_find {entries others : List (κ × β)} (same : entries.map Prod.fst = others.map Prod.fst)
    (distinct : (entries.map Prod.fst).Nodup) (equal : ∀ key, find key entries = find key others) :
    entries = others := by
  induction entries generalizing others with
  | nil => exact (map_eq_nil_iff.mp same.symm).symm
  | cons entry rest ih =>
    cases others with
    | nil => cases same
    | cons other others =>
      obtain ⟨key, value⟩ := entry
      obtain ⟨key', value'⟩ := other
      obtain ⟨keys, tails⟩ := List.cons.inj same
      obtain rfl : key = key' := keys
      rw [map_cons, nodup_cons] at distinct
      have values := equal key
      rw [find, find, if_pos rfl, if_pos rfl] at values
      cases values
      congr 1
      apply ih tails distinct.2
      intro name
      by_cases here : key = name
      · -- the key is in neither rest
        subst here
        rw [find_eq_none_iff.mpr distinct.1, find_eq_none_iff.mpr (tails ▸ distinct.1)]
      · simpa [find, here] using equal name

theorem find_map_key {ι : Type} [DecidableEq ι] {f : κ → ι}
    (injective : ∀ entry ∈ entries, f entry.1 = f key → entry.1 = key) :
    find (f key) (entries.map fun entry => (f entry.1, entry.2)) = find key entries := by
  induction entries with
  | nil => rfl
  | cons entry rest ih =>
    rw [forall_mem_cons] at injective
    rw [map_cons, find, find, ih injective.2]
    by_cases same : entry.1 = key
    · rw [if_pos same, if_pos (congrArg f same)]
    · rw [if_neg same, if_neg fun moved => same (injective.1 moved)]

theorem find_map_value {γ : Type} (f : β → γ) (key : κ) (entries : List (κ × β)) :
    find key (entries.map fun entry => (entry.1, f entry.2)) = (find key entries).map f := by
  induction entries with
  | nil => rfl
  | cons entry rest ih =>
    rw [map_cons, find, find, ih]
    split <;> rfl

theorem find_append (first second : List (κ × β)) : find key (first ++ second) = (find key first).or (find key second) := by
  induction first with
  | nil => rfl
  | cons entry rest ih =>
    rw [cons_append, find, find]
    split
    · rfl
    · exact ih

theorem set_of_find_none (absent : find key entries = none) : set key value entries = entries ++ [(key, value)] := by
  induction entries with
  | nil => rfl
  | cons entry rest ih =>
    rw [find] at absent
    split at absent
    · cases absent
    · next unlike => rw [set, if_neg unlike, ih absent, cons_append]

theorem mem_set {entry : κ × β} (member : entry ∈ set key value entries) : entry = (key, value) ∨ entry ∈ entries := by
  induction entries with
  | nil => exact .inl (mem_singleton.mp member)
  | cons first rest ih =>
    rw [set] at member
    split at member
    · rcases mem_cons.mp member with here | later
      · exact .inl here
      · exact .inr (mem_cons_of_mem _ later)
    · rcases mem_cons.mp member with here | later
      · exact .inr (by simp [here])
      · rcases ih later with new | old
        · exact .inl new
        · exact .inr (mem_cons_of_mem _ old)

theorem nodup_set (distinct : (entries.map Prod.fst).Nodup) : ((set key value entries).map Prod.fst).Nodup := by
  induction entries with
  | nil => simp [set]
  | cons first rest ih =>
    rw [map_cons, nodup_cons] at distinct
    rw [set]
    split
    · next same => simpa [← same] using distinct
    · next unlike =>
        rw [map_cons, nodup_cons]
        refine ⟨?_, ih distinct.2⟩
        intro member
        obtain ⟨entry, listed, same⟩ := mem_map.mp member
        rcases mem_set listed with new | old
        · rw [new] at same
          exact unlike same.symm
        · exact distinct.1 (by rw [← same]; exact mem_map_of_mem old)

theorem set_set {first : β} : set key value (set key first entries) = set key value entries := by
  induction entries with
  | nil => simp [set]
  | cons entry rest ih =>
    rw [set]
    split
    · next same => simp [set, same]
    · next unlike => rw [set, if_neg unlike, ih, set, if_neg unlike]

theorem foldl_set (distinct : (entries.map Prod.fst).Nodup) :
    entries.foldl (fun map entry => set entry.1 entry.2 map) [] = entries := by
  have after (map : List (κ × β)) (fresh : ((map ++ entries).map Prod.fst).Nodup) :
      entries.foldl (fun map entry => set entry.1 entry.2 map) map = map ++ entries := by
    clear distinct
    induction entries generalizing map with
    | nil => simp
    | cons entry rest ih =>
      have absent : find entry.1 map = none := by
        rw [find_eq_none_iff]
        rw [map_append, nodup_append] at fresh
        intro member
        exact fresh.2.2 _ member _ (by simp) rfl
      rw [foldl_cons, set_of_find_none absent, ih]
      · simp
      · simpa using fresh
  simpa using after [] (by simpa using distinct)

end CollectorFormal.Lib
