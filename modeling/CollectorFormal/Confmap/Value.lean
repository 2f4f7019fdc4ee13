import Mathlib.Data.List.Basic
import CollectorFormal.Client

/-! Values of a configuration.

What is behind an `any`: the kinds a provider may return, and the value that a single reference leaves behind.
Numbers carry no Go type. A map is listed in the order of its keys, each of which stands in it once. -/

namespace CollectorFormal.Confmap

open List
open Client (Text)

def ascii (text : String) : Text := text.toList.map fun c => UInt8.ofNat c.toNat

inductive Value where
  | null
  | bool (b : Bool)
  | int (n : Int)
  /-- A float64 by its bits, so that there are values that are not a number. -/
  | float (bits : BitVec 64)
  | str (s : Text)
  | list (items : List Value)
  | map (entries : List (Text × Value))
  /-- internal.ExpandedValue: what the text of a reference was parsed to, and the text. -/
  | expanded (value : Value) (original : Text)

abbrev Entries := List (Text × Value)

namespace Value

@[induction_eliminator]
theorem induct {motive : Value → Prop} (null : motive .null) (bool : ∀ b, motive (.bool b)) (int : ∀ n, motive (.int n))
    (float : ∀ bits, motive (.float bits)) (str : ∀ s, motive (.str s))
    (list : ∀ items : List Value, (∀ item ∈ items, motive item) → motive (.list items))
    (map : ∀ entries : Entries, (∀ entry ∈ entries, motive entry.2) → motive (.map entries))
    (expanded : ∀ value original, motive value → motive (.expanded value original)) :
    ∀ value, motive value := by
  apply @Value.rec motive (fun items => ∀ item ∈ items, motive item)
    (fun entries => ∀ entry ∈ entries, motive entry.2) (fun entry => motive entry.2)
    null bool int float str list map expanded
  · intro item member
    cases member
  · intro head rest at_head at_rest
    exact forall_mem_cons.mpr ⟨at_head, at_rest⟩
  · intro entry member
    cases member
  · intro head rest at_head at_rest
    exact forall_mem_cons.mpr ⟨at_head, at_rest⟩
  · intro key value at_value
    exact at_value

mutual

/-- Every string of the value satisfies `P`, and no reference has been expanded in it. -/
def Every (P : Text → Prop) : Value → Prop
  | .str s => P s
  | .list items => EveryItem P items
  | .map entries => EveryEntry P entries
  | .expanded _ _ => False
  | _ => True

def EveryItem (P : Text → Prop) : List Value → Prop
  | [] => True
  | item :: rest => item.Every P ∧ EveryItem P rest

def EveryEntry (P : Text → Prop) : Entries → Prop
  | [] => True
  | (_, value) :: rest => value.Every P ∧ EveryEntry P rest

end

variable (P : Text → Prop)

theorem everyItem_iff (items : List Value) : EveryItem P items ↔ ∀ item ∈ items, item.Every P := by
  induction items with
  | nil => simp [EveryItem]
  | cons item rest ih => simp [EveryItem, ih]

theorem everyEntry_iff (entries : Entries) : EveryEntry P entries ↔ ∀ entry ∈ entries, entry.2.Every P := by
  induction entries with
  | nil => simp [EveryEntry]
  | cons entry rest ih => simp [EveryEntry, ih]

@[simp] theorem every_list (items : List Value) : (list items).Every P ↔ ∀ item ∈ items, item.Every P := by
  rw [Every, everyItem_iff]

@[simp] theorem every_map (entries : Entries) : (map entries).Every P ↔ ∀ entry ∈ entries, entry.2.Every P := by
  rw [Every, everyEntry_iff]

theorem Every.mono {P Q : Text → Prop} (weaker : ∀ s, P s → Q s) {value : Value} (all : value.Every P) :
    value.Every Q := by
  induction value with
  | str s => exact weaker s all
  | list items ih =>
    rw [every_list] at all ⊢
    intro item member
    exact ih item member (all item member)
  | map entries ih =>
    rw [every_map] at all ⊢
    intro entry member
    exact ih entry member (all entry member)
  | expanded value original ih => exact all.elim
  | _ => trivial

mutual

def mapStrings (f : Text → Text) : Value → Value
  | .str s => .str (f s)
  | .list items => .list (mapItems f items)
  | .map entries => .map (mapEntries f entries)
  | .expanded value original => .expanded (mapStrings f value) (f original)
  | value => value

def mapItems (f : Text → Text) : List Value → List Value
  | [] => []
  | item :: rest => item.mapStrings f :: mapItems f rest

def mapEntries (f : Text → Text) : Entries → Entries
  | [] => []
  | (key, value) :: rest => (key, value.mapStrings f) :: mapEntries f rest

end

theorem mapItems_eq (f : Text → Text) (items : List Value) : mapItems f items = items.map (mapStrings f) := by
  induction items with
  | nil => rfl
  | cons item rest ih => rw [mapItems, ih, map_cons]

theorem mapEntries_eq (f : Text → Text) (entries : Entries) :
    mapEntries f entries = entries.map fun entry => (entry.1, entry.2.mapStrings f) := by
  induction entries with
  | nil => rfl
  | cons entry rest ih => rw [mapEntries, ih, map_cons]

theorem mapStrings_mapStrings (f g : Text → Text) (value : Value) :
    (value.mapStrings f).mapStrings g = value.mapStrings fun s => g (f s) := by
  induction value with
  | list items ih =>
    simp only [mapStrings, mapItems_eq, map_map, list.injEq]
    exact map_congr_left ih
  | map entries ih =>
    simp only [mapStrings, mapEntries_eq, map_map, map.injEq]
    apply map_congr_left
    intro entry member
    exact congrArg (entry.1, ·) (ih entry member)
  | expanded value original ih => rw [mapStrings, mapStrings, ih, mapStrings]
  | _ => rfl

theorem mapStrings_id {f : Text → Text} (same : ∀ s, f s = s) (value : Value) : value.mapStrings f = value := by
  induction value with
  | str s => rw [mapStrings, same]
  | list items ih => rw [mapStrings, mapItems_eq, map_congr_left ih, map_id']
  | map entries ih =>
    rw [mapStrings, mapEntries_eq]
    have each : ∀ entry ∈ entries, (entry.1, entry.2.mapStrings f) = entry := by
      intro entry member
      rw [ih entry member]
    rw [map_congr_left each, map_id']
  | expanded value original ih => rw [mapStrings, ih, same]
  | _ => rfl

def Plain (value : Value) : Prop := value.Every fun _ => True

theorem Plain.every_mapStrings {f : Text → Text} {P : Text → Prop} {value : Value} (plain : value.Plain)
    (all : ∀ s, P (f s)) : (value.mapStrings f).Every P := by
  induction value with
  | str s => exact all s
  | list items ih =>
    rw [Plain, every_list] at plain
    rw [mapStrings, mapItems_eq, every_list, forall_mem_map]
    intro item member
    exact ih item member (plain item member)
  | map entries ih =>
    rw [Plain, every_map] at plain
    rw [mapStrings, mapEntries_eq, every_map, forall_mem_map]
    intro entry member
    exact ih entry member (plain entry member)
  | expanded value original ih => exact plain.elim
  | _ => trivial

end Value

end CollectorFormal.Confmap
