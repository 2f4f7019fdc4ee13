import CollectorFormal.Lib.RemoveIf
import CollectorFormal.Pdata.AnyValue
import Mathlib.Data.Set.Card

/-! The operations of pcommon.Map on its slice of entries, and the finite map they keep.

Nothing but these operations keeps the keys distinct: the slice itself may repeat them. -/

namespace CollectorFormal.Pdata.Map

open List Function
open Client (Text)
open Lib (swapRemoveAt swapRemoveAt_perm)

def newMap : List KeyValue := []

def len (m : List KeyValue) : Nat := m.length

/-- Sets the value that Get has returned a reference to. -/
def overwrite (key : Text) (value : AnyValue) : List KeyValue → List KeyValue
  | [] => []
  | .mk k old keyStrindex :: rest =>
    if k = key then .mk k value keyStrindex :: rest else .mk k old keyStrindex :: overwrite key value rest

/-- What the Put functions share. -/
def put (k : Text) (value : AnyValue) (m : List KeyValue) : List KeyValue :=
  match getValue k m with
  | some _ => overwrite k value m
  | none => m ++ [.mk k value 0]

def putEmpty (k : Text) : List KeyValue → List KeyValue := put k .empty

def putStr (k v : Text) : List KeyValue → List KeyValue := put k (.stringValue v)

def putInt (k : Text) (v : Int64) : List KeyValue → List KeyValue := put k (.intValue v)

def putDouble (k : Text) (bits : UInt64) : List KeyValue → List KeyValue := put k (.doubleValue bits)

def putBool (k : Text) (v : Bool) : List KeyValue → List KeyValue := put k (.boolValue v)

def putEmptyBytes (k : Text) : List KeyValue → List KeyValue := put k (.bytesValue [])

def putEmptyMap (k : Text) : List KeyValue → List KeyValue := put k (.kvlistValue [])

def putEmptySlice (k : Text) : List KeyValue → List KeyValue := put k (.arrayValue [])

/-- The map, the value that is under the key now, and whether it was there. -/
def getOrPutEmpty (k : Text) (m : List KeyValue) : List KeyValue × AnyValue × Bool :=
  match getValue k m with
  | some value => (m, value, true)
  | none => (m ++ [.mk k .empty 0], .empty, false)

def remove (key : Text) (m : List KeyValue) : List KeyValue × Bool :=
  match m.findIdx? (fun akv => akv.key = key) with
  | some i => (swapRemoveAt i m, true)
  | none => (m, false)

/-- A function that RemoveIf is given may remember its earlier calls. -/
abbrev Condition := List (Text × AnyValue) → Text → AnyValue → Bool

def entry (kv : KeyValue) : Text × AnyValue := (kv.key, kv.value)

def entries (m : List KeyValue) : List (Text × AnyValue) := m.map entry

variable (f : Condition)

def call (calls : List (Text × AnyValue)) (kv : KeyValue) : List (Text × AnyValue) × KeyValue × Bool :=
  (calls ++ [entry kv], kv, f calls kv.key kv.value)

def removeIf (m : List KeyValue) : List (Text × AnyValue) × List KeyValue :=
  Lib.compact (call f) (.mk [] .empty 0) 0 0 [] m

def clear (_ : List KeyValue) : List KeyValue := []

inductive Op where
  | putEmpty (k : Text)
  | putStr (k v : Text)
  | putInt (k : Text) (v : Int64)
  | putDouble (k : Text) (bits : UInt64)
  | putBool (k : Text) (v : Bool)
  | putEmptyBytes (k : Text)
  | putEmptyMap (k : Text)
  | putEmptySlice (k : Text)
  | getOrPutEmpty (k : Text)
  | remove (key : Text)
  | removeIf (f : Condition)
  | clear

def Op.apply (m : List KeyValue) : Op → List KeyValue
  | .putEmpty k => Map.putEmpty k m
  | .putStr k v => Map.putStr k v m
  | .putInt k v => Map.putInt k v m
  | .putDouble k bits => Map.putDouble k bits m
  | .putBool k v => Map.putBool k v m
  | .putEmptyBytes k => Map.putEmptyBytes k m
  | .putEmptyMap k => Map.putEmptyMap k m
  | .putEmptySlice k => Map.putEmptySlice k m
  | .getOrPutEmpty k => (Map.getOrPutEmpty k m).1
  | .remove key => (Map.remove key m).1
  | .removeIf f => (Map.removeIf f m).2
  | .clear => Map.clear m

def run (script : List Op) (m : List KeyValue) : List KeyValue := script.foldl Op.apply m

abbrev Bindings := Text → Option AnyValue

def Lists (order : List (Text × AnyValue)) (bindings : Bindings) : Prop :=
  (order.map Prod.fst).Nodup ∧ ∀ k value, (k, value) ∈ order ↔ bindings k = some value

/-- What an operation does to the finite map. RemoveIf visits the bindings in some order, and keeps one when the
function rejects it after the calls before. -/
def Op.Specified (start after : Bindings) : Op → Prop
  | .putEmpty k => after = Function.update start k (some .empty)
  | .putStr k v => after = Function.update start k (some (.stringValue v))
  | .putInt k v => after = Function.update start k (some (.intValue v))
  | .putDouble k bits => after = Function.update start k (some (.doubleValue bits))
  | .putBool k v => after = Function.update start k (some (.boolValue v))
  | .putEmptyBytes k => after = Function.update start k (some (.bytesValue []))
  | .putEmptyMap k => after = Function.update start k (some (.kvlistValue []))
  | .putEmptySlice k => after = Function.update start k (some (.arrayValue []))
  | .getOrPutEmpty k => after = Function.update start k (some ((start k).getD .empty))
  | .remove key => after = Function.update start key none
  | .removeIf f => ∃ order, Lists order start ∧ ∀ k value, after k = some value ↔
      ∃ earlier later, order = earlier ++ (k, value) :: later ∧ f earlier k value = false
  | .clear => after = fun _ => none

def Specified (start after : Bindings) : List Op → Prop
  | [] => after = start
  | op :: script => ∃ next, op.Specified start next ∧ Specified next after script

structure Refines (m : List KeyValue) (bindings : Bindings) : Prop where
  distinct : (keys m).Nodup
  get : ∀ key, getValue key m = bindings key

variable {m other : List KeyValue} {key k : Text} {value : AnyValue} {bindings : Bindings}

theorem keys_append : keys (m ++ other) = keys m ++ keys other := map_append

theorem entries_fst : (entries m).map Prod.fst = keys m := by
  rw [entries, map_map]
  rfl

theorem getValue_append : getValue key (m ++ other) = (getValue key m).or (getValue key other) := by
  induction m with
  | nil => rfl
  | cons head rest ih =>
    cases head with
    | mk k first keyStrindex =>
      rw [cons_append, getValue, getValue]
      split
      · rfl
      · exact ih

theorem mem_entries_of_getValue (found : getValue key m = some value) : (key, value) ∈ entries m := by
  induction m with
  | nil => cases found
  | cons head rest ih =>
    cases head with
    | mk k first keyStrindex =>
      rw [getValue] at found
      rw [entries, map_cons, mem_cons, ← entries]
      split at found
      · next same =>
          cases found
          exact .inl (by rw [← same]; rfl)
      · exact .inr (ih found)

theorem getValue_eq_some (distinct : (keys m).Nodup) : getValue key m = some value ↔ (key, value) ∈ entries m := by
  constructor
  · exact mem_entries_of_getValue
  · intro member
    cases found : getValue key m with
    | none =>
      have absent := getValue_eq_none.mp found
      rw [← entries_fst] at absent
      exact absurd (mem_map_of_mem member) absent
    | some other =>
      have listed := mem_entries_of_getValue found
      rw [← entries_fst] at distinct
      have same := inj_on_of_nodup_map distinct listed member rfl
      rw [(Prod.mk.inj same).2]

theorem getValue_perm (perm : m.Perm other) (distinct : (keys m).Nodup) (key : Text) :
    getValue key m = getValue key other := by
  have distinct' : (keys other).Nodup := (perm.map KeyValue.key).nodup_iff.mp distinct
  apply Option.ext
  intro value
  rw [getValue_eq_some distinct, getValue_eq_some distinct', entries, entries, (perm.map entry).mem_iff]

theorem lists_entries (refines : Refines m bindings) : Lists (entries m) bindings := by
  constructor
  · rw [entries_fst]
    exact refines.distinct
  · intro k value
    rw [← getValue_eq_some refines.distinct, refines.get]

theorem len_eq (refines : Refines m bindings) : len m = Set.ncard {key | (bindings key).isSome} := by
  have domain : {key | (bindings key).isSome} = ((keys m).toFinset : Set Text) := by
    ext key
    rw [Set.mem_ofPred_eq, ← refines.get, coe_toFinset, Set.mem_ofPred_eq, ← Option.ne_none_iff_isSome,
      Ne, getValue_eq_none, not_not]
  rw [domain, Set.ncard_coe_finset, toFinset_card_of_nodup refines.distinct, keys, length_map, len]

theorem keys_overwrite : keys (overwrite key value m) = keys m := by
  induction m with
  | nil => rfl
  | cons head rest ih =>
    cases head with
    | mk k first keyStrindex =>
      rw [overwrite]
      split
      · rfl
      · simpa [keys, KeyValue.key] using ih

theorem getValue_overwrite (present : getValue key m ≠ none) :
    getValue k (overwrite key value m) = Function.update (fun k => getValue k m) key (some value) k := by
  induction m with
  | nil => exact absurd rfl present
  | cons head rest ih =>
    cases head with
    | mk first old keyStrindex =>
      rw [overwrite]
      rw [getValue] at present
      by_cases here : first = key
      · subst here
        rw [if_pos rfl, getValue, update_apply, getValue]
        grind
      · rw [if_neg here] at present
        rw [if_neg here, getValue, ih present, update_apply, update_apply, getValue]
        grind

theorem refines_append (refines : Refines m bindings) (absent : getValue key m = none) :
    Refines (m ++ [.mk key value 0]) (Function.update bindings key (some value)) := by
  constructor
  · rw [keys_append]
    exact List.Nodup.append refines.distinct (nodup_singleton _) (disjoint_singleton.mpr (getValue_eq_none.mp absent))
  · intro k
    rw [getValue_append, getValue, getValue, update_apply, ← refines.get]
    grind

theorem refines_put (refines : Refines m bindings) :
    Refines (put key value m) (Function.update bindings key (some value)) := by
  rw [put]
  cases found : getValue key m with
  | none => exact refines_append refines found
  | some old =>
    constructor
    · rw [keys_overwrite]
      exact refines.distinct
    · intro k
      rw [getValue_overwrite (by rw [found]; exact Option.some_ne_none old), update_apply, update_apply, refines.get]

theorem refines_getOrPutEmpty (refines : Refines m bindings) :
    Refines (getOrPutEmpty key m).1 (Function.update bindings key (some ((bindings key).getD .empty))) := by
  rw [getOrPutEmpty, ← refines.get]
  cases found : getValue key m with
  | none => exact refines_append refines found
  | some old =>
    have unchanged : Function.update bindings key (some old) = bindings := by
      rw [← found, refines.get, update_eq_self]
    rw [Option.getD_some, unchanged]
    exact refines

theorem findIdx_eq_none (missing : m.findIdx? (fun akv => akv.key = key) = none) : getValue key m = none := by
  rw [findIdx?_eq_none_iff] at missing
  rw [getValue_eq_none, keys, mem_map]
  intro present
  rcases present with ⟨akv, member, same⟩
  simpa [same] using missing akv member

theorem findIdx_eq_some {i : Nat} (found : m.findIdx? (fun akv => akv.key = key) = some i) :
    ∃ front akv back, m = front ++ akv :: back ∧ akv.key = key ∧ i = front.length := by
  induction m generalizing i with
  | nil => simp at found
  | cons head rest ih =>
    rw [findIdx?_cons] at found
    split at found
    · next same =>
        cases found
        exact ⟨[], head, rest, rfl, of_decide_eq_true same, rfl⟩
    · rcases Option.map_eq_some_iff.mp found with ⟨j, later, rfl⟩
      rcases ih later with ⟨front, akv, back, rfl, same, rfl⟩
      exact ⟨head :: front, akv, back, rfl, same, rfl⟩

theorem refines_without {front back : List KeyValue} {akv : KeyValue}
    (refines : Refines (front ++ akv :: back) bindings) :
    Refines (front ++ back) (Function.update bindings akv.key none) := by
  have distinct := refines.distinct
  cases akv with
  | mk key value keyStrindex =>
    rw [keys_append, keys, keys, map_cons, nodup_middle, nodup_cons, ← keys, ← keys, ← keys_append] at distinct
    constructor
    · exact distinct.2
    · intro k
      rw [update_apply, ← refines.get, getValue_append, getValue_append, getValue, KeyValue.key]
      split
      · next same =>
          rw [same, ← getValue_append]
          exact getValue_eq_none.mpr distinct.1
      · next different => rw [if_neg (Ne.symm different)]

theorem refines_remove (refines : Refines m bindings) :
    Refines (remove key m).1 (Function.update bindings key none) := by
  rw [remove]
  cases found : m.findIdx? (fun akv => akv.key = key) with
  | none =>
    have absent := findIdx_eq_none found
    rw [refines.get] at absent
    rw [← absent, update_eq_self]
    exact refines
  | some i =>
    rcases findIdx_eq_some found with ⟨front, akv, back, rfl, rfl, rfl⟩
    have rest := refines_without refines
    have perm := (swapRemoveAt_perm front back akv).symm
    constructor
    · exact (perm.map KeyValue.key).nodup_iff.mp rest.distinct
    · intro k
      rw [← getValue_perm perm rest.distinct, rest.get]

theorem remove_reports (key : Text) (m : List KeyValue) : (remove key m).2 = (getValue key m).isSome := by
  rw [remove]
  cases found : m.findIdx? (fun akv => akv.key = key) with
  | none => rw [findIdx_eq_none found, Option.isSome_none]
  | some i =>
    rcases findIdx_eq_some found with ⟨front, akv, back, rfl, rfl, rfl⟩
    refine (Option.ne_none_iff_isSome.mp ?_).symm
    rw [Ne, getValue_eq_none, not_not, keys_append, keys, keys, map_cons]
    exact mem_append_right _ mem_cons_self

/-- The entries whose call, after those of the entries in front, was answered with false. -/
def rejected (m : List KeyValue) : List KeyValue :=
  (m.zipIdx.filter (fun at_i => !f (entries (m.take at_i.2)) at_i.1.key at_i.1.value)).map Prod.fst

theorem removeIf_from (front rest : List KeyValue) :
    Lib.removeIf (call f) (entries front) rest = (entries (front ++ rest),
      ((rest.zipIdx front.length).filter
        (fun at_i => !f (entries ((front ++ rest).take at_i.2)) at_i.1.key at_i.1.value)).map Prod.fst) := by
  induction rest generalizing front with
  | nil => simp [Lib.removeIf]
  | cons kv rest ih =>
    have further := ih (front ++ [kv])
    rw [append_assoc, singleton_append, length_append, length_singleton] at further
    have noted : entries front ++ [entry kv] = entries (front ++ [kv]) := by simp [entries]
    rw [zipIdx_cons, filter_cons, take_left]
    cases answer : f (entries front) kv.key kv.value with
    | true =>
      have visit : call f (entries front) kv = (entries (front ++ [kv]), kv, true) := by
        rw [call, answer, noted]
      rw [Lib.removeIf_taken visit, further]
      rfl
    | false =>
      have visit : call f (entries front) kv = (entries (front ++ [kv]), kv, false) := by
        rw [call, answer, noted]
      rw [Lib.removeIf_kept visit, further]
      rfl

theorem removeIf_eq (m : List KeyValue) : removeIf f m = (entries m, rejected f m) := by
  rw [removeIf, Lib.compact_eq]
  exact removeIf_from f [] m

theorem mem_rejected {f : Condition} {kv : KeyValue} :
    kv ∈ rejected f m ↔ ∃ front back, m = front ++ kv :: back ∧ f (entries front) kv.key kv.value = false := by
  rw [rejected, mem_map]
  constructor
  · intro member
    rcases member with ⟨⟨found, i⟩, listed, rfl⟩
    rw [mem_filter, mem_zipIdx_iff_getElem?] at listed
    rcases List.getElem?_eq_some_iff.mp listed.1 with ⟨inside, at_i⟩
    refine ⟨m.take i, m.drop (i + 1), ?_, by simpa using listed.2⟩
    calc
      m = m.take i ++ m.drop i := (List.take_append_drop i m).symm
      _ = m.take i ++ m[i] :: m.drop (i + 1) := by rw [drop_eq_getElem_cons inside]
      _ = _ := by rw [at_i]
  · intro split
    rcases split with ⟨front, back, rfl, answer⟩
    refine ⟨(kv, front.length), ?_, rfl⟩
    rw [mem_filter, mem_zipIdx_iff_getElem?]
    simp [answer]

theorem rejected_sublist (m : List KeyValue) : (rejected f m).Sublist m := by
  calc
    List.Sublist (rejected f m) (m.zipIdx.map Prod.fst) := filter_sublist.map Prod.fst
    List.Sublist _ m := by rw [zipIdx_map_fst]

theorem refines_removeIf (refines : Refines m bindings) :
    Refines (rejected f m) (fun key => getValue key (rejected f m)) where
  distinct := ((rejected_sublist f m).map KeyValue.key).nodup refines.distinct
  get := fun _ => rfl

theorem specified_removeIf (refines : Refines m bindings) :
    (Op.removeIf f).Specified bindings (fun key => getValue key (rejected f m)) := by
  refine ⟨entries m, lists_entries refines, fun k value => ?_⟩
  rw [getValue_eq_some (refines_removeIf f refines).distinct, entries, mem_map]
  constructor
  · intro kept
    rcases kept with ⟨kv, member, same⟩
    cases same
    rcases mem_rejected.mp member with ⟨front, back, rfl, answer⟩
    exact ⟨entries front, entries back, by simp [entries, entry], answer⟩
  · intro split
    rcases split with ⟨earlier, later, whole, answer⟩
    rcases map_eq_append_iff.mp whole with ⟨front, rest, rfl, rfl, tail⟩
    rcases map_eq_cons_iff.mp tail with ⟨kv, back, rfl, same, rfl⟩
    cases same
    exact ⟨kv, mem_rejected.mpr ⟨front, back, rfl, answer⟩, rfl⟩

theorem step_refines (op : Op) (refines : Refines m bindings) :
    ∃ after, op.Specified bindings after ∧ Refines (op.apply m) after := by
  cases op with
  | getOrPutEmpty k => exact ⟨_, rfl, refines_getOrPutEmpty refines⟩
  | remove key => exact ⟨_, rfl, refines_remove refines⟩
  | removeIf f =>
    refine ⟨_, specified_removeIf f refines, ?_⟩
    rw [Op.apply, removeIf_eq]
    exact refines_removeIf f refines
  | clear => exact ⟨_, rfl, nodup_nil, fun _ => rfl⟩
  | _ => exact ⟨_, rfl, refines_put refines⟩

theorem run_refines (script : List Op) (refines : Refines m bindings) :
    ∃ after, Specified bindings after script ∧ Refines (run script m) after := by
  induction script generalizing m bindings with
  | nil => exact ⟨bindings, rfl, refines⟩
  | cons op script ih =>
    rcases step_refines op refines with ⟨next, specified, refines'⟩
    rcases ih refines' with ⟨after, rest, refined⟩
    exact ⟨after, ⟨next, specified, rest⟩, refined⟩

/-- After any operations on a new map, the slice holds the finite map they specify. -/
theorem map_refines (script : List Op) : ∃ bindings, Specified (fun _ => none) bindings script ∧
    (keys (run script newMap)).Nodup ∧
    (∀ key, getValue key (run script newMap) = bindings key) ∧
    len (run script newMap) = Set.ncard {key | (bindings key).isSome} ∧
    (∀ key, (remove key (run script newMap)).2 = (bindings key).isSome ∧
      ∀ other, other ≠ key → getValue other (remove key (run script newMap)).1 = bindings other) ∧
    ∀ f, removeIf f (run script newMap) = (entries (run script newMap), rejected f (run script newMap)) := by
  have fresh : Refines newMap (fun _ => none) := ⟨nodup_nil, fun _ => rfl⟩
  rcases run_refines script fresh with ⟨bindings, specified, refines⟩
  refine ⟨bindings, specified, refines.distinct, refines.get, len_eq refines, fun key => ⟨?_, ?_⟩, fun f => removeIf_eq f _⟩
  · rw [remove_reports, refines.get]
  · intro other different
    rw [(refines_remove refines).get, update_of_ne different]

end CollectorFormal.Pdata.Map
