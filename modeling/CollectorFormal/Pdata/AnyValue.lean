import CollectorFormal.Client
import Mathlib.Data.List.Perm.Subperm

/-! Attribute values as the messages AnyValue and KeyValue have them, and when they are equal.

A double is kept by its bits and compared as a number. In profiles a key or a string may be an index into the string
table. Maps are compared by their keys, whatever the order. -/

namespace CollectorFormal.Pdata

open List
open Client (Text)

mutual

inductive AnyValue where
  | empty
  | stringValue (value : Text)
  | boolValue (value : Bool)
  | intValue (value : Int64)
  | doubleValue (bits : UInt64)
  | arrayValue (values : List AnyValue)
  | kvlistValue (values : List KeyValue)
  | bytesValue (value : List UInt8)
  | stringValueStrindex (index : Int32)

inductive KeyValue where
  | mk (key : Text) (value : AnyValue) (keyStrindex : Int32)

end

def AnyValue.getStringValue : AnyValue → Text
  | .stringValue value => value
  | _ => []

def KeyValue.key : KeyValue → Text
  | .mk key _ _ => key

def KeyValue.value : KeyValue → AnyValue
  | .mk _ value _ => value

def KeyValue.keyStrindex : KeyValue → Int32
  | .mk _ _ keyStrindex => keyStrindex

def AnyValue.isLeaf : AnyValue → Bool
  | .arrayValue _ | .kvlistValue _ => false
  | _ => true

theorem AnyValue.nested {motive : AnyValue → Prop} (leaf : ∀ value, value.isLeaf = true → motive value)
    (array : ∀ values, (∀ value ∈ values, motive value) → motive (.arrayValue values))
    (map : ∀ values, (∀ kv ∈ values, motive kv.value) → motive (.kvlistValue values)) (value : AnyValue) :
    motive value :=
  @AnyValue.rec motive (fun kv => motive kv.value) (fun values => ∀ value ∈ values, motive value)
    (fun values => ∀ kv ∈ values, motive kv.value)
    (leaf _ rfl) (fun _ => leaf _ rfl) (fun _ => leaf _ rfl) (fun _ => leaf _ rfl) (fun _ => leaf _ rfl)
    array map (fun _ => leaf _ rfl) (fun _ => leaf _ rfl)
    (fun _ _ _ inside => inside)
    (fun _ none => nomatch none)
    (fun _ _ first rest => List.forall_mem_cons.mpr ⟨first, rest⟩)
    (fun _ none => nomatch none)
    (fun _ _ first rest => List.forall_mem_cons.mpr ⟨first, rest⟩) value

/-- Zero of either sign. -/
def isZero (bits : UInt64) : Bool := bits <<< 1 == 0

def isNaN (bits : UInt64) : Bool := (0xFFE0000000000000 : UInt64) < bits <<< 1

def doubleEqual (a b : UInt64) : Bool := !isNaN a && !isNaN b && (a == b || isZero a && isZero b)

/-- pcommon.Map.Get -/
def getValue (key : Text) : List KeyValue → Option AnyValue
  | [] => none
  | .mk k value _ :: rest => if k = key then some value else getValue key rest

/-- A value that is none of the others has the type ValueTypeEmpty. -/
def AnyValue.isEmpty : AnyValue → Bool
  | .empty | .stringValueStrindex _ => true
  | _ => false

mutual

/-- pcommon.Value.Equal -/
def AnyValue.equal : AnyValue → AnyValue → Bool
  | .stringValue a, .stringValue b => a == b
  | .boolValue a, .boolValue b => a == b
  | .doubleValue a, .doubleValue b => doubleEqual a b
  | .intValue a, .intValue b => a == b
  | .bytesValue a, .bytesValue b => a == b
  | .kvlistValue a, .kvlistValue b => a.length == b.length && equalEntries a b
  | .arrayValue a, .arrayValue b => equalValues a b
  | a, b => a.isEmpty && b.isEmpty

def equalValues : List AnyValue → List AnyValue → Bool
  | [], [] => true
  | a :: rest, b :: rest' => a.equal b && equalValues rest rest'
  | _, _ => false

/-- Every entry of the first map has an equal one in the second. -/
def equalEntries : List KeyValue → List KeyValue → Bool
  | [], _ => true
  | .mk key value _ :: rest, other =>
    match getValue key other with
    | some found => value.equal found && equalEntries rest other
    | none => false

end

inductive Meaning where
  | empty
  | string (value : Text)
  | bool (value : Bool)
  | int (value : Int64)
  | double (bits : UInt64)
  | bytes (value : List UInt8)
  | array (values : List Meaning)
  | map (values : Text → Option Meaning)

mutual

def AnyValue.meaning : AnyValue → Meaning
  | .stringValue value => .string value
  | .boolValue value => .bool value
  | .intValue value => .int value
  | .doubleValue bits => .double (if isZero bits then 0 else bits)
  | .bytesValue value => .bytes value
  | .arrayValue values => .array (meaningValues values)
  | .kvlistValue values => .map (meaningEntries values)
  | _ => .empty

def meaningValues : List AnyValue → List Meaning
  | [] => []
  | value :: rest => value.meaning :: meaningValues rest

def meaningEntries : List KeyValue → Text → Option Meaning
  | [], _ => none
  | .mk k value _ :: rest, key => if k = key then some value.meaning else meaningEntries rest key

end

def keys (values : List KeyValue) : List Text := values.map KeyValue.key

mutual

def AnyValue.WellFormed : AnyValue → Prop
  | .stringValueStrindex _ => False
  | .arrayValue values => WellFormedValues values
  | .kvlistValue values => (keys values).Nodup ∧ WellFormedEntries values
  | _ => True

def WellFormedValues : List AnyValue → Prop
  | [] => True
  | value :: rest => value.WellFormed ∧ WellFormedValues rest

def WellFormedEntries : List KeyValue → Prop
  | [] => True
  | .mk _ value _ :: rest => value.WellFormed ∧ WellFormedEntries rest

end

theorem meaningEntries_eq (values : List KeyValue) (key : Text) :
    meaningEntries values key = (getValue key values).map AnyValue.meaning := by
  induction values with
  | nil => rfl
  | cons entry rest ih =>
    cases entry with
    | mk k value keyStrindex =>
      rw [meaningEntries, getValue]
      split
      · rfl
      · exact ih

variable {values : List KeyValue}

theorem getValue_eq_none {key : Text} : getValue key values = none ↔ key ∉ keys values := by
  induction values with
  | nil => simp [getValue, keys]
  | cons entry rest ih =>
    cases entry with
    | mk k value keyStrindex =>
      rw [getValue, keys, map_cons, mem_cons, ← keys, not_or, ← ih, KeyValue.key]
      split
      · next same => simp [same]
      · next other => simp [Ne.symm other]

theorem getValue_wellFormed {key : Text} {value : AnyValue}
    (formed : WellFormedEntries values) (found : getValue key values = some value) : value.WellFormed := by
  induction values with
  | nil => cases found
  | cons entry rest ih =>
    cases entry with
    | mk k first keyStrindex =>
      rw [getValue] at found
      split at found
      · cases found
        exact formed.1
      · exact ih formed.2 found

variable {a b : List KeyValue}

theorem keys_subset (same : equalEntries a b = true) : keys a ⊆ keys b := by
  induction a with
  | nil => exact nil_subset _
  | cons entry rest ih =>
    cases entry with
    | mk k value keyStrindex =>
      rw [equalEntries] at same
      cases found : getValue k b with
      | none => simp [found] at same
      | some other =>
        simp only [found, Bool.and_eq_true] at same
        have present : k ∈ keys b := by
          by_contra absent
          rw [getValue_eq_none.mpr absent] at found
          cases found
        exact cons_subset.mpr ⟨present, ih same.2⟩

theorem keys_iff (nodup : (keys a).Nodup) (size : a.length = b.length)
    (same : equalEntries a b = true) (key : Text) : key ∈ keys a ↔ key ∈ keys b := by
  have subperm := nodup.subperm (keys_subset same)
  have perm := subperm.perm_of_length_le (by simp [keys, size])
  exact perm.mem_iff

theorem doubleEqual_meaning {a b : UInt64} (same : doubleEqual a b = true) :
    (if isZero a then 0 else a) = if isZero b then 0 else b := by
  simp only [doubleEqual, Bool.and_eq_true, Bool.or_eq_true, beq_iff_eq] at same
  rcases same.2 with rfl | ⟨first, second⟩
  · rfl
  · rw [if_pos first, if_pos second]

mutual

theorem equal_meaning (a b : AnyValue) (formedA : a.WellFormed) (formedB : b.WellFormed)
    (same : a.equal b = true) : a.meaning = b.meaning := by
  cases a with
  | arrayValue first =>
    cases b with
    | arrayValue second =>
      rw [AnyValue.meaning, AnyValue.meaning, equalValues_meaning first second formedA formedB same]
    | _ => simp [AnyValue.equal, AnyValue.isEmpty] at same
  | kvlistValue first =>
    cases b with
    | kvlistValue second =>
      rw [AnyValue.equal, Bool.and_eq_true, beq_iff_eq] at same
      rw [AnyValue.meaning, AnyValue.meaning]
      congr 1
      funext key
      by_cases present : key ∈ keys first
      · exact equalEntries_meaning first second formedA.2 formedB.2 same.2 key present
      · rw [meaningEntries_eq, meaningEntries_eq, getValue_eq_none.mpr present, getValue_eq_none.mpr]
        rwa [← keys_iff formedA.1 same.1 same.2]
    | _ => simp [AnyValue.equal, AnyValue.isEmpty] at same
  | doubleValue first =>
    cases b with
    | doubleValue second =>
      rw [AnyValue.meaning, AnyValue.meaning, doubleEqual_meaning same]
    | _ => simp [AnyValue.equal, AnyValue.isEmpty] at same
  | _ => cases b <;> simp_all [AnyValue.equal, AnyValue.isEmpty, AnyValue.meaning, AnyValue.WellFormed]

theorem equalValues_meaning (a b : List AnyValue) (formedA : WellFormedValues a) (formedB : WellFormedValues b)
    (same : equalValues a b = true) : meaningValues a = meaningValues b := by
  cases a with
  | nil =>
    cases b with
    | nil => rfl
    | cons _ _ => simp [equalValues] at same
  | cons first rest =>
    cases b with
    | nil => simp [equalValues] at same
    | cons second rest' =>
      rw [equalValues, Bool.and_eq_true] at same
      rw [meaningValues, meaningValues, equal_meaning first second formedA.1 formedB.1 same.1,
        equalValues_meaning rest rest' formedA.2 formedB.2 same.2]

theorem equalEntries_meaning (a b : List KeyValue) (formedA : WellFormedEntries a) (formedB : WellFormedEntries b)
    (same : equalEntries a b = true) (key : Text) (present : key ∈ keys a) :
    meaningEntries a key = meaningEntries b key := by
  cases a with
  | nil => cases present
  | cons entry rest =>
    cases entry with
    | mk k value keyStrindex =>
      rw [equalEntries] at same
      cases found : getValue k b with
      | none => simp [found] at same
      | some other =>
        simp only [found, Bool.and_eq_true] at same
        rw [meaningEntries]
        split
        · next here =>
            subst here
            rw [meaningEntries_eq, found, Option.map_some,
              equal_meaning value other formedA.1 (getValue_wellFormed formedB found) same.1]
        · next elsewhere =>
            rw [keys, map_cons, mem_cons, ← keys] at present
            have later := present.resolve_left (Ne.symm elsewhere)
            exact equalEntries_meaning rest b formedA.2 formedB same.2 key later

end

def Value := { value : AnyValue // value.WellFormed }

def Value.equal (a b : Value) : Bool := a.1.equal b.1

def Value.meaning (value : Value) : Meaning := value.1.meaning

theorem Value.meaning_eq {a b : Value} (same : a.equal b = true) : a.meaning = b.meaning :=
  equal_meaning a.1 b.1 a.2 b.2 same

def Value.none : Value := ⟨.empty, trivial⟩

theorem Value.equal_of_empty {a b : Value} (first : a.meaning = .empty) (second : b.meaning = .empty) :
    a.equal b = true := by
  obtain ⟨a, _⟩ := a
  obtain ⟨b, _⟩ := b
  cases a <;> cases first <;> cases b <;> cases second <;> rfl

end CollectorFormal.Pdata
