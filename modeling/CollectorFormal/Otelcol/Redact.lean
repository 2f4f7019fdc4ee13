import CollectorFormal.Confmap.Codec
import CollectorFormal.Confmap.Expand

/-! The view of the configuration before expansion that extensions are given.

Secrets are masked by mirroring the configuration with the marshalled typed one. -/

namespace CollectorFormal.Otelcol

open Client (Text)
open Confmap Lib List

/-- providerReferenceRegexp: the first closing brace is the end of the text. -/
def isProviderReference (s : Text) : Bool :=
  match cut closeBrace s with
  | some (head, []) => opening.isPrefixOf head
  | _ => false

/-- What becomes of a value that has the mask in the redacted view. -/
def mask : Value → Value
  | .str s => if isProviderReference s then .str s else .str maskedString
  | _ => .str maskedString

mutual

def applyMask : Value → Value → Value
  | .map rawMap, .map redVal => .map (applyMaskEntries rawMap redVal)
  | .list rawSlice, .list redVal => .list (applyMaskItems rawSlice redVal)
  | raw, .str redVal => if redVal = maskedString then mask raw else raw
  | raw, _ => raw

def applyMaskItems : List Value → List Value → List Value
  | [], _ => []
  | rawSlice, [] => rawSlice
  | raw :: rest, redVal :: others => applyMask raw redVal :: applyMaskItems rest others

def applyMaskEntries : Entries → Entries → Entries
  | [], _ => []
  | (k, rawMapVal) :: rest, redVal =>
    match find k redVal with
    | some redMapVal => (k, applyMask rawMapVal redMapVal) :: applyMaskEntries rest redVal
    | none => (k, rawMapVal) :: applyMaskEntries rest redVal

end

attribute [local simp] applyMask applyMaskItems applyMaskEntries

def redactByMirroring (raw redacted : Option Entries) : Option Entries :=
  match raw, redacted with
  | some raw, some redacted => some (applyMaskEntries raw redacted)
  | _, _ => raw

/-- The value of one key, if the redacted view has that key. -/
def maskAt (redacted : Option Value) (raw : Value) : Value :=
  match redacted with
  | some redVal => applyMask raw redVal
  | none => raw

@[simp] theorem maskAt_some (redacted raw : Value) : maskAt (some redacted) raw = applyMask raw redacted := rfl

theorem applyMaskEntries_eq (raw redacted : Entries) :
    applyMaskEntries raw redacted = raw.map fun entry => (entry.1, maskAt (find entry.1 redacted) entry.2) := by
  induction raw with
  | nil => rw [applyMaskEntries, map_nil]
  | cons entry rest ih =>
    rw [applyMaskEntries, ih, map_cons]
    cases find entry.1 redacted with
    | none | some => rfl

theorem keys_applyMaskEntries (raw redacted : Entries) :
    (applyMaskEntries raw redacted).map Prod.fst = raw.map Prod.fst := by
  rw [applyMaskEntries_eq, map_map]
  rfl

theorem find_applyMaskEntries (key : Text) (raw redacted : Entries) :
    find key (applyMaskEntries raw redacted) = (find key raw).map (maskAt (find key redacted)) := by
  rw [applyMaskEntries_eq]
  induction raw with
  | nil => rfl
  | cons entry rest ih =>
    rw [map_cons, find, find, ih]
    by_cases here : entry.1 = key
    · rw [if_pos here, if_pos here, here]
      rfl
    · rw [if_neg here, if_neg here]

theorem getElem?_applyMaskItems (i : Nat) (raw redacted : List Value) :
    (applyMaskItems raw redacted)[i]? = raw[i]?.map (maskAt redacted[i]?) := by
  induction raw generalizing i redacted with
  | nil => rfl
  | cons first rest ih =>
    cases redacted with
    | nil =>
      rw [applyMaskItems]
      · cases (first :: rest)[i]? <;> rfl
      · simp
    | cons redVal others =>
      rw [applyMaskItems]
      cases i with
      | zero => rfl
      | succ i => exact ih i others

theorem applyMaskItems_eq_iff {raw raw' redacted redacted' : List Value} (length : raw.length = raw'.length) :
    applyMaskItems raw redacted = applyMaskItems raw' redacted' ↔
      ∀ (i : Nat) x x', raw[i]? = some x → raw'[i]? = some x' → maskAt redacted[i]? x = maskAt redacted'[i]? x' := by
  constructor
  · intro equal i x x' here here'
    have at_i := congrArg (fun items : List Value => items[i]?) equal
    simpa [getElem?_applyMaskItems, here, here'] using at_i
  · intro each
    apply ext_getElem?
    intro i
    rw [getElem?_applyMaskItems, getElem?_applyMaskItems]
    by_cases inside : i < raw.length
    · have inside' : i < raw'.length := length ▸ inside
      have here := getElem?_eq_getElem inside
      have here' := getElem?_eq_getElem inside'
      rw [here, here', Option.map_some, Option.map_some, each i _ _ here here']
    · have outside : raw'.length ≤ i := length ▸ Nat.le_of_not_lt inside
      rw [getElem?_eq_none (Nat.le_of_not_lt inside), getElem?_eq_none outside]
      rfl

theorem applyMaskEntries_eq_iff {raw raw' redacted redacted' : Entries}
    (keys : raw.map Prod.fst = raw'.map Prod.fst) (distinct : (raw.map Prod.fst).Nodup) :
    applyMaskEntries raw redacted = applyMaskEntries raw' redacted' ↔
      ∀ key x x', find key raw = some x → find key raw' = some x' →
        maskAt (find key redacted) x = maskAt (find key redacted') x' := by
  constructor
  · intro equal key x x' here here'
    have at_key := congrArg (find key) equal
    simpa [find_applyMaskEntries, here, here'] using at_key
  · intro each
    apply eq_of_find
    · rw [keys_applyMaskEntries, keys_applyMaskEntries, keys]
    · rw [keys_applyMaskEntries]
      exact distinct
    · intro key
      rw [find_applyMaskEntries, find_applyMaskEntries]
      cases here : find key raw with
      | none =>
        rw [find_eq_none_iff, keys, ← find_eq_none_iff] at here
        rw [here]
        rfl
      | some x =>
        cases here' : find key raw' with
        | none =>
          rw [find_eq_none_iff, ← keys, ← find_eq_none_iff, here] at here'
          cases here'
        | some x' => rw [Option.map_some, Option.map_some, each key x x' here here']

end CollectorFormal.Otelcol
