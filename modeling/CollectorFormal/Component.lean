import CollectorFormal.Client
import CollectorFormal.Lib.Substring

/-! Component IDs. -/

namespace CollectorFormal.Component

open Client (Text)
open Lib List Bool

structure ID where
  typeVal : Text
  /-- Empty if there is none. -/
  nameVal : Text
deriving DecidableEq, Repr

inductive IDError where
  /-- in %q id: the part before / should not be empty -/
  | emptyType (idStr : Text)
  /-- id must not be empty -/
  | emptyID
  /-- in %q id: the part after / should not be empty -/
  | emptyName (idStr : Text)
  /-- name %q is longer than 1024 characters (%d characters) -/
  | longName (nameStr : Text)
  /-- invalid character(s) in name %q -/
  | invalidName (nameStr : Text)
  /-- in %q id: invalid character(s) in type %q -/
  | invalidType (idStr typeStr : Text)

/-- typeAndNameSeparator -/
def slash : UInt8 := 47

def isSpace (c : UInt8) : Bool := (9 ≤ c && c ≤ 13) || c == 32

/-- strings.TrimSpace, and nameRegexp, which allows neither separators nor control characters nor symbols: what is used
of the classes of Unicode. -/
class Unicode where
  trimSpace : Text → Text
  isName : Text → Bool
  trimSpace_ascii : ∀ s, (∀ c ∈ s, isSpace c = false ∧ c < 128) → trimSpace s = s
  trimSpace_name : ∀ s, isName s = true → trimSpace s = s
  name_apart : ∀ s, isName s = true → s ≠ [] ∧ ∀ c ∈ s, isSpace c = false

open Unicode

def isTypeRest (c : UInt8) : Bool := isLetter c || (48 ≤ c && c ≤ 57) || c == 95

/-- typeRegexp -/
def isType : Text → Bool
  | [] => false
  | first :: rest => isLetter first && rest.all isTypeRest && rest.length ≤ 62

variable [Unicode]

def validateName (nameStr : Text) : Except IDError Unit :=
  if 1024 < nameStr.length then .error (.longName nameStr)
  else if isName nameStr then .ok ()
  else .error (.invalidName nameStr)

namespace ID

def unmarshalName (idStr : Text) : Option Text → Except IDError Text
  | none => .ok []
  | some nameStr =>
    let nameStr := trimSpace nameStr
    if nameStr = [] then .error (.emptyName idStr)
    else
      match validateName nameStr with
      | .ok () => .ok nameStr
      | .error err => .error err

/-- strings.Cut at the separator. -/
def cutName (idStr : Text) : Text × Option Text :=
  match cut slash idStr with
  | some (typeStr, nameStr) => (typeStr, some nameStr)
  | none => (idStr, none)

def unmarshalText (text : Text) : Except IDError ID :=
  let typeStr := trimSpace (cutName text).1
  if typeStr = [] then .error (if (cutName text).2.isSome then .emptyType text else .emptyID)
  else
    match unmarshalName text (cutName text).2 with
    | .error err => .error err
    | .ok nameStr => if isType typeStr then .ok ⟨typeStr, nameStr⟩ else .error (.invalidType text typeStr)

def asString (id : ID) : Text :=
  if id.nameVal = [] then id.typeVal else id.typeVal ++ slash :: id.nameVal

/-- What UnmarshalText returns. -/
structure Valid (id : ID) : Prop where
  type : isType id.typeVal = true
  name : id.nameVal = [] ∨ id.nameVal.length ≤ 1024 ∧ isName id.nameVal = true

theorem valid_of_unmarshalName {idStr nameVal : Text} {nameStr : Option Text}
    (ok : unmarshalName idStr nameStr = .ok nameVal) : nameVal = [] ∨ nameVal.length ≤ 1024 ∧ isName nameVal = true := by
  cases nameStr with
  | none =>
    cases ok
    exact .inl rfl
  | some nameStr =>
    rw [unmarshalName] at ok
    split at ok
    · cases ok
    · rw [validateName] at ok
      split at ok
      · next valid =>
          cases ok
          split at valid
          · cases valid
          · next short =>
              split at valid
              · next name => exact .inr ⟨Nat.le_of_not_lt short, name⟩
              · cases valid
      · cases ok

theorem valid_of_unmarshalText {text : Text} {id : ID} (ok : unmarshalText text = .ok id) : id.Valid := by
  rw [unmarshalText] at ok
  split at ok
  · cases ok
  · split at ok
    · cases ok
    · next name =>
        split at ok
        · next type =>
            cases ok
            exact ⟨type, valid_of_unmarshalName name⟩
        · cases ok

omit [Unicode] in
theorem typeRest_apart {c : UInt8} (rest : isTypeRest c = true) : (isSpace c = false ∧ c < 128) ∧ c ≠ slash := by
  simp only [isTypeRest, isLetter, isSpace, slash, or_eq_true, and_eq_true, decide_eq_true_eq, beq_iff_eq,
    or_eq_false_iff, and_eq_false_iff, decide_eq_false_iff_not, beq_eq_false_iff_ne,
    UInt8.le_iff_toNat_le, UInt8.lt_iff_toNat_lt, ← UInt8.toNat_inj, ne_eq] at rest ⊢
  simp only [UInt8.reduceToNat] at rest ⊢
  omega

omit [Unicode] in
theorem type_apart {typeVal : Text} (type : isType typeVal = true) :
    typeVal ≠ [] ∧ (∀ c ∈ typeVal, isSpace c = false ∧ c < 128) ∧ slash ∉ typeVal := by
  cases typeVal with
  | nil => cases type
  | cons first rest =>
    simp only [isType, and_eq_true, all_eq_true] at type
    have each : ∀ c ∈ first :: rest, isTypeRest c = true := by
      rw [forall_mem_cons]
      exact ⟨by simp [isTypeRest, type.1.1], type.1.2⟩
    exact ⟨cons_ne_nil _ _, fun c member => (typeRest_apart (each c member)).1,
      fun member => (typeRest_apart (each slash member)).2 rfl⟩

theorem unmarshalText_asString {id : ID} (valid : id.Valid) : unmarshalText id.asString = .ok id := by
  obtain ⟨nonempty, spaces, absent⟩ := type_apart valid.type
  obtain ⟨typeVal, nameVal⟩ := id
  rcases valid.name with rfl | ⟨short, name⟩
  · rw [unmarshalText, asString, if_pos rfl, cutName, cut_none absent]
    simp only [trimSpace_ascii _ spaces, if_neg nonempty, unmarshalName, valid.type, if_true]
  · have named := (name_apart _ name).1
    have checked : validateName nameVal = .ok () := by
      rw [validateName, if_neg (Nat.not_lt_of_le short), if_pos name]
    rw [unmarshalText, asString, if_neg named, cutName, cut_append absent]
    simp only [trimSpace_ascii _ spaces, if_neg nonempty, unmarshalName, trimSpace_name _ name, if_neg named, checked,
      valid.type, if_true]

end ID

omit [Unicode]

def isSymbol (c : UInt8) : Bool := [36, 43, 60, 61, 62, 94, 96, 124, 126].contains c

/-- The classes with the characters of ASCII only. -/
@[reducible]
def asciiClasses : Unicode where
  trimSpace s := ((s.dropWhile isSpace).reverse.dropWhile isSpace).reverse
  isName s := !s.isEmpty && s.all fun c => !isSpace c && 32 < c && c < 127 && !isSymbol c
  trimSpace_ascii := fun s plain => trimmed s fun c member => (plain c member).1
  trimSpace_name := by
    intro s name
    simp only [and_eq_true, all_eq_true, not_eq_true'] at name
    exact trimmed s fun c member => (name.2 c member).1.1.1
  name_apart := by
    intro s name
    simp only [and_eq_true, all_eq_true, not_eq_true', isEmpty_eq_false_iff] at name
    exact ⟨name.1, fun c member => (name.2 c member).1.1.1⟩
where
  trimmed (s : Text) (none : ∀ c ∈ s, isSpace c = false) :
      ((s.dropWhile isSpace).reverse.dropWhile isSpace).reverse = s := by
    have whole : ∀ t : Text, (∀ c ∈ t, isSpace c = false) → t.dropWhile isSpace = t := by
      intro t none
      cases t with
      | nil => rfl
      | cons first rest => exact dropWhile_cons_of_neg (by simp [none first mem_cons_self])
    rw [whole s none, whole s.reverse (by simpa using none), reverse_reverse]

end CollectorFormal.Component
