import CollectorFormal.Confmap.Codec

/-! The two projections of a resolved configuration.

Conf.Get gives the parsed values of references. A string field is decoded from their original text, which these do
not determine. -/

namespace CollectorFormal.Confmap

open Client (Text)
open Lib List Kind

namespace Value

mutual

/-- sanitize: what a reference was parsed to is returned as it is. -/
def sanitize : Value → Value
  | .list items => .list (sanitizeItems items)
  | .map entries => .map (sanitizeEntries entries)
  | .expanded value _ => value
  | value => value

def sanitizeItems : List Value → List Value
  | [] => []
  | item :: rest => item.sanitize :: sanitizeItems rest

def sanitizeEntries : Entries → Entries
  | [] => []
  | (key, value) :: rest => (key, value.sanitize) :: sanitizeEntries rest

end

mutual

def parsed : Value → Value
  | .list items => .list (parsedItems items)
  | .map entries => .map (parsedEntries entries)
  | .expanded value _ => value.parsed
  | value => value

def parsedItems : List Value → List Value
  | [] => []
  | item :: rest => item.parsed :: parsedItems rest

def parsedEntries : Entries → Entries
  | [] => []
  | (key, value) :: rest => (key, value.parsed) :: parsedEntries rest

end

def isExpanded : Value → Bool
  | .expanded _ _ => true
  | _ => false

mutual

def Resolved : Value → Prop
  | .list items => ResolvedItems items
  | .map entries => ResolvedEntries entries
  | .expanded value _ => value.isExpanded = false ∧ value.Resolved
  | _ => True

def ResolvedItems : List Value → Prop
  | [] => True
  | item :: rest => item.Resolved ∧ ResolvedItems rest

def ResolvedEntries : Entries → Prop
  | [] => True
  | (_, value) :: rest => value.Resolved ∧ ResolvedEntries rest

end

attribute [local simp] sanitize sanitizeItems sanitizeEntries parsed parsedItems parsedEntries
attribute [local simp] Resolved ResolvedItems ResolvedEntries

variable (items : List Value)

theorem sanitizeItems_eq : sanitizeItems items = items.map sanitize := by
  induction items with
  | nil => rfl
  | cons item rest ih => rw [sanitizeItems, ih, map_cons]

variable (entries : Entries)

theorem sanitizeEntries_eq : sanitizeEntries entries = entries.map fun entry => (entry.1, entry.2.sanitize) := by
  induction entries with
  | nil => rfl
  | cons entry rest ih => rw [sanitizeEntries, ih, map_cons]

theorem parsedItems_eq : parsedItems items = items.map parsed := by
  induction items with
  | nil => rfl
  | cons item rest ih => rw [parsedItems, ih, map_cons]

theorem parsedEntries_eq : parsedEntries entries = entries.map fun entry => (entry.1, entry.2.parsed) := by
  induction entries with
  | nil => rfl
  | cons entry rest ih => rw [parsedEntries, ih, map_cons]

@[simp] theorem resolved_list : (list items).Resolved ↔ ∀ item ∈ items, item.Resolved := by
  rw [Resolved]
  induction items with
  | nil => simp [ResolvedItems]
  | cons item rest ih => rw [ResolvedItems, ih, forall_mem_cons]

@[simp] theorem resolved_map : (map entries).Resolved ↔ ∀ entry ∈ entries, entry.2.Resolved := by
  rw [Resolved]
  induction entries with
  | nil => simp [ResolvedEntries]
  | cons entry rest ih => rw [ResolvedEntries, ih, forall_mem_cons]

theorem parsed_sanitize (value : Value) : value.sanitize.parsed = value.parsed := by
  induction value with
  | list items ih =>
    rw [sanitize, sanitizeItems_eq, parsed, parsed, parsedItems_eq, parsedItems_eq, map_map]
    exact congrArg Value.list (map_congr_left ih)
  | map entries ih =>
    rw [sanitize, sanitizeEntries_eq, parsed, parsed, parsedEntries_eq, parsedEntries_eq, map_map]
    apply congrArg Value.map
    apply map_congr_left
    intro entry member
    exact congrArg (Prod.mk entry.1) (ih entry member)
  | expanded value original ih => rw [sanitize, parsed]
  | _ => rfl

structure Same (a b : Value) : Prop where
  parsed : a.parsed = b.parsed
  resolved : a.Resolved
  resolved' : b.Resolved

namespace Same
variable {a b : Value}

theorem symm (same : Same a b) : Same b a := ⟨same.parsed.symm, same.resolved', same.resolved⟩

theorem list {items : List Value} (same : Same (.list items) b) (plain : b.isExpanded = false) :
    ∃ items', b = .list items' ∧ List.Forall₂ Same items items' := by
  obtain ⟨parsed, resolved, resolved'⟩ := same
  cases b with
  | list items' =>
    refine ⟨items', rfl, ?_⟩
    rw [resolved_list] at resolved resolved'
    rw [Value.parsed, Value.parsed, list.injEq, parsedItems_eq, parsedItems_eq] at parsed
    apply forall₂_of_map_eq parsed
    intro x member y member' equal
    exact ⟨equal, resolved x member, resolved' y member'⟩
  | expanded value original => cases plain
  | _ => cases parsed

theorem map {entries : Entries} (same : Same (.map entries) b) (plain : b.isExpanded = false) :
    ∃ entries', b = .map entries' ∧
      List.Forall₂ (fun entry entry' => entry.1 = entry'.1 ∧ Same entry.2 entry'.2) entries entries' := by
  obtain ⟨parsed, resolved, resolved'⟩ := same
  cases b with
  | map entries' =>
    refine ⟨entries', rfl, ?_⟩
    rw [resolved_map] at resolved resolved'
    rw [Value.parsed, Value.parsed, map.injEq, parsedEntries_eq, parsedEntries_eq] at parsed
    apply forall₂_of_map_eq parsed
    intro x member y member' equal
    obtain ⟨keys, values⟩ := Prod.mk.inj equal
    exact ⟨keys, values, resolved x member, resolved' y member'⟩
  | expanded value original => cases plain
  | _ => cases parsed

theorem scalar (same : Same a b) (scalar : isScalar a = true) (plain : b.isExpanded = false) : a = b := by
  have parsed := same.parsed
  cases b with
  | expanded value original => cases plain
  | list items =>
    cases a with
    | list | expanded => cases scalar
    | _ => cases parsed
  | map entries =>
    cases a with
    | map | expanded => cases scalar
    | _ => cases parsed
  | _ =>
    cases a with
    | list | map | expanded => cases scalar
    | _ => exact parsed

theorem emptyMap (same : Same a b) (empty : isEmptyMap a = true) (plain : b.isExpanded = false) : a = b := by
  obtain rfl : a = .map [] := by
    unfold isEmptyMap at empty
    split at empty
    · rfl
    · cases empty
  obtain ⟨entries', rfl, each⟩ := same.map plain
  cases each
  rfl

end Same

def core : Value → Value
  | .expanded value _ => value
  | value => value

theorem Resolved.core {a : Value} (resolved : a.Resolved) : a.core.isExpanded = false ∧ a.core.Resolved := by
  cases a with
  | expanded value original => exact resolved
  | _ => exact ⟨rfl, resolved⟩

theorem Same.core {a b : Value} (same : Same a b) : Same a.core b.core := by
  have parsed_core : ∀ value : Value, value.core.parsed = value.parsed := by
    intro value
    cases value <;> rfl
  exact ⟨by rw [parsed_core, parsed_core, same.parsed], same.resolved.core.2, same.resolved'.core.2⟩

theorem Same.null_iff {a b : Value} (same : Same a b) : a.core = .null ↔ b.core = .null := by
  constructor
  · intro null
    have inner := same.core
    rw [null] at inner
    exact (inner.scalar rfl same.resolved'.core.1).symm
  · intro null
    have inner := same.core.symm
    rw [null] at inner
    exact (inner.scalar rfl same.resolved.core.1).symm

end Value

namespace Kind

theorem useExpandValue_core {kind : Kind} (other : kind.isString = false) {a : Value} (present : a.core ≠ .null) :
    kind.useExpandValue a = .value a.core := by
  cases a with
  | expanded value original =>
    have parsed : kind.useOriginal value = false := by
      cases value <;> simp [useOriginal, other]
    rw [useExpandValue.eq_def]
    dsimp only
    rw [parsed]
    cases value with
    | null => exact absurd rfl present
    | _ => rfl
  | null => exact absurd rfl present
  | _ => rfl

theorem useExpandValue_null {kind : Kind} (other : kind.isString = false) {a : Value} (null : a.core = .null) :
    kind.useExpandValue a = kind.nullInput ∨ kind.useExpandValue a = kind.zeroInput := by
  cases a with
  | null => exact .inl rfl
  | expanded value original =>
    obtain rfl : value = .null := null
    apply Or.inr
    rw [useExpandValue, useOriginal, other]
    rfl
  | _ => cases null

theorem useExpandValue_same (kind : Kind) (other : kind.isString = false) {a b : Value} (same : Value.Same a b) :
    (∃ x y, kind.useExpandValue a = .value x ∧ kind.useExpandValue b = .value y ∧ Value.Same x y ∧
      x.isExpanded = false ∧ y.isExpanded = false) ∨
    (kind.useExpandValue a = kind.nullInput ∨ kind.useExpandValue a = kind.zeroInput) ∧
      (kind.useExpandValue b = kind.nullInput ∨ kind.useExpandValue b = kind.zeroInput) := by
  have plain := same.resolved.core.1
  have plain' := same.resolved'.core.1
  by_cases null : a.core = .null
  · exact .inr ⟨useExpandValue_null other null, useExpandValue_null other (same.null_iff.mp null)⟩
  · have present : b.core ≠ .null := fun null' => null (same.null_iff.mpr null')
    exact .inl ⟨_, _, useExpandValue_core other null, useExpandValue_core other present, same.core, plain, plain'⟩

theorem useExpandValue_uniform (kind : Kind) (other : kind.isString = false) (uniform : kind.zeroInput = kind.nullInput)
    {a b : Value} (same : Value.Same a b) :
    (∃ x y, kind.useExpandValue a = .value x ∧ kind.useExpandValue b = .value y ∧ Value.Same x y ∧
      x.isExpanded = false ∧ y.isExpanded = false) ∨
    kind.useExpandValue a = kind.nullInput ∧ kind.useExpandValue b = kind.nullInput := by
  have nulls := useExpandValue_same kind other same
  rw [uniform, or_self, or_self] at nulls
  exact nulls

end Kind

def readAt (tag : Tag) (entries : Entries) : Option Text := (find tag.name entries).elim (some []) decodeString

def ReadsPair (a b : Value) : Prop :=
  match Kind.useExpandValue (.struct pairFields) a, Kind.useExpandValue (.struct pairFields) b with
  | .value (.map entries), .value (.map entries') =>
    readAt nameTag entries = readAt nameTag entries' ∧ readAt valueTag entries = readAt valueTag entries'
  | _, _ => True

mutual

/-- The decoder reads the same from two values that were parsed to the same. It reads the originals at string fields,
and what is below the values of an interface. A null that is referred to sets a struct to zero, one that is written
leaves it. -/
def Reads : (kind : Kind) → Typed kind → Value → Value → Prop
  | .string, _, a, b => decodeString a = decodeString b
  | .opaqueString, _, a, b => decodeString a = decodeString b
  | .scalar type, current, a, b =>
    match Kind.useExpandValue (.scalar type) a, Kind.useExpandValue (.scalar type) b with
    | .nil, .zero => current = type.zero
    | .zero, .nil => current = type.zero
    | _, _ => True
  | .any, _, a, b =>
    match Kind.useExpandValue .any a, Kind.useExpandValue .any b with
    | .value x, .value y => x = y
    | _, _ => True
  | .pointer elem, current, a, b =>
    match Kind.useExpandValue (.pointer elem) a, Kind.useExpandValue (.pointer elem) b with
    | .value x, .value y => Reads elem (Option.getD current elem.zero) x y
    | _, _ => True
  | .slice elem, _, a, b =>
    match Kind.useExpandValue (.slice elem) a, Kind.useExpandValue (.slice elem) b with
    | .value (.list items), .value (.list items') => List.Forall₂ (fun x y => Reads elem elem.zero x y) items items'
    | _, _ => True
  | .map elem, _, a, b =>
    match Kind.useExpandValue (.map elem) a, Kind.useExpandValue (.map elem) b with
    | .value (.map entries), .value (.map entries') =>
      List.Forall₂ (fun entry entry' => (nilElement elem entry.2).isSome = (nilElement elem entry'.2).isSome ∧
        Reads elem elem.zero entry.2 entry'.2) entries entries'
    | _, _ => True
  | .struct fields, current, a, b =>
    match Kind.useExpandValue (.struct fields) a, Kind.useExpandValue (.struct fields) b with
    | .value (.map entries), .value (.map entries') => ReadsFields fields current entries entries'
    | .nil, .zero => current = Kind.zeroFields fields
    | .zero, .nil => current = Kind.zeroFields fields
    | _, _ => True
  | .mapList, _, a, b =>
    match Kind.useExpandValue .mapList a, Kind.useExpandValue .mapList b with
    | .value (.map entries), .value (.map entries') =>
      List.Forall₂ (fun entry entry' => decodeString entry.2 = decodeString entry'.2) entries entries'
    | .value (.list items), .value (.list items') => List.Forall₂ ReadsPair items items'
    | _, _ => True

def ReadsFields : (fields : Fields) → TypedFields fields → Entries → Entries → Prop
  | [], _, _, _ => True
  | (tag, kind) :: rest, current, entries, entries' =>
    (∀ x y, find tag.name entries = some x → find tag.name entries' = some y → Reads kind current.1 x y) ∧
      ReadsFields rest current.2 entries entries'

end

attribute [local simp] Reads ReadsFields

/-- Of two values that were parsed to the same, the decoder makes the same iff it reads the same from them. -/
def ReadsRight (kind : Kind) : Prop :=
  ∀ (current typed typed' : Typed kind) (a b : Value), Value.Same a b → decode kind current a = some typed →
    decode kind current b = some typed' → (typed = typed' ↔ Reads kind current a b)

theorem readsRight_string : ReadsRight .string := by
  intro current typed typed' a b _ decoded decoded'
  rw [Reads, show decodeString a = some typed from decoded, show decodeString b = some typed' from decoded',
    Option.some_inj]

variable {kind : Kind}

theorem reads_texts (string : kind.isString = true) {current typed typed' : Typed kind} {s s' : Text}
    (decoded : decode kind current (.str s) = some typed) (decoded' : decode kind current (.str s') = some typed') :
    typed = typed' ↔ Reads kind current (.str s) (.str s') := by
  induction kind with
  | string | opaqueString =>
    cases decoded
    cases decoded'
    exact Option.some_inj.symm
  | pointer elem ih =>
    obtain ⟨target, at_target, rfl⟩ := (decode_pointer_value rfl).mp decoded
    obtain ⟨target', at_target', rfl⟩ := (decode_pointer_value rfl).mp decoded'
    rw [Reads]
    exact Option.some_inj.trans (ih string at_target at_target')
  | _ => cases string

theorem text_of_decode (string : kind.isString = true) {current typed : Typed kind} {data : Value}
    (present : data ≠ .null) (plain : data.isExpanded = false) (decoded : decode kind current data = some typed) :
    ∃ s, data = .str s := by
  induction kind with
  | string | opaqueString =>
    cases data with
    | str s => exact ⟨s, rfl⟩
    | null => exact absurd rfl present
    | expanded value original => cases plain
    | _ => cases decoded
  | pointer elem ih =>
    have input : Kind.useExpandValue (.pointer elem) data = .value data := by
      cases data with
      | null => exact absurd rfl present
      | expanded value original => cases plain
      | _ => rfl
    obtain ⟨target, at_target, _⟩ := (decode_pointer_value input).mp decoded
    exact ih string at_target
  | _ => cases string

theorem useExpandValue_present (string : kind.isString = true) {a : Value} (present : a.core ≠ .null) :
    (∃ s, kind.useExpandValue a = .value (.str s)) ∨
      kind.useExpandValue a = .value a ∧ a.isExpanded = false ∧ a ≠ .null := by
  cases a with
  | null => exact absurd rfl present
  | expanded value original =>
    have reads : kind.useOriginal value = true := by
      cases value with
      | null => exact absurd rfl present
      | _ => exact string
    refine .inl ⟨original, ?_⟩
    rw [Kind.useExpandValue.eq_def]
    dsimp only
    rw [reads]
    rfl
  | _ => exact .inr ⟨rfl, rfl, by simp⟩

theorem useExpandValue_pointer_null (elem : Kind) {a : Value} (null : a.core = .null) :
    Kind.useExpandValue (.pointer elem) a = .nil := by
  cases a with
  | null => rfl
  | expanded value original =>
    obtain rfl : value = .null := null
    have parsed : (Kind.pointer elem).useOriginal .null = false := by simp [Kind.useOriginal, Kind.isPointer]
    rw [Kind.useExpandValue, parsed]
    rfl
  | _ => cases null

variable {elem : Kind}

theorem pointer_text (string : elem.isString = true) {current typed : Typed (.pointer elem)} {a : Value}
    (present : a.core ≠ .null) (decoded : decode (.pointer elem) current a = some typed) :
    ∃ s target, Kind.useExpandValue (.pointer elem) a = .value (.str s) ∧ typed = some target ∧
      decode elem (Option.getD current elem.zero) (.str s) = some target := by
  have whole : (Kind.pointer elem).isString = true := string
  rcases useExpandValue_present whole present with ⟨s, input⟩ | ⟨input, plain, some⟩
  · obtain ⟨target, at_target, rfl⟩ := (decode_pointer_value input).mp decoded
    exact ⟨s, target, input, rfl, at_target⟩
  · obtain ⟨target, at_target, rfl⟩ := (decode_pointer_value input).mp decoded
    obtain ⟨s, rfl⟩ := text_of_decode string some plain at_target
    exact ⟨s, target, input, rfl, at_target⟩

theorem readsRight_pointer (below : ReadsRight elem) : ReadsRight (.pointer elem) := by
  intro current typed typed' a b same decoded decoded'
  by_cases null : a.core = .null
  · have input := useExpandValue_pointer_null elem null
    have input' := useExpandValue_pointer_null elem (same.null_iff.mp null)
    rw [decode, input] at decoded
    rw [decode, input'] at decoded'
    cases decoded
    cases decoded'
    rw [Reads, input, input']
    simp
  · have null' : b.core ≠ .null := fun null' => null (same.null_iff.mpr null')
    cases string : elem.isString with
    | true =>
      obtain ⟨s, target, input, rfl, at_target⟩ := pointer_text string null decoded
      obtain ⟨s', target', input', rfl, at_target'⟩ := pointer_text string null' decoded'
      rw [Reads, input, input']
      exact Option.some_inj.trans (reads_texts string at_target at_target')
    | false =>
      have other : (Kind.pointer elem).isString = false := string
      have input := useExpandValue_core other null
      have input' := useExpandValue_core other null'
      obtain ⟨target, at_target, rfl⟩ := (decode_pointer_value input).mp decoded
      obtain ⟨target', at_target', rfl⟩ := (decode_pointer_value input').mp decoded'
      rw [Reads, input, input']
      exact Option.some_inj.trans (below _ _ _ _ _ same.core at_target at_target')

theorem readsRight_scalar (type : Scalar) : ReadsRight (.scalar type) := by
  intro current typed typed' a b same decoded decoded'
  rw [decode] at decoded decoded'
  rw [Reads]
  rcases useExpandValue_same (.scalar type) rfl same with ⟨x, y, input, input', inner, _, plain'⟩ | ⟨input, input'⟩
  · rw [input] at decoded ⊢
    rw [input'] at decoded' ⊢
    obtain rfl : x = y := by
      dsimp only at decoded
      split at decoded
      · next scalar => exact inner.scalar scalar plain'
      · split at decoded
        · next empty => exact inner.emptyMap (Bool.and_eq_true_iff.mp empty).2 plain'
        · cases decoded
    simp [Option.some.inj (decoded.symm.trans decoded')]
  · have nulls : ∀ {input : Input}, input = Kind.nullInput (.scalar type) ∨
        input = Kind.zeroInput (.scalar type) → input = .nil ∨ input = .zero := by
      intro input
      simp only [Kind.nullInput, Kind.zeroInput]
      split <;> simp +contextual
    rcases nulls input with input | input <;> rcases nulls input' with input' | input' <;>
    · rw [input] at decoded ⊢
      rw [input'] at decoded' ⊢
      cases decoded
      cases decoded'
      simp [eq_comm]

theorem readsRight_any : ReadsRight .any := by
  intro current typed typed' a b same decoded decoded'
  rw [decode] at decoded decoded'
  rw [Reads]
  rcases useExpandValue_uniform .any rfl rfl same with ⟨x, y, input, input', _⟩ | ⟨input, input'⟩
  · rw [input] at decoded ⊢
    rw [input'] at decoded' ⊢
    rw [decodeAny_value decoded, decodeAny_value decoded']
  · change _ = Input.nil at input
    change _ = Input.nil at input'
    rw [input, decodeAny_nil] at decoded
    rw [input', decodeAny_nil] at decoded'
    rw [input, input']
    simp [Option.some.inj (decoded.symm.trans decoded')]

theorem readsRight_slice (below : ReadsRight elem) : ReadsRight (.slice elem) := by
  intro current typed typed' a b same decoded decoded'
  rw [decode] at decoded decoded'
  rw [Reads]
  rcases useExpandValue_uniform (.slice elem) rfl rfl same with ⟨x, y, input, input', inner, _, plain'⟩ | ⟨input, input'⟩
  · rw [input] at decoded ⊢
    rw [input'] at decoded' ⊢
    cases x with
    | list items =>
      obtain ⟨items', rfl, each⟩ := inner.list plain'
      obtain ⟨results, at_items, rfl⟩ := map_eq_some.mp decoded
      obtain ⟨results', at_items', rfl⟩ := map_eq_some.mp decoded'
      rw [Option.some_inj]
      exact mapM_eq_iff each (fun x y s t pair => below _ s t x y pair) at_items at_items'
    | str s =>
      obtain rfl := inner.scalar rfl plain'
      cases decoded.symm.trans decoded'
      simp
    | _ => cases decoded
  · rw [input] at decoded ⊢
    rw [input'] at decoded' ⊢
    cases decoded
    cases decoded'
    simp [Kind.nullInput]

theorem keepOthers_inj {α : Type} {new new' current : List (Text × α)} (keys : new.map Prod.fst = new'.map Prod.fst) :
    keepOthers new current = keepOthers new' current ↔ new = new' := by
  have absent : ∀ key, (find key new).isNone = (find key new').isNone := by
    intro key
    rw [Bool.eq_iff_iff, Option.isNone_iff_eq_none, Option.isNone_iff_eq_none, find_eq_none_iff, find_eq_none_iff, keys]
  simp only [keepOthers, absent]
  exact append_left_inj _

theorem keys_of_forall₂ {P : Value → Value → Prop} {entries entries' : Entries}
    (each : List.Forall₂ (fun entry entry' => entry.1 = entry'.1 ∧ P entry.2 entry'.2) entries entries') :
    entries.map Prod.fst = entries'.map Prod.fst := by
  induction each with
  | nil => rfl
  | cons head tail ih => rw [map_cons, map_cons, head.1, ih]

theorem readsRight_element_some (below : ReadsRight elem) {a b : Value} (same : Value.Same a b)
    {typed typed' : Typed elem} (decoded : decodeElement elem a = some typed)
    (decoded' : decodeElement elem b = some typed') (some : nilElement elem a = none) (some' : nilElement elem b = none) :
    typed = typed' ↔ (nilElement elem a).isSome = (nilElement elem b).isSome ∧ Reads elem elem.zero a b := by
  rw [decodeElement, some, Option.none_or] at decoded
  rw [decodeElement, some', Option.none_or] at decoded'
  rw [some, some', below _ _ _ a b same decoded decoded']
  simp

variable {fields : Fields}

theorem pointerElement_null {b : Value} (null : b.core = .null)
    {typed : Typed (.pointer (.struct fields))} (decoded : decodeElement (.pointer (.struct fields)) b = some typed) :
    typed = if b.isExpanded then none else some (Kind.zeroFields fields) := by
  cases b with
  | null =>
    cases decoded
    rfl
  | expanded value original =>
    have input := useExpandValue_pointer_null (.struct fields) null
    rw [decodeElement, nilElement, Option.none_or, decode, input] at decoded
    · cases decoded
      rfl
    · simp
  | _ => cases null

theorem readsRight_element (below : ReadsRight elem) {a b : Value} (same : Value.Same a b)
    {typed typed' : Typed elem} (decoded : decodeElement elem a = some typed)
    (decoded' : decodeElement elem b = some typed') :
    typed = typed' ↔ (nilElement elem a).isSome = (nilElement elem b).isSome ∧ Reads elem elem.zero a b := by
  cases elem with
  | pointer target =>
    cases target with
    | struct fields =>
      by_cases null : a.core = .null
      · have null' := (same.null_iff).mp null
        have nil : ∀ {c : Value}, c.core = .null →
            (nilElement (.pointer (.struct fields)) c).isSome = !c.isExpanded := by
          intro c null
          cases c with
          | null | expanded => rfl
          | _ => cases null
        rw [Reads, useExpandValue_pointer_null _ null, useExpandValue_pointer_null _ null', nil null, nil null',
          pointerElement_null null decoded, pointerElement_null null' decoded']
        cases a.isExpanded <;> cases b.isExpanded <;> simp
      · have some : ∀ {c : Value}, c.core ≠ .null → nilElement (.pointer (.struct fields)) c = none := by
          intro c present
          cases c with
          | null => exact absurd rfl present
          | _ => rfl
        exact readsRight_element_some below same decoded decoded' (some null)
          (some fun null' => null (same.null_iff.mpr null'))
    | _ => exact readsRight_element_some below same decoded decoded' rfl rfl
  | _ => exact readsRight_element_some below same decoded decoded' rfl rfl

theorem readsRight_map (below : ReadsRight elem) : ReadsRight (.map elem) := by
  intro current typed typed' a b same decoded decoded'
  rw [decode] at decoded decoded'
  rw [Reads]
  rcases useExpandValue_uniform (.map elem) rfl rfl same with
    ⟨x, y, input, input', inner, _, plain'⟩ | ⟨input, input'⟩
  · rw [input] at decoded ⊢
    rw [input'] at decoded' ⊢
    cases x with
    | map entries =>
      obtain ⟨entries', rfl, each⟩ := inner.map plain'
      obtain ⟨new, at_entries, rfl⟩ := map_eq_some.mp decoded
      obtain ⟨new', at_entries', rfl⟩ := map_eq_some.mp decoded'
      have keys : new.map Prod.fst = new'.map Prod.fst := by
        rw [keys_onValues at_entries, keys_onValues at_entries', keys_of_forall₂ each]
      rw [Option.some_inj, keepOthers_inj keys]
      apply mapM_eq_iff each ?_ at_entries at_entries'
      rintro entry entry' _ _ ⟨key, pair⟩ at_entry at_entry'
      obtain ⟨element, decodes, rfl⟩ := map_eq_some.mp at_entry
      obtain ⟨element', decodes', rfl⟩ := map_eq_some.mp at_entry'
      rw [key, Prod.mk.injEq, eq_self, true_and]
      exact readsRight_element below pair decodes decodes'
    | _ => cases decoded
  · rw [input] at decoded ⊢
    rw [input'] at decoded' ⊢
    cases decoded
    cases decoded'
    simp [Kind.nullInput]

theorem find_same {entries entries' : Entries}
    (each : List.Forall₂ (fun entry entry' => entry.1 = entry'.1 ∧ Value.Same entry.2 entry'.2) entries entries')
    (key : Text) :
    (find key entries = none ∧ find key entries' = none) ∨
      ∃ x y, find key entries = some x ∧ find key entries' = some y ∧ Value.Same x y := by
  induction each with
  | nil => exact .inl ⟨rfl, rfl⟩
  | @cons entry entry' _ _ head tail ih =>
    by_cases here : entry.1 = key
    · have here' : entry'.1 = key := head.1 ▸ here
      exact .inr ⟨entry.2, entry'.2, by rw [find, if_pos here], by rw [find, if_pos here'], head.2⟩
    · have here' : entry'.1 ≠ key := head.1 ▸ here
      rw [find, if_neg here, find, if_neg here']
      exact ih

theorem readsRight_fields (below : ∀ field ∈ fields, ReadsRight field.2)
    {current typed typed' : TypedFields fields} {entries entries' : Entries}
    (each : List.Forall₂ (fun entry entry' => entry.1 = entry'.1 ∧ Value.Same entry.2 entry'.2) entries entries')
    (decoded : decodeFields fields current entries = some typed)
    (decoded' : decodeFields fields current entries' = some typed') :
    typed = typed' ↔ ReadsFields fields current entries entries' := by
  induction fields with
  | nil => simp [ReadsFields]
  | cons field rest ih =>
    obtain ⟨tag, kind⟩ := field
    rw [forall_mem_cons] at below
    obtain ⟨own, others⟩ := decodeFields_cons.mp decoded
    obtain ⟨own', others'⟩ := decodeFields_cons.mp decoded'
    rw [Prod.ext_iff, ReadsFields, ih below.2 others others']
    apply and_congr_left
    intro _
    rcases find_same each tag.name with ⟨none, none'⟩ | ⟨x, y, here, here', same⟩
    · rw [none] at own ⊢
      rw [none'] at own'
      have equal : typed.1 = typed'.1 := Option.some.inj (own.symm.trans own')
      simp [equal]
    · rw [here] at own ⊢
      rw [here'] at own' ⊢
      rw [below.1 _ _ _ x y same own own']
      constructor
      · rintro reads _ _ ⟨⟩ ⟨⟩
        exact reads
      · exact fun reads => reads x y rfl rfl

theorem readsRight_struct (below : ∀ field ∈ fields, ReadsRight field.2) : ReadsRight (.struct fields) := by
  intro current typed typed' a b same decoded decoded'
  rw [decode] at decoded decoded'
  rw [Reads]
  rcases useExpandValue_same (.struct fields) rfl same with
    ⟨x, y, input, input', inner, _, plain'⟩ | ⟨input, input'⟩
  · rw [input] at decoded ⊢
    rw [input'] at decoded' ⊢
    cases x with
    | map entries =>
      obtain ⟨entries', rfl, each⟩ := inner.map plain'
      dsimp only at decoded decoded' ⊢
      split at decoded
      · split at decoded'
        · exact readsRight_fields below each decoded decoded'
        · cases decoded'
      · cases decoded
    | _ => cases decoded
  · rcases input with input | input <;> rcases input' with input' | input' <;>
    · rw [input] at decoded ⊢
      rw [input'] at decoded' ⊢
      cases decoded
      cases decoded'
      simp [Kind.nullInput, Kind.zeroInput, eq_comm]

theorem readsRight_pair {a b : Value} (same : Value.Same a b) {pair pair' : Text × Text}
    (decoded : decodePair a = some pair) (decoded' : decodePair b = some pair') :
    pair = pair' ↔ ReadsPair a b := by
  rw [decodePair] at decoded decoded'
  rw [ReadsPair]
  rcases useExpandValue_same (.struct pairFields) rfl same with
    ⟨x, y, input, input', inner, _, plain'⟩ | ⟨input, input'⟩
  · rw [input] at decoded ⊢
    rw [input'] at decoded' ⊢
    cases x with
    | map entries =>
      obtain ⟨entries', rfl, _⟩ := inner.map plain'
      obtain ⟨_, name, value⟩ := decodePair_map.mp decoded
      obtain ⟨_, name', value'⟩ := decodePair_map.mp decoded'
      simp only [Prod.ext_iff, readAt, name, name', value, value', Option.some_inj]
    | _ => cases decoded
  · have nulls : ∀ {input : Input}, input = Kind.nullInput (.struct pairFields) ∨
        input = Kind.zeroInput (.struct pairFields) → input = .nil ∨ input = .zero := id
    rcases nulls input with input | input <;> rcases nulls input' with input' | input' <;>
    · rw [input] at decoded ⊢
      rw [input'] at decoded' ⊢
      cases decoded
      cases decoded'
      simp

theorem readsRight_mapList : ReadsRight .mapList := by
  intro current typed typed' a b same decoded decoded'
  rw [decode] at decoded decoded'
  rw [Reads]
  rcases useExpandValue_uniform .mapList rfl rfl same with
    ⟨x, y, input, input', inner, _, plain'⟩ | ⟨input, input'⟩
  · rw [input] at decoded ⊢
    rw [input'] at decoded' ⊢
    cases x with
    | map entries =>
      obtain ⟨entries', rfl, each⟩ := inner.map plain'
      obtain ⟨pairs, at_entries, rfl⟩ := map_eq_some.mp decoded
      obtain ⟨pairs', at_entries', rfl⟩ := map_eq_some.mp decoded'
      rw [Option.some_inj]
      apply mapM_eq_iff each ?_ at_entries at_entries'
      rintro entry entry' _ _ ⟨key, pair⟩ at_entry at_entry'
      obtain ⟨text, decodes, rfl⟩ := map_eq_some.mp at_entry
      obtain ⟨text', decodes', rfl⟩ := map_eq_some.mp at_entry'
      rw [key, Prod.mk.injEq, eq_self, true_and, decodes, decodes', Option.some_inj]
    | list items =>
      obtain ⟨items', rfl, each⟩ := inner.list plain'
      obtain ⟨pairs, at_items, rfl⟩ := map_eq_some.mp decoded
      obtain ⟨pairs', at_items', rfl⟩ := map_eq_some.mp decoded'
      rw [Option.some_inj]
      exact mapM_eq_iff each (fun x y s t pair => readsRight_pair pair) at_items at_items'
    | _ => cases decoded
  · rw [input] at decoded ⊢
    rw [input'] at decoded' ⊢
    cases decoded
    cases decoded'
    simp [Kind.nullInput]

theorem readsRight (kind : Kind) : ReadsRight kind := by
  induction kind with
  | string | opaqueString => exact readsRight_string
  | scalar type => exact readsRight_scalar type
  | any => exact readsRight_any
  | pointer elem ih => exact readsRight_pointer ih
  | slice elem ih => exact readsRight_slice ih
  | map elem ih => exact readsRight_map ih
  | struct fields ih => exact readsRight_struct ih
  | mapList => exact readsRight_mapList

end CollectorFormal.Confmap
