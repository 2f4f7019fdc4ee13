import CollectorFormal.Lib.Intern
import CollectorFormal.Pprofile.References
import Mathlib.Algebra.Order.Ring.Nat
import Mathlib.Data.List.Induction
import CollectorFormal.Pprofile.MergeTo

/-! When the attributes of profiles survive marshaling. -/

namespace CollectorFormal.Pprofile

open Lib List
open Client (Text)
open Pdata

section attributes

/-- What marshaling does with a string: as a key or as a value. -/
inductive Use where
  | key (text : Text)
  | value (text : Text)

def Use.text : Use → Text
  | .key text => text
  | .value text => text

mutual

/-- No string is a reference, as in values built through the API. -/
def Plain : AnyValue → Prop
  | .stringValueStrindex _ => False
  | .arrayValue values => PlainValues values
  | .kvlistValue values => PlainKeyValues values
  | _ => True

def PlainValues : List AnyValue → Prop
  | [] => True
  | value :: rest => Plain value ∧ PlainValues rest

def PlainKeyValues : List KeyValue → Prop
  | [] => True
  | .mk _ value keyStrindex :: rest => keyStrindex = 0 ∧ Plain value ∧ PlainKeyValues rest

end

mutual

/-- The strings of a value in the order in which they are converted. -/
def uses : AnyValue → List Use
  | .stringValue value => [.value value]
  | .arrayValue values => usesOfValues values
  | .kvlistValue values => usesOfKeyValues values
  | _ => []

def usesOfValues : List AnyValue → List Use
  | [] => []
  | value :: rest => uses value ++ usesOfValues rest

def usesOfKeyValues : List KeyValue → List Use
  | [] => []
  | .mk key value _ :: rest => .key key :: (uses value ++ usesOfKeyValues rest)

end

mutual

/-- A value as the API shows it, without the indices beside its keys. -/
def shown : AnyValue → AnyValue
  | .arrayValue values => .arrayValue (shownValues values)
  | .kvlistValue values => .kvlistValue (shownKeyValues values)
  | value => value

def shownValues : List AnyValue → List AnyValue
  | [] => []
  | value :: rest => shown value :: shownValues rest

def shownKeyValues : List KeyValue → List KeyValue
  | [] => []
  | .mk key value _ :: rest => .mk key (shown value) 0 :: shownKeyValues rest

end

def texts (list : List Use) : List Text := (list.map Use.text).filter (· ≠ [])

@[simp]
theorem texts_append (first second : List Use) : texts (first ++ second) = texts first ++ texts second := by
  simp [texts]

end attributes

section indices
variable {c : Converter}

/-- The map has the last index of every string in the table, once it is made. -/
def Converter.Indexed (c : Converter) : Prop :=
  ∀ stringIndex, c.stringIndex = some stringIndex → ∀ s, find s stringIndex = (lastIdx s c.stringTable).map Int32.ofNat

theorem Converter.indexed_start (stringTable : List Text) : ({ stringTable := stringTable } : Converter).Indexed := by
  intro _ made
  cases made

theorem find_indexTable (stringTable : List Text) (s : Text) :
    find s (indexTable stringTable) = (lastIdx s stringTable).map Int32.ofNat := by
  induction stringTable using List.reverseRecOn with
  | nil => rfl
  | append_singleton front last ih =>
    rw [indexTable, zipIdx_append, foldl_append, lastIdx_snoc]
    by_cases same : last = s
    · simp [same, find_set_same]
    · simpa [same, find_set_other (Ne.symm same), indexTable] using ih

theorem Converter.Indexed.find (indexed : c.Indexed) (s : Text) :
    find s (c.stringIndex.getD (indexTable c.stringTable)) = (lastIdx s c.stringTable).map Int32.ofNat := by
  cases made : c.stringIndex with
  | none => exact find_indexTable c.stringTable s
  | some stringIndex => exact indexed stringIndex made s

theorem Converter.getStringIndex_spec (indexed : c.Indexed) (s : Text) :
    (c.getStringIndex s).2.stringTable = intern c.stringTable s ∧ (c.getStringIndex s).2.Indexed ∧
      ∃ i, lastIdx s (intern c.stringTable s) = some i ∧ (c.getStringIndex s).1 = Int32.ofNat i := by
  unfold Converter.getStringIndex
  simp only [indexed.find s]
  cases place : lastIdx s c.stringTable with
  | some i =>
    have member : s ∈ c.stringTable := mem_of_getElem? (getElem?_lastIdx place)
    rw [intern_of_mem member]
    refine ⟨rfl, ?_, i, place, rfl⟩
    rintro _ ⟨⟩ other
    exact indexed.find other
  | none =>
    rw [intern_of_not_mem (lastIdx_eq_none_iff.mp place), lastIdx_snoc, if_pos rfl]
    simp only [Option.map_none]
    refine ⟨trivial, ?_, _, rfl, rfl⟩
    rintro _ ⟨⟩ other
    rw [lastIdx_snoc]
    by_cases same : s = other
    · simp [same, find_set_same]
    · simp [same, find_set_other (Ne.symm same), indexed.find other]

end indices

section values

/-- A use that survives with the table that results: a value does not have index 0, and an
empty key finds no other string there. -/
def Use.Safe (stringTable : List Text) : Use → Prop
  | .key text => text = [] → ∀ first, stringTable.head? = some first → first = []
  | .value text => text ≠ [] → lastIdx text stringTable ≠ some 0

/-- The table after more strings have been added to it, within the range of the indices. -/
structure Later (stringTable later : List Text) : Prop where
  grown : ∃ more, later = internAll stringTable more
  range : later.length ≤ 2 ^ 31

theorem Later.before {stringTable later : List Text} {list : List Text}
    (after : Later (internAll stringTable list) later) : Later stringTable later := by
  obtain ⟨⟨more, grown⟩, range⟩ := after
  exact ⟨⟨list ++ more, by rw [grown, internAll_append]⟩, range⟩

/-- What the conversion of a part leaves: the table has its strings, and what is later resolved shows the part as it
was iff all its uses are safe. -/
structure Converts {α : Type} (resolved : List Text → α → Prop) (list : List Use) (c : Converter) (r : α × Converter) :
    Prop where
  table : r.2.stringTable = internAll c.stringTable (texts list)
  indexed : r.2.Indexed
  survives : ∀ later, Later r.2.stringTable later → (resolved later r.1 ↔ ∀ use ∈ list, use.Safe later)

variable {c : Converter}

theorem Converter.stringAt_later (indexed : c.Indexed) (s : Text) {later : List Text}
    (after : Later (c.getStringIndex s).2.stringTable later) :
    stringAt later (c.getStringIndex s).1 = some s ∧ ((c.getStringIndex s).1 = 0 ↔ lastIdx s later = some 0) := by
  obtain ⟨table, -, i, place, index⟩ := c.getStringIndex_spec indexed s
  obtain ⟨⟨more, rfl⟩, range⟩ := after
  rw [table] at range ⊢
  have here : lastIdx s (internAll (intern c.stringTable s) more) = some i := by
    rw [lastIdx_internAll mem_intern, place]
  have found := getElem?_lastIdx here
  have small : i < 2 ^ 31 := by
    have := (List.getElem?_eq_some_iff.mp found).1
    omega
  have value : (Int32.ofNat i).toInt = i := Int32.toInt_ofNat_of_lt small
  rw [index, here]
  constructor
  · simp [stringAt, value, found]
  · rw [← Int32.toInt_inj, value]
    simp

theorem convertKey_converts (indexed : c.Indexed) (key : Text) :
    Converts (fun later k => (stringAt later k.2).getD k.1 = key) [.key key] c (convertKey key 0 c) := by
  unfold convertKey
  by_cases some : key ≠ []
  · rw [if_pos some]
    obtain ⟨table, made, -⟩ := c.getStringIndex_spec indexed key
    refine ⟨by simp [table, texts, Use.text, some, internAll], made, ?_⟩
    intro later after
    rw [(c.stringAt_later indexed key after).1]
    simp [Use.Safe, some]
  · rw [if_neg some]
    obtain rfl : key = [] := not_not.mp some
    refine ⟨by simp [texts, Use.text, internAll], indexed, ?_⟩
    intro later _
    have first : stringAt later 0 = later.head? := by
      rw [head?_eq_getElem?]
      rfl
    cases later with
    | nil | cons => simp [first, Use.Safe]

theorem convertString_converts (indexed : c.Indexed) {value : Text} (some : value ≠ []) :
    Converts (fun later v => shown (resolveAnyValueReference later v) = .stringValue value) [.value value] c
      (.stringValueStrindex (c.getStringIndex value).1, (c.getStringIndex value).2) := by
  obtain ⟨table, made, -⟩ := c.getStringIndex_spec indexed value
  refine ⟨by simp [table, texts, Use.text, some, internAll], made, ?_⟩
  intro later after
  obtain ⟨found, zero⟩ := c.stringAt_later indexed value after
  by_cases first : (c.getStringIndex value).1 = 0
  · simp [resolveAnyValueReference, shown, first, Use.Safe, some, zero.mp first]
  · have other : lastIdx value later ≠ Option.some 0 := mt zero.mpr first
    simp [resolveAnyValueReference, shown, first, found, Use.Safe, some, other]

theorem Converts.append {α β : Type} {first : List Text → α → Prop} {second : List Text → β → Prop}
    {list more : List Use} {c : Converter} {r : α × Converter} {s : β × Converter}
    (front : Converts first list c r) (back : Converts second more r.2 s) :
    Converts (fun later pair => first later pair.1 ∧ second later pair.2) (list ++ more) c ((r.1, s.1), s.2) where
  table := by rw [back.table, front.table, texts_append, internAll_append]
  indexed := back.indexed
  survives later after := by
    have earlier : Later r.2.stringTable later := by
      rw [back.table] at after
      exact after.before
    rw [back.survives later after, front.survives later earlier, forall_mem_append]

theorem Converts.map {α β : Type} {first : List Text → α → Prop} {second : List Text → β → Prop} {list : List Use}
    {c : Converter} {r : α × Converter} {whole : β} (converts : Converts first list c r)
    (same : ∀ later, second later whole ↔ first later r.1) : Converts second list c (whole, r.2) where
  table := converts.table
  indexed := converts.indexed
  survives later after := (same later).trans (converts.survives later after)

theorem Converts.nothing {α : Type} {resolved : List Text → α → Prop} {c : Converter} (indexed : c.Indexed)
    {whole : α} (same : ∀ later, resolved later whole) : Converts resolved [] c (whole, c) where
  table := rfl
  indexed := indexed
  survives later _ := by simp [same later]

mutual

theorem convertAnyValue_converts (value : AnyValue) (plain : Plain value) {c : Converter} (indexed : c.Indexed) :
    Converts (fun later v => shown (resolveAnyValueReference later v) = value) (uses value) c
      (convertAnyValueToReference value c) := by
  cases value with
  | stringValue value =>
    by_cases some : value ≠ []
    · simp only [convertAnyValueToReference, if_pos some, uses]
      exact convertString_converts indexed some
    · simp only [convertAnyValueToReference, if_neg some, uses]
      obtain rfl : value = [] := not_not.mp some
      refine ⟨by simp [texts, Use.text, internAll], indexed, ?_⟩
      intro later _
      simp [resolveAnyValueReference, shown, Use.Safe]
  | arrayValue values =>
    apply (convertValues_converts values plain indexed).map
    intro later
    simp [resolveAnyValueReference, shown]
  | kvlistValue values =>
    apply (convertKeyValues_converts values plain indexed).map
    intro later
    simp [resolveAnyValueReference, shown]
  | stringValueStrindex index => exact plain.elim
  | _ => exact Converts.nothing indexed fun later => rfl

theorem convertValues_converts (values : List AnyValue) (plain : PlainValues values) {c : Converter}
    (indexed : c.Indexed) :
    Converts (fun later v => shownValues (resolveValueReferences later v) = values) (usesOfValues values) c
      (convertValuesToReferences values c) := by
  cases values with
  | nil => exact Converts.nothing indexed fun later => rfl
  | cons value rest =>
    have front := convertAnyValue_converts value plain.1 indexed
    have back := convertValues_converts rest plain.2 front.indexed
    apply (front.append back).map
    intro later
    simp [resolveValueReferences, shownValues]

theorem convertKeyValues_converts (values : List KeyValue) (plain : PlainKeyValues values) {c : Converter}
    (indexed : c.Indexed) :
    Converts (fun later v => shownKeyValues (resolveKeyValueReferences later v) = values)
      (usesOfKeyValues values) c (convertKeyValueToReferences values c) := by
  cases values with
  | nil => exact Converts.nothing indexed fun later => rfl
  | cons first rest =>
    obtain ⟨key, value, keyStrindex⟩ := first
    obtain ⟨rfl, inner, others⟩ := plain
    have front := convertKey_converts indexed key
    have middle := convertAnyValue_converts value inner front.indexed
    have back := convertKeyValues_converts rest others middle.indexed
    apply (front.append (middle.append back)).map
    intro later
    simp [resolveKeyValueReferences, shownKeyValues, and_assoc]

end

end values

section profiles
variable {X Y Z : Type}

mutual

theorem shown_of_plain (value : AnyValue) (plain : Plain value) : shown value = value := by
  cases value with
  | arrayValue values => rw [shown, shownValues_of_plain values plain]
  | kvlistValue values => rw [shown, shownKeyValues_of_plain values plain]
  | _ => rfl

theorem shownValues_of_plain (values : List AnyValue) (plain : PlainValues values) : shownValues values = values := by
  cases values with
  | nil => rfl
  | cons value rest => rw [shownValues, shown_of_plain value plain.1, shownValues_of_plain rest plain.2]

theorem shownKeyValues_of_plain (values : List KeyValue) (plain : PlainKeyValues values) :
    shownKeyValues values = values := by
  cases values with
  | nil => rfl
  | cons first rest =>
    obtain ⟨key, value, keyStrindex⟩ := first
    obtain ⟨rfl, inner, others⟩ := plain
    rw [shownKeyValues, shown_of_plain value inner, shownKeyValues_of_plain rest others]

end

variable (scopes : List (ScopeProfiles Y))

def shownScopes : List (List KeyValue) :=
  scopes.map fun sp => shownKeyValues sp.attributes

variable (resources : List (ResourceProfiles X Y))

/-- The attributes of resources and their scopes, each at its place. -/
def shownResources : List (List KeyValue × List (List KeyValue)) :=
  resources.map fun rp => (shownKeyValues rp.attributes, shownScopes rp.scopeProfiles)

def usesOfScopes : List Use :=
  scopes.flatMap fun sp => usesOfKeyValues sp.attributes

/-- The strings of all attributes in the order in which they are converted. -/
def usesOfResources : List Use :=
  resources.flatMap fun rp => usesOfKeyValues rp.attributes ++ usesOfScopes rp.scopeProfiles

variable (pd : Profiles X Y Z)

def Profiles.Plain : Prop :=
  ∀ rp ∈ pd.resourceProfiles, PlainKeyValues rp.attributes ∧ ∀ sp ∈ rp.scopeProfiles, PlainKeyValues sp.attributes

theorem convertScopes_converts
    (plain : ∀ sp ∈ scopes, PlainKeyValues sp.attributes) {c : Converter} (indexed : c.Indexed) :
    Converts (fun later converted => shownScopes (resolveScopes later converted) = shownScopes scopes)
      (usesOfScopes scopes) c (convertScopes scopes c) := by
  induction scopes generalizing c with
  | nil => exact Converts.nothing indexed fun later => rfl
  | cons sp rest ih =>
    have here := plain sp mem_cons_self
    have front := convertKeyValues_converts sp.attributes here indexed
    have back := ih (fun other member => plain other (mem_cons_of_mem sp member)) front.indexed
    apply (front.append back).map
    intro later
    simp only [shownScopes, resolveScopes, map_cons, List.cons.injEq, shownKeyValues_of_plain _ here]

theorem convertResources_converts
    (plain : ∀ rp ∈ resources, PlainKeyValues rp.attributes ∧ ∀ sp ∈ rp.scopeProfiles, PlainKeyValues sp.attributes)
    {c : Converter} (indexed : c.Indexed) :
    Converts (fun later converted => shownResources (resolveResources later converted) = shownResources resources)
      (usesOfResources resources) c (convertResources resources c) := by
  induction resources generalizing c with
  | nil => exact Converts.nothing indexed fun later => rfl
  | cons rp rest ih =>
    obtain ⟨own, scopes⟩ := plain rp mem_cons_self
    have front := convertKeyValues_converts rp.attributes own indexed
    have middle := convertScopes_converts rp.scopeProfiles scopes front.indexed
    have back := ih (fun other member => plain other (mem_cons_of_mem rp member)) middle.indexed
    apply ((front.append middle).append back).map
    intro later
    simp only [shownResources, resolveResources, map_cons, List.cons.injEq, Prod.mk.injEq,
      shownKeyValues_of_plain _ own]

/-- The string that gets index 0 is empty, or else it is no value of an attribute (unless the table lists it once
more) and no key is empty. -/
def Profiles.FirstStringSafe : Prop :=
  ∀ first, pd.stringTable.head?.or (texts (usesOfResources pd.resourceProfiles)).head? = some first → first ≠ [] →
    (Use.value first ∈ usesOfResources pd.resourceProfiles → first ∈ pd.stringTable.tail) ∧
      Use.key [] ∉ usesOfResources pd.resourceProfiles

theorem Profiles.firstStringSafe_iff :
    pd.FirstStringSafe ↔ ∀ use ∈ usesOfResources pd.resourceProfiles,
      use.Safe (internAll pd.stringTable (texts (usesOfResources pd.resourceProfiles))) := by
  unfold Profiles.FirstStringSafe
  generalize usesOfResources pd.resourceProfiles = list
  rw [← head?_internAll]
  constructor
  · intro safe use member
    cases use with
    | key text =>
      rintro rfl first head
      by_contra some
      exact (safe first head some).2 member
    | value text =>
      intro some zero
      obtain ⟨head, once⟩ := lastIdx_eq_zero_iff.mp zero
      have twice := (safe text head some).1 member
      exact once ((mem_tail_internAll head).mpr twice)
  · intro safe first head some
    constructor
    · intro member
      have zero := safe _ member some
      rw [ne_eq, lastIdx_eq_zero_iff, not_and, not_not] at zero
      exact (mem_tail_internAll head).mp (zero head)
    · intro member
      exact some (safe _ member rfl first head)

/-- The restored profiles show the attributes as they were, and their table has the old
strings at their indices. -/
def Survives (answer : Except String (Profiles X Y Z)) : Prop :=
  ∃ restored, answer = .ok restored ∧ shownResources restored.resourceProfiles = shownResources pd.resourceProfiles ∧
    ∀ (i : Nat) s, pd.stringTable[i]? = some s → restored.stringTable[i]? = some s

theorem survives_iff (plain : pd.Plain) (range : (convertProfilesToReferences pd).stringTable.length ≤ 2 ^ 31) :
    Survives pd (.ok (resolveProfilesReferences (convertProfilesToReferences pd))) ↔ pd.FirstStringSafe := by
  have converts := convertResources_converts pd.resourceProfiles plain (Converter.indexed_start pd.stringTable)
  have table : (convertProfilesToReferences pd).stringTable =
      internAll pd.stringTable (texts (usesOfResources pd.resourceProfiles)) := converts.table
  have shows := converts.survives (convertProfilesToReferences pd).stringTable ⟨⟨[], rfl⟩, range⟩
  rw [pd.firstStringSafe_iff, ← table, ← shows]
  constructor
  · rintro ⟨_, ⟨⟩, same, _⟩
    exact same
  · intro same
    refine ⟨_, rfl, same, ?_⟩
    intro i s old
    show (convertProfilesToReferences pd).stringTable[i]? = some s
    rw [table]
    obtain ⟨more, grown⟩ := prefix_internAll pd.stringTable (texts (usesOfResources pd.resourceProfiles))
    rw [← grown, List.getElem?_append_left (List.getElem?_eq_some_iff.mp old).1, old]

variable {B J : Type}

/-- With any codecs for protobuf and JSON, profiles without references in them survive iff the string with index 0 is
safe. -/
theorem profiles_survive_iff (proto : Codec B X Y Z) (json : Codec J X Y Z) (pd : Profiles X Y Z) (plain : pd.Plain)
    (range : (convertProfilesToReferences pd).stringTable.length ≤ 2 ^ 31) :
    (Survives pd (ProtoUnmarshaler.unmarshalProfiles proto (ProtoMarshaler.marshalProfiles proto pd)) ↔
      pd.FirstStringSafe) ∧
    (Survives pd (JSONUnmarshaler.unmarshalProfiles json (JSONMarshaler.marshalProfiles json pd)) ↔
      pd.FirstStringSafe) := by
  rw [ProtoUnmarshaler.unmarshalProfiles, ProtoMarshaler.marshalProfiles, proto.unmarshal_marshal,
    JSONUnmarshaler.unmarshalProfiles, JSONMarshaler.marshalProfiles, json.unmarshal_marshal]
  exact ⟨survives_iff pd plain range, survives_iff pd plain range⟩

end profiles

section dictionary
open Merge (ProfileView Extends view_later viewProfile)

variable {X Y : Type}

/-- What a scope has beside its attributes. -/
structure ScopeRest (Y : Type) where
  scope : Y
  profiles : List (Merge.Profile Int Int Int Int)
  schemaURL : String

/-- The same profiles with the dictionary that their references are for. -/
def Profiles.toMerge (pd : Profiles (X × String) (ScopeRest Y) Merge.Dictionary) :
    Merge.Profiles (List KeyValue × X) (List KeyValue × Y) where
  dictionary := { pd.rest with stringTable := pd.stringTable }
  resourceProfiles := pd.resourceProfiles.map fun rp => ⟨(rp.attributes, rp.rest.1), rp.scopeProfiles.map fun sp =>
    ⟨(sp.attributes, sp.rest.scope), sp.rest.profiles, sp.rest.schemaURL⟩, rp.rest.2⟩

def profileViews (resources : List (Merge.ResourceProfiles X Y ProfileView)) : List (List (List ProfileView)) :=
  resources.map fun resource => resource.scopeProfiles.map fun scope => scope.profiles

def rests (resources : List (ResourceProfiles X Y)) : List (X × List Y) :=
  resources.map fun rp => (rp.rest, rp.scopeProfiles.map ScopeProfiles.rest)

theorem convertScopes_rest (scopes : List (ScopeProfiles Y)) (c : Converter) :
    (convertScopes scopes c).1.map ScopeProfiles.rest = scopes.map ScopeProfiles.rest := by
  induction scopes generalizing c with
  | nil => rfl
  | cons sp rest ih => rw [convertScopes, map_cons, map_cons, ih]

theorem convertResources_rests (resources : List (ResourceProfiles X Y)) (c : Converter) :
    rests (convertResources resources c).1 = rests resources := by
  induction resources generalizing c with
  | nil => rfl
  | cons rp rest ih =>
    rw [convertResources, rests, map_cons, convertScopes_rest]
    exact congrArg _ (ih _)

theorem profileViews_toMerge (d : Merge.Dictionary) (pd : Profiles (X × String) (ScopeRest Y) Merge.Dictionary) :
    profileViews (Merge.view 0 d pd.toMerge.resourceProfiles) =
      (rests pd.resourceProfiles).map fun r => r.2.map fun rest => rest.profiles.map (viewProfile 0 d) := by
  simp [profileViews, Merge.view, Profiles.toMerge, rests, Merge.ResourceProfiles.map, Merge.ScopeProfiles.map,
    Function.comp_def]

/-- Marshaling only adds strings, so the references in profiles denote what they did. -/
theorem convertProfilesToReferences_views (pd : Profiles (X × String) (ScopeRest Y) Merge.Dictionary)
    (plain : pd.Plain) (settled : pd.toMerge.Settled) :
    profileViews (convertProfilesToReferences pd).toMerge.view = profileViews pd.toMerge.view := by
  have more : Extends pd.toMerge.dictionary (convertProfilesToReferences pd).toMerge.dictionary := by
    intro t
    cases t with
    | string =>
      have grown := prefix_internAll pd.stringTable (texts (usesOfResources pd.resourceProfiles))
      rw [← (convertResources_converts pd.resourceProfiles plain (Converter.indexed_start _)).table] at grown
      exact grown
    | _ => exact prefix_rfl
  rw [← view_later settled more, Merge.Profiles.view, profileViews_toMerge, profileViews_toMerge]
  exact congrArg _ (convertResources_rests pd.resourceProfiles _)

end dictionary

section first

def directCodec : Codec (Profiles Unit Unit Unit) Unit Unit Unit := ⟨id, .ok, fun _ => rfl⟩

def oneAttribute (stringTable : List Text) (key value : Text) : Profiles Unit Unit Unit :=
  ⟨[⟨[.mk key (.stringValue value) 0], [], ()⟩], stringTable, ()⟩

def nested : Profiles Unit Unit Unit :=
  ⟨[⟨[.mk [97] (.stringValue [98]) 0,
      .mk [99] (.kvlistValue [.mk [97] (.arrayValue [.stringValue [100], .boolValue true]) 0]) 0],
    [⟨[.mk [100] (.stringValue [97]) 0], ()⟩], ()⟩], [[]], ()⟩

theorem profiles_survive_iff_nested :
    Survives nested (ProtoUnmarshaler.unmarshalProfiles directCodec (ProtoMarshaler.marshalProfiles directCodec nested)) ∧
    Survives nested (JSONUnmarshaler.unmarshalProfiles directCodec (JSONMarshaler.marshalProfiles directCodec nested)) := by
  have plain : nested.Plain := by
    simp [Profiles.Plain, nested, PlainKeyValues, Plain, PlainValues]
  have safe : nested.FirstStringSafe := by
    rintro _ ⟨⟩ some
    exact absurd rfl some
  have survive := profiles_survive_iff directCodec directCodec nested plain (by decide)
  exact ⟨survive.1.mpr safe, survive.2.mpr safe⟩

/-- With an empty table the key "a" has index 0, and so has the value "a", which is then not
resolved. An empty key is resolved to the first string of the table. -/
theorem attributes_lost :
    (¬Survives (oneAttribute [] [97] [97]) (ProtoUnmarshaler.unmarshalProfiles directCodec
        (ProtoMarshaler.marshalProfiles directCodec (oneAttribute [] [97] [97])))) ∧
    ¬Survives (oneAttribute [[98]] [] [97]) (JSONUnmarshaler.unmarshalProfiles directCodec
        (JSONMarshaler.marshalProfiles directCodec (oneAttribute [[98]] [] [97]))) := by
  constructor
  · rintro ⟨_, ⟨⟩, same, _⟩
    have values : some (AnyValue.stringValueStrindex 0) = some (.stringValue [97]) :=
      congrArg (fun resources => resources.head?.bind fun rp => rp.1.head?.map KeyValue.value) same
    cases values
  · rintro ⟨_, ⟨⟩, same, _⟩
    have keys : some ([98] : Text) = some [] :=
      congrArg (fun resources => resources.head?.bind fun rp => rp.1.head?.map KeyValue.key) same
    cases keys

end first

end CollectorFormal.Pprofile
