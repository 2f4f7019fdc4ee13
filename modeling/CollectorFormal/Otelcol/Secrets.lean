import CollectorFormal.Confmap.PerString
import CollectorFormal.Otelcol.Redact

/-! What the published view says about secrets.

Two configurations that differ in secrets only are compared by their views. -/

namespace CollectorFormal.Otelcol

open Client (Text)
open Confmap Lib List Option Value

def AlikeText (raw raw' : Value) : Prop :=
  raw = raw' ∨ ∃ s s', raw = .str s ∧ raw' = .str s' ∧ isProviderReference s = false ∧ isProviderReference s' = false

def AlikePair (raw raw' : Value) : Prop :=
  raw = raw' ∨ ∃ entries entries', raw = .map entries ∧ raw' = .map entries' ∧
    entries.map Prod.fst = entries'.map Prod.fst ∧
    find nameTag.name entries = find nameTag.name entries' ∧
    ∀ x x', find valueTag.name entries = some x → find valueTag.name entries' = some x' → AlikeText x x'

mutual

/-- The two differ only in literal strings at opaque fields. -/
def Alike : Kind → Value → Value → Prop
  | .opaqueString, raw, raw' => AlikeText raw raw'
  | .pointer elem, raw, raw' => Alike elem raw raw'
  | .slice elem, raw, raw' => raw = raw' ∨ ∃ items items', raw = .list items ∧ raw' = .list items' ∧
      items.length = items'.length ∧ ∀ (i : Nat) x x', items[i]? = some x → items'[i]? = some x' → Alike elem x x'
  | .map elem, raw, raw' => raw = raw' ∨ ∃ entries entries', raw = .map entries ∧ raw' = .map entries' ∧
      entries.map Prod.fst = entries'.map Prod.fst ∧
      ∀ key x x', find key entries = some x → find key entries' = some x' → Alike elem x x'
  | .struct fields, raw, raw' => raw = raw' ∨ ∃ entries entries', raw = .map entries ∧ raw' = .map entries' ∧
      entries.map Prod.fst = entries'.map Prod.fst ∧ AlikeFields fields entries entries'
  | .mapList, raw, raw' => raw = raw' ∨
      (∃ entries entries', raw = .map entries ∧ raw' = .map entries' ∧ entries.map Prod.fst = entries'.map Prod.fst ∧
        ∀ key x x', find key entries = some x → find key entries' = some x' → AlikeText x x') ∨
      ∃ items items', raw = .list items ∧ raw' = .list items' ∧ items.length = items'.length ∧
        ∀ (i : Nat) x x', items[i]? = some x → items'[i]? = some x' → AlikePair x x'
  | _, raw, raw' => raw = raw'

def AlikeFields : Fields → Entries → Entries → Prop
  | [], _, _ => True
  | (tag, kind) :: rest, entries, entries' =>
    (∀ x x', find tag.name entries = some x → find tag.name entries' = some x' → Alike kind x x') ∧
      AlikeFields rest entries entries'

end

attribute [local simp] Alike AlikeFields

mutual

/-- Where the two differ the mask is set: not in a MapList that is written as a map, in a field that is omitted, or
below a nil pointer. -/
def Masked : (kind : Kind) → Value → Value → Typed kind → Typed kind → Prop
  | .pointer elem, raw, raw', typed, typed' => raw = raw' ∨
      ∃ target target', typed = some target ∧ typed' = some target' ∧ Masked elem raw raw' target target'
  | .slice elem, raw, raw', typed, typed' => raw = raw' ∨ ∃ items items', raw = .list items ∧ raw' = .list items' ∧
      ∀ (i : Nat) x x' t t', items[i]? = some x → items'[i]? = some x' →
        (Option.getD typed [])[i]? = some t → (Option.getD typed' [])[i]? = some t' → Masked elem x x' t t'
  | .map elem, raw, raw', typed, typed' => raw = raw' ∨
      ∃ entries entries', raw = .map entries ∧ raw' = .map entries' ∧
        ∀ key x x' t t', find key entries = some x → find key entries' = some x' →
          find key (Option.getD typed []) = some t → find key (Option.getD typed' []) = some t' → Masked elem x x' t t'
  | .struct fields, raw, raw', typed, typed' => raw = raw' ∨
      ∃ entries entries', raw = .map entries ∧ raw' = .map entries' ∧ MaskedFields fields entries entries' typed typed'
  | .mapList, raw, raw', _, _ => raw = raw' ∨ ∃ items, raw = .list items
  | _, _, _, _, _ => True

def MaskedFields : (fields : Fields) → Entries → Entries → TypedFields fields → TypedFields fields → Prop
  | [], _, _, _, _ => True
  | (tag, kind) :: rest, entries, entries', typed, typed' =>
    (∀ x x', find tag.name entries = some x → find tag.name entries' = some x' →
      x = x' ∨ omitted tag kind typed.1 = false ∧ omitted tag kind typed'.1 = false ∧
        Masked kind x x' typed.1 typed'.1) ∧
      MaskedFields rest entries entries' typed.2 typed'.2

end

attribute [local simp] Masked MaskedFields

mutual

def Named : Kind → Prop
  | .pointer elem => Named elem
  | .slice elem => Named elem
  | .map elem => Named elem
  | .struct fields => (names fields).Nodup ∧ NamedFields fields
  | _ => True

def NamedFields : Fields → Prop
  | [] => True
  | (_, kind) :: rest => Named kind ∧ NamedFields rest

end

def Container (raw : Value) : Prop := (∃ items, raw = .list items) ∨ ∃ entries, raw = .map entries

theorem Alike.shape {kind : Kind} {raw raw' : Value} (alike : Alike kind raw raw') (different : raw ≠ raw') :
    (∃ s s', raw = .str s ∧ raw' = .str s') ∨ Container raw ∧ Container raw' := by
  induction kind with
  | opaqueString =>
    rcases alike with same | ⟨s, s', at_raw, at_raw', _⟩
    · exact absurd same different
    · exact .inl ⟨s, s', at_raw, at_raw'⟩
  | pointer elem ih => exact ih alike
  | slice elem ih =>
    rcases alike with same | ⟨items, items', at_raw, at_raw', _⟩
    · exact absurd same different
    · exact .inr ⟨.inl ⟨items, at_raw⟩, .inl ⟨items', at_raw'⟩⟩
  | map | struct =>
    rcases alike with same | ⟨entries, entries', at_raw, at_raw', _⟩
    · exact absurd same different
    · exact .inr ⟨.inr ⟨entries, at_raw⟩, .inr ⟨entries', at_raw'⟩⟩
  | mapList =>
    rcases alike with same | ⟨entries, entries', at_raw, at_raw', _⟩ | ⟨items, items', at_raw, at_raw', _⟩
    · exact absurd same different
    · exact .inr ⟨.inr ⟨entries, at_raw⟩, .inr ⟨entries', at_raw'⟩⟩
    · exact .inr ⟨.inl ⟨items, at_raw⟩, .inl ⟨items', at_raw'⟩⟩
  | _ =>
    rw [Alike] at alike
    exact absurd alike different
    all_goals simp

/-- The configuration is accepted: its strings stand for values, which are decoded. -/
def Accepted (expand : Text → Option Value) (kind : Kind) (current : Typed kind) (raw : Value) (typed : Typed kind) :
    Prop :=
  ∃ data, raw.fill expand = some data ∧ decode kind current data = some typed

section Accepted
variable {expand : Text → Option Value}

theorem Accepted.unique {kind : Kind} {current typed typed' : Typed kind} {raw : Value}
    (accepted : Accepted expand kind current raw typed) (accepted' : Accepted expand kind current raw typed') :
    typed = typed' := by
  obtain ⟨data, filled, decoded⟩ := accepted
  obtain ⟨data', filled', decoded'⟩ := accepted'
  cases filled.symm.trans filled'
  exact Option.some.inj (decoded.symm.trans decoded')

theorem decoded_element {β : Type} {f : Value → Option β} {items values : List Value} {results : List β}
    (filled : items.mapM (Value.fill expand) = some values) (decoded : values.mapM f = some results) {i : Nat}
    {x : Value} (here : items[i]? = some x) :
    ∃ data result, x.fill expand = some data ∧ f data = some result ∧ results[i]? = some result := by
  have inside : i < results.length := by
    rw [length_mapM decoded, length_mapM filled]
    exact (List.getElem?_eq_some_iff.mp here).1
  have at_i := getElem?_mapM i decoded
  rw [getElem?_mapM i filled, here, List.getElem?_eq_getElem inside, bind_some] at at_i
  obtain ⟨data, at_x, at_data⟩ := bind_eq_some_iff.mp at_i.symm
  exact ⟨data, results[i], at_x, at_data, getElem?_eq_getElem inside⟩

theorem Accepted.slice {elem : Kind} {current typed : Typed (.slice elem)} {items : List Value}
    (accepted : Accepted expand (.slice elem) current (.list items) typed) :
    ∃ decoded, typed = some decoded ∧ ∀ (i : Nat) x, items[i]? = some x →
      ∃ t, decoded[i]? = some t ∧ Accepted expand elem elem.zero x t := by
  obtain ⟨data, filled, decodes⟩ := accepted
  obtain ⟨values, at_values, rfl⟩ := fill_list.mp filled
  obtain ⟨decoded, at_decoded, rfl⟩ := decode_slice_list.mp decodes
  refine ⟨decoded, rfl, ?_⟩
  intro i x here
  obtain ⟨data, t, at_x, at_data, shown⟩ := decoded_element at_values at_decoded here
  exact ⟨t, shown, data, at_x, at_data⟩

theorem Accepted.mapList {current typed : Typed .mapList} {items : List Value}
    (accepted : Accepted expand .mapList current (.list items) typed) :
    ∃ pairs, typed = some pairs ∧ ∀ (i : Nat) x, items[i]? = some x →
      ∃ data pair, x.fill expand = some data ∧ decodePair data = some pair ∧ pairs[i]? = some pair := by
  obtain ⟨data, filled, decodes⟩ := accepted
  obtain ⟨values, at_values, rfl⟩ := fill_list.mp filled
  obtain ⟨pairs, at_pairs, rfl⟩ := decode_mapList_list.mp decodes
  exact ⟨pairs, rfl, fun i x here => decoded_element at_values at_pairs here⟩

theorem Accepted.map {elem : Kind} {current typed : Typed (.map elem)} {entries : Entries}
    (accepted : Accepted expand (.map elem) current (.map entries) typed) :
    ∃ decoded, typed = some decoded ∧ ∀ key x, find key entries = some x →
      ∃ data t, x.fill expand = some data ∧ decodeElement elem data = some t ∧ find key decoded = some t := by
  obtain ⟨data, filled, decodes⟩ := accepted
  obtain ⟨values, at_values, rfl⟩ := fill_map.mp filled
  obtain ⟨new, at_new, rfl⟩ := decode_map_map.mp decodes
  refine ⟨_, rfl, ?_⟩
  intro key x here
  have given : key ∈ new.map Prod.fst := by
    rw [keys_onValues at_new, keys_onValues at_values]
    exact mem_map_of_mem (mem_of_find here)
  have found := find_onValues key at_new
  rw [find_onValues key at_values, here, bind_some] at found
  cases at_key : find key new with
  | none => exact absurd given (find_eq_none_iff.mp at_key)
  | some t =>
    rw [at_key] at found
    obtain ⟨value, filled, decodes⟩ := bind_eq_some_iff.mp found.symm
    exact ⟨value, t, filled, decodes, (find_keepOthers given).trans at_key⟩

theorem accepted_field {tag : Tag} {kind : Kind} {rest : Fields} {entries values : Entries}
    {current typed : TypedFields ((tag, kind) :: rest)} {x : Value}
    (filled : onValues (Value.fill expand) entries = some values)
    (decoded : decodeFields ((tag, kind) :: rest) current values = some typed)
    (here : find tag.name entries = some x) : Accepted expand kind current.1 x typed.1 := by
  have own := (decodeFields_cons.mp decoded).1
  rw [find_onValues tag.name filled, here, bind_some] at own
  cases at_x : Value.fill expand x with
  | none =>
    -- the field has been filled with the others
    have present : tag.name ∈ values.map Prod.fst := by
      rw [keys_onValues filled]
      exact mem_map_of_mem (mem_of_find here)
    have absent : find tag.name values = none := by rw [find_onValues tag.name filled, here, bind_some, at_x]
    exact absurd present (find_eq_none_iff.mp absent)
  | some data =>
    rw [at_x] at own
    exact ⟨data, at_x, own⟩

end Accepted

section Views
variable {expand : Text → Option Value} {entries entries' : Entries}

theorem field_of_given {fields : Fields} {entries values : Entries} (all : known fields values = true)
    (filled : onValues (Value.fill expand) entries = some values) {key : Text} {x : Value}
    (here : find key entries = some x) : ∃ field ∈ fields, field.1.name = key := by
  have present : key ∈ values.map Prod.fst := by
    rw [keys_onValues filled]
    exact mem_map_of_mem (mem_of_find here)
  exact mem_names_of_known all present

theorem fill_container {raw data : Value} (container : Container raw) (filled : raw.fill expand = some data) :
    Container data := by
  rcases container with ⟨items, rfl⟩ | ⟨entries, rfl⟩
  · obtain ⟨values, _, rfl⟩ := fill_list.mp filled
    exact .inl ⟨values, rfl⟩
  · obtain ⟨values, _, rfl⟩ := fill_map.mp filled
    exact .inr ⟨values, rfl⟩

/-- Two accepted configurations of this type that differ have the same view if all they differ in is masked. -/
def ViewsAgree (expand : Text → Option Value) (kind : Kind) : Prop :=
  ∀ (current typed typed' : Typed kind) (raw raw' : Value), raw ≠ raw' → Alike kind raw raw' → raw.Distinct →
    Accepted expand kind current raw typed → Accepted expand kind current raw' typed' →
    Masked kind raw raw' typed typed' → applyMask raw (encode kind typed) = applyMask raw' (encode kind typed')

variable {elem : Kind}

theorem applyMask_masked {s : Text} (literal : isProviderReference s = false) :
    applyMask (.str s) (.str maskedString) = .str maskedString := by
  rw [applyMask, if_pos rfl, mask, literal]
  rfl

theorem view_strings {kind : Kind} {typed typed' : Typed kind} {s s' : Text} (different : s ≠ s')
    (alike : Alike kind (.str s) (.str s')) (masked : Masked kind (.str s) (.str s') typed typed') :
    applyMask (.str s) (encode kind typed) = applyMask (.str s') (encode kind typed') := by
  induction kind with
  | opaqueString =>
    rcases alike with same | ⟨t, t', at_raw, at_raw', literal, literal'⟩
    · cases same
      rfl
    · cases at_raw
      cases at_raw'
      exact (applyMask_masked literal).trans (applyMask_masked literal').symm
  | pointer elem ih =>
    have apart : Value.str s ≠ .str s' := fun same => different (Value.str.inj same)
    obtain ⟨target, target', rfl, rfl, inside⟩ := masked.resolve_left apart
    exact ih alike inside
  | slice | map | struct | mapList => simp [Alike, different] at alike
  | _ => simp [Alike, different] at alike

theorem viewsAgree_pointer {elem : Kind} (below : ViewsAgree expand elem) : ViewsAgree expand (.pointer elem) := by
  intro current typed typed' raw raw' different alike distinct accepted accepted' masked
  rcases alike.shape different with ⟨s, s', rfl, rfl⟩ | ⟨container, container'⟩
  · exact view_strings (fun same => different (congrArg Value.str same)) alike masked
  · obtain ⟨target, target', rfl, rfl, inside⟩ := masked.resolve_left different
    -- a list or a map passes through the pointer
    have pass : ∀ {given : Value} {target : Typed elem}, Container given →
        Accepted expand (.pointer elem) current given (some target) →
        Accepted expand elem (Option.getD current elem.zero) given target := by
      rintro given target shape ⟨data, filled, decoded⟩
      rcases fill_container shape filled with ⟨items, rfl⟩ | ⟨entries, rfl⟩ <;>
      · obtain ⟨_, at_target, same⟩ := (decode_pointer_value rfl).mp decoded
        cases same
        exact ⟨_, filled, at_target⟩
    exact below _ target target' raw raw' different alike distinct (pass container accepted) (pass container' accepted')
      inside

theorem viewsAgree_slice (below : ViewsAgree expand elem) : ViewsAgree expand (.slice elem) := by
  intro current typed typed' raw raw' different alike distinct accepted accepted' masked
  obtain ⟨items, items', rfl, rfl, length, each⟩ := alike.resolve_left different
  obtain ⟨_, _, at_items, at_items', masked⟩ := masked.resolve_left different
  cases at_items
  cases at_items'
  rw [distinct_list] at distinct
  obtain ⟨decoded, rfl, at_decoded⟩ := accepted.slice
  obtain ⟨decoded', rfl, at_decoded'⟩ := accepted'.slice
  rw [encode, encode, applyMask, applyMask, Value.list.injEq, applyMaskItems_eq_iff length]
  intro i x x' here here'
  obtain ⟨t, shown, accept⟩ := at_decoded i x here
  obtain ⟨t', shown', accept'⟩ := at_decoded' i x' here'
  simp only [getD_some, getElem?_map, shown, shown', map_some, maskAt_some]
  by_cases same : x = x'
  · subst same
    rw [accept.unique accept']
  · exact below _ t t' x x' same (each i x x' here here') (distinct x (mem_of_getElem? here)) accept accept'
      (masked i x x' t t' here here' shown shown')

theorem nilElement_eq_none {raw raw' data data' : Value} (alike : Alike elem raw raw') (different : raw ≠ raw')
    (filled : raw.fill expand = some data) (filled' : raw'.fill expand = some data') :
    nilElement elem data = none ∧ nilElement elem data' = none := by
  cases elem with
  | pointer kind =>
    cases kind with
    | struct fields =>
      rw [Alike, Alike] at alike
      obtain ⟨entries, entries', rfl, rfl, _⟩ := alike.resolve_left different
      obtain ⟨values, _, rfl⟩ := fill_map.mp filled
      obtain ⟨values', _, rfl⟩ := fill_map.mp filled'
      exact ⟨rfl, rfl⟩
    | _ => exact ⟨rfl, rfl⟩
  | _ => exact ⟨rfl, rfl⟩

theorem viewsAgree_map (below : ViewsAgree expand elem) : ViewsAgree expand (.map elem) := by
  intro current typed typed' raw raw' different alike distinct accepted accepted' masked
  obtain ⟨entries, entries', rfl, rfl, keys, each⟩ := alike.resolve_left different
  obtain ⟨_, _, at_entries, at_entries', masked⟩ := masked.resolve_left different
  cases at_entries
  cases at_entries'
  rw [distinct_map] at distinct
  obtain ⟨decoded, rfl, at_decoded⟩ := accepted.map
  obtain ⟨decoded', rfl, at_decoded'⟩ := accepted'.map
  rw [encode, encode, applyMask, applyMask, Value.map.injEq, applyMaskEntries_eq_iff keys distinct.1]
  intro key x x' here here'
  obtain ⟨data, t, filled, decodes, shown⟩ := at_decoded key x here
  obtain ⟨data', t', filled', decodes', shown'⟩ := at_decoded' key x' here'
  simp only [getD_some, find_map_value, shown, shown', map_some, maskAt_some]
  by_cases same : x = x'
  · subst same
    cases filled.symm.trans filled'
    cases decodes.symm.trans decodes'
    rfl
  · have pair := each key x x' here here'
    obtain ⟨given, given'⟩ := nilElement_eq_none pair same filled filled'
    rw [decodeElement, given, none_or] at decodes
    rw [decodeElement, given', none_or] at decodes'
    exact below _ t t' x x' same pair (distinct.2 _ (mem_of_find here)) ⟨data, filled, decodes⟩
      ⟨data', filled', decodes'⟩ (masked key x x' t t' here here' shown shown')

theorem fieldViews {fields : Fields} (below : ∀ field ∈ fields, ViewsAgree expand field.2)
    (named : (names fields).Nodup) {current typed typed' : TypedFields fields} {values values' : Entries}
    (alike : AlikeFields fields entries entries') (distinct : ∀ entry ∈ entries, entry.2.Distinct)
    (filled : onValues (Value.fill expand) entries = some values)
    (filled' : onValues (Value.fill expand) entries' = some values')
    (decoded : decodeFields fields current values = some typed)
    (decoded' : decodeFields fields current values' = some typed')
    (masked : MaskedFields fields entries entries' typed typed') :
    ∀ name ∈ names fields, ∀ x x', find name entries = some x → find name entries' = some x' →
      maskAt (find name (encodeFields fields typed)) x = maskAt (find name (encodeFields fields typed')) x' := by
  induction fields with
  | nil => simp [names]
  | cons field rest ih =>
    obtain ⟨tag, kind⟩ := field
    rw [names, map_cons, nodup_cons] at named
    rw [forall_mem_cons] at below
    rw [names, map_cons, forall_mem_cons]
    constructor
    · intro x x' here here'
      have accepted := accepted_field filled decoded here
      have accepted' := accepted_field filled' decoded' here'
      rw [find_encodeFields_same typed named.1, find_encodeFields_same typed' named.1]
      by_cases same : x = x'
      · subst same
        rw [accepted.unique accepted']
      · obtain ⟨shown, shown', masked⟩ := (masked.1 x x' here here').resolve_left same
        rw [shown, shown']
        exact below.1 _ _ _ x x' same (alike.1 x x' here here') (distinct _ (mem_of_find here)) accepted accepted' masked
    · intro name later
      have other : name ≠ tag.name := fun same => named.1 (same ▸ later)
      rw [find_encodeFields_other typed other, find_encodeFields_other typed' other]
      exact ih below.2 named.2 alike.2 (decodeFields_cons.mp decoded).2 (decodeFields_cons.mp decoded').2 masked.2
        name later

theorem viewsAgree_struct {fields : Fields} (below : ∀ field ∈ fields, ViewsAgree expand field.2)
    (named : (names fields).Nodup) : ViewsAgree expand (.struct fields) := by
  intro current typed typed' raw raw' different alike distinct accepted accepted' masked
  obtain ⟨entries, entries', rfl, rfl, keys, alike⟩ := alike.resolve_left different
  obtain ⟨_, _, at_entries, at_entries', masked⟩ := masked.resolve_left different
  cases at_entries
  cases at_entries'
  rw [distinct_map] at distinct
  obtain ⟨data, filled, decodes⟩ := accepted
  obtain ⟨values, at_values, rfl⟩ := fill_map.mp filled
  obtain ⟨all, decoded⟩ := decode_struct_map.mp decodes
  obtain ⟨data', filled', decodes'⟩ := accepted'
  obtain ⟨values', at_values', rfl⟩ := fill_map.mp filled'
  obtain ⟨_, decoded'⟩ := decode_struct_map.mp decodes'
  rw [encode, encode, applyMask, applyMask, Value.map.injEq, applyMaskEntries_eq_iff keys distinct.1]
  intro key x x' here here'
  -- a key that is given is the name of a field
  obtain ⟨field, member, rfl⟩ := field_of_given all at_values here
  exact fieldViews below named alike distinct.2 at_values at_values' decoded decoded' masked field.1.name
    (mem_map_of_mem member) x x' here here'

/-- A pair of a MapList in its list form: the value is masked, and the names are the same. -/
theorem pairView {raw raw' data data' : Value} {pair pair' : Text × Text} (alike : AlikePair raw raw')
    (distinct : raw.Distinct) (filled : raw.fill expand = some data) (filled' : raw'.fill expand = some data')
    (decoded : decodePair data = some pair) (decoded' : decodePair data' = some pair') :
    applyMask raw (encodePair pair) = applyMask raw' (encodePair pair') := by
  rcases alike with rfl | ⟨entries, entries', rfl, rfl, keys, name, value⟩
  · cases filled.symm.trans filled'
    cases decoded.symm.trans decoded'
    rfl
  obtain ⟨values, at_values, rfl⟩ := fill_map.mp filled
  obtain ⟨values', at_values', rfl⟩ := fill_map.mp filled'
  obtain ⟨all, at_name, _⟩ := decodePair_map.mp decoded
  obtain ⟨_, at_name', _⟩ := decodePair_map.mp decoded'
  have names : pair.1 = pair'.1 := by
    rw [find_onValues nameTag.name at_values] at at_name
    rw [find_onValues nameTag.name at_values', ← name] at at_name'
    exact Option.some.inj (at_name.symm.trans at_name')
  rw [encodePair, encodePair, applyMask, applyMask, names, Value.map.injEq, applyMaskEntries_eq_iff keys distinct.1]
  intro key x x' here here'
  obtain ⟨field, member, rfl⟩ := field_of_given all at_values here
  rcases mem_cons.mp member with rfl | member
  · rw [name, here'] at here
    cases here
    rfl
  · obtain rfl := mem_singleton.mp member
    rcases value x x' here here' with rfl | ⟨s, s', rfl, rfl, literal, literal'⟩
    · rfl
    · have masked : find valueTag.name [(nameTag.name, Value.str pair'.1), (valueTag.name, .str maskedString)] =
          some (.str maskedString) := by
        have apart : nameTag.name ≠ valueTag.name := by decide
        rw [find, if_neg apart, find, if_pos rfl]
      rw [masked, maskAt_some, maskAt_some, applyMask_masked literal, applyMask_masked literal']

theorem viewsAgree_mapList : ViewsAgree expand .mapList := by
  intro current typed typed' raw raw' different alike distinct accepted accepted' masked
  obtain ⟨items, rfl⟩ := masked.resolve_left different
  rcases alike with same | ⟨entries, entries', impossible, _⟩ | ⟨_, items', at_raw, rfl, length, each⟩
  · exact absurd same different
  · cases impossible
  · cases at_raw
    obtain ⟨pairs, rfl, at_pairs⟩ := accepted.mapList
    obtain ⟨pairs', rfl, at_pairs'⟩ := accepted'.mapList
    rw [distinct_list] at distinct
    rw [encode, encode, applyMask, applyMask, Value.list.injEq, applyMaskItems_eq_iff length]
    intro i x x' here here'
    obtain ⟨data, pair, filled, decoded, shown⟩ := at_pairs i x here
    obtain ⟨data', pair', filled', decoded', shown'⟩ := at_pairs' i x' here'
    simp only [getD_some, getElem?_map, shown, shown', map_some, maskAt_some]
    exact pairView (each i x x' here here') (distinct x (mem_of_getElem? here)) filled filled' decoded decoded'

theorem namedFields_iff (fields : Fields) : NamedFields fields ↔ ∀ field ∈ fields, Named field.2 := by
  induction fields with
  | nil => simp [NamedFields]
  | cons field rest ih => rw [NamedFields, ih, forall_mem_cons]

theorem viewsAgree {kind : Kind} (named : Named kind) : ViewsAgree expand kind := by
  induction kind with
  | pointer elem ih => exact viewsAgree_pointer (ih named)
  | slice elem ih => exact viewsAgree_slice (ih named)
  | map elem ih => exact viewsAgree_map (ih named)
  | struct fields ih =>
    rw [Named, namedFields_iff] at named
    exact viewsAgree_struct (fun field member => ih field member (named.2 field member)) named.1
  | mapList => exact viewsAgree_mapList
  | opaqueString =>
    intro current typed typed' raw raw' different alike _ _ _ masked
    obtain ⟨s, s', rfl, rfl, secret⟩ := alike.resolve_left different
    exact view_strings (fun same => different (congrArg Value.str same)) (.inr ⟨s, s', rfl, rfl, secret⟩) masked
  | _ =>
    intro current typed typed' raw raw' different alike
    rw [Alike] at alike
    · exact absurd alike different
    all_goals simp

end Views

section Published
variable (mr : Source Id) (fields : Fields)

def load (default : TypedFields fields) (raw : Entries) : Option (TypedFields fields) :=
  (mr.resolve raw).outcome.toOption.bind (decode (.struct fields) default)

/-- The view of the configuration before expansion that extensions are given. -/
def unexpandedConf (raw : Entries) (cfg : TypedFields fields) : Option Entries :=
  redactByMirroring (some raw) (some (encodeFields fields cfg))

theorem accepted_of_load {default cfg : TypedFields fields} {raw : Entries} (distinct : (Value.map raw).Distinct)
    (kept : KeysKept raw) (plain : (Value.map raw).Plain) (loaded : load mr fields default raw = some cfg) :
    Accepted mr.expandText (.struct fields) default (.map raw) cfg := by
  obtain ⟨data, resolved, decoded⟩ := bind_eq_some_iff.mp loaded
  refine ⟨data, mr.fill_of_resolve distinct kept plain ?_, decoded⟩
  cases outcome : (mr.resolve raw).outcome with
  | error err =>
    rw [outcome] at resolved
    cases resolved
  | ok value =>
    rw [outcome] at resolved
    cases resolved
    rfl

end Published

def withoutProviders : Source Id := ⟨[], fun uri => throw (.schemeNotSupported uri.scheme uri.asString)⟩

def clientFields : Fields :=
  [(⟨ascii "ca_pem", true⟩, .opaqueString), (⟨ascii "headers", true⟩, .mapList)]

def headersAsMap (secret : String) : Entries :=
  [(ascii "headers", .map [(ascii "token", .str (ascii secret))])]

def headersAsList (secret : String) : Entries :=
  [(ascii "headers", .list [.map [(ascii "name", .str (ascii "token")), (ascii "value", .str (ascii secret))]])]

def certificate (secret : String) : Entries := [(ascii "ca_pem", .str (ascii secret))]

def clientConfig (caPem : String) (headers : Option (List (Text × Text))) : TypedFields clientFields :=
  (ascii caPem, headers, ())

end CollectorFormal.Otelcol
