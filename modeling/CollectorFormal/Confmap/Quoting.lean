import CollectorFormal.Confmap.Expand

/-! Quoting by doubled dollars.

In a text in which every dollar is doubled, each `${` follows an odd number of dollars. -/

namespace CollectorFormal.Confmap

open Client (Text)
open Lib List Value

def quote (s : Text) : Text := s.flatMap fun c => if c = dollar then [dollar, dollar] else [c]

theorem quote_cons (c : UInt8) (s : Text) :
    quote (c :: s) = if c = dollar then dollar :: dollar :: quote s else c :: quote s := by
  rw [quote, flatMap_cons]
  split <;> rfl

theorem quote_append (s t : Text) : quote (s ++ t) = quote s ++ quote t := by
  simp [quote]

theorem unescape_quote (s : Text) : unescape (quote s) = s := by
  induction s with
  | nil => rfl
  | cons c rest ih =>
    rw [quote_cons, unescape]
    split
    · next same =>
        rw [same]
        exact (replaceAll_word (s := quote rest)).trans (congrArg (dollar :: ·) ih)
    · next other =>
        rw [replaceAll_cons_of_ne other]
        exact congrArg (c :: ·) ih

theorem quote_split {s before after : Text} {c : UInt8} (other : c ≠ dollar) (split : quote s = before ++ c :: after) :
    ∃ s₁ s₂, s = s₁ ++ c :: s₂ ∧ before = quote s₁ ∧ after = quote s₂ := by
  induction s generalizing before with
  | nil => simp [quote] at split
  | cons x rest ih =>
    rw [quote_cons] at split
    have inside {head : Text} (at_rest : quote rest = head ++ c :: after) (same : before = quote [x] ++ head) :
        ∃ s₁ s₂, x :: rest = s₁ ++ c :: s₂ ∧ before = quote s₁ ∧ after = quote s₂ := by
      obtain ⟨s₁, s₂, parts, first, second⟩ := ih at_rest
      refine ⟨x :: s₁, s₂, ?_, ?_, second⟩
      · rw [parts, cons_append]
      · rw [same, first, ← quote_append, singleton_append]
    split at split
    · next same =>
        match before, split with
        | [], split => exact absurd (List.cons.inj split).1.symm other
        | [_], split => exact absurd (List.cons.inj (List.cons.inj split).2).1.symm other
        | first :: second :: head, split =>
          simp only [cons_append, List.cons.injEq] at split
          apply inside split.2.2
          simp [quote, same, ← split.1, ← split.2.1]
    · next unlike =>
        match before, split with
        | [], split =>
          cases split
          exact ⟨[], rest, rfl, rfl, rfl⟩
        | first :: head, split =>
          simp only [cons_append, List.cons.injEq] at split
          apply inside split.2
          simp [quote, unlike, ← split.1]

theorem trailing_quote (s : Text) : trailing dollar (quote s) = 2 * trailing dollar s := by
  induction s using List.reverseRecOn with
  | nil => rfl
  | append_singleton s last ih =>
    rw [quote_append, trailing_snoc]
    by_cases same : last = dollar
    · rw [if_pos same, same]
      have twice : quote s ++ quote [dollar] = quote s ++ [dollar] ++ [dollar] := by simp [quote]
      rw [twice, trailing_snoc, if_pos rfl, trailing_snoc, if_pos rfl, ih]
      omega
    · rw [if_neg same]
      have once : quote s ++ quote [last] = quote s ++ [last] := by simp [quote, same]
      rw [once, trailing_snoc, if_neg same]

namespace Source
variable {m : Type → Type} (mr : Source m)

theorem findURI_quote (s : Text) : mr.findURI (quote s) = none := by
  induction size : s.length using Nat.strong_induction_on generalizing s with
  | _ size' ih =>
    by_cases present : closeBrace ∈ quote s
    · obtain ⟨quoted, after, split, absent⟩ := eq_append_cons_of_mem present
      obtain ⟨head, remaining, parts, first, second⟩ := quote_split (by decide) split
      have later : mr.findURI (quote remaining) = none := by
        apply ih remaining.length _ remaining rfl
        rw [← size, parts, length_append, length_cons]
        omega
      rw [split, findURI_close mr absent, second, later]
      split
      · rfl
      · next before body found =>
          have opened : quote head = (before ++ [dollar]) ++ openBrace :: body := by
            rw [← first, cutLast_some found]
            simp
          obtain ⟨_, _, _, front, _⟩ := quote_split (by decide) opened
          have even := congrArg (trailing dollar) front
          rw [trailing_snoc, if_pos rfl, trailing_quote] at even
          split
          · rfl
          · rw [if_pos (by omega)]
    · exact mr.findURI_absent present

variable [Monad m]

theorem expandString_quote (s : Text) : mr.expandString (quote s) = pure (.str (quote s), false) := by
  rw [expandString]
  split
  · rfl
  · rw [findAndExpandURI, findURI_quote]

variable [LawfulMonad m]

theorem resolveValue_quote {value : Value} (plain : value.Plain) :
    mr.resolveValue (value.mapStrings quote) = pure value := by
  have quoted : (value.mapStrings quote).Every fun s => mr.expandString s = pure (.str s, false) :=
    plain.every_mapStrings fun s => mr.expandString_quote s
  rw [mr.resolveValue_same quoted, escapeDollarSigns, mapStrings_mapStrings, mapStrings_id unescape_quote]

theorem resolveKeys_quote {leaves : List (Text × Value)} (plain : ∀ leaf ∈ leaves, leaf.2.Plain) :
    mr.resolveKeys (leaves.map fun leaf => (leaf.1, leaf.2.mapStrings quote)) = pure leaves := by
  induction leaves with
  | nil => rfl
  | cons leaf rest ih =>
    rw [forall_mem_cons] at plain
    rw [map_cons, resolveKeys, mr.resolveValue_quote plain.1, ih plain.2, pure_bind, pure_bind]

end Source

/-- A configuration in which every dollar is doubled resolves to what it was, and nothing
is retrieved. -/
theorem doubled_dollars_resolve (mr : Resolver) (calls : List Text) :
    (∀ s : Text, (mr.source.resolveValue (.str (quote s))).run.run calls = (.ok (.str s), calls)) ∧
      (∀ cfgMap : List (Text × Value), (∀ leaf ∈ cfgMap, leaf.2.Plain) →
        (mr.source.resolveKeys (cfgMap.map fun leaf => (leaf.1, leaf.2.mapStrings quote))).run.run calls =
          (.ok cfgMap, calls)) ∧
      ∀ data : Entries, (Value.map data).Distinct → KeysKept data → (Value.map data).Plain →
        (mr.source.resolve (Value.mapEntries quote data)).run.run calls = (.ok (.map data), calls) := by
  refine ⟨?_, ?_, ?_⟩
  · intro s
    have plain : (Value.str s).Plain := trivial
    have string : mr.source.resolveValue (.str (quote s)) = pure (.str s) := mr.source.resolveValue_quote plain
    rw [string]
    rfl
  · intro cfgMap plain
    rw [mr.source.resolveKeys_quote plain]
    rfl
  · intro data distinct kept plain
    have leaves : ∀ leaf ∈ flattened data, leaf.2.Plain := by
      intro leaf member
      obtain ⟨own, inside, rfl⟩ := mem_map.mp member
      exact every_flattenEntries plain [] own inside
    have quoted : flattened (mapEntries quote data) =
        (flattened data).map fun leaf => (leaf.1, leaf.2.mapStrings quote) := by
      rw [flattened, flattened, flattenEntries_mapStrings, map_map, map_map]
      rfl
    have joined : unflattened (flattened data) = unflatten (flattenEntries [] data) := by
      simpa [flattened] using unflattened_kept kept fun _ leaf => leaf
    rw [Source.resolve, quoted, mr.source.resolveKeys_quote leaves, pure_bind, joined,
      unflatten_flattenEntries distinct]
    rfl

def nestedReference : Entries := [(ascii "a", .list [.map [(ascii "b", .str (ascii "$\x7benv:A\x7d"))]])]

theorem doubled_dollars_resolve_nested :
    quote (ascii "$\x7benv:A\x7d") = ascii "$$\x7benv:A\x7d" ∧
      (noProviders.source.resolve (Value.mapEntries quote nestedReference)).run.run [] =
        (.ok (.map nestedReference), []) := by
  have distinct : (Value.map nestedReference).Distinct := by
    simp [nestedReference, Value.Distinct, Value.DistinctEntries, Value.DistinctItems]
  have plain : (Value.map nestedReference).Plain := by
    simp [nestedReference, Value.Plain, Value.Every, Value.EveryEntry, Value.EveryItem]
  have kept : KeysKept nestedReference := by
    intro leaf member
    cases mem_singleton.mp member
    rfl
  exact ⟨by decide, (doubled_dollars_resolve noProviders []).2.2 nestedReference distinct kept plain⟩

end CollectorFormal.Confmap
