import CollectorFormal.Confmap.Expand
import CollectorFormal.Lib.Outcomes

/-! What retrieving a value does to a state, an expansion does to it.

The relation is that of any number of retrievals one after the other. -/

namespace CollectorFormal.Confmap

open Client (Text)
open Lib List

namespace Source
variable {σ : Type} {source : Source (StateM σ)} {changes : σ → σ → Prop}
  (refl : ∀ s, changes s s) (trans : ∀ ⦃a b c⦄, changes a b → changes b c → changes a c)
  (retrieves : ∀ uri, Ends changes changes (source.retrieveValue uri))

include refl retrieves in
theorem ends_expandURI (body : Text) : Ends changes changes (source.expandURI body) := by
  rw [expandURI]
  split
  · exact ends_throw refl _
  · split
    · exact ends_throw refl _
    · exact retrieves _

include refl trans retrieves

theorem ends_expandString (v : Text) : Ends changes changes (source.expandString v) := by
  rw [expandString]
  split
  · exact ends_pure refl _
  · rw [findAndExpandURI]
    split
    · exact ends_pure refl _
    · split
      · apply Ends.bind trans trans (ends_expandURI refl retrieves _)
        intro ret
        split <;> exact ends_pure refl _
      · apply Ends.bind trans trans (ends_expandURI refl retrieves _)
        intro ret
        split
        · exact ends_pure refl _
        · exact ends_throw refl _

theorem ends_withOriginal (original : Text) (expanded : Value) (changed : Bool) :
    Ends changes changes (source.withOriginal original expanded changed) := by
  rw [withOriginal.eq_def]
  split
  · exact ends_pure refl _
  · exact ends_pure refl _
  · -- the error of the original representation is dropped, what it retrieved is not
    apply Ends.bind trans trans (ends_expandString refl trans retrieves original).lift
    intro result
    split <;> exact ends_pure refl _

omit retrieves in
theorem ends_expandItems {items : List Value} (each : ∀ item ∈ items, Ends changes changes (source.expandValue item)) :
    Ends changes changes (source.expandItems items) := by
  induction items with
  | nil =>
    rw [expandItems]
    exact ends_pure refl _
  | cons item rest ih =>
    rw [forall_mem_cons] at each
    rw [expandItems]
    exact each.1.bind trans trans fun _ => (ih each.2).bind trans trans fun _ => ends_pure refl _

omit retrieves in
theorem ends_expandEntries {entries : Entries}
    (each : ∀ entry ∈ entries, Ends changes changes (source.expandValue entry.2)) :
    Ends changes changes (source.expandEntries entries) := by
  induction entries with
  | nil =>
    rw [expandEntries]
    exact ends_pure refl _
  | cons entry rest ih =>
    rw [forall_mem_cons] at each
    rw [expandEntries]
    exact each.1.bind trans trans fun _ => (ih each.2).bind trans trans fun _ => ends_pure refl _

theorem ends_expandValue (value : Value) : Ends changes changes (source.expandValue value) := by
  induction value with
  | str s =>
    rw [expandValue]
    exact ends_expandString refl trans retrieves s
  | list items ih =>
    rw [expandValue]
    exact (ends_expandItems refl trans ih).bind trans trans fun _ => ends_pure refl _
  | map entries ih =>
    rw [expandValue]
    exact (ends_expandEntries refl trans ih).bind trans trans fun _ => ends_pure refl _
  | expanded value original ih =>
    rw [expandValue]
    exact ih.bind trans trans fun _ => ends_withOriginal refl trans retrieves _ _ _
  | _ => exact ends_pure refl _

theorem ends_expandRounds (rounds : Nat) (value : Value) : Ends changes changes (source.expandRounds rounds value) := by
  induction rounds generalizing value with
  | zero => exact ends_throw refl _
  | succ rounds ih =>
    rw [expandRounds]
    apply (ends_expandValue refl trans retrieves value).bind trans trans
    intro result
    dsimp only
    split
    · exact ih result.1
    · exact ends_pure refl _

theorem ends_resolveKeys (leaves : List (Text × Value)) : Ends changes changes (source.resolveKeys leaves) := by
  induction leaves with
  | nil => exact ends_pure refl _
  | cons leaf rest ih =>
    rw [resolveKeys]
    have value : Ends changes changes (source.resolveValue leaf.2) :=
      (ends_expandRounds refl trans retrieves 1000 leaf.2).bind trans trans fun _ => ends_pure refl _
    exact value.bind trans trans fun _ => ih.bind trans trans fun _ => ends_pure refl _

end Source

end CollectorFormal.Confmap
