import CollectorFormal.Confmap.Expand
import CollectorFormal.Lib.Outcomes
import CollectorFormal.Lib.Traverse

/-! Resolution acts on each string of a configuration alone.

The rounds go over a whole list, also over those of its strings that are settled. -/

namespace CollectorFormal.Confmap

open Client (Text)
open Lib List Value Source

namespace Value

mutual

/-- The value with every string replaced by what it stands for. -/
def fill (expand : Text → Option Value) : Value → Option Value
  | .str s => expand s
  | .list items => (fillItems expand items).map .list
  | .map entries => (fillEntries expand entries).map .map
  | value => some value

def fillItems (expand : Text → Option Value) : List Value → Option (List Value)
  | [] => some []
  | item :: rest => do
      let value ← fill expand item
      let others ← fillItems expand rest
      some (value :: others)

def fillEntries (expand : Text → Option Value) : Entries → Option Entries
  | [] => some []
  | (key, value) :: rest => do
      let value ← fill expand value
      let others ← fillEntries expand rest
      some ((key, value) :: others)

end

attribute [local simp] fill fillItems fillEntries

variable {expand : Text → Option Value}

theorem fillItems_eq (items : List Value) : fillItems expand items = items.mapM (fill expand) := by
  induction items with
  | nil => rw [fillItems, mapM_nil]; rfl
  | cons item rest ih => rw [fillItems, ih, mapM_cons]; rfl

theorem fillEntries_eq (entries : Entries) : fillEntries expand entries = onValues (fill expand) entries := by
  induction entries with
  | nil => rw [fillEntries]; rfl
  | cons entry rest ih =>
    rw [fillEntries, ih, onValues, onValues, mapM_cons]
    cases fill expand entry.2 <;> rfl

theorem fill_list {items : List Value} {filled : Value} :
    fill expand (.list items) = some filled ↔ ∃ values, items.mapM (fill expand) = some values ∧ filled = .list values := by
  rw [fill, fillItems_eq, Option.map_eq_some_iff]
  simp only [eq_comm]

theorem fill_map {entries : Entries} {filled : Value} :
    fill expand (.map entries) = some filled ↔
      ∃ values, onValues (fill expand) entries = some values ∧ filled = .map values := by
  rw [fill, fillEntries_eq, Option.map_eq_some_iff]
  simp only [eq_comm]

end Value

namespace Expand
variable {α β : Type} {m : Expand Id α} {f : α → Expand Id β}

/-- What a computation without effects returns. -/
def outcome (m : Expand Id α) : Except ExpandError α := Id.run m.run

theorem bind_ok {result : β} :
    (m >>= f).outcome = .ok result ↔ ∃ value, m.outcome = .ok value ∧ (f value).outcome = .ok result := by
  have whole : (m >>= f).outcome = m.outcome >>= fun value => (f value).outcome := by
    rw [outcome, ExceptT.run_bind]
    cases ran : Id.run m.run with
    | error | ok => simp [outcome, ran]; rfl
  rw [whole, bind_eq_ok]

theorem pure_ok {value result : α} : (pure value : Expand Id α).outcome = .ok result ↔ value = result :=
  ⟨Except.ok.inj, congrArg Except.ok⟩

theorem outcome_lift (m : Expand Id α) : outcome (ExceptT.lift m.run) = .ok m.outcome := rfl

end Expand

namespace Source
variable (mr : Source Id) {items : List Value} {entries : Entries}

/-- What one round makes of a value, and whether it has changed. -/
def round (value : Value) : Except ExpandError (Value × Bool) := (mr.expandValue value).outcome

theorem expandItems_ok {result : List Value × Bool} :
    (mr.expandItems items).outcome = .ok result ↔
      ∃ results, List.Forall₂ (fun item r => mr.round item = .ok r) items results ∧
        result = (results.map Prod.fst, results.any Prod.snd) := by
  induction items generalizing result with
  | nil =>
    rw [expandItems, Expand.pure_ok]
    simp [eq_comm]
  | cons item rest ih =>
    rw [expandItems, Expand.bind_ok]
    simp only [Expand.bind_ok, Expand.pure_ok, ih]
    constructor
    · rintro ⟨r, at_item, _, ⟨results, each, rfl⟩, rfl⟩
      exact ⟨r :: results, List.Forall₂.cons at_item each, rfl⟩
    · rintro ⟨_, _ | ⟨at_item, each⟩, rfl⟩
      exact ⟨_, at_item, _, ⟨_, each, rfl⟩, rfl⟩

theorem expandEntries_ok {result : Entries × Bool} :
    (mr.expandEntries entries).outcome = .ok result ↔
      ∃ results : List (Text × Value × Bool),
        List.Forall₂ (fun entry r => entry.1 = r.1 ∧ mr.round entry.2 = .ok r.2) entries results ∧
        result = (results.map fun r => (r.1, r.2.1), results.any fun r => r.2.2) := by
  induction entries generalizing result with
  | nil =>
    rw [expandEntries, Expand.pure_ok]
    simp [eq_comm]
  | cons entry rest ih =>
    rw [expandEntries, Expand.bind_ok]
    simp only [Expand.bind_ok, Expand.pure_ok, ih]
    constructor
    · rintro ⟨r, at_entry, _, ⟨results, each, rfl⟩, rfl⟩
      exact ⟨(entry.1, r) :: results, List.Forall₂.cons ⟨rfl, at_entry⟩ each, rfl⟩
    · rintro ⟨_, _ | ⟨⟨same, at_entry⟩, each⟩, rfl⟩
      exact ⟨_, at_entry, _, ⟨_, each, rfl⟩, by rw [same]; rfl⟩

theorem round_list {result : Value × Bool} :
    mr.round (.list items) = .ok result ↔
      ∃ results, List.Forall₂ (fun item r => mr.round item = .ok r) items results ∧
        result = (.list (results.map Prod.fst), results.any Prod.snd) := by
  rw [round, expandValue, Expand.bind_ok]
  simp only [Expand.pure_ok, expandItems_ok]
  constructor
  · rintro ⟨_, ⟨results, each, rfl⟩, rfl⟩
    exact ⟨results, each, rfl⟩
  · rintro ⟨results, each, rfl⟩
    exact ⟨_, ⟨results, each, rfl⟩, rfl⟩

theorem round_map {result : Value × Bool} :
    mr.round (.map entries) = .ok result ↔
      ∃ results : List (Text × Value × Bool),
        List.Forall₂ (fun entry r => entry.1 = r.1 ∧ mr.round entry.2 = .ok r.2) entries results ∧
        result = (.map (results.map fun r => (r.1, r.2.1)), results.any fun r => r.2.2) := by
  rw [round, expandValue, Expand.bind_ok]
  simp only [Expand.pure_ok, expandEntries_ok]
  constructor
  · rintro ⟨_, ⟨results, each, rfl⟩, rfl⟩
    exact ⟨results, each, rfl⟩
  · rintro ⟨results, each, rfl⟩
    exact ⟨_, ⟨results, each, rfl⟩, rfl⟩

theorem round_str_settled {v : Text} {value : Value} (unchanged : mr.round (.str v) = .ok (value, false)) :
    value = .str v := by
  rw [round, expandValue, expandString] at unchanged
  split at unchanged
  · cases unchanged
    rfl
  · rw [findAndExpandURI] at unchanged
    split at unchanged
    · cases unchanged
      rfl
    · -- whatever is found counts as a change
      split at unchanged
      · obtain ⟨ret, _, last⟩ := Expand.bind_ok.mp unchanged
        split at last <;> cases last
      · obtain ⟨ret, _, last⟩ := Expand.bind_ok.mp unchanged
        split at last <;> cases last

theorem withOriginal_settled {original : Text} {expanded settled : Value} {changed : Bool}
    (unchanged : (mr.withOriginal original expanded changed).outcome = .ok (settled, false)) :
    changed = false ∧ (settled = expanded ∨ settled = .expanded expanded original) := by
  rw [withOriginal.eq_def] at unchanged
  split at unchanged
  · cases unchanged
    exact ⟨rfl, .inl rfl⟩
  · cases unchanged
    exact ⟨rfl, .inl rfl⟩
  · obtain ⟨result, outcome, last⟩ := Expand.bind_ok.mp unchanged
    rw [Expand.outcome_lift, Except.ok.injEq] at outcome
    split at last
    · next originalExpanded originalChanged =>
        rw [Expand.pure_ok, Prod.mk.injEq, Bool.or_eq_false_iff] at last
        obtain ⟨rfl, rfl, rfl⟩ := last
        have same : Value.str originalExpanded = .str original := by
          apply mr.round_str_settled
          rw [round, expandValue]
          exact outcome
        cases same
        exact ⟨rfl, .inr rfl⟩
    · cases last
      exact ⟨rfl, .inl rfl⟩

theorem round_expanded {value : Value} {original : Text} {result : Value × Bool} :
    mr.round (.expanded value original) = .ok result ↔
      ∃ r, mr.round value = .ok r ∧ (mr.withOriginal original r.1 r.2).outcome = .ok result := by
  rw [round, expandValue, Expand.bind_ok]
  rfl

/-- A value that a round reports as unchanged is left as it is by the next one. -/
theorem round_settled {value settled : Value} (unchanged : mr.round value = .ok (settled, false)) :
    mr.round settled = .ok (settled, false) := by
  induction value generalizing settled with
  | str v =>
    obtain rfl := mr.round_str_settled unchanged
    exact unchanged
  | list items ih =>
    obtain ⟨results, each, same⟩ := mr.round_list.mp unchanged
    obtain ⟨rfl, still⟩ := Prod.mk.inj same
    refine mr.round_list.mpr ⟨results, ?_, same⟩
    rw [forall₂_map_left_iff, forall₂_same]
    intro r member
    obtain ⟨item, inside, at_item⟩ := exists_of_forall₂_mem each member
    have none : r.2 = false := by simpa using any_eq_false.mp still.symm r member
    obtain ⟨value, changed⟩ := r
    obtain rfl : changed = false := none
    exact ih item inside at_item
  | map entries ih =>
    obtain ⟨results, each, same⟩ := mr.round_map.mp unchanged
    obtain ⟨rfl, still⟩ := Prod.mk.inj same
    refine mr.round_map.mpr ⟨results, ?_, same⟩
    rw [forall₂_map_left_iff, forall₂_same]
    intro r member
    obtain ⟨entry, inside, _, at_entry⟩ := exists_of_forall₂_mem each member
    have none : r.2.2 = false := by simpa using any_eq_false.mp still.symm r member
    obtain ⟨key, value, changed⟩ := r
    obtain rfl : changed = false := none
    exact ⟨rfl, ih entry inside at_entry⟩
  | expanded value original ih =>
    obtain ⟨r, at_value, last⟩ := mr.round_expanded.mp unchanged
    obtain ⟨still, settles⟩ := mr.withOriginal_settled last
    have inner : mr.round r.1 = .ok (r.1, false) := by
      apply ih
      rw [at_value, ← still]
    rcases settles with rfl | rfl
    · exact inner
    · rw [still] at last
      exact mr.round_expanded.mpr ⟨_, inner, last⟩
  | _ =>
    cases unchanged
    rfl

def rounds (limit : Nat) (value : Value) : Except ExpandError Value := (mr.expandRounds limit value).outcome

variable {limit : Nat} {value result : Value}

theorem rounds_succ :
    mr.rounds (limit + 1) value = .ok result ↔
      ∃ r, mr.round value = .ok r ∧ (if r.2 then mr.rounds limit r.1 else .ok r.1) = .ok result := by
  rw [rounds, expandRounds]
  refine Expand.bind_ok.trans ?_
  apply exists_congr
  intro r
  apply and_congr_right
  intro _
  split
  rfl

theorem rounds_of_round {r : Value × Bool} (first : mr.round value = .ok r)
    (others : mr.rounds limit r.1 = .ok result) : mr.rounds (limit + 1) value = .ok result := by
  obtain ⟨next, changed⟩ := r
  refine mr.rounds_succ.mpr ⟨_, first, ?_⟩
  cases changed with
  | true => exact others
  | false =>
    -- the value is settled, and the other rounds leave it
    cases limit with
    | zero => cases others
    | succ limit =>
      obtain ⟨r, again, last⟩ := mr.rounds_succ.mp others
      cases (mr.round_settled first).symm.trans again
      exact last

theorem rounds_of_settled {value settled : Value} (unchanged : mr.round value = .ok (settled, false)) :
    mr.rounds (limit + 1) value = .ok settled :=
  mr.rounds_succ.mpr ⟨_, unchanged, rfl⟩

theorem forall₂_unchanged {α : Type} {changed : α → Bool} {results : List α} (still : ¬results.any changed = true) :
    List.Forall₂ (fun r r' => changed r = false ∧ r' = r) results results := by
  rw [forall₂_same]
  intro r member
  exact ⟨by simpa using any_eq_false.mp (Bool.not_eq_true _ ▸ still) r member, rfl⟩

theorem rounds_list {result : Value} (done : mr.rounds limit (.list items) = .ok result) :
    ∃ values, List.Forall₂ (fun item value => mr.rounds limit item = .ok value) items values ∧
      result = .list values := by
  induction limit generalizing items with
  | zero => cases done
  | succ limit ih =>
    obtain ⟨r, first, others⟩ := mr.rounds_succ.mp done
    obtain ⟨results, each, rfl⟩ := mr.round_list.mp first
    split at others
    · obtain ⟨values, later, rfl⟩ := ih others
      rw [forall₂_map_left_iff] at later
      refine ⟨values, forall₂_comp ?_ each later, rfl⟩
      exact fun item r value first later => mr.rounds_of_round first later
    · next still =>
        cases others
        refine ⟨results.map Prod.fst, ?_, rfl⟩
        rw [forall₂_map_right_iff]
        apply forall₂_comp ?_ each (forall₂_unchanged still)
        rintro item ⟨value, changed⟩ _ first ⟨rfl, rfl⟩
        exact mr.rounds_of_settled first

theorem rounds_map {entries : Entries} {result : Value} (done : mr.rounds limit (.map entries) = .ok result) :
    ∃ values : Entries,
      List.Forall₂ (fun entry value => entry.1 = value.1 ∧ mr.rounds limit entry.2 = .ok value.2) entries values ∧
      result = .map values := by
  induction limit generalizing entries with
  | zero => cases done
  | succ limit ih =>
    obtain ⟨r, first, others⟩ := mr.rounds_succ.mp done
    obtain ⟨results, each, rfl⟩ := mr.round_map.mp first
    split at others
    · obtain ⟨values, later, rfl⟩ := ih others
      rw [forall₂_map_left_iff] at later
      refine ⟨values, forall₂_comp ?_ each later, rfl⟩
      rintro entry r value ⟨same, first⟩ ⟨same', later⟩
      exact ⟨same.trans same', mr.rounds_of_round first later⟩
    · next still =>
        cases others
        refine ⟨results.map fun r => (r.1, r.2.1), ?_, rfl⟩
        rw [forall₂_map_right_iff]
        apply forall₂_comp ?_ each (forall₂_unchanged still)
        rintro entry ⟨key, value, changed⟩ _ ⟨same, first⟩ ⟨rfl, rfl⟩
        exact ⟨same, mr.rounds_of_settled first⟩

def expandText (s : Text) : Option Value := (mr.resolveValue (.str s)).outcome.toOption

theorem resolveValue_ok :
    (mr.resolveValue value).outcome = .ok result ↔
      ∃ last, mr.rounds 1000 value = .ok last ∧ escapeDollarSigns last = result := by
  rw [resolveValue, Expand.bind_ok]
  simp only [Expand.pure_ok]
  rfl

theorem fill_of_rounds {value last : Value} (plain : value.Plain) (done : mr.rounds 1000 value = .ok last) :
    value.fill mr.expandText = some (escapeDollarSigns last) := by
  induction value generalizing last with
  | str s =>
    rw [Value.fill, expandText, mr.resolveValue_ok.mpr ⟨last, done, rfl⟩]
    rfl
  | list items ih =>
    rw [Value.Plain, every_list] at plain
    obtain ⟨values, each, rfl⟩ := mr.rounds_list done
    refine fill_list.mpr ⟨values.map escapeDollarSigns, ?_, ?_⟩
    · rw [mapM_eq_some_iff, forall₂_map_right_iff]
      have all := (forall₂_and_left items values).mpr
        ⟨fun item member last done => @ih item member last (plain item member) done, each⟩
      exact all.imp fun item value both => both.1 value both.2
    · rw [escapeDollarSigns, Value.mapStrings, mapItems_eq]
      rfl
  | map entries ih =>
    rw [Value.Plain, every_map] at plain
    obtain ⟨values, each, rfl⟩ := mr.rounds_map done
    refine fill_map.mpr ⟨values.map fun value => (value.1, escapeDollarSigns value.2), ?_, ?_⟩
    · rw [onValues, mapM_eq_some_iff, forall₂_map_right_iff]
      have all := (forall₂_and_left entries values).mpr
        ⟨fun entry member last done => @ih entry member last (plain entry member) done, each⟩
      apply all.imp
      rintro entry value ⟨at_entry, same, done⟩
      rw [at_entry value.2 done, same]
      rfl
    · rw [escapeDollarSigns, Value.mapStrings, mapEntries_eq]
      rfl
  | expanded value original ih => exact plain.elim
  | _ =>
    cases done
    rfl

theorem fill_of_resolveValue (plain : value.Plain)
    (done : (mr.resolveValue value).outcome = .ok result) : value.fill mr.expandText = some result := by
  obtain ⟨last, rounds, rfl⟩ := mr.resolveValue_ok.mp done
  exact mr.fill_of_rounds plain rounds

def resolved (value : Value) : Value := (mr.resolveValue value).outcome.toOption.getD value

theorem resolveKeys_ok {leaves results : List (Text × Value)} (done : (mr.resolveKeys leaves).outcome = .ok results) :
    (∀ leaf ∈ leaves, (mr.resolveValue leaf.2).outcome = .ok (mr.resolved leaf.2)) ∧
      results = leaves.map fun leaf => (leaf.1, mr.resolved leaf.2) := by
  induction leaves generalizing results with
  | nil =>
    cases done
    simp
  | cons leaf rest ih =>
    rw [resolveKeys, Expand.bind_ok] at done
    obtain ⟨value, first, others⟩ := done
    rw [Expand.bind_ok] at others
    obtain ⟨values, later, last⟩ := others
    cases last
    obtain ⟨each, rfl⟩ := ih later
    have own : mr.resolved leaf.2 = value := by rw [resolved, first]; rfl
    refine ⟨forall_mem_cons.mpr ⟨by rw [own]; exact first, each⟩, ?_⟩
    rw [map_cons, own]

theorem fill_mapLeaves {value : Value} (plain : value.Plain) {path : Path}
    (done : ∀ leaf ∈ value.flatten path, (mr.resolveValue leaf.2).outcome = .ok (mr.resolved leaf.2)) :
    value.fill mr.expandText = some (value.mapLeaves fun _ leaf => mr.resolved leaf) := by
  induction value using Value.treeInduct generalizing path with
  | leaf value leaf =>
    rw [flatten_leaf leaf] at done
    rw [mapLeaves_leaf leaf]
    exact mr.fill_of_resolveValue plain (done _ mem_cons_self)
  | node first rest ih =>
    rw [Value.Plain, every_map] at plain
    have each : ∀ entry ∈ first :: rest,
        entry.2.fill mr.expandText = some (entry.2.mapLeaves fun _ leaf => mr.resolved leaf) := by
      intro entry member
      apply ih entry member (plain entry member)
      intro leaf inside
      apply done
      rw [Value.flatten, mem_flattenEntries]
      exact ⟨entry, member, inside⟩
    refine fill_map.mpr ⟨_, ?_, rfl⟩
    generalize first :: rest = entries at each
    induction entries with
    | nil => rfl
    | cons entry rest ih =>
      rw [forall_mem_cons] at each
      exact onValues_cons.mpr ⟨_, _, each.1, ih each.2, rfl⟩

theorem fill_of_resolve {result : Value} (distinct : (Value.map entries).Distinct) (kept : KeysKept entries)
    (plain : (Value.map entries).Plain) (done : (mr.resolve entries).outcome = .ok result) :
    (Value.map entries).fill mr.expandText = some result := by
  rw [resolve, Expand.bind_ok] at done
  obtain ⟨results, keys, last⟩ := done
  cases last
  obtain ⟨each, rfl⟩ := mr.resolveKeys_ok keys
  cases entries with
  | nil => rfl
  | cons first rest =>
    rw [flattened, forall_mem_map] at each
    have whole : (Value.map (first :: rest)).fill mr.expandText = some _ := mr.fill_mapLeaves plain each
    have joined := unflattened_kept kept fun _ leaf => mr.resolved leaf
    rw [whole, ← unflatten_flatten distinct, flattened, map_map]
    exact congrArg some joined.symm

end Source

end CollectorFormal.Confmap
