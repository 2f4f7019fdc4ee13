import CollectorFormal.Pprofile.Records

/-! What switching to another dictionary does to references.

Entries are found or appended one by one, while both dictionaries change. Every reference becomes one to the same
entry, in terms of the source as it was and of the destination then or at any later time. -/

namespace CollectorFormal.Pprofile.Merge

open Client (Text)
open Pdata List
open Lib

def Extends (d d' : Dictionary) : Prop := ∀ t, d.table t <+: d'.table t

variable (d : Dictionary)

theorem Extends.refl : Extends d d := fun _ => prefix_rfl

theorem Extends.trans {d d' d'' : Dictionary} (first : Extends d d') (second : Extends d' d'') : Extends d d'' :=
  fun t => (first t).trans (second t)

@[simp]
theorem table_setTable (t : Table) (table : List (Entry t)) : (d.setTable t table).table t = table := by
  cases t <;> rfl

theorem table_setTable_ne {t t' : Table} (table : List (Entry t)) (other : t' ≠ t) :
    (d.setTable t table).table t' = d.table t' := by
  cases t <;> cases t' <;> first | rfl | exact absurd rfl other

theorem extends_append (t : Table) (val : Entry t) : Extends d (d.setTable t (d.table t ++ [val])) := by
  intro t'
  by_cases same : t' = t
  · subst same
    rw [table_setTable]
    exact prefix_append _ _
  · simp only [table_setTable_ne d _ same, prefix_rfl]

def SameMeaning (value value' : Value) : Prop := value.meaning = value'.meaning

theorem getElem?_later {d later : Dictionary} (more : Extends d later) {t : Table} {i : Nat} {entry : Entry t}
    (found : (d.table t)[i]? = some entry) : (later.table t)[i]? = some entry := by
  obtain ⟨inside, rfl⟩ := List.getElem?_eq_some_iff.mp found
  exact List.prefix_iff_getElem?.mp (more t) i inside

section moved
variable (d src : Dictionary)

/-- The first entry that is equal to this one, or this one. A value that is not equal to itself is appended every time.
-/
def Placed (t : Table) (val : Entry t) (j : Int) : Prop :=
  0 ≤ j ∧ (∃ entry, (d.table t)[j.toNat]? = some entry ∧ (entry = val ∨ equal t entry val = true)) ∧
    ∀ k < j.toNat, ∀ entry, (d.table t)[k]? = some entry → equal t entry val = false

def Moved (t : Table) (onEntry : Entry t → Entry t → Prop) (i j : Int) : Prop :=
  ∃ val switched, (src.table t)[i.toNat]? = some val ∧ onEntry val switched ∧ Placed d t switched j

def MovedField (t : Table) (onEntry : Entry t → Entry t → Prop) (i j : Int) : Prop :=
  i ≤ 0 ∧ j = i ∨ 0 < i ∧ Moved d src t onEntry i j

def MovedItem (t : Table) (onEntry : Entry t → Entry t → Prop) (i j : Int) : Prop :=
  0 ≤ i ∧ Moved d src t onEntry i j

def MovedString : Int → Int → Prop := MovedField d src .string Eq

def MovedAttributeEntry : Entry .attr → Entry .attr → Prop := KeyValueAndUnit.Rel (MovedString d src) SameMeaning

def MovedAttribute : Int → Int → Prop := MovedItem d src .attr (MovedAttributeEntry d src)

def MovedFunctionEntry : Entry .function → Entry .function → Prop := Function.Rel (MovedString d src)

def MovedFunction : Int → Int → Prop := MovedField d src .function (MovedFunctionEntry d src)

def MovedMappingEntry : Entry .mapping → Entry .mapping → Prop :=
  Mapping.Rel (MovedString d src) (MovedAttribute d src)

def MovedMapping : Int → Int → Prop := MovedField d src .mapping (MovedMappingEntry d src)

def MovedLocationEntry : Entry .location → Entry .location → Prop :=
  Location.Rel (MovedMapping d src) (MovedAttribute d src) (MovedFunction d src)

def MovedLocation : Int → Int → Prop := MovedItem d src .location (MovedLocationEntry d src)

def MovedLink : Int → Int → Prop := MovedField d src .link Eq

def MovedStackEntry : Entry .stack → Entry .stack → Prop := Stack.Rel (MovedLocation d src)

def MovedStack : Int → Int → Prop := MovedField d src .stack (MovedStackEntry d src)

def MovedEntry : (t : Table) → Entry t → Entry t → Prop
  | .string => Eq
  | .attr => MovedAttributeEntry d src
  | .function => MovedFunctionEntry d src
  | .mapping => MovedMappingEntry d src
  | .location => MovedLocationEntry d src
  | .link => Eq
  | .stack => MovedStackEntry d src

def MovedProfile : Profile Int Int Int Int → Profile Int Int Int Int → Prop :=
  Profile.Rel (MovedString d src) (MovedAttribute d src) (MovedLink d src) (MovedStack d src)

end moved

section indices
variable {X Y : Type}

/-- All references of a record, in the order in which they are switched. -/
def KeyValueAndUnit.indices (ms : Entry .attr) : List (Table × Int) := [(.string, ms.key)] ++ [(.string, ms.unit)]

def Function.indices (fn : Entry .function) : List (Table × Int) :=
  [(.string, fn.name)] ++ ([(.string, fn.systemName)] ++ [(.string, fn.filename)])

def listed (t : Table) (indices : List Int) : List (Table × Int) := indices.flatMap fun i => [(t, i)]

def Mapping.indices (ms : Entry .mapping) : List (Table × Int) :=
  [(.string, ms.filename)] ++ listed .attr ms.attributes

def Location.indices (ms : Entry .location) : List (Table × Int) :=
  [(.mapping, ms.mapping)] ++ (listed .attr ms.attributes ++ ms.lines.flatMap fun l => [(.function, l.function)])

def Stack.indices (ms : Entry .stack) : List (Table × Int) := listed .location ms.locations

def ValueType.indices (ms : ValueType Int) : List (Table × Int) := [(.string, ms.type)] ++ [(.string, ms.unit)]

def Sample.indices (ms : Sample Int Int Int) : List (Table × Int) :=
  listed .attr ms.attributes ++ ([(.link, ms.link)] ++ [(.stack, ms.stack)])

def Profile.indices (ms : Profile Int Int Int Int) : List (Table × Int) :=
  listed .attr ms.attributes ++
    (ms.samples.flatMap Sample.indices ++ (ms.periodType.indices ++ ms.sampleType.indices))

def ScopeProfiles.indices (ms : ScopeProfiles Y (Profile Int Int Int Int)) : List (Table × Int) :=
  ms.profiles.flatMap Profile.indices

def ResourceProfiles.indices (ms : ResourceProfiles X Y (Profile Int Int Int Int)) : List (Table × Int) :=
  ms.scopeProfiles.flatMap ScopeProfiles.indices

def Profiles.indices (ms : Profiles X Y) : List (Table × Int) :=
  ms.dictionary.attributeTable.flatMap KeyValueAndUnit.indices ++
    (ms.dictionary.functionTable.flatMap Function.indices ++
      (ms.dictionary.mappingTable.flatMap Mapping.indices ++
        (ms.dictionary.locationTable.flatMap Location.indices ++
          (ms.dictionary.stackTable.flatMap Stack.indices ++ ms.resourceProfiles.flatMap ResourceProfiles.indices))))

/-- Lists of references are switched item by item, 0 as well. -/
def isListed : Table → Bool
  | .attr | .location => true
  | _ => false

/-- The references whose entries are looked up in a table, or come into it. -/
def into (t : Table) (refs : List (Table × Int)) : List Int :=
  refs.filterMap fun ref => if ref.1 = t ∧ (0 < ref.2 ∨ isListed t) then some ref.2 else none

theorem into_append (t : Table) (front back : List (Table × Int)) :
    into t (front ++ back) = into t front ++ into t back :=
  filterMap_append

theorem into_self {t : Table} {i : Int} (enters : 0 < i ∨ isListed t) : into t [(t, i)] = [i] := by
  simp [into, enters]

theorem into_other {t t' : Table} {i : Int} (other : t' ≠ t) : into t' [(t, i)] = [] := by
  simp [into, Ne.symm other]

end indices

section fills
variable (src d d' : Dictionary) (refs : List (Table × Int))

structure Fits : Prop where
  inside : ∀ ref ∈ refs, 0 ≤ ref.2 ∧ ref.2 < (src.table ref.1).length
  room : ∀ t, (d.table t).length + (into t refs).length ≤ maxInt32

/-- The first entry of a table comes from this reference. -/
def Heads (t : Table) : Option Int → Prop
  | none => d.table t = []
  | some i => ∃ val first, (src.table t)[i.toNat]? = some val ∧ (d.table t)[0]? = some first ∧
      ∀ later, Extends d later → MovedEntry later src t val first

structure Fills : Prop where
  more : Extends d d'
  room : ∀ t, (d'.table t).length ≤ (d.table t).length + (into t refs).length
  first : ∀ t, d.table t = [] → Heads src d' t (into t refs).head?

variable {src d d' refs}

theorem Fills.none (absent : ∀ t, into t refs = []) : Fills src d d refs where
  more := .refl d
  room := fun _ => Nat.le_add_right _ _
  first := by
    intro t empty
    rw [absent t]
    exact empty

theorem Heads.later {d later : Dictionary} {t : Table} {i : Int} (heads : Heads src d t (some i))
    (more : Extends d later) : Heads src later t (some i) := by
  obtain ⟨val, first, found, placed, moved⟩ := heads
  exact ⟨val, first, found, getElem?_later more placed, fun last further => moved last (more.trans further)⟩

theorem Fills.trans {d'' : Dictionary} {rest : List (Table × Int)} (before : Fills src d d' refs)
    (after : Fills src d' d'' rest) : Fills src d d'' (refs ++ rest) where
  more := before.more.trans after.more
  room := by
    intro t
    rw [into_append, length_append]
    have := before.room t
    have := after.room t
    omega
  first := by
    intro t empty
    have heads := before.first t empty
    rw [into_append, head?_append]
    cases head : (into t refs).head? with
    | none =>
      rw [head] at heads
      exact after.first t heads
    | some i =>
      rw [head] at heads
      exact heads.later after.more

theorem Fits.rest {rest : List (Table × Int)} (fits : Fits src d (refs ++ rest)) (filled : Fills src d d' refs) :
    Fits src d' rest where
  inside := fun ref member => fits.inside ref (mem_append_right _ member)
  room := by
    intro t
    have := fits.room t
    have := filled.room t
    rw [into_append, length_append] at *
    omega

theorem Fits.front {rest : List (Table × Int)} (fits : Fits src d (refs ++ rest)) : Fits src d refs where
  inside := fun ref member => fits.inside ref (mem_append_left _ member)
  room := by
    intro t
    have := fits.room t
    rw [into_append, length_append] at this
    omega

end fills

/-- A switch from an extension of `base`: what it returns is right for the dictionary at the end and all later ones,
and it can only fail where a reference is out of range or a table is full. -/
def Gives {α : Type} (src base : Dictionary) (m : Switch α) (refs : List (Table × Int))
    (right : Dictionary → α → Prop) : Prop :=
  ∀ d, Extends base d →
    match m.run.run d with
    | (.ok value, d') => Fills src d d' refs ∧ ∀ later, Extends d' later → right later value
    | (.error _, d') => Extends d d' ∧ ¬ Fits src d refs

section gives
variable {α β : Type} {src base : Dictionary} {refs : List (Table × Int)} {right : Dictionary → α → Prop}

theorem gives_pure {value : α} (absent : ∀ t, into t refs = [])
    (holds : ∀ later, Extends base later → right later value) : Gives src base (pure value) refs right :=
  fun _ more => ⟨.none absent, fun later further => holds later (more.trans further)⟩

theorem gives_throw {err : SwitchError} (misfit : ∀ d, ¬ Fits src d refs) : Gives src base (throw err) refs right :=
  fun d _ => ⟨.refl d, misfit d⟩

variable {m : Switch α}

theorem Gives.bind {f : α → Switch β} {rest : List (Table × Int)} {next : Dictionary → β → Prop}
    (first : Gives src base m refs right)
    (second : ∀ value mid, Extends base mid → (∀ later, Extends mid later → right later value) →
      Gives src mid (f value) rest next) :
    Gives src base (m >>= f) (refs ++ rest) next := by
  intro d more
  have begun := first d more
  rw [run_bind_eq]
  rcases ran : m.run.run d with ⟨err | value, d'⟩
  · rw [ran] at begun
    exact ⟨begun.1, fun fits => begun.2 fits.front⟩
  · rw [ran] at begun
    have ended := second value d' (more.trans begun.1.more) begun.2 d' (.refl d')
    dsimp only
    rcases last : (f value).run.run d' with ⟨err | result, d''⟩
    · rw [last] at ended
      exact ⟨begun.1.more.trans ended.1, fun fits => ended.2 (fits.rest begun.1)⟩
    · rw [last] at ended
      exact ⟨begun.1.trans ended.1, ended.2⟩

theorem Gives.map {f : α → β} {next : Dictionary → β → Prop} (first : Gives src base m refs right)
    (holds : ∀ value later, Extends base later → right later value → next later (f value)) :
    Gives src base (m >>= fun value => pure (f value)) refs next := by
  rw [← append_nil refs]
  refine first.bind fun value mid more right => gives_pure (fun _ => rfl) fun later further => ?_
  exact holds value later (more.trans further) (right later further)

theorem Gives.adapt (wrap : SwitchError → SwitchError) (gives : Gives src base m refs right) :
    Gives src base (ExceptT.adapt wrap m) refs right := by
  intro d more
  have ended := gives d more
  rw [run_adapt]
  rcases ran : m.run.run d with ⟨err | value, d'⟩ <;> rwa [ran] at ended

theorem Gives.mono {right' : Dictionary → α → Prop} (gives : Gives src base m refs right)
    (more : ∀ later value, right later value → right' later value) : Gives src base m refs right' := by
  intro d further
  have ended := gives d further
  rcases ran : m.run.run d with ⟨err | value, d'⟩
  · rwa [ran] at ended
  · rw [ran] at ended
    exact ⟨ended.1, fun later last => more later value (ended.2 later last)⟩

theorem Gives.base_mono {base' : Dictionary} {m : Switch α} (gives : Gives src base m refs right)
    (later : Extends base base') : Gives src base' m refs right :=
  fun d more => gives d (later.trans more)

theorem gives_eachAt {f : Nat → α → Switch β} {indices : α → List (Table × Int)} {onItem : Dictionary → α → β → Prop}
    (each : ∀ i v, Gives src base (f i v) (indices v) fun d => onItem d v) (i : Nat) (list : List α) :
    Gives src base (eachAt f i list) (list.flatMap indices) fun d => List.Forall₂ (onItem d) list := by
  induction list generalizing i base with
  | nil => exact gives_pure (fun _ => rfl) fun _ _ => .nil
  | cons v rest ih =>
    rw [eachAt, flatMap_cons]
    refine (each i v).bind fun switched mid more moved => ?_
    refine (ih (fun i v => (each i v).base_mono more) (i + 1)).map fun others later further rest => ?_
    exact .cons (moved later further) rest

theorem Placed.later {d later : Dictionary} {t : Table} {val : Entry t} {j : Int} (more : Extends d later)
    (placed : Placed d t val j) : Placed later t val j := by
  obtain ⟨nonneg, ⟨entry, found, same⟩, first⟩ := placed
  refine ⟨nonneg, ⟨entry, getElem?_later more found, same⟩, fun k before other there => ?_⟩
  have bound : k < (d.table t).length := Nat.lt_trans before (List.getElem?_eq_some_iff.mp found).1
  have here := getElem?_eq_getElem bound
  cases (getElem?_later more here).symm.trans there
  exact first k before _ here

section placed
variable {d : Dictionary} {t : Table} {val : Entry t}

theorem placed_found {j : Nat} (found : (d.table t).findIdx? (fun entry => equal t entry val) = some j) :
    Placed d t val j := by
  obtain ⟨within, same, before⟩ := findIdx?_eq_some_iff_getElem.mp found
  refine ⟨Int.natCast_nonneg j, ⟨_, getElem?_eq_getElem within, .inr same⟩, fun k earlier entry there => ?_⟩
  cases (getElem?_eq_getElem (Nat.lt_trans earlier within)).symm.trans there
  exact Bool.eq_false_iff.mpr (before k earlier)

theorem placed_appended (absent : ∀ entry ∈ d.table t, equal t entry val = false) :
    Placed (d.setTable t (d.table t ++ [val])) t val (d.table t).length := by
  refine ⟨Int.natCast_nonneg _, ⟨val, ?_, .inl rfl⟩, fun k earlier entry there => ?_⟩
  · rw [table_setTable]
    exact getElem?_concat_length
  · rw [table_setTable, getElem?_append_left earlier] at there
    exact absent entry (mem_of_getElem? there)

end placed

end gives

section switched
variable {base src₀ src : Dictionary} {t : Table}

def Switched (base src₀ src : Dictionary) (t : Table) : Prop :=
  ∀ later, Extends base later → List.Forall₂ (MovedEntry later src₀ t) (src₀.table t) (src.table t)

section
variable (switched : Switched base src₀ src t)
include switched

theorem Switched.later {base' : Dictionary} (more : Extends base base') : Switched base' src₀ src t :=
  fun later further => switched later (more.trans further)

theorem gives_setEntry {i : Int} (enters : 0 < i ∨ isListed t) (inside : i.toNat < (src.table t).length) :
    Gives src₀ base (setEntry t (src.table t)[i.toNat]) [(t, i)] fun d =>
      Moved d src₀ t (MovedEntry d src₀ t) i := by
  intro d more
  have bound : i.toNat < (src₀.table t).length := by rwa [(switched base (.refl base)).length_eq]
  have moved : ∀ later, Extends d later → MovedEntry later src₀ t (src₀.table t)[i.toNat] (src.table t)[i.toNat] :=
    fun later further => (switched later (more.trans further)).get bound inside
  have others : ∀ t', t' ≠ t → into t' [(t, i)] = [] := fun t' other => into_other other
  have full : Fits src₀ d [(t, i)] → (d.table t).length < maxInt32 := by
    intro fits
    have room := fits.room t
    rwa [into_self enters] at room
  rw [setEntry, run_get_bind]
  cases found : (d.table t).findIdx? fun entry => equal t entry (src.table t)[i.toNat] with
  | some j =>
    have within := (findIdx?_eq_some_iff_getElem.mp found).1
    dsimp only
    by_cases large : maxInt32 < j
    · rw [if_pos large]
      refine ⟨.refl d, fun fits => ?_⟩
      have := full fits
      omega
    · rw [if_neg large]
      refine ⟨⟨.refl d, fun _ => Nat.le_add_right _ _, fun t' empty => ?_⟩, fun later further =>
        ⟨_, _, getElem?_eq_getElem bound, moved later further, (placed_found found).later further⟩⟩
      by_cases same : t' = t
      · subst same
        simp [empty] at within
      · rw [others t' same]
        exact empty
  | none =>
    by_cases large : maxInt32 ≤ (d.table t).length
    · rw [if_pos large]
      refine ⟨.refl d, fun fits => ?_⟩
      have := full fits
      omega
    · rw [if_neg large]
      have appended := extends_append d t (src.table t)[i.toNat]
      have last : ((d.setTable t (d.table t ++ [(src.table t)[i.toNat]])).table t)[(d.table t).length]? =
          some (src.table t)[i.toNat] := by rw [table_setTable, getElem?_concat_length]
      have placed := placed_appended (findIdx?_eq_none_iff.mp found)
      refine ⟨⟨appended, fun t' => ?_, fun t' empty => ?_⟩, fun later further =>
        ⟨_, _, getElem?_eq_getElem bound, moved later (appended.trans further), placed.later further⟩⟩
      · by_cases same : t' = t
        · subst same
          rw [into_self enters, table_setTable, length_append]
          exact Nat.le_refl _
        · rw [table_setTable_ne _ _ same]
          exact Nat.le_add_right _ _
      · by_cases same : t' = t
        · subst same
          rw [length_eq_zero_iff.mpr empty] at last
          rw [into_self enters]
          exact ⟨_, _, getElem?_eq_getElem bound, last, fun later further => moved later (appended.trans further)⟩
        · rw [others t' same]
          exact (table_setTable_ne _ _ same).trans empty

theorem misfit {i : Int} (outside : ¬ (0 ≤ i ∧ i.toNat < (src.table t).length)) (d : Dictionary) :
    ¬ Fits src₀ d [(t, i)] := by
  intro fits
  have inside := fits.inside (t, i) (mem_singleton_self _)
  rw [(switched base (.refl base)).length_eq] at inside
  omega

theorem gives_switchIndex (single : isListed t = false) (field : Field) (i : Int) :
    Gives src₀ base (switchIndex t src field i) [(t, i)] fun d => MovedField d src₀ t (MovedEntry d src₀ t) i := by
  rw [switchIndex]
  split
  · next positive =>
      split
      · next inside =>
          refine ((gives_setEntry switched (.inl positive) inside).adapt _).mono fun _ _ moved => ?_
          exact .inr ⟨positive, moved⟩
      · next outside => exact gives_throw (misfit switched fun both => outside both.2)
  · next positive =>
      refine gives_pure (fun t' => ?_) fun _ _ => .inl ⟨Int.not_lt.mp positive, rfl⟩
      by_cases same : t' = t
      · subst same
        simp [into, positive, single]
      · exact into_other same

theorem gives_switchIndices (list : isListed t = true) (field : Field) (indices : List Int) :
    Gives src₀ base (switchIndices t src field indices) (listed t indices) fun d =>
      List.Forall₂ (MovedItem d src₀ t (MovedEntry d src₀ t)) indices := by
  apply gives_eachAt
  intro i v
  split
  · next negative => exact gives_throw (misfit switched fun both => absurd negative (Int.not_lt.mpr both.1))
  · next nonneg =>
      split
      · next inside =>
          refine ((gives_setEntry switched (.inr list) inside).adapt _).mono fun _ _ moved => ?_
          exact ⟨Int.not_lt.mp nonneg, moved⟩
      · next outside => exact gives_throw (misfit switched fun both => outside both.2)

end

end switched

section records
variable {base src₀ src : Dictionary}

section
variable (strings : Switched base src₀ src .string)
include strings

theorem gives_attribute (ms : Entry .attr) :
    Gives src₀ base (ms.switchDictionary src) ms.indices fun d => MovedAttributeEntry d src₀ ms := by
  rw [KeyValueAndUnit.switchDictionary]
  refine (gives_switchIndex strings rfl .key ms.key).bind fun _ _ more key => ?_
  refine (gives_switchIndex (strings.later more) rfl .unit ms.unit).map fun _ later further unit => ?_
  exact ⟨key later further, unit, rfl⟩

theorem gives_function (fn : Entry .function) :
    Gives src₀ base (fn.switchDictionary src) fn.indices fun d => MovedFunctionEntry d src₀ fn := by
  rw [Function.switchDictionary]
  refine (gives_switchIndex strings rfl .name fn.name).bind fun _ _ more₁ name => ?_
  refine (gives_switchIndex (strings.later more₁) rfl .systemName fn.systemName).bind fun _ _ more₂ systemName => ?_
  refine (gives_switchIndex (strings.later (more₁.trans more₂)) rfl .filename fn.filename).map
    fun _ later further filename => ?_
  exact ⟨name later (more₂.trans further), systemName later further, filename, rfl⟩

theorem gives_mapping (attributes : Switched base src₀ src .attr) (ms : Entry .mapping) :
    Gives src₀ base (ms.switchDictionary src) ms.indices fun d => MovedMappingEntry d src₀ ms := by
  rw [Mapping.switchDictionary]
  refine (gives_switchIndex strings rfl .filename ms.filename).bind fun _ _ more filename => ?_
  refine (gives_switchIndices (attributes.later more) rfl .attr ms.attributes).map fun _ later further indices => ?_
  exact ⟨filename later further, indices, rfl, rfl, rfl⟩

end

theorem gives_line (functions : Switched base src₀ src .function) (l : Line Int) :
    Gives src₀ base (l.switchDictionary src) [(.function, l.function)] fun d => Line.Rel (MovedFunction d src₀) l := by
  rw [Line.switchDictionary]
  refine (gives_switchIndex functions rfl .function l.function).map fun _ _ _ function => ?_
  exact ⟨function, rfl, rfl⟩

theorem gives_location (mappings : Switched base src₀ src .mapping) (attributes : Switched base src₀ src .attr)
    (functions : Switched base src₀ src .function) (ms : Entry .location) :
    Gives src₀ base (ms.switchDictionary src) ms.indices fun d => MovedLocationEntry d src₀ ms := by
  rw [Location.switchDictionary]
  refine (gives_switchIndex mappings rfl .mapping ms.mapping).bind fun _ _ more₁ mapping => ?_
  refine (gives_switchIndices (attributes.later more₁) rfl .attr ms.attributes).bind fun _ _ more₂ indices => ?_
  have functions := functions.later (more₁.trans more₂)
  refine (gives_eachAt (fun _ l => (gives_line functions l).adapt _) 0 ms.lines).map fun _ later further lines => ?_
  exact ⟨mapping later (more₂.trans further), indices later further, lines, rfl⟩

theorem gives_stack (locations : Switched base src₀ src .location) (ms : Entry .stack) :
    Gives src₀ base (ms.switchDictionary src) ms.indices fun d => MovedStackEntry d src₀ ms := by
  rw [Stack.switchDictionary]
  refine (gives_switchIndices locations rfl .location ms.locations).map fun _ _ _ indices => ?_
  exact ⟨indices⟩

theorem gives_valueType (strings : Switched base src₀ src .string) (ms : ValueType Int) :
    Gives src₀ base (ms.switchDictionary src) ms.indices fun d => ValueType.Rel (MovedString d src₀) ms := by
  rw [ValueType.switchDictionary]
  refine (gives_switchIndex strings rfl .type ms.type).bind fun _ _ more type => ?_
  refine (gives_switchIndex (strings.later more) rfl .unit ms.unit).map fun _ later further unit => ?_
  exact ⟨type later further, unit⟩

def AllSwitched (base src₀ src : Dictionary) : Prop := ∀ t, Switched base src₀ src t

section
variable (switched : AllSwitched base src₀ src)
include switched

theorem AllSwitched.later {base' : Dictionary} (more : Extends base base') : AllSwitched base' src₀ src :=
  fun t => (switched t).later more

theorem gives_sample (ms : Sample Int Int Int) :
    Gives src₀ base (ms.switchDictionary src) ms.indices fun d =>
      Sample.Rel (MovedAttribute d src₀) (MovedLink d src₀) (MovedStack d src₀) ms := by
  rw [Sample.switchDictionary]
  refine (gives_switchIndices (switched .attr) rfl .attr ms.attributes).bind fun _ _ more₁ indices => ?_
  refine (gives_switchIndex (switched.later more₁ .link) rfl .link ms.link).bind fun _ _ more₂ link => ?_
  refine (gives_switchIndex (switched.later (more₁.trans more₂) .stack) rfl .stack ms.stack).map
    fun _ later further stack => ?_
  exact ⟨indices later (more₂.trans further), link later further, stack, rfl, rfl⟩

theorem gives_profile (ms : Profile Int Int Int Int) :
    Gives src₀ base (ms.switchDictionary src) ms.indices fun d => MovedProfile d src₀ ms := by
  rw [Profile.switchDictionary]
  refine (gives_switchIndices (switched .attr) rfl .attr ms.attributes).bind fun _ _ more₁ indices => ?_
  have switched₁ := switched.later more₁
  refine (gives_eachAt (fun _ v => (gives_sample switched₁ v).adapt _) 0 ms.samples).bind fun _ _ more₂ samples => ?_
  have switched₂ := switched₁.later more₂
  refine ((gives_valueType (switched₂ .string) ms.periodType).adapt _).bind fun _ _ more₃ periodType => ?_
  have switched₃ := switched₂.later more₃
  refine ((gives_valueType (switched₃ .string) ms.sampleType).adapt _).map fun _ later further sampleType => ?_
  have further₂ := more₃.trans further
  exact ⟨indices later (more₂.trans further₂), samples later further₂, periodType later further, sampleType, rfl⟩

end

variable {X Y : Type}

theorem gives_scope (switched : AllSwitched base src₀ src) (ms : ScopeProfiles Y (Profile Int Int Int Int)) :
    Gives src₀ base (ms.switchDictionary src) ms.indices fun d => ScopeProfiles.Rel (MovedProfile d src₀) ms := by
  rw [ScopeProfiles.switchDictionary]
  refine (gives_eachAt (fun _ v => (gives_profile switched v).adapt _) 0 ms.profiles).map fun _ _ _ profiles => ?_
  exact ⟨profiles, rfl, rfl⟩

theorem gives_resource (switched : AllSwitched base src₀ src) (ms : ResourceProfiles X Y (Profile Int Int Int Int)) :
    Gives src₀ base (ms.switchDictionary src) ms.indices fun d => ResourceProfiles.Rel (MovedProfile d src₀) ms := by
  rw [ResourceProfiles.switchDictionary]
  refine (gives_eachAt (fun _ v => (gives_scope switched v).adapt _) 0 ms.scopeProfiles).map fun _ _ _ scopes => ?_
  exact ⟨scopes, rfl, rfl⟩

/-- The tables in `done` are switched, the others are as they were. -/
structure Progress (base src₀ src : Dictionary) (done : List Table) : Prop where
  switched : ∀ t ∈ done, Switched base src₀ src t
  untouched : ∀ t, t ∉ done → src.table t = src₀.table t

theorem Progress.start (src : Dictionary) : Progress base src src [.string, .link] where
  switched := by
    intro t member later _
    simp only [mem_cons, not_mem_nil, or_false] at member
    rcases member with rfl | rfl <;> exact forall₂_same.mpr fun _ _ => rfl
  untouched := fun _ _ => rfl

theorem gives_switchTable {done : List Table} {t : Table} {f : Dictionary → Entry t → Switch (Entry t)}
    {indices : Entry t → List (Table × Int)} (progress : Progress base src₀ src done) (fresh : t ∉ done)
    (each : ∀ v, Gives src₀ base (f src v) (indices v) fun d => MovedEntry d src₀ t v) :
    Gives src₀ base (switchTable t src f) ((src₀.table t).flatMap indices) fun d src' =>
      Progress d src₀ src' (t :: done) := by
  have same := progress.untouched t fresh
  rw [switchTable, same, ← append_nil (flatMap _ _)]
  refine (gives_eachAt (fun _ v => (each v).adapt _) 0 (src₀.table t)).bind fun table mid more entries => ?_
  refine gives_pure (fun _ => rfl) fun later further => ⟨?_, ?_⟩
  · intro t' member
    by_cases same : t' = t
    · subst same
      intro last more'
      rw [table_setTable]
      exact entries last (further.trans more')
    · have before := progress.switched t' ((mem_cons.mp member).resolve_left same)
      intro last more'
      rw [table_setTable_ne _ _ same]
      exact before last (more.trans (further.trans more'))
  · intro t' absent
    rw [mem_cons, not_or] at absent
    rw [table_setTable_ne _ _ absent.1]
    exact progress.untouched t' absent.2

theorem gives_switchDictionary (ms : Profiles X Y) :
    Gives ms.dictionary base ms.switchDictionary ms.indices fun d ms' =>
      List.Forall₂ (ResourceProfiles.Rel (MovedProfile d ms.dictionary)) ms.resourceProfiles ms'.resourceProfiles := by
  rw [Profiles.switchDictionary]
  have start : Progress base ms.dictionary ms.dictionary _ := Progress.start ms.dictionary
  refine (gives_switchTable start (by decide) fun v => gives_attribute (start.switched _ (by decide)) v).bind
    fun src₁ _ _ attributes => ?_
  have attributes := attributes _ (.refl _)
  refine (gives_switchTable attributes (by decide) fun v => gives_function (attributes.switched _ (by decide)) v).bind
    fun src₂ _ _ functions => ?_
  have functions := functions _ (.refl _)
  refine (gives_switchTable functions (by decide) fun v =>
    gives_mapping (functions.switched _ (by decide)) (functions.switched _ (by decide)) v).bind
    fun src₃ _ _ mappings => ?_
  have mappings := mappings _ (.refl _)
  refine (gives_switchTable mappings (by decide) fun v => gives_location (mappings.switched _ (by decide))
    (mappings.switched _ (by decide)) (mappings.switched _ (by decide)) v).bind fun src₄ _ _ locations => ?_
  have locations := locations _ (.refl _)
  refine (gives_switchTable locations (by decide) fun v => gives_stack (locations.switched _ (by decide)) v).bind
    fun src₅ last _ everything => ?_
  have all : AllSwitched last ms.dictionary src₅ := by
    intro t
    apply (everything _ (.refl _)).switched
    cases t <;> decide
  refine (gives_eachAt (fun _ v => (gives_resource all v).adapt _) 0 ms.resourceProfiles).map fun _ _ _ resources => ?_
  exact resources

end records

end CollectorFormal.Pprofile.Merge
