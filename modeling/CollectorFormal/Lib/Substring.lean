import Mathlib.Data.List.Infix
import Mathlib.Data.List.TakeWhile
import Mathlib.Data.List.Basic

/-! Searching a text for a character or a word, replacing a word, and fields with a separator between them. -/

namespace CollectorFormal.Lib

open List

/-- A letter of ASCII. -/
def isLetter (c : UInt8) : Bool := (65 ≤ c && c ≤ 90) || (97 ≤ c && c ≤ 122)

section
variable {α : Type} [DecidableEq α]

section Character
variable {c : α} {s before after : List α}

/-- The text cut at the first `c`. -/
def cut (c : α) : List α → Option (List α × List α)
  | [] => none
  | x :: rest => if x = c then some ([], rest) else (cut c rest).map fun found => (x :: found.1, found.2)

theorem cut_some (found : cut c s = some (before, after)) : s = before ++ c :: after ∧ c ∉ before := by
  induction s generalizing before after with
  | nil => simp [cut] at found
  | cons x rest ih =>
    rw [cut] at found
    split at found
    · next same =>
        cases found
        simp [same]
    · next other =>
        obtain ⟨⟨head, tail⟩, at_rest, same⟩ := Option.map_eq_some_iff.mp found
        cases same
        obtain ⟨split, absent⟩ := ih at_rest
        simp [split, absent, Ne.symm other]

theorem cut_append (absent : c ∉ before) : cut c (before ++ c :: after) = some (before, after) := by
  induction before with
  | nil => simp [cut]
  | cons x rest ih =>
    rw [mem_cons, not_or] at absent
    rw [cons_append, cut, if_neg (Ne.symm absent.1), ih absent.2, Option.map_some]

theorem cut_none (absent : c ∉ s) : cut c s = none := by
  cases found : cut c s with
  | none => rfl
  | some pair =>
    have split := (cut_some found).1
    rw [split] at absent
    simp at absent

theorem length_cut (found : cut c s = some (before, after)) : after.length < s.length := by
  rw [(cut_some found).1, length_append, length_cons]
  omega

theorem mem_of_cut (found : cut c s = some (before, after)) : c ∈ s := by
  rw [(cut_some found).1]
  simp

end Character

section Word
variable {word s before after : List α}

/-- The text cut at the last occurrence of a word that is not empty. -/
def cutLast (word : List α) : List α → Option (List α × List α)
  | [] => none
  | x :: rest =>
    match cutLast word rest with
    | some found => some (x :: found.1, found.2)
    | none => if word <+: x :: rest then some ([], (x :: rest).drop word.length) else none

theorem cutLast_some (found : cutLast word s = some (before, after)) : s = before ++ word ++ after := by
  induction s generalizing before after with
  | nil => simp [cutLast] at found
  | cons x rest ih =>
    rw [cutLast] at found
    split at found
    · next pair at_rest =>
        cases found
        rw [cons_append, cons_append, ← ih at_rest]
    · next =>
        split at found
        · next here =>
            cases found
            obtain ⟨tail, split⟩ := here
            rw [← split, drop_left, nil_append]
        · cases found

theorem cutLast_none (absent : ¬ word <:+: s) : cutLast word s = none := by
  cases found : cutLast word s with
  | none => rfl
  | some pair => exact absurd ⟨pair.1, pair.2, (cutLast_some found).symm⟩ absent

theorem cutLast_append {first : α} {tail : List α} (last : ¬ first :: tail <:+: tail ++ after) :
    cutLast (first :: tail) (before ++ (first :: tail) ++ after) = some (before, after) := by
  induction before with
  | nil =>
    rw [nil_append, cons_append, cutLast, cutLast_none last]
    simp
  | cons x rest ih =>
    rw [cons_append, cons_append, cutLast, ih]

end Word

section Replace
variable {word new s : List α}

/-- `skip` more characters belong to the occurrence that was replaced last. -/
def replaceFrom (word new : List α) : Nat → List α → List α
  | _, [] => []
  | 0, x :: rest =>
    if word <+: x :: rest then new ++ replaceFrom word new (word.length - 1) rest
    else x :: replaceFrom word new 0 rest
  | skip + 1, _ :: rest => replaceFrom word new skip rest

/-- The text with every occurrence of the word replaced, from left to right. -/
def replaceAll (word new s : List α) : List α := replaceFrom word new 0 s

theorem replaceFrom_length (gone : List α) : replaceFrom word new gone.length (gone ++ s) = replaceAll word new s := by
  induction gone with
  | nil => rfl
  | cons x rest ih => exact ih

theorem replaceAll_word {first : α} {tail : List α} :
    replaceAll (first :: tail) new (first :: tail ++ s) = new ++ replaceAll (first :: tail) new s := by
  have starts : first :: tail <+: first :: (tail ++ s) := prefix_append (first :: tail) s
  rw [replaceAll, cons_append, replaceFrom, if_pos starts]
  exact congrArg (new ++ ·) (replaceFrom_length tail)

theorem replaceAll_cons {x : α} (other : ¬ word <+: x :: s) :
    replaceAll word new (x :: s) = x :: replaceAll word new s := by
  rw [replaceAll, replaceFrom, if_neg other]
  rfl

theorem replaceAll_cons_of_ne {x first : α} {tail : List α} (other : x ≠ first) :
    replaceAll (first :: tail) new (x :: s) = x :: replaceAll (first :: tail) new s := by
  apply replaceAll_cons
  intro starts
  exact other (cons_prefix_cons.mp starts).1.symm

theorem replaceAll_append_of_notMem {before : List α} {first : α} {tail : List α} (absent : first ∉ before) :
    replaceAll (first :: tail) new (before ++ s) = before ++ replaceAll (first :: tail) new s := by
  induction before with
  | nil => rfl
  | cons x rest ih =>
    rw [mem_cons, not_or] at absent
    rw [cons_append, replaceAll_cons_of_ne (Ne.symm absent.1), ih absent.2, cons_append]

end Replace

section Trailing
variable {c : α}

/-- How often `c` stands at the end of the text. -/
def trailing (c : α) (s : List α) : Nat := (s.reverse.takeWhile (· = c)).length

@[simp] theorem trailing_nil : trailing c [] = 0 := rfl

theorem trailing_snoc (s : List α) (x : α) : trailing c (s ++ [x]) = if x = c then trailing c s + 1 else 0 := by
  by_cases same : x = c <;> simp [trailing, same]

theorem trailing_append_cons (before after : List α) {x : α} (other : x ≠ c) :
    trailing c (before ++ x :: after) = trailing c after := by
  induction after using List.reverseRecOn with
  | nil => rw [trailing_snoc, if_neg other, trailing_nil]
  | append_singleton after last ih =>
    rw [← cons_append, ← append_assoc, trailing_snoc, trailing_snoc, ih]

theorem trailing_cons {x : α} (other : x ≠ c) (s : List α) : trailing c (x :: s) = trailing c s :=
  trailing_append_cons [] s other

theorem trailing_append_even {a : List α} (even : trailing c a % 2 = 0) (b : List α) :
    trailing c (a ++ b) % 2 = trailing c b % 2 := by
  induction b using List.reverseRecOn with
  | nil => simpa using even
  | append_singleton b last ih =>
    rw [← append_assoc, trailing_snoc, trailing_snoc]
    split
    · omega
    · rfl

theorem trailing_of_notMem {s : List α} (absent : c ∉ s) : trailing c s = 0 := by
  induction s using List.reverseRecOn with
  | nil => rfl
  | append_singleton s last ih =>
    rw [mem_append, mem_singleton, not_or] at absent
    rw [trailing_snoc, if_neg (Ne.symm absent.2)]

end Trailing

section Pair
omit [DecidableEq α]
variable {x y : α}

theorem pair_infix_cons {c : α} {s : List α} : [x, y] <:+: c :: s ↔ c = x ∧ s.head? = some y ∨ [x, y] <:+: s := by
  rw [infix_cons_iff, cons_prefix_cons, eq_comm]
  cases s with
  | nil => simp
  | cons d rest => simp [cons_prefix_cons, eq_comm]

theorem pair_infix_append {a b : List α} (inside : [x, y] <:+: a ++ b) :
    [x, y] <:+: a ∨ [x, y] <:+: b ∨ a.getLast? = some x ∧ b.head? = some y := by
  induction a with
  | nil => exact .inr (.inl inside)
  | cons c rest ih =>
    rw [cons_append, pair_infix_cons] at inside
    rw [pair_infix_cons]
    rcases inside with ⟨same, next⟩ | later
    · cases rest with
      | nil => exact .inr (.inr ⟨by simp [same], next⟩)
      | cons d rest => exact .inl (.inl ⟨same, next⟩)
    · rcases ih later with front | back | ⟨last, head⟩
      · exact .inl (.inr front)
      · exact .inr (.inl back)
      · refine .inr (.inr ⟨?_, head⟩)
        cases rest with
        | nil => cases last
        | cons d rest => rw [getLast?_cons_cons, last]

end Pair

end

variable {α : Type} [BEq α] [LawfulBEq α] (sep : α)

variable (fields : List (List α))

def pieces : List (List α) := fields.flatMap (List.splitOn sep)

theorem splitOn_joined (some : fields ≠ []) : ([sep].intercalate fields).splitOn sep = pieces sep fields := by
  induction fields with
  | nil => exact absurd rfl some
  | cons first rest ih =>
    cases rest with
    | nil => simp [pieces]
    | cons second rest =>
      rw [intercalate_cons_cons, append_assoc, singleton_append, splitOn_append_cons_self, ih (cons_ne_nil _ _)]
      rfl

theorem joined_pieces : [sep].intercalate (pieces sep fields) = [sep].intercalate fields := by
  cases fields with
  | nil => rfl
  | cons first rest => rw [← splitOn_joined sep _ (cons_ne_nil _ _), intercalate_splitOn]

omit [BEq α] [LawfulBEq α] in
theorem joined_snoc (field : List α) (some : fields ≠ []) :
    [sep].intercalate (fields ++ [field]) = [sep].intercalate fields ++ [sep] ++ field := by
  induction fields with
  | nil => exact absurd rfl some
  | cons first rest ih =>
    cases rest with
    | nil => simp [intercalate_cons_cons]
    | cons second rest =>
      have later := ih (cons_ne_nil _ _)
      simp only [cons_append] at later ⊢
      rw [intercalate_cons_cons, later, intercalate_cons_cons]
      simp only [append_assoc]

omit [BEq α] [LawfulBEq α] in
theorem joined_eq_nil (several : fields.length ≠ 1) : [sep].intercalate fields = [] ↔ fields = [] := by
  match fields with
  | [] => simp
  | [_] => exact absurd rfl several
  | first :: second :: rest => simp [intercalate_cons_cons]

theorem joined_eq_iff (first second : List (List α)) (several : first.length ≠ 1) (several' : second.length ≠ 1) :
    [sep].intercalate first = [sep].intercalate second ↔ pieces sep first = pieces sep second := by
  constructor
  · intro same
    by_cases none : first = []
    · subst none
      have nothing := (joined_eq_nil sep second several').mp same.symm
      rw [nothing]
    · have some : second ≠ [] := by
        rintro rfl
        exact none ((joined_eq_nil sep first several).mp same)
      rw [← splitOn_joined sep first none, ← splitOn_joined sep second some, same]
  · intro same
    rw [← joined_pieces sep first, ← joined_pieces sep second, same]

theorem pieces_plain (plain : ∀ field ∈ fields, sep ∉ field) : pieces sep fields = fields := by
  induction fields with
  | nil => rfl
  | cons first rest ih =>
    have later := ih fun field member => plain field (mem_cons_of_mem _ member)
    simp only [pieces, flatMap_cons] at later ⊢
    rw [later, splitOn_eq_singleton (plain first mem_cons_self)]
    rfl

end CollectorFormal.Lib
