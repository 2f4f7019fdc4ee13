import Mathlib.Data.Finset.Card
import CollectorFormal.Confmap.Expand

/-! Texts made of literal text and references.

A literal has no `${`, so the parts can be read off the text again. Expansion takes the first reference, unless it
is escaped, and fills in its value wherever the same reference stands. -/

namespace CollectorFormal.Confmap

open Client (Text)
open Lib List

def Free (s : Text) : Prop := dollar ∉ s ∧ openBrace ∉ s ∧ closeBrace ∉ s

instance (s : Text) : Decidable (Free s) := inferInstanceAs (Decidable (_ ∧ _))

def Literal (s : Text) : Prop := ¬ opening <:+: s

instance (s : Text) : Decidable (Literal s) := inferInstanceAs (Decidable (¬ _))

/-- The reference `${scheme:name}`. -/
structure Ref where
  scheme : Text
  name : Text
  valid : matchesScheme scheme = true
  free : Free name
  deriving DecidableEq

def Ref.body (r : Ref) : Text := r.scheme ++ colon :: r.name

def Ref.text (r : Ref) : Text := Source.reference r.body

structure Template where
  first : Text
  rest : List (Ref × Text)

def escapes (lit : Text) : Bool := trailing dollar lit % 2 = 1

namespace Template

def tail (rest : List (Ref × Text)) : Text := rest.flatMap fun piece => piece.1.text ++ piece.2

def render (t : Template) : Text := t.first ++ tail t.rest

def refs (t : Template) : List Ref := t.rest.map Prod.fst

/-- The references from left to right, each with whether it is escaped. -/
def occurrencesAfter : Text → List (Ref × Text) → List (Ref × Bool)
  | _, [] => []
  | lit, piece :: rest => (piece.1, escapes lit) :: occurrencesAfter piece.2 rest

def occurrences (t : Template) : List (Ref × Bool) := occurrencesAfter t.first t.rest

section Fill
variable (choose : Text → Ref → Bool) (values : Ref → Text)

/-- The text in which the values of the chosen references are filled in. A reference is
chosen by itself and the literal before it. -/
def filledAfter : Text → List (Ref × Text) → Text
  | lit, [] => lit
  | lit, piece :: rest =>
    lit ++ (if choose lit piece.1 then values piece.1 else piece.1.text) ++ filledAfter piece.2 rest

/-- The parts of that text, `before` being what comes before the literal by now. -/
def fillAfter : Text → Text → List (Ref × Text) → Template
  | before, lit, [] => ⟨before ++ lit, []⟩
  | before, lit, piece :: rest =>
    if choose lit piece.1 then fillAfter (before ++ lit ++ values piece.1) piece.2 rest
    else
      let later := fillAfter [] piece.2 rest
      ⟨before ++ lit, (piece.1, later.first) :: later.rest⟩

def filled (t : Template) : Text := filledAfter choose values t.first t.rest

def fill (t : Template) : Template := fillAfter choose values [] t.first t.rest

end Fill

/-- What each occurrence should become: a value, or the reference with the dollar that
escapes it taken away. -/
def perOccurrenceAfter (values : Ref → Text) : Text → List (Ref × Text) → Text
  | lit, [] => unescape lit
  | lit, piece :: rest =>
    (if escapes lit then unescape (lit ++ [dollar]) ++ openBrace :: piece.1.body ++ [closeBrace]
      else unescape lit ++ values piece.1) ++ perOccurrenceAfter values piece.2 rest

def perOccurrence (values : Ref → Text) (t : Template) : Text := perOccurrenceAfter values t.first t.rest

/-- The literals are literals, and the values can be filled in. -/
structure WellFormed (values : Ref → Text) (t : Template) : Prop where
  first : Literal t.first
  rest : ∀ piece ∈ t.rest, Literal piece.2
  free : ∀ piece ∈ t.rest, Free (values piece.1)

/-- No `${` can come about when a value is filled in: it takes an empty one before an opening brace for that. -/
def Apart (values : Ref → Text) (t : Template) : Prop :=
  ∀ piece ∈ t.rest, values piece.1 = [] → piece.2.head? ≠ some openBrace

structure Sound (values : Ref → Text) (t : Template) : Prop extends WellFormed values t where
  apart : t.Apart values

/-- One round of the expansion, which fills in the first reference. -/
def next (values : Ref → Text) (t : Template) : Option Template :=
  match t.rest with
  | [] => none
  | piece :: _ => if escapes t.first then none else some (t.fill (fun _ r => r = piece.1) values)

/-- What is left after at most so many rounds, the last of which fills in nothing. -/
def settle (values : Ref → Text) : Nat → Template → Option Template
  | 0, _ => none
  | rounds + 1, t =>
    match t.next values with
    | none => some t
    | some t' => settle values rounds t'

end Template

theorem mem_scheme {scheme : Text} (valid : matchesScheme scheme = true) {c : UInt8} (member : c ∈ scheme) :
    isSchemeRest c = true := by
  match scheme, valid with
  | first :: second :: rest, valid =>
    rw [matchesScheme, Bool.and_eq_true, all_eq_true] at valid
    cases member with
    | head => simp [isSchemeRest, valid.1]
    | tail _ later => exact valid.2 c later

namespace Ref
variable {r r' : Ref} {s : Text}

theorem free_body (r : Ref) : Free r.body := by
  have outside (c : UInt8) (not_scheme : isSchemeRest c = false) (not_colon : c ≠ colon) (not_name : c ∉ r.name) :
      c ∉ r.body := by
    rw [body, mem_append, mem_cons, not_or, not_or]
    refine ⟨?_, not_colon, not_name⟩
    intro member
    rw [mem_scheme r.valid member] at not_scheme
    cases not_scheme
  exact ⟨outside dollar (by decide) (by decide) r.free.1, outside openBrace (by decide) (by decide) r.free.2.1,
    outside closeBrace (by decide) (by decide) r.free.2.2⟩

theorem cut_body (r : Ref) : cut colon r.body = some (r.scheme, r.name) := by
  apply cut_append
  intro member
  have inside := mem_scheme r.valid member
  revert inside
  decide

theorem body_injective (same : r.body = r'.body) : r = r' := by
  have parts := r.cut_body
  rw [same, r'.cut_body] at parts
  cases r
  cases r'
  cases parts
  rfl

theorem text_append (r : Ref) (s : Text) : r.text ++ s = dollar :: openBrace :: (r.body ++ closeBrace :: s) := by
  simp [text, Source.reference]

theorem text_append_inj {s' : Text} (same : r.text ++ s = r'.text ++ s') : r = r' ∧ s = s' := by
  rw [text_append, text_append, List.cons.injEq, List.cons.injEq] at same
  have first : cut closeBrace (r.body ++ closeBrace :: s) = some (r.body, s) := cut_append r.free_body.2.2
  rw [same.2.2, cut_append r'.free_body.2.2, Option.some_inj, Prod.mk.injEq] at first
  exact ⟨body_injective first.1.symm, first.2.symm⟩

theorem text_starts (starts : r.text <+: r'.text ++ s) : r = r' := by
  obtain ⟨tail, same⟩ := starts
  exact (text_append_inj same).1

theorem replaceAll_other {new : Text} (different : r ≠ r') :
    replaceAll r.text new (r'.text ++ s) = r'.text ++ replaceAll r.text new s := by
  have unlike : ¬ r.text <+: dollar :: openBrace :: (r'.body ++ closeBrace :: s) := by
    rw [← text_append]
    intro starts
    exact different (text_starts starts)
  have absent : dollar ∉ openBrace :: (r'.body ++ [closeBrace]) := by
    rw [mem_cons, mem_append, mem_singleton, not_or, not_or]
    exact ⟨by decide, r'.free_body.1, by decide⟩
  have copied : replaceAll r.text new (openBrace :: (r'.body ++ [closeBrace]) ++ s) =
      openBrace :: (r'.body ++ [closeBrace]) ++ replaceAll r.text new s := replaceAll_append_of_notMem absent
  rw [text_append, replaceAll_cons unlike, text_append]
  simpa using copied

theorem replaceAll_same {new : Text} : replaceAll r.text new (r.text ++ s) = new ++ replaceAll r.text new s :=
  replaceAll_word

end Ref

namespace Literal
variable {a b : Text}

theorem append (left : Literal a) (right : Literal b) (apart : a.getLast? = some dollar → b.head? ≠ some openBrace) :
    Literal (a ++ b) := by
  intro inside
  rcases pair_infix_append inside with front | back | ⟨last, head⟩
  · exact left front
  · exact right back
  · exact apart last head

theorem of_cons {c : UInt8} (lit : Literal (c :: a)) : Literal a :=
  fun inside => lit (pair_infix_cons.mpr (.inr inside))

theorem of_append_left (lit : Literal (a ++ b)) : Literal a :=
  fun inside => lit (inside.trans (prefix_append a b).isInfix)

theorem of_append_right (lit : Literal (a ++ b)) : Literal b :=
  fun inside => lit (inside.trans (suffix_append a b).isInfix)

theorem of_free (free : Free a) : Literal a :=
  fun inside => free.1 (inside.subset mem_cons_self)

theorem replaceAll_append {r : Ref} {new : Text} (lit : Literal a) (next : b.head? ≠ some openBrace) :
    replaceAll r.text new (a ++ b) = a ++ replaceAll r.text new b := by
  induction a with
  | nil => rfl
  | cons c rest ih =>
    have unlike : ¬ r.text <+: c :: (rest ++ b) := by
      intro starts
      obtain ⟨tail, same⟩ := starts
      rw [Ref.text_append, List.cons.injEq] at same
      cases rest with
      | nil =>
        rw [nil_append] at same
        exact next (by rw [← same.2]; rfl)
      | cons d rest =>
        rw [cons_append, List.cons.injEq] at same
        exact lit (pair_infix_cons.mpr (.inl ⟨same.1.symm, by rw [← same.2.1]; rfl⟩))
    rw [cons_append, replaceAll_cons unlike, ih lit.of_cons, cons_append]

end Literal

theorem unescape_pair (s : Text) : unescape (dollar :: dollar :: s) = dollar :: unescape s :=
  replaceAll_word

theorem unescape_cons {c : UInt8} {s : Text} (single : c = dollar → s.head? ≠ some dollar) :
    unescape (c :: s) = c :: unescape s := by
  apply replaceAll_cons
  intro starts
  rw [cons_prefix_cons] at starts
  apply single starts.1.symm
  cases s with
  | nil => simp at starts
  | cons d rest =>
    rw [cons_prefix_cons] at starts
    rw [← starts.2.1]
    rfl

theorem pairInduct {motive : Text → Prop} (nil : motive []) (pair : ∀ s, motive s → motive (dollar :: dollar :: s))
    (single : ∀ c s, (c = dollar → s.head? ≠ some dollar) → motive s → motive (c :: s)) (s : Text) : motive s := by
  induction size : s.length using Nat.strong_induction_on generalizing s with
  | _ size' ih =>
    match s, size with
    | [], _ => exact nil
    | c :: rest, size =>
      rw [length_cons] at size
      by_cases paired : c = dollar ∧ rest.head? = some dollar
      · obtain ⟨first, second⟩ := paired
        obtain ⟨d, tail, split⟩ : ∃ d tail, rest = d :: tail := exists_cons_of_ne_nil (by
          intro empty
          simp [empty] at second)
        rw [split, head?_cons, Option.some_inj] at second
        rw [split, length_cons] at size
        rw [first, split, second]
        exact pair tail (ih tail.length (by omega) tail rfl)
      · exact single c rest (fun first second => paired ⟨first, second⟩) (ih rest.length (by omega) rest rfl)

theorem unescape_append {a : Text} (even : trailing dollar a % 2 = 0) (b : Text) :
    unescape (a ++ b) = unescape a ++ unescape b := by
  induction a using pairInduct with
  | nil => rfl
  | pair s ih =>
    have rest : trailing dollar s % 2 = 0 := by
      rw [← even]
      exact (trailing_append_even (a := [dollar, dollar]) rfl s).symm
    rw [cons_append, cons_append, unescape_pair, unescape_pair, ih rest, cons_append]
  | single c s alone ih =>
    have parts : trailing dollar s % 2 = 0 ∧ (c = dollar → (s ++ b).head? ≠ some dollar) := by
      by_cases same : c = dollar
      · cases s with
        | nil =>
          rw [same] at even
          exact absurd even (by decide)
        | cons d tail =>
          have unlike : d ≠ dollar := by
            intro paired
            exact alone same (by rw [paired, head?_cons])
          rw [← singleton_append, trailing_append_cons _ _ unlike] at even
          rw [trailing_cons unlike]
          exact ⟨even, fun _ => alone same⟩
      · rw [trailing_cons same] at even
        exact ⟨even, fun first => absurd first same⟩
    rw [cons_append, unescape_cons parts.2, unescape_cons alone, ih parts.1, cons_append]

theorem unescape_append_of_notMem {a : Text} (absent : dollar ∉ a) (b : Text) : unescape (a ++ b) = a ++ unescape b :=
  replaceAll_append_of_notMem absent

namespace Template

@[simp] theorem tail_cons (piece : Ref × Text) (rest : List (Ref × Text)) :
    tail (piece :: rest) = piece.1.text ++ (piece.2 ++ tail rest) := by
  simp [tail]

theorem render_nil (lit : Text) : render ⟨lit, []⟩ = lit := append_nil lit

theorem head_tail (rest : List (Ref × Text)) : (tail rest).head? ≠ some openBrace := by
  cases rest with
  | nil => simp [tail]
  | cons piece rest =>
    rw [tail_cons, Ref.text_append, head?_cons]
    decide

theorem literal_inj {lit lit' s s' : Text} (left : Literal lit) (right : Literal lit')
    (same : lit ++ dollar :: openBrace :: s = lit' ++ dollar :: openBrace :: s') : lit = lit' := by
  have shorter {a b s s' : Text} (lit : Literal (a ++ b))
      (same : dollar :: openBrace :: s = b ++ dollar :: openBrace :: s') : b = [] := by
    match b with
    | [] => rfl
    | [c] =>
      simp only [cons_append, nil_append, List.cons.injEq] at same
      exact absurd same.2.1 (by decide)
    | c :: d :: rest =>
      simp only [cons_append, List.cons.injEq] at same
      exact absurd (pair_infix_cons.mpr (.inl ⟨same.1.symm, by simp [same.2.1]⟩)) lit.of_append_right
  rcases append_eq_append_iff.mp same with ⟨b, split, later⟩ | ⟨b, split, later⟩
  · rw [split] at right
    rw [split, shorter right later, append_nil]
  · rw [split] at left
    rw [split, shorter left later, append_nil]

theorem refs_of_render {t t' : Template} (left : Literal t.first) (lefts : ∀ piece ∈ t.rest, Literal piece.2)
    (right : Literal t'.first) (rights : ∀ piece ∈ t'.rest, Literal piece.2) (same : t.render = t'.render) :
    t.refs = t'.refs := by
  obtain ⟨lit, rest⟩ := t
  obtain ⟨lit', rest'⟩ := t'
  have opened {lit lit' : Text} {piece : Ref × Text} {rest : List (Ref × Text)} (left : Literal lit)
      (same : lit = lit' ++ tail (piece :: rest)) : False := by
    rw [same, tail_cons, Ref.text_append] at left
    exact left.of_append_right (pair_infix_cons.mpr (.inl ⟨rfl, rfl⟩))
  induction rest generalizing lit lit' rest' with
  | nil =>
    cases rest' with
    | nil => rfl
    | cons piece' rest' => exact (opened left ((render_nil lit).symm.trans same)).elim
  | cons piece rest ih =>
    cases rest' with
    | nil => exact (opened right ((render_nil lit').symm.trans same.symm)).elim
    | cons piece' rest' =>
      rw [forall_mem_cons] at lefts rights
      have whole : lit ++ tail (piece :: rest) = lit' ++ tail (piece' :: rest') := same
      rw [tail_cons, tail_cons] at whole
      have lits : lit = lit' := by
        exact literal_inj left right whole
      rw [lits, append_cancel_left_eq] at whole
      obtain ⟨ref, later⟩ := Ref.text_append_inj whole
      have refs := ih piece.2 lefts.1 lefts.2 piece'.2 rest' rights.1 rights.2 later
      exact congrArg₂ List.cons ref refs

end Template

end CollectorFormal.Confmap
