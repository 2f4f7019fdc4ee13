import CollectorFormal.Confmap.Template

/-! What is left of a text after all rounds of the expansion.

Filling in values keeps the parts of the text apart and, if no reference stands both escaped and not escaped, the
parity of the dollars. -/

namespace CollectorFormal.Confmap.Template

open Client (Text)
open Lib List

variable {choose : Text → Ref → Bool} {values : Ref → Text} (before lit : Text)

variable (rest : List (Ref × Text))

theorem render_fillAfter :
    (fillAfter choose values before lit rest).render = before ++ filledAfter choose values lit rest := by
  induction rest generalizing before lit with
  | nil => simp [fillAfter, filledAfter, render, tail]
  | cons piece rest ih =>
    rw [fillAfter, filledAfter]
    split
    · rw [ih]
      simp
    · have later := ih [] piece.2
      rw [render, nil_append] at later
      rw [render, tail_cons, later]
      simp

theorem render_fill (t : Template) : (t.fill choose values).render = t.filled choose values :=
  render_fillAfter [] t.first t.rest

variable (r : Ref)

theorem refs_fill_one :
    (fillAfter (fun _ r' => r' = r) values before lit rest).refs = (rest.map Prod.fst).filter (· ≠ r) := by
  induction rest generalizing before lit with
  | nil => rfl
  | cons piece rest ih =>
    rw [fillAfter]
    split
    · next same =>
        rw [ih, map_cons, filter_cons_of_neg (by simpa using same)]
    · next other =>
        rw [map_cons, filter_cons_of_pos (by simpa using other), ← ih [] piece.2]
        rfl

section Sound

theorem head_append_value {a v l : Text} (free : Free v) (front : a ≠ [] → a.head? ≠ some openBrace)
    (back : a = [] → v = [] → l.head? ≠ some openBrace) : (a ++ v ++ l).head? ≠ some openBrace := by
  cases a with
  | cons c rest => exact front (cons_ne_nil _ _)
  | nil =>
    cases v with
    | nil => exact back rfl rfl
    | cons c rest =>
      rw [nil_append, cons_append, head?_cons, ne_eq, Option.some_inj]
      intro same
      exact free.2.1 (by simp [same])

theorem literal_join {a v l : Text} (left : Literal a) (right : Literal l) (free : Free v)
    (apart : v = [] → l.head? ≠ some openBrace) : Literal (a ++ v ++ l) := by
  rw [append_assoc]
  apply left.append
  · apply (Literal.of_free free).append right
    intro last
    exact absurd (mem_of_getLast? last) free.1
  · intro _
    exact head_append_value (a := []) free (fun some => absurd rfl some) fun _ empty => apart empty

theorem sound_fillAfter (before lit : Text) (rest : List (Ref × Text))
    (first : Literal (before ++ lit)) (others : ∀ piece ∈ rest, Literal piece.2)
    (free : ∀ piece ∈ rest, Free (values piece.1))
    (apart : ∀ piece ∈ rest, values piece.1 = [] → piece.2.head? ≠ some openBrace) :
    (fillAfter choose values before lit rest).Sound values ∧
      ((before ++ lit).head? ≠ some openBrace →
        (fillAfter choose values before lit rest).first.head? ≠ some openBrace) := by
  induction rest generalizing before lit with
  | nil => exact ⟨⟨⟨first, by simp [fillAfter], by simp [fillAfter]⟩, by simp [fillAfter, Apart]⟩, id⟩
  | cons piece rest ih =>
    rw [forall_mem_cons] at others free apart
    rw [fillAfter]
    split
    · have joined : Literal (before ++ lit ++ values piece.1 ++ piece.2) :=
        literal_join first others.1 free.1 apart.1
      obtain ⟨sound, head⟩ := ih _ _ joined others.2 free.2 apart.2
      refine ⟨sound, ?_⟩
      intro start
      apply head
      exact head_append_value free.1 (fun _ => start) fun _ empty => apart.1 empty
    · obtain ⟨sound, head⟩ := ih [] piece.2 others.1 others.2 free.2 apart.2
      refine ⟨⟨⟨first, ?_, ?_⟩, ?_⟩, id⟩
      · exact forall_mem_cons.mpr ⟨sound.first, sound.rest⟩
      · exact forall_mem_cons.mpr ⟨free.1, sound.free⟩
      · refine forall_mem_cons.mpr ⟨?_, sound.apart⟩
        intro empty
        exact head (apart.1 empty)

theorem Sound.fill {t : Template} (sound : t.Sound values) : (t.fill choose values).Sound values :=
  (sound_fillAfter [] t.first t.rest sound.first sound.rest sound.free sound.apart).1

end Sound

theorem escapes_append {before : Text} (even : trailing dollar before % 2 = 0) (lit : Text) :
    escapes (before ++ lit) = escapes lit := by
  rw [escapes, escapes, trailing_append_even even]

theorem even_value {before lit v : Text} (even : trailing dollar before % 2 = 0) (free : Free v)
    (unescaped : escapes lit = false) : trailing dollar (before ++ lit ++ v) % 2 = 0 := by
  have front : trailing dollar (before ++ lit) % 2 = 0 := by
    rw [trailing_append_even even]
    rw [escapes, decide_eq_false_iff_not] at unescaped
    omega
  rw [trailing_append_even front, trailing_of_notMem free.1]

section Unescaped
variable {r : Ref}

theorem escapes_of_never {lit : Text} {r' : Ref} (never : (r, true) ≠ (r', escapes lit)) (same : r' = r) :
    escapes lit = false := by
  rw [Bool.eq_false_iff]
  intro odd
  exact never (by rw [same, odd])

theorem fill_one (before lit : Text) (rest : List (Ref × Text)) (free : ∀ piece ∈ rest, Free (values piece.1))
    (even : trailing dollar before % 2 = 0) (unescaped : (r, true) ∉ occurrencesAfter lit rest) :
    (fillAfter (fun _ r' => r' = r) values before lit rest).occurrences =
        (occurrencesAfter lit rest).filter (·.1 ≠ r) ∧
      (fillAfter (fun _ r' => r' = r) values before lit rest).filled (fun lit _ => !escapes lit) values =
        before ++ filledAfter (fun lit _ => !escapes lit) values lit rest := by
  induction rest generalizing before lit with
  | nil => exact ⟨rfl, rfl⟩
  | cons piece rest ih =>
    rw [forall_mem_cons] at free
    rw [occurrencesAfter, mem_cons, not_or] at unescaped
    rw [fillAfter, occurrencesAfter, filledAfter]
    split
    · next same =>
        have here := escapes_of_never unescaped.1 (of_decide_eq_true same)
        obtain ⟨occurrences, filled⟩ := ih _ piece.2 free.2 (even_value even free.1 here) unescaped.2
        rw [occurrences, filled, filter_cons_of_neg (by simpa using same), here]
        simp
    · next other =>
        obtain ⟨occurrences, later⟩ := ih [] piece.2 free.2 rfl unescaped.2
        rw [filled, nil_append] at later
        rw [filter_cons_of_pos (by simpa using other), ← occurrences, filled, filledAfter, later, ← escapes_append even]
        exact ⟨rfl, by simp [escapes_append even]⟩

end Unescaped

theorem body_notMem : dollar ∉ openBrace :: r.body ++ [closeBrace] := by
  rw [cons_append, mem_cons, mem_append, mem_singleton, not_or, not_or]
  exact ⟨by decide, r.free_body.1, by decide⟩

variable (s : Text)

theorem text_eq : r.text ++ s = dollar :: (openBrace :: r.body ++ [closeBrace] ++ s) := rfl

theorem unescape_escaped {lit : Text} (odd : escapes lit = true) (r : Ref) (s : Text) :
    unescape (lit ++ (r.text ++ s)) = unescape (lit ++ [dollar]) ++ openBrace :: r.body ++ [closeBrace] ++ unescape s := by
  have even : trailing dollar (lit ++ [dollar]) % 2 = 0 := by
    rw [escapes, decide_eq_true_iff] at odd
    rw [trailing_snoc, if_pos rfl]
    omega
  have split : lit ++ (r.text ++ s) = lit ++ [dollar] ++ (openBrace :: r.body ++ [closeBrace] ++ s) := by
    rw [text_eq]
    simp
  rw [split, unescape_append even, unescape_append_of_notMem (body_notMem r)]
  simp

theorem unescape_unescaped {lit : Text} (even : escapes lit = false) (s : Text) :
    unescape (lit ++ s) = unescape lit ++ unescape s := by
  apply unescape_append
  rw [escapes, decide_eq_false_iff_not] at even
  omega

theorem perOccurrence_eq (lit : Text) (rest : List (Ref × Text)) (free : ∀ piece ∈ rest, Free (values piece.1)) :
    perOccurrenceAfter values lit rest = unescape (filledAfter (fun lit _ => !escapes lit) values lit rest) := by
  induction rest generalizing lit with
  | nil => rfl
  | cons piece rest ih =>
    rw [forall_mem_cons] at free
    rw [perOccurrenceAfter, filledAfter, ih _ free.2]
    cases parity : escapes lit with
    | true =>
      have escaped := unescape_escaped parity piece.1 (filledAfter (fun lit _ => !escapes lit) values piece.2 rest)
      simpa using escaped.symm
    | false =>
      have cut := unescape_unescaped parity
        (values piece.1 ++ filledAfter (fun lit _ => !escapes lit) values piece.2 rest)
      rw [unescape_append_of_notMem free.1.1] at cut
      simpa using cut.symm

/-- The references that stand somewhere without being escaped. -/
def unescapedRefs (t : Template) : Finset Ref := ((t.occurrences.filter (!·.2)).map Prod.fst).toFinset

/-- What it takes for all of them to be filled in, and nothing else. -/
structure Orderly (limit : Nat) (t : Template) : Prop where
  early : ∀ r, (r, false) ∈ t.occurrences → (r, false) ∈ t.occurrences.takeWhile (!·.2)
  apart : ∀ r, (r, false) ∈ t.occurrences → (r, true) ∉ t.occurrences
  few : t.unescapedRefs.card < limit

theorem mem_unescapedRefs {t : Template} {r : Ref} : r ∈ t.unescapedRefs ↔ (r, false) ∈ t.occurrences := by
  simp [unescapedRefs]

theorem mem_takeWhile_filter {α : Type} {p q : α → Bool} {l : List α} {x : α} (member : x ∈ l.takeWhile p)
    (kept : q x = true) : x ∈ (l.filter q).takeWhile p := by
  induction l with
  | nil => cases member
  | cons y rest ih =>
    rw [takeWhile_cons] at member
    split at member
    · next holds =>
        by_cases first : q y = true
        · rw [filter_cons_of_pos first, takeWhile_cons, if_pos holds]
          rcases mem_cons.mp member with here | later
          · rw [here]
            exact mem_cons_self
          · exact mem_cons_of_mem _ (ih later)
        · rw [filter_cons_of_neg first]
          rcases mem_cons.mp member with here | later
          · rw [here] at kept
            exact absurd kept first
          · exact ih later
    · cases member

section Rounds
variable {t t' : Template}

theorem next_cases (values : Ref → Text) (t : Template) :
    t.next values = none ∧ (t.rest = [] ∨ ∃ r later, t.occurrences = (r, true) :: later) ∨
      ∃ r later, t.occurrences = (r, false) :: later ∧ t.next values = some (t.fill (fun _ r' => r' = r) values) := by
  obtain ⟨lit, rest⟩ := t
  cases rest with
  | nil => exact .inl ⟨rfl, .inl rfl⟩
  | cons piece rest =>
    cases parity : escapes lit with
    | true => exact .inl ⟨by simp [next, parity], .inr ⟨piece.1, _, by rw [occurrences, occurrencesAfter, parity]⟩⟩
    | false => exact .inr ⟨piece.1, _, by rw [occurrences, occurrencesAfter, parity], by simp [next, parity]⟩

theorem filled_of_escaped (lit : Text) (rest : List (Ref × Text)) (none : ∀ r, (r, false) ∉ occurrencesAfter lit rest) :
    filledAfter (fun lit _ => !escapes lit) values lit rest = render ⟨lit, rest⟩ := by
  induction rest generalizing lit with
  | nil => exact (render_nil lit).symm
  | cons piece rest ih =>
    have odd : escapes lit = true := by
      rw [← Bool.not_eq_false]
      intro even
      exact none piece.1 (by rw [occurrencesAfter, even]; exact mem_cons_self)
    have later := ih piece.2 fun r member => none r (mem_cons_of_mem _ member)
    rw [filledAfter, later, odd, render, render, tail_cons]
    simp

theorem Orderly.fill {limit : Nat} {r : Ref} {later : List (Ref × Bool)} (orderly : t.Orderly (limit + 1))
    (sound : t.Sound values) (first : t.occurrences = (r, false) :: later) :
    (t.fill (fun _ r' => r' = r) values).Orderly limit ∧
      (t.fill (fun _ r' => r' = r) values).perOccurrence values = t.perOccurrence values := by
  have here : (r, false) ∈ t.occurrences := by
    rw [first]
    exact mem_cons_self
  have never := orderly.apart r here
  have occurrences : (t.fill (fun _ r' => r' = r) values).occurrences = t.occurrences.filter (·.1 ≠ r) :=
    (fill_one [] t.first t.rest sound.free rfl never).1
  have still {o : Ref × Bool} : o ∈ (t.fill (fun _ r' => r' = r) values).occurrences ↔ o ∈ t.occurrences ∧ o.1 ≠ r := by
    rw [occurrences]
    simp
  constructor
  · refine ⟨?_, ?_, ?_⟩
    · intro r' member
      rw [still] at member
      rw [occurrences]
      exact mem_takeWhile_filter (orderly.early r' member.1) (by simpa using member.2)
    · intro r' member escaped
      rw [still] at member escaped
      exact orderly.apart r' member.1 escaped.1
    · have fewer : (t.fill (fun _ r' => r' = r) values).unescapedRefs = t.unescapedRefs.erase r := by
        ext r'
        rw [mem_unescapedRefs, still, Finset.mem_erase, mem_unescapedRefs, and_comm]
      have present := mem_unescapedRefs.mpr here
      have some := Finset.card_pos.mpr ⟨r, present⟩
      have size := orderly.few
      rw [fewer, Finset.card_erase_of_mem present]
      omega
  · rw [perOccurrence, perOccurrence, perOccurrence_eq _ _ sound.fill.free, perOccurrence_eq _ _ sound.free]
    exact congrArg unescape (fill_one [] t.first t.rest sound.free rfl never).2

variable {limit : Nat}

theorem settle_of_orderly (orderly : t.Orderly limit) (sound : t.Sound values) :
    ∃ t', t.settle values limit = some t' ∧ unescape t'.render = t.perOccurrence values := by
  induction limit generalizing t with
  | zero => exact absurd orderly.few (Nat.not_lt_zero _)
  | succ limit ih =>
    rw [settle]
    rcases t.next_cases values with ⟨stop, last⟩ | ⟨r, later, first, more⟩
    · refine ⟨t, by rw [stop], ?_⟩
      have none : ∀ r, (r, false) ∉ t.occurrences := by
        intro r member
        have early := orderly.early r member
        rcases last with empty | ⟨r', later, first⟩
        · rw [occurrences, empty] at member
          cases member
        · simp [first] at early
      rw [perOccurrence, perOccurrence_eq _ _ sound.free, filled_of_escaped _ _ none]
    · obtain ⟨orderly', same⟩ := orderly.fill sound first
      obtain ⟨t', settled, text⟩ := ih orderly' sound.fill
      exact ⟨t', by rw [more, ← settled], by rw [text, same]⟩

end Rounds

end CollectorFormal.Confmap.Template
