import CollectorFormal.Confmap.Settle

/-! Whether a reference is expanded, in a text with other references, which are filled in round by round. -/

namespace CollectorFormal.Confmap

open Client (Text)
open Lib List Template Source

/-- The computation returns the value, whatever was retrieved before. -/
def Expand.Yields {α : Type} (m : Expand Calls α) (value : α) : Prop :=
  ∀ calls, ∃ calls', m.run.run calls = (.ok value, calls')

namespace Expand.Yields
variable {α β : Type} {m : Expand Calls α} {value : α}

theorem pure (value : α) : Yields (Pure.pure value : Expand Calls α) value :=
  fun calls => ⟨calls, rfl⟩

theorem run_bind {f : α → Expand Calls β} (first : Yields m value) (calls : List Text) :
    ∃ middle, (m >>= f).run.run calls = (f value).run.run middle := by
  obtain ⟨middle, ran⟩ := first calls
  refine ⟨middle, ?_⟩
  rw [ExceptT.run_bind, StateT.run_bind, ran]
  rfl

theorem bind {f : α → Expand Calls β} {result : β} (first : Yields m value) (second : Yields (f value) result) :
    Yields (m >>= f) result := by
  intro calls
  obtain ⟨middle, ran⟩ := first.run_bind (f := f) calls
  rw [ran]
  exact second middle

end Expand.Yields

def Value.text : Value → Option Text
  | .str s => some s
  | .expanded _ original => some original
  | _ => none

namespace Resolver
variable {mr : Resolver} {values : Ref → Text}

/-- The text to which Resolve brings a string. -/
def resolvedText (mr : Resolver) (s : Text) (calls : List Text) : Option Text :=
  match ((mr.source.resolveValue (.str s)).run.run calls).1 with
  | .ok value => value.text
  | .error _ => none

/-- A provider answers to the reference, and all of its answer is free of dollars and braces. -/
def Provides (mr : Resolver) (values : Ref → Text) (r : Ref) : Prop :=
  ∃ retrieve ret, mr.providers r.scheme = some retrieve ∧ retrieve r.body = .ok ret ∧
    ret.asString = .ok (values r) ∧ ret.rawConf.Every Free

theorem expandURI_yields {r : Ref} (provides : mr.Provides values r) :
    ∃ ret : Retrieved, (mr.source.expandURI r.body).Yields ret ∧ ret.asString = .ok (values r) ∧ ret.rawConf.Every Free := by
  obtain ⟨retrieve, ret, known, answer, asString, free⟩ := provides
  refine ⟨ret, ?_, asString, free⟩
  have location : newLocation (mr.source.uriOf r.body) = .ok ⟨r.scheme, r.name⟩ := by
    have whole : mr.source.uriOf r.body = r.body := if_pos (by simp [Ref.body])
    rw [whole, newLocation, r.cut_body]
    exact if_pos r.valid
  have uri : Location.asString ⟨r.scheme, r.name⟩ = r.body := rfl
  have expand : mr.source.expandURI r.body = mr.retrieveValue ⟨r.scheme, r.name⟩ := by
    rw [expandURI, location]
    exact if_neg r.free.1
  intro calls
  refine ⟨calls ++ [r.body], ?_⟩
  rw [expand, retrieveValue]
  simp only [known, uri, answer]
  rfl

theorem findURI_reference {lit : Text} (first : Literal lit) (r : Ref) (s : Text) :
    mr.source.findURI (lit ++ (r.text ++ s)) = if escapes lit then none else some r.body := by
  induction size : lit.length using Nat.strong_induction_on generalizing lit with
  | _ size' ih =>
    by_cases present : closeBrace ∈ lit
    · obtain ⟨head, lit', split, absent⟩ := eq_append_cons_of_mem present
      rw [split] at first size
      have shorter : lit'.length < size' := by
        rw [← size, length_append, length_cons]
        omega
      have parity : escapes lit = escapes lit' := by
        rw [escapes, escapes, split, trailing_append_cons _ _ (by decide)]
      have later := ih lit'.length shorter first.of_append_right.of_cons rfl
      rw [split, append_assoc, cons_append, findURI_close mr.source absent, cutLast_none first.of_append_left, later,
        ← parity, split]
    · have split : lit ++ (r.text ++ s) = lit ++ opening ++ r.body ++ closeBrace :: s := by
        rw [Ref.text_append]
        simp
      have absent : closeBrace ∉ lit ++ opening ++ r.body := by
        rw [mem_append, mem_append, not_or, not_or]
        exact ⟨⟨present, by decide⟩, r.free_body.2.2⟩
      have last : ¬ opening <:+: [openBrace] ++ r.body := by
        intro inside
        have member : dollar ∈ [openBrace] ++ r.body := inside.subset mem_cons_self
        rw [mem_append] at member
        rcases member with brace | body
        · revert brace
          decide
        · exact r.free_body.1 body
      have schemed : ¬ (mr.source.defaultScheme = [] ∧ colon ∉ r.body) := by simp [Ref.body]
      rw [split, findURI_close mr.source absent, cutLast_append last]
      simp only [if_neg schemed, escapes, decide_eq_true_eq]

theorem expandString_literal {s : Text} (lit : Literal s) : mr.source.expandString s = pure (.str s, false) :=
  if_pos (.inl lit)

/-- What the value looks like while the template is expanded: its text, or what the provider returned for the one
reference left. -/
def Shows (value : Value) (t : Template) : Prop :=
  value = .str t.render ∨
    t.rest = [] ∧ Free t.first ∧ ∃ raw, value = .expanded raw t.first ∧ raw.Every Free ∧ ∀ s, raw = .str s → s = t.first

section Rounds
variable {t : Template} {piece : Ref × Text} {later : List (Ref × Text)}

theorem expandString_render (rest : t.rest = piece :: later) (first : Literal t.first) :
    mr.source.expandString t.render = mr.source.findAndExpandURI t.render ∧
      mr.source.findURI t.render = if escapes t.first then none else some piece.1.body := by
  have text : t.render = t.first ++ (piece.1.text ++ (piece.2 ++ Template.tail later)) := by
    rw [Template.render, rest, Template.tail_cons]
  have opened : ¬ (¬ opening <:+: t.render ∨ closeBrace ∉ t.render) := by
    rw [not_or, not_not, not_not, text, Ref.text_append]
    refine ⟨⟨t.first, piece.1.body ++ closeBrace :: (piece.2 ++ Template.tail later), ?_⟩, ?_⟩ <;> simp
  refine ⟨if_neg opened, ?_⟩
  rw [text]
  exact findURI_reference first piece.1 _

theorem replaceAll_render (r : Ref) (lit : Text) (rest : List (Ref × Text)) (first : Literal lit)
    (others : ∀ piece ∈ rest, Literal piece.2) :
    replaceAll r.text (values r) (lit ++ Template.tail rest) =
      Template.filledAfter (fun _ r' => r' = r) values lit rest := by
  induction rest generalizing lit with
  | nil =>
    rw [first.replaceAll_append (head_tail [])]
    exact append_nil lit
  | cons piece rest ih =>
    rw [forall_mem_cons] at others
    rw [first.replaceAll_append (Template.head_tail _), Template.tail_cons, Template.filledAfter]
    by_cases same : piece.1 = r
    · rw [same, Ref.replaceAll_same, ih _ others.1 others.2, if_pos (by simp)]
      simp
    · rw [Ref.replaceAll_other (Ne.symm same), ih _ others.1 others.2, if_neg (by simpa using same)]
      simp

theorem single_reference {r : Ref} (sound : t.Sound values) (whole : r.text = t.render) :
    t.fill (fun _ r' => r' = r) values = ⟨values r, []⟩ := by
  have empty : Literal [] := by simp [Literal]
  have refs : Template.refs ⟨[], [(r, [])]⟩ = t.refs := by
    apply refs_of_render empty (by simpa using empty) sound.first sound.rest
    rw [← whole]
    simp [Template.render, Template.tail]
  obtain ⟨lit, rest⟩ := t
  cases rest with
  | nil => cases refs
  | cons piece more =>
    obtain ⟨same, none⟩ := List.cons.inj refs
    obtain ⟨r', l⟩ := piece
    have same : r = r' := same
    obtain rfl : more = [] := map_eq_nil_iff.mp none.symm
    have sizes := congrArg List.length whole
    simp only [Template.render, Template.tail_cons, same, length_append] at sizes
    have front : lit = [] := eq_nil_of_length_eq_zero (by omega)
    have back : l = [] := eq_nil_of_length_eq_zero (by omega)
    rw [front, back, same]
    simp [Template.fill, Template.fillAfter]

theorem expandString_round (rest : t.rest = piece :: later) (sound : t.Sound values)
    (unescaped : escapes t.first = false) (provides : mr.Provides values piece.1) :
    ∃ value, (mr.source.expandString t.render).Yields (value, true) ∧
      Shows value (t.fill (fun _ r => r = piece.1) values) := by
  obtain ⟨expand, found⟩ := mr.expandString_render rest sound.first
  rw [unescaped, if_neg Bool.false_ne_true] at found
  obtain ⟨ret, retrieved, asString, free⟩ := expandURI_yields provides
  have own : Free (values piece.1) := sound.free piece (by rw [rest]; exact mem_cons_self)
  rw [expand, findAndExpandURI, found]
  by_cases whole : reference piece.1.body = t.render
  · refine ⟨.expanded ret.asRaw (values piece.1), ?_, .inr ?_⟩
    · simp only [if_pos whole]
      apply Expand.Yields.bind retrieved
      rw [asString]
      exact Expand.Yields.pure _
    · rw [single_reference sound whole]
      refine ⟨rfl, own, ret.asRaw, rfl, free, ?_⟩
      intro s string
      rw [ret.asString_str string] at asString
      exact Except.ok.inj asString
  · refine ⟨.str (replaceAll piece.1.text (values piece.1) t.render), ?_, .inl ?_⟩
    · simp only [if_neg whole]
      apply Expand.Yields.bind retrieved
      rw [asString]
      exact Expand.Yields.pure _
    · rw [render_fill, Template.render, replaceAll_render _ _ _ sound.first sound.rest]
      rfl

theorem expandValue_last {value : Value} (shows : Shows value t) (literal : Literal t.first) (rest : t.rest = []) :
    ∃ value', mr.source.expandValue value = pure (value', false) ∧ Shows value' t := by
  have text : t.render = t.first := by
    rw [Template.render, rest]
    exact append_nil _
  rcases shows with string | ⟨_, free, raw, expanded, all, agrees⟩
  · refine ⟨value, ?_, .inl string⟩
    rw [string, expandValue, text, expandString_literal literal]
  · have same : mr.source.expandValue raw = pure (raw, false) :=
      mr.source.expandValue_same (all.mono fun s free => expandString_literal (Literal.of_free free))
    have kept (other : mr.source.withOriginal t.first raw false = pure (.expanded raw t.first, false)) :
        ∃ value', mr.source.withOriginal t.first raw false = pure (value', false) ∧ Shows value' t :=
      ⟨.expanded raw t.first, other, .inr ⟨rest, free, raw, rfl, all, agrees⟩⟩
    rw [expanded, expandValue, same, pure_bind]
    cases raw with
    | str s => exact ⟨.str s, rfl, .inl (by rw [agrees s rfl, text])⟩
    | expanded raw original => exact all.elim
    | _ =>
      apply kept
      rw [withOriginal.eq_def, expandString_literal literal]
      rfl

end Rounds

theorem expandRounds_same {rounds : Nat} {value value' : Value} (same : mr.source.expandValue value = pure (value', false)) :
    (mr.source.expandRounds (rounds + 1) value).Yields value' := by
  rw [expandRounds, same]
  exact Expand.Yields.pure value'

theorem expandRounds_settle (rounds : Nat) {t t' : Template} {value : Value} (shows : Shows value t)
    (sound : t.Sound values) (provides : ∀ r ∈ t.refs, mr.Provides values r)
    (settled : t.settle values rounds = some t') :
    ∃ value', (mr.source.expandRounds rounds value).Yields value' ∧ Shows value' t' := by
  induction rounds generalizing t value with
  | zero => cases settled
  | succ rounds ih =>
    cases rest : t.rest with
    | nil =>
      obtain ⟨value', same, still⟩ := mr.expandValue_last shows sound.first rest
      rw [Template.settle, Template.next, rest] at settled
      cases settled
      exact ⟨value', expandRounds_same same, still⟩
    | cons piece later =>
      have string : value = .str t.render := by
        rcases shows with string | ⟨empty, _⟩
        · exact string
        · rw [rest] at empty
          cases empty
      cases parity : escapes t.first with
      | true =>
        obtain ⟨expand, found⟩ := mr.expandString_render rest sound.first
        rw [parity, if_pos rfl] at found
        simp only [Template.settle, Template.next, rest, parity, if_pos] at settled
        cases settled
        refine ⟨value, expandRounds_same ?_, shows⟩
        rw [string, expandValue, expand, findAndExpandURI, found]
      | false =>
        have listed : piece.1 ∈ t.refs := by
          rw [Template.refs, rest]
          exact mem_cons_self
        obtain ⟨value', round, still⟩ := expandString_round rest sound parity (provides piece.1 listed)
        have fewer : ∀ r ∈ (t.fill (fun _ r => r = piece.1) values).refs, mr.Provides values r := by
          intro r member
          rw [Template.fill, refs_fill_one] at member
          exact provides r (mem_of_mem_filter member)
        simp only [Template.settle, Template.next, rest, parity, if_neg Bool.false_ne_true] at settled
        obtain ⟨last, yields, shown⟩ := ih still sound.fill fewer settled
        rw [expandRounds, string, expandValue]
        exact ⟨last, round.bind yields, shown⟩

theorem text_escapeDollarSigns {value : Value} {t : Template} (shows : Shows value t) :
    (escapeDollarSigns value).text = some (unescape t.render) := by
  rcases shows with string | ⟨rest, free, raw, expanded, _⟩
  · rw [string]
    rfl
  · rw [expanded, Template.render, rest]
    simp [escapeDollarSigns, Value.mapStrings, Value.text, Template.tail]

end Resolver

section Environment

/-- An environment in which the variable E is empty and every other one is `v`. -/
def valueOf (r : Ref) : Text := if r.name = ascii "E" then [] else ascii "v"

def environment : Resolver where
  providers scheme :=
    if scheme = ascii "env" then
      some fun uri => .ok ⟨.str (if uri = ascii "env:E" then [] else ascii "v"), none, by simp⟩
    else none
  defaultScheme := []

def variableA : Ref := ⟨ascii "env", ascii "A", by decide, by decide⟩

def variableB : Ref := ⟨ascii "env", ascii "B", by decide, by decide⟩

def variableE : Ref := ⟨ascii "env", ascii "E", by decide, by decide⟩

def escapedFirst : Template := ⟨ascii "$", [(variableA, ascii " "), (variableB, [])]⟩

def escapedCopy : Template := ⟨[], [(variableA, ascii " $"), (variableA, [])]⟩

def escapedLast : Template := ⟨[], [(variableE, ascii " "), (variableA, ascii " $"), (variableB, [])]⟩

def emptyBetween : Template := ⟨ascii "$$", [(variableE, ascii "\x7benv:A\x7d "), (variableB, [])]⟩

end Environment

end CollectorFormal.Confmap
