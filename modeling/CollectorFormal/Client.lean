import CollectorFormal.Lib.Assoc

/-! The metadata of a client. Go strings are byte strings, and strings.ToLower is a parameter. -/

namespace CollectorFormal.Client

open Lib List

abbrev Text := List UInt8

/-- The entries of the map in the order of an iteration. -/
structure Metadata where
  data : List (Text × List Text)

/-- The Metadata of an Info that was not set. -/
def Metadata.empty : Metadata := ⟨[]⟩

/-- `md` lists the entries of the map in the order of the iteration. -/
def newMetadata (toLower : Text → Text) (md : List (Text × List Text)) : Metadata :=
  ⟨md.foldl (fun c entry => set (toLower entry.1) entry.2 c) []⟩

def Metadata.keys (m : Metadata) : List Text := m.data.map Prod.fst

def Metadata.get (toLower : Text → Text) (m : Metadata) (key : Text) : List Text :=
  if m.data.length = 0 then [] else (find (toLower key) m.data).getD []

structure Context where
  info : Option Metadata := none

def fromContext (ctx : Context) : Metadata := ctx.info.getD .empty

/-- Configurations refuse metadata_keys that differ in case at most: the duplicate in lower case, if any. `uniq` has
the keys so far. -/
def checkKeys (toLower : Text → Text) (uniq : List Text) : List Text → Option Text
  | [] => none
  | key :: rest =>
    if toLower key ∈ uniq then some (toLower key) else checkKeys toLower (toLower key :: uniq) rest

/-- ToLower on names in ASCII. -/
def asciiLower (text : Text) : Text :=
  text.map fun byte => if 65 ≤ byte ∧ byte ≤ 90 then byte + 32 else byte

variable {toLower : Text → Text}

theorem Metadata.get_eq (m : Metadata) (key : Text) : m.get toLower key = (find (toLower key) m.data).getD [] := by
  rw [get]
  split
  · next none => rw [length_eq_zero_iff.mp none, find, Option.getD_none]
  · rfl

theorem find_foldl_set (md start : List (Text × List Text)) (key : Text) (values : List Text)
    (agree : ∀ entry ∈ md, toLower entry.1 = key → entry.2 = values)
    (present : (find key start).getD [] = values ∨ ∃ entry ∈ md, toLower entry.1 = key) :
    (find key (md.foldl (fun c entry => set (toLower entry.1) entry.2 c) start)).getD [] = values := by
  induction md generalizing start with
  | nil =>
    rcases present with set | ⟨entry, member, -⟩
    · exact set
    · cases member
  | cons entry rest ih =>
    rw [foldl_cons]
    apply ih
    · intro other member
      exact agree other (mem_cons_of_mem _ member)
    · by_cases here : toLower entry.1 = key
      · left
        rw [here, find_set_same, Option.getD_some]
        exact agree entry mem_cons_self here
      · rw [find_set_other (Ne.symm here)]
        rcases present with set | ⟨other, member, same⟩
        · exact .inl set
        · rcases mem_cons.mp member with rfl | later
          · exact absurd same here
          · exact .inr ⟨other, later, same⟩

theorem newMetadata_get (md : List (Text × List Text)) (key : Text)
    (values : List Text) (agree : ∀ entry ∈ md, toLower entry.1 = toLower key → entry.2 = values)
    (present : [] = values ∨ ∃ entry ∈ md, toLower entry.1 = toLower key) :
    (newMetadata toLower md).get toLower key = values := by
  rw [Metadata.get_eq]
  exact find_foldl_set md [] (toLower key) values agree present

end CollectorFormal.Client
