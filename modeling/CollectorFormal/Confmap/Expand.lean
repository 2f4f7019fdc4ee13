import CollectorFormal.Confmap.Conf
import CollectorFormal.Lib.Substring

/-! How a Resolver expands the references of a configuration.

All calls of Provider.Retrieve are logged. What a provider returns depends on the URI only. -/

namespace CollectorFormal.Confmap

open Client (Text)
open Lib

abbrev dollar : UInt8 := 36

abbrev openBrace : UInt8 := 123

abbrev closeBrace : UInt8 := 125

abbrev colon : UInt8 := 58

/-- The text `${`. -/
abbrev opening : Text := [dollar, openBrace]

/-- What Provider.Retrieve returns. A string is always its own representation. -/
structure Retrieved where
  rawConf : Value
  stringRepresentation : Option Text
  agrees : ∀ s, rawConf = .str s → stringRepresentation = none ∨ stringRepresentation = some s

inductive ExpandError where
  /-- invalid uri: %q -/
  | invalidURI (uri : Text)
  /-- the uri %q contains unsupported characters ('$') -/
  | unsupportedCharacters (uri : Text)
  /-- scheme %q is not supported for uri %q -/
  | schemeNotSupported (scheme uri : Text)
  /-- What the provider says. -/
  | retrieve (err : Text)
  /-- retrieved value does not have unambiguous string representation: %v -/
  | ambiguous (rawConf : Value)
  /-- expanding %v: %w -/
  | expanding (uri : Text) (err : ExpandError)
  /-- too many recursive expansions -/
  | tooManyRecursiveExpansions

def Retrieved.asRaw (r : Retrieved) : Value := r.rawConf

def Retrieved.asString (r : Retrieved) : Except ExpandError Text :=
  match r.stringRepresentation with
  | some text => .ok text
  | none =>
    match r.rawConf with
    | .str s => .ok s
    | raw => .error (.ambiguous raw)

theorem Retrieved.asString_str {r : Retrieved} {s : Text} (string : r.rawConf = .str s) : r.asString = .ok s := by
  rw [asString, string]
  rcases r.agrees s string with absent | present
  · rw [absent]
  · rw [present]

structure Resolver where
  providers : Text → Option (Text → Except Text Retrieved)
  /-- Empty if there is none. -/
  defaultScheme : Text

def noProviders : Resolver := ⟨fun _ => none, []⟩

abbrev Expand (m : Type → Type) := ExceptT ExpandError m

/-- The state is the log of URIs that were retrieved. -/
abbrev Calls := StateM (List Text)

structure Location where
  scheme : Text
  opaqueValue : Text

def Location.asString (c : Location) : Text := c.scheme ++ colon :: c.opaqueValue

def isSchemeRest (c : UInt8) : Bool := isLetter c || (48 ≤ c && c ≤ 57) || c == 43 || c == 46 || c == 45

/-- schemePattern, which no text with a colon matches. -/
def matchesScheme : Text → Bool
  | first :: second :: rest => isLetter first && (second :: rest).all isSchemeRest
  | _ => false

def newLocation (uri : Text) : Except ExpandError Location :=
  match cut colon uri with
  | some (scheme, value) => if matchesScheme scheme then .ok ⟨scheme, value⟩ else .error (.invalidURI uri)
  | none => .error (.invalidURI uri)

def Resolver.retrieveValue (mr : Resolver) (uri : Location) : Expand Calls Retrieved := do
  match mr.providers uri.scheme with
  | none => throw (.schemeNotSupported uri.scheme uri.asString)
  | some retrieve =>
    modify fun calls => calls ++ [uri.asString]
    match retrieve uri.asString with
    | .ok ret => pure ret
    | .error err => throw (.retrieve err)

/-- What an expansion uses of a Resolver. To retrieve a value may have any effects. -/
structure Source (m : Type → Type) where
  defaultScheme : Text
  retrieveValue : Location → Expand m Retrieved

def Resolver.source (mr : Resolver) : Source Calls := ⟨mr.defaultScheme, mr.retrieveValue⟩

namespace Source

section
variable {m : Type → Type} (mr : Source m)

/-- The URI of a reference, of which `body` stands between the braces. -/
def uriOf (body : Text) : Text := if colon ∈ body then body else mr.defaultScheme ++ colon :: body

/-- The body of the reference to expand next, if any: the text up to the first `}` is cut at the last `${` in it. -/
def findURI (input : Text) : Option Text :=
  match found : cut closeBrace input with
  | none => none
  | some (head, remaining) =>
    have := length_cut found
    let next := if closeBrace ∈ remaining then findURI remaining else none
    match cutLast opening head with
    | none => next
    | some (before, body) =>
      if mr.defaultScheme = [] ∧ colon ∉ body then next
      -- after an odd number of dollars the search is over, whatever remains
      else if trailing dollar before % 2 = 1 then none
      else some body
termination_by input.length

theorem findURI_absent {input : Text} (absent : closeBrace ∉ input) : mr.findURI input = none := by
  rw [findURI]
  split
  · rfl
  · next found => exact absurd (mem_of_cut found) absent

theorem findURI_close {head remaining : Text} (absent : closeBrace ∉ head) :
    mr.findURI (head ++ closeBrace :: remaining) =
      match cutLast opening head with
      | none => mr.findURI remaining
      | some (before, body) =>
        if mr.defaultScheme = [] ∧ colon ∉ body then mr.findURI remaining
        else if trailing dollar before % 2 = 1 then none
        else some body := by
  have next : (if closeBrace ∈ remaining then mr.findURI remaining else none) = mr.findURI remaining := by
    split
    · rfl
    · next gone => rw [mr.findURI_absent gone]
  rw [findURI]
  split
  · next missing => simp [cut_append absent] at missing
  · next found =>
      rw [cut_append absent] at found
      cases found
      rw [next]

variable [Monad m]

/-- `body` is the input without `${` and `}`. -/
def expandURI (body : Text) : Expand m Retrieved :=
  match newLocation (mr.uriOf body) with
  | .error err => throw err
  | .ok lURI =>
    if dollar ∈ lURI.opaqueValue then throw (.unsupportedCharacters lURI.asString)
    else mr.retrieveValue lURI

def reference (body : Text) : Text := opening ++ body ++ [closeBrace]

def findAndExpandURI (input : Text) : Expand m (Value × Bool) := do
  match mr.findURI input with
  | none => pure (.str input, false)
  | some body =>
    if reference body = input then
      let ret ← mr.expandURI body
      match ret.asString with
      | .ok asStr => pure (.expanded ret.asRaw asStr, true)
      | .error _ => pure (ret.asRaw, true)
    else
      let expanded ← mr.expandURI body
      match expanded.asString with
      | .ok repl => pure (.str (replaceAll (reference body) repl input), true)
      | .error err => throw (.expanding (reference body) err)

def expandString (v : Text) : Expand m (Value × Bool) :=
  if ¬ opening <:+: v ∨ closeBrace ∉ v then pure (.str v, false) else mr.findAndExpandURI v

/-- `expanded` is what the Value of an ExpandedValue became: unless it is a string, the original is expanded too. -/
def withOriginal (original : Text) (expanded : Value) (changed : Bool) : Expand m (Value × Bool) := do
  match expanded with
  | .expanded _ _ => pure (expanded, changed)
  | .str _ => pure (expanded, changed)
  | _ =>
    match ← ExceptT.lift (mr.expandString original).run with
    | .ok (.str originalExpanded, originalChanged) =>
      pure (.expanded expanded originalExpanded, changed || originalChanged)
    | _ => pure (expanded, changed)

mutual

def expandValue : Value → Expand m (Value × Bool)
  | .expanded value original => do
      let (expanded, changed) ← expandValue value
      mr.withOriginal original expanded changed
  | .str v => mr.expandString v
  | .list items => do
      let (nslice, nchanged) ← expandItems items
      pure (.list nslice, nchanged)
  | .map entries => do
      let (nmap, nchanged) ← expandEntries entries
      pure (.map nmap, nchanged)
  | value => pure (value, false)

def expandItems : List Value → Expand m (List Value × Bool)
  | [] => pure ([], false)
  | item :: rest => do
      let (val, changed) ← expandValue item
      let (nslice, nchanged) ← expandItems rest
      pure (val :: nslice, changed || nchanged)

def expandEntries : Entries → Expand m (Entries × Bool)
  | [] => pure ([], false)
  | (key, value) :: rest => do
      let (val, changed) ← expandValue value
      let (nmap, nchanged) ← expandEntries rest
      pure ((key, val) :: nmap, changed || nchanged)

end

/-- At most `rounds` rounds, the last of which changes nothing. -/
def expandRounds : Nat → Value → Expand m Value
  | 0, _ => throw .tooManyRecursiveExpansions
  | rounds + 1, value => do
      let (val, changed) ← mr.expandValue value
      if changed then expandRounds rounds val else pure val

def expandValueRecursively (value : Value) : Expand m Value := mr.expandRounds 1000 value

end

end Source

def unescape (v : Text) : Text := replaceAll [dollar, dollar] [dollar] v

def escapeDollarSigns (val : Value) : Value := val.mapStrings unescape

namespace Source
variable {m : Type → Type} [Monad m] (mr : Source m)

/-- What Resolve does with the value of one key. -/
def resolveValue (value : Value) : Expand m Value := do
  let val ← mr.expandValueRecursively value
  pure (escapeDollarSigns val)

def resolveKeys : List (Text × Value) → Expand m (List (Text × Value))
  | [] => pure []
  | (k, value) :: rest => do
      let val ← mr.resolveValue value
      let cfgMap ← resolveKeys rest
      pure ((k, val) :: cfgMap)

/-- What Resolve does with the configuration that was merged from all locations. -/
def resolve (retMap : Entries) : Expand m Value := do
  let cfgMap ← mr.resolveKeys (Value.flattened retMap)
  pure (Value.unflattened cfgMap)

variable [LawfulMonad m]

theorem expandItems_same {items : List Value} (same : ∀ item ∈ items, mr.expandValue item = pure (item, false)) :
    mr.expandItems items = pure (items, false) := by
  induction items with
  | nil => rw [expandItems]
  | cons item rest ih =>
    rw [List.forall_mem_cons] at same
    rw [expandItems, same.1, ih same.2]
    simp only [pure_bind, Bool.or_self]

theorem expandEntries_same {entries : Entries}
    (same : ∀ entry ∈ entries, mr.expandValue entry.2 = pure (entry.2, false)) :
    mr.expandEntries entries = pure (entries, false) := by
  induction entries with
  | nil => rw [expandEntries]
  | cons entry rest ih =>
    rw [List.forall_mem_cons] at same
    rw [expandEntries, same.1, ih same.2]
    simp only [pure_bind, Bool.or_self]

theorem expandValue_same {value : Value} (same : value.Every fun s => mr.expandString s = pure (.str s, false)) :
    mr.expandValue value = pure (value, false) := by
  induction value with
  | str s => rw [expandValue, same]
  | list items ih =>
    rw [Value.every_list] at same
    rw [expandValue, mr.expandItems_same fun item member => ih item member (same item member), pure_bind]
  | map entries ih =>
    rw [Value.every_map] at same
    rw [expandValue, mr.expandEntries_same fun entry member => ih entry member (same entry member), pure_bind]
  | expanded value original ih => exact same.elim
  | _ => rw [expandValue] <;> simp

theorem resolveValue_same {value : Value} (same : value.Every fun s => mr.expandString s = pure (.str s, false)) :
    mr.resolveValue value = pure (escapeDollarSigns value) := by
  rw [resolveValue, expandValueRecursively, expandRounds, mr.expandValue_same same]
  simp

end Source

end CollectorFormal.Confmap
