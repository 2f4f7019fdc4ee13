import CollectorFormal.Batch.Items
import CollectorFormal.Batcher.PartitionBatcher

/-! Requests of logs as the batcher sees them. MergeSplit works on the request it is called on, which then has what
was merged and not taken out again. -/

namespace CollectorFormal.Batcher

open CollectorFormal.Batch List Option

section split
variable {C β : Type}

def remainder (splitter : Splitter C β) (maxSize : Int) (req : SignalRequest C) : SignalRequest C :=
  (splitter.splitting maxSize [] req).2

theorem split_grows (splitter : Splitter C β) (maxSize : Int) (res : List (SignalRequest C))
    (req : SignalRequest C) :
    res <+: (splitter.split maxSize res req).1 := by
  unfold Splitter.split
  fun_induction splitter.splitting maxSize res req with
  | case1 => exact prefix_rfl
  | case2 res req sized exceeds ext left some resized ih => exact (prefix_append _ _).trans ih
  | case3 => exact prefix_append _ _

theorem split_first {splitter : Splitter C β} {maxSize : Int} {req first : SignalRequest C}
    {rest : List (SignalRequest C)} (came : (splitter.split maxSize [] req).1 = first :: rest) :
    first.data = req.data ∨ first.data = (splitter.extract req.data maxSize).dest := by
  rw [Splitter.split, Splitter.splitting] at came
  simp only at came
  split at came
  · split at came
    · cases came
    · have grown : [{ data := (splitter.extract req.data maxSize).dest }] <+: first :: rest :=
        came ▸ split_grows splitter maxSize _ _
      exact .inr (congrArg SignalRequest.data (cons_prefix_cons.mp grown).1).symm
  · cases came
    exact .inl rfl

end split

variable {R S L : Type} [Inhabited R] [Inhabited S]

def logsReceiver (wire : TreeWire R S L) (maxSize : Int) (szt : SizerType) (req : LogsRequest R S L)
    (r2 : Option (LogsRequest R S L)) : LogsRequest R S L :=
  match logsSplitters wire szt with
  | none => req
  | some splitter =>
    let merged := req.merged splitter.size r2
    if maxSize = 0 then merged else remainder splitter maxSize merged

def logsSizeof (wire : TreeWire R S L) : SizerType → LogsRequest R S L → Int
  | .items, req => logRecordCount req.data
  | .bytes, req => (logsBytesSizer wire).treeSize req.data
  | .requests, _ => 1

structure WireSizes (R S L : Type) where
  resource : R → Nat
  scope : S → Nat
  record : L → Nat

def WireSizes.wire {R S L : Type} (sizes : WireSizes R S L) : TreeWire R S L :=
  ⟨fun resource => sizes.resource resource, fun scope => sizes.scope scope, fun record => sizes.record record⟩

omit [Inhabited R] [Inhabited S] in
theorem WireSizes.resourceSize_nonneg (sizes : WireSizes R S L) (resource : ResourceLogs R S L) :
    0 ≤ (logsBytesSizer sizes.wire).resourceSize resource := by
  apply Envelope.sizeProto_nonneg fun _ => Int.natCast_nonneg _
  exact Envelope.sizeProto_nonneg (fun _ => Int.natCast_nonneg _) fun _ => Int.natCast_nonneg _

def logsKind (wire : TreeWire R S L) : RequestKind (LogsRequest R S L) MergeError where
  sizeof := logsSizeof wire
  mergeSplit maxSize szt req r2 :=
    let answer := LogsRequest.mergeSplit wire maxSize szt (r2.map .same) req
    { reqList := answer.1, err := answer.2.toList, receiver := logsReceiver wire maxSize szt req r2 }

/-- The records of a request, each with its resource, scope and schema URLs. -/
def logsRecords (req : LogsRequest R S L) : List (R × String × S × String × L) :=
  req.data.flatMap flattenResource

omit [Inhabited R] [Inhabited S] in
theorem merged_records (size : Logs R S L → Int) (req : LogsRequest R S L) (r2 : Option (LogsRequest R S L)) :
    logsRecords (req.merged size r2) = logsRecords req ++ r2.elim [] logsRecords := by
  cases r2 with
  | none => exact (append_nil _).symm
  | some req2 => exact flatMap_append

theorem logsKind_answer {wire : TreeWire R S L} {szt : SizerType}
    {splitter : Splitter (ResourceLogs R S L) (R × String × S × String × L)}
    (known : logsSplitters wire szt = some splitter) (maxSize : Int) (req : LogsRequest R S L)
    (r2 : Option (LogsRequest R S L)) :
    (logsKind wire).mergeSplit maxSize szt req r2 =
      if maxSize = 0 then ⟨[req.merged splitter.size r2], [], req.merged splitter.size r2⟩
      else ⟨(splitter.split maxSize [] (req.merged splitter.size r2)).1,
        (splitter.split maxSize [] (req.merged splitter.size r2)).2.toList,
        remainder splitter maxSize (req.merged splitter.size r2)⟩ := by
  simp only [logsKind, LogsRequest.mergeSplit, mergeSplit, logsReceiver, known]
  by_cases unlimited : maxSize = 0
  · cases r2 with
    | none => simp only [if_pos unlimited, map_none, SignalRequest.merged, toList_none]
    | some req2 => simp only [if_pos unlimited, map_some, SignalRequest.merged, toList_none]
  · cases r2 with
    | none => simp only [if_neg unlimited, map_none, SignalRequest.merged]
    | some req2 => simp only [if_neg unlimited, map_some, SignalRequest.merged]

variable {sizes : WireSizes R S L} {cfg : BatchConfig}

theorem extractLogs_fitting (front back : Logs R S L) (capacity : Int)
    (fits : (logsBytesSizer sizes.wire).treeSize front ≤ capacity) :
    front.flatMap flattenResource <+:
      (extractLogs (logsBytesSizer sizes.wire) (front ++ back) capacity).dest.flatMap flattenResource := by
  have room : (front.map fun resource => protoDelta ((logsBytesSizer sizes.wire).resourceSize resource)).sum ≤
      capacity - (logsBytesSizer sizes.wire).treeSize [] := by
    rw [show (logsBytesSizer sizes.wire).treeSize ([] : Logs R S L) = 0 from rfl, sub_zero]
    exact fits
  have taken : front <+: (extractLogs (logsBytesSizer sizes.wire) (front ++ back) capacity).dest :=
    takeGroup_takes_fitting front back { capacityLeft := _ }
      (fun resource _ => protoDelta_pos (sizes.resourceSize_nonneg resource)) room
  obtain ⟨more, same⟩ := taken
  rw [← same, flatMap_append]
  exact prefix_append _ _

theorem extractLogs_leads {szt : SizerType} {splitter : Splitter (ResourceLogs R S L) (R × String × S × String × L)}
    (known : logsSplitters sizes.wire szt = some splitter) {maxSize : Int} {req : LogsRequest R S L}
    (fits : logsSizeof sizes.wire szt req ≤ maxSize) (back : Logs R S L) :
    logsRecords req <+: (splitter.extract (req.data ++ back) maxSize).dest.flatMap flattenResource := by
  cases szt with
  | requests => cases known
  | bytes =>
    cases known
    exact extractLogs_fitting req.data back maxSize fits
  | items =>
    cases known
    have cut := (logsSplitter logsCountSizer).conserves (req.data ++ back) maxSize
    have taken := countSizer_extract_counts.dest (req.data ++ back) maxSize
    have fits : (recordCount req.data : Int) ≤ maxSize := fits
    refine prefix_of_prefix_length_le ⟨back.flatMap flattenResource, flatMap_append.symm⟩ ⟨_, cut⟩ ?_
    rw [logsRecords, ← recordCount_eq]
    refine le_trans ?_ (taken.symm.trans (recordCount_eq _)).le
    rw [recordCount_eq, recordCount_eq, flatMap_append, length_append, ← recordCount_eq, ← recordCount_eq]
    omega

theorem logs_contract (sizes : WireSizes R S L) (valid : cfg.validate = none) :
    Contract (logsKind sizes.wire) cfg logsRecords := by
  obtain ⟨splitter, known, content⟩ : ∃ splitter, logsSplitters sizes.wire cfg.sizer = some splitter ∧
      splitter.content = flattenResource := by
    cases szt : cfg.sizer with
    | requests => simp [BatchConfig.validate, szt] at valid
    | items | bytes => exact ⟨_, rfl, rfl⟩
  have answered (req : LogsRequest R S L) (r2 : Option (LogsRequest R S L)) : ∃ missing,
      ((logsKind sizes.wire).mergeSplit cfg.maxSize cfg.sizer req r2).reqList.flatMap logsRecords ++ missing =
        logsRecords req ++ r2.elim [] logsRecords ∧
      (((logsKind sizes.wire).mergeSplit cfg.maxSize cfg.sizer req r2).err = [] → missing = []) := by
    have accounts := mergeSplit_accounts (logsSplitters sizes.wire) cfg.maxSize cfg.sizer r2 req splitter known
    have whole : flattenAll splitter.content (req :: r2.toList) = logsRecords req ++ r2.elim [] logsRecords := by
      cases r2 with
      | none | some => simp [flattenAll, logsRecords, content]
    rw [whole] at accounts
    simp only [logsKind, LogsRequest.mergeSplit]
    generalize mergeSplit (logsSplitters sizes.wire) cfg.maxSize cfg.sizer (r2.map .same) req = answer at accounts ⊢
    rcases answer with ⟨requests, _ | err⟩
    · rw [Splitter.Accounts, content] at accounts
      exact ⟨[], (append_nil _).trans accounts, fun _ => rfl⟩
    · obtain ⟨missing, sum, _⟩ := accounts
      rw [content] at sum
      exact ⟨missing, sum, fun clean => absurd clean (by simp)⟩
  refine ⟨?_, ?_, ?_⟩
  · intro req r2
    obtain ⟨missing, sum, _⟩ := answered req r2
    rw [← sum]
    exact sublist_append_left _ _
  · intro req r2 clean
    obtain ⟨missing, sum, none⟩ := answered req r2
    rw [← sum, none clean, append_nil]
  · intro req r2 first rest fits came
    have front : logsRecords req <+: logsRecords (req.merged splitter.size r2) := by
      rw [merged_records]
      exact prefix_append _ _
    rw [logsKind_answer known] at came
    split at came
    · cases came
      exact front
    · next limited =>
        have records : logsRecords first = first.data.flatMap flattenResource := rfl
        have data : (req.merged splitter.size r2).data = req.data ++ r2.elim [] SignalRequest.data := by
          cases r2 with
          | none => exact (append_nil _).symm
          | some => rfl
        rw [records]
        rcases split_first came with same | same
        · rw [same]
          exact front
        · rw [same, data]
          exact extractLogs_leads known (fits.resolve_left limited) _

def unlimited : BatchConfig := { flushTimeout := 1, sizer := .items, minSize := 0, maxSize := 0 }

def unitWire : TreeWire Unit Unit Nat := ⟨fun _ => 1, fun _ => 1, fun _ => 1⟩

def recordsOf (records : List Nat) : LogsRequest Unit Unit Nat := { data := [⟨(), "", [⟨(), "", records⟩]⟩] }

def numbered (call : Nat) : LogsRequest Unit Unit Nat := recordsOf [call]

def twoToThree : BatchConfig := { flushTimeout := 1, sizer := .items, minSize := 2, maxSize := 3 }

def twentyBytes : BatchConfig := { flushTimeout := 1, sizer := .bytes, minSize := 1, maxSize := 20 }

def lengths : WireSizes Unit Unit Nat := ⟨fun _ => 0, fun _ => 0, id⟩

end CollectorFormal.Batcher
