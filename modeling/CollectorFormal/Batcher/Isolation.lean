import CollectorFormal.Batcher.Acknowledge
import CollectorFormal.Batcher.MultiBatcher

/-! Requests of different keys are kept apart, whatever leaves the cache meanwhile. -/

namespace CollectorFormal.Batcher

open CollectorFormal.Batch Lib List

variable {K Req E β : Type}

/-- MergeSplit takes all data from the requests it is given: that of its results and what is left in its receiver. -/
def Draws (kind : RequestKind Req E) (cfg : BatchConfig) (data : Req → List β) : Prop :=
  ∀ req r2, let r := kind.mergeSplit cfg.maxSize cfg.sizer req r2
    ∀ result ∈ r.receiver :: r.reqList, data result ⊆ data req ++ r2.elim [] data

def Ledger.Only (data : Req → List β) (p : β → Prop) (l : Ledger Req E) : Prop :=
  ∀ batch, l.Holds batch → ∀ item ∈ data batch.req, p item

section partition
variable {kind : RequestKind Req E} {cfg : BatchConfig} {data : Req → List β} {p : β → Prop}
  (draws : Draws kind cfg data)
include draws

theorem Draws.consumed {currentBatch : Option (Batch Req)} {req : Req} (call : Nat)
    (current : ∀ batch ∈ currentBatch, ∀ item ∈ data batch.req, p item) (new : ∀ item ∈ data req, p item) :
    let consumed := consumeInternal kind cfg currentBatch call req
    ∀ batch, consumed.currentBatch = some batch ∨ batch ∈ consumed.flushes → ∀ item ∈ data batch.req, p item := by
  let r := mergeSplitWith kind cfg currentBatch req
  have answered : ∀ result ∈ r.receiver :: r.reqList, ∀ item ∈ data result, p item := by
    intro result member item inside
    cases currentBatch with
    | none => exact new item (by simpa using draws req none result member inside)
    | some batch =>
      exact (mem_append.mp (draws batch.req (some req) result member inside)).elim (current batch rfl item) (new item)
  have spec := consumeInternal_spec kind cfg currentBatch call req
  intro consumed batch inside
  simp only at spec
  split at spec
  · rw [spec.current, spec.flushes] at inside
    rcases inside with kept | flushed
    · obtain ⟨old, _, rfl⟩ := Option.map_eq_some_iff.mp kept
      exact answered _ mem_cons_self
    · cases flushed
  · exact answered _ (mem_cons_of_mem _ (spec.result inside))

theorem LedgerStep.only {l after : Ledger Req E}
    (step : LedgerStep kind cfg (fun _ req => ∀ item ∈ data req, p item) l after) (only : l.Only data p) :
    after.Only data p := by
  cases step with
  | consume call req brought fresh =>
    have new := draws.consumed call (fun batch here => only batch (.inl here)) brought
    rintro batch (kept | live | finished)
    · exact new batch (.inl kept)
    · rcases Multiset.mem_add.mp live with before | flushed
      · exact only batch (.inr (.inl before))
      · exact new batch (.inr (Multiset.mem_coe.mp flushed))
    · exact only batch (.inr (.inr finished))
  | take taken current => exact fun batch holds => only batch ((Ledger.holds_take current).mp holds)
  | finish ended err rest live => exact fun batch holds => only batch ((Ledger.holds_finish err live).mp holds)
  | tell => exact only

theorem Reached.only {onEmpty : Bool} {s : PartitionState Req E}
    (reached : Reached (PartitionStep kind cfg) (Bringing fun _ req => ∀ item ∈ data req, p item)
      (newPartition onEmpty) s) : s.ledger.Only data p := by
  have both : Numbered (fun _ req => ∀ item ∈ data req, p item) s ∧ s.ledger.Only data p := by
    induction reached with
    | start =>
      rw [newPartition_ledger]
      exact ⟨⟨.refl _, by simp [newPartition]⟩, by simp [Ledger.Only, Ledger.Holds]⟩
    | step _ brought step ih =>
      obtain ⟨numbered, only⟩ := ih
      refine ⟨step.numbered brought numbered, ?_⟩
      rcases step.ledger numbered with same | moved
      · rw [same]
        exact only
      · exact moved.only draws only
  exact both.2

end partition

section routing
variable [Lru K Nat] {kind : RequestKind Req E} {cfg : BatchConfig} {capacity maxWorkers : Nat}
  {label : MultiLabel K Req} {s t : MultiState K Req E} {brings : K → Req → Prop}

/-- Every key is cached with a partition of its own. -/
def Cached (keys : List K) (cache : List (K × Nat)) : Prop := ∀ entry ∈ cache, keys[entry.2]? = some entry.1

theorem Cached.get {keys : List K} {cache after : List (K × Nat)} {key : K} {partition : Nat}
    (cached : Cached keys cache) (found : Lru.get key cache = some (partition, after)) :
    Cached keys after ∧ keys[partition]? = some key := by
  obtain ⟨member, kept⟩ := Lru.get_some found
  exact ⟨fun entry inside => cached entry (kept inside), cached _ member⟩

theorem Cached.add {keys : List K} {cache : List (K × Nat)} (cached : Cached keys cache) (capacity : Nat) (key : K) :
    Cached (keys ++ [key]) (Lru.add capacity key keys.length cache).1 := by
  intro entry member
  rcases mem_cons.mp (Lru.add_subset member) with rfl | old
  · simp
  · have here := cached entry old
    rw [getElem?_append_left (List.getElem?_eq_some_iff.mp here).1, here]

def Asking (brings : K → Req → Prop) : MultiLabel K Req → MultiState K Req E → Prop
  | .consume key req, _ => brings key req
  | _, _ => True

structure Routed (brings : K → Req → Prop) (s : MultiState K Req E) : Prop where
  cached : Cached s.keys s.cache
  /-- A call that got its partition has one of its own key. -/
  called : ∀ partition req evicted, s.lock = some ⟨.getPartition partition req, evicted⟩ →
    ∃ key, s.keys[partition]? = some key ∧ brings key req

theorem MultiStep.routed (step : MultiStep kind cfg capacity label s t) (asked : Asking brings label s)
    (routed : Routed brings s) : Routed brings t := by
  obtain ⟨cached, called⟩ := routed
  cases step with
  | hit _ key req partition cache free found =>
    refine ⟨(cached.get found).1, ?_⟩
    rintro _ _ _ ⟨⟩
    exact ⟨key, (cached.get found).2, asked⟩
  | create _ key req free missing =>
    refine ⟨by simpa [MultiState.keys] using cached.add capacity key, ?_⟩
    rintro _ _ _ ⟨⟩
    exact ⟨key, by simp [MultiState.keys], asked⟩
  | remove => exact ⟨fun entry kept => cached entry (Lru.remove_subset kept), by rintro _ _ _ ⟨⟩⟩
  | purge => exact ⟨by rintro _ ⟨⟩, by rintro _ _ _ ⟨⟩⟩
  | shutdown => exact ⟨by rwa [MultiState.keys, map_shutdownAll _ fun _ => rfl], by rintro _ _ _ ⟨⟩⟩
  | evict _ front back x _ caller evicted _ _ lock partitions =>
    rw [MultiState.keys, partitions] at cached called
    refine ⟨by simpa [MultiState.keys] using cached, ?_⟩
    rintro partition req _ ⟨⟩
    simpa [MultiState.keys] using called partition req _ lock
  | called _ front back x _ _ _ partitions | removed _ front back x _ _ partitions =>
    rw [MultiState.keys, partitions] at cached
    exact ⟨by simpa [MultiState.keys] using cached, by rintro _ _ _ ⟨⟩⟩
  | inside _ front back x _ _ _ _ _ partitions =>
    rw [MultiState.keys, partitions] at cached called
    exact ⟨by simpa [MultiState.keys] using cached, by simpa [MultiState.keys] using called⟩
  | purged => exact ⟨cached, by rintro _ _ _ ⟨⟩⟩

theorem Reached.routed
    (reached : Reached (MultiStep kind cfg capacity) (Asking brings) (newMultiBatcher maxWorkers) s) :
    Routed brings s ∧ ∀ x ∈ s.partitions,
      Reached (PartitionStep kind cfg) (Bringing fun _ => brings x.key) (newPartition true) x.batcher := by
  induction reached with
  | start => exact ⟨⟨nofun, nofun⟩, nofun⟩
  | step _ asked step ih =>
    obtain ⟨routed, each⟩ := ih
    refine ⟨step.routed asked routed, fun y member => ?_⟩
    rcases step.partition member with fresh | ⟨x, inside, rfl | ⟨key, label, moved, called⟩⟩
    · rw [fresh]
      exact .start
    · exact each y inside
    · rw [← key]
      refine (each x inside).next moved ?_
      cases label with
      | consume req =>
        obtain ⟨partition, at_x, lock⟩ := called req rfl
        obtain ⟨_, at_key, brought⟩ := routed.called _ _ _ lock
        cases at_x.symm.trans at_key
        exact brought
      | _ => trivial

end routing

section logs
variable {R S L : Type} [Inhabited R] [Inhabited S]

omit [Inhabited R] [Inhabited S] in
theorem splitting_suffix (splitter : Splitter (ResourceLogs R S L) β) (maxSize : Int) (res : List (LogsRequest R S L))
    (req : LogsRequest R S L) :
    (splitter.splitting maxSize res req).2.data.flatMap splitter.content <:+ req.data.flatMap splitter.content := by
  fun_induction splitter.splitting maxSize res req with
  | case1 res req sized exceeds ext left none => exact ⟨_, splitter.conserves req.data maxSize⟩
  | case2 res req sized exceeds ext left some resized ih =>
    exact ih.trans ⟨_, splitter.conserves req.data maxSize⟩
  | case3 => exact suffix_rfl

theorem Splitter.Accounts.subset {C : Type} {splitter : Splitter C β} {whole : List β}
    {answer : List (SignalRequest C) × Option MergeError} (accounts : splitter.Accounts whole answer) :
    flattenAll splitter.content answer.1 ⊆ whole := by
  match answer, accounts with
  | (_, none), all => exact fun _ inside => all ▸ inside
  | (_, some _), ⟨missing, same, _⟩ => exact same ▸ subset_append_left _ missing

theorem logs_draws (wire : TreeWire R S L) (cfg : BatchConfig) : Draws (logsKind wire) cfg logsRecords := by
  intro req r2
  rcases known : logsSplitters wire cfg.sizer with _ | splitter
  · simp [logsKind, LogsRequest.mergeSplit, mergeSplit, logsReceiver, known]
  · have content : splitter.content = flattenResource := by
      cases szt : cfg.sizer <;> rw [szt] at known <;> cases known <;> rfl
    rw [logsKind_answer known, ← merged_records splitter.size]
    have left := splitting_suffix splitter cfg.maxSize [] (req.merged splitter.size r2)
    have within := Splitter.Accounts.subset (splitter.split_accounts cfg.maxSize [] (req.merged splitter.size r2))
    rw [content] at left within
    split
    · simp
    · refine forall_mem_cons.mpr ⟨left.subset, fun result member item inside => ?_⟩
      exact within (mem_flatMap.mpr ⟨result, member, inside⟩)

/-- Whatever the order of calls, evictions, removals and flushes: records of different keys never share a batch. -/
theorem logs_isolated [Lru K Nat] {wire : TreeWire R S L} {cfg : BatchConfig} {capacity maxWorkers : Nat}
    {owner : R × String × S × String × L → K} {s : MultiState K (LogsRequest R S L) MergeError}
    (reached : Reached (MultiStep (logsKind wire) cfg capacity)
      (Asking fun key req => ∀ record ∈ logsRecords req, owner record = key) (newMultiBatcher maxWorkers) s) :
    ∀ x ∈ s.partitions, ∀ batch, x.batcher.ledger.Holds batch →
      ∀ record ∈ logsRecords batch.req, owner record = x.key :=
  fun x member => Reached.only (logs_draws wire cfg) ((Reached.routed reached).2 x member)

end logs

/-- Two requests with keys of their own are taken up by their partitions. -/
theorem logs_isolated_two : ∃ s : MultiState Nat (LogsRequest Unit Unit Nat) MergeError,
    s.keys = [7, 8] ∧ s.cache = [(8, 1), (7, 0)] ∧ (∀ x ∈ s.partitions, x.batcher.unhanded.length = 1) ∧
    ∀ x ∈ s.partitions, ∀ batch, x.batcher.ledger.Holds batch →
      ∀ record ∈ logsRecords batch.req, record.2.2.2.2 = x.key := by
  let brings (key : Nat) (req : LogsRequest Unit Unit Nat) :=
    ∀ record ∈ logsRecords req, record.2.2.2.2 = key
  have own (key : Nat) : brings key (numbered key) := by
    rintro record (_ | ⟨_, ⟨⟩⟩)
    rfl
  have fresh : Reached (MultiStep (logsKind unitWire) unlimited 2) (Asking brings) (newMultiBatcher 1)
      (newMultiBatcher 1 : MultiState Nat (LogsRequest Unit Unit Nat) MergeError) := .start
  have called := fresh.next (.create _ 7 (numbered 7) rfl rfl) (own 7)
    |>.next (.called _ [] [] _ _ _ rfl rfl (.consume _ _)) trivial
    |>.next (.create _ 8 (numbered 8) rfl rfl) (own 8)
    |>.next (.called _ [_] [] _ _ _ rfl rfl (.consume _ _)) trivial
    |>.next (.inside _ [] [_] _ _ _ 1 rfl nofun rfl (.move [_] [] rfl (.consume _ 0 (numbered 7)))) trivial
    |>.next (.inside _ [_] [] _ _ _ 1 rfl nofun rfl (.move [_] [] rfl (.consume _ 0 (numbered 8)))) trivial
  exact ⟨_, rfl, rfl, by decide, logs_isolated called⟩

end CollectorFormal.Batcher
