import Mathlib.Data.List.Destutter
import Switchback.Ledger.Dedup

/-!
# Reconciling the ledger

The operator's report compares what the ledger serves with what the store holds and what is
buffered in memory.  When the store cannot be read, the report takes the store for empty and serves
the totals that were hydrated when the store was attached.
-/

namespace Switchback

open Lib

structure UsageReconciliationTotals where
  requests : ℕ := 0
  costMicros : ℕ := 0

structure UsageReconciliationDelta where
  ledgerMinusDurableRequests : ℤ
  ledgerMinusDurableCostMicros : ℤ
  unexplainedRequests : ℤ
  unexplainedCostMicros : ℤ

structure UsageReconciliationReport where
  status : String
  billingGrade : Bool
  storeConfigured : Bool
  tenant : Option String
  durable : UsageReconciliationTotals
  ledger : UsageReconciliationTotals
  memoryFallback : UsageReconciliationTotals
  delta : UsageReconciliationDelta
  duplicateIgnoredWrites : ℕ
  memoryWrites : ℕ
  failedWrites : ℕ
  postCommitFailedWrites : ℕ
  rollupFailures : ℕ
  issues : List String

def totalsFromSummary (s : LedgerSummary) : Option String → UsageReconciliationTotals
  | some tenant =>
      let bucket := (s.byTenant.get tenant).getD (0, 0)
      { requests := bucket.1, costMicros := bucket.2 }
  | none => { requests := s.requests, costMicros := s.totalCostMicros }

/-- One round of the loop of `totalsFromRecords`. -/
def UsageReconciliationTotals.add (tenant : Option String) (totals : UsageReconciliationTotals)
    (r : UsageRecord) : UsageReconciliationTotals :=
  if tenant.all fun tenant => r.tenant = some tenant then
    { requests := Word.satAdd totals.requests 1
      costMicros := Word.satAdd totals.costMicros (r.costMicros.getD 0) }
  else totals

def totalsFromRecords (records : List UsageRecord) (tenant : Option String) :
    UsageReconciliationTotals :=
  records.foldl (UsageReconciliationTotals.add tenant) {}

def reconciliationDelta (ledger durable memory : UsageReconciliationTotals) :
    UsageReconciliationDelta :=
  let requests := Word.wrapSubI64 (Word.toI64 ledger.requests) (Word.toI64 durable.requests)
  let costMicros := Word.wrapSubI64 (Word.toI64 ledger.costMicros) (Word.toI64 durable.costMicros)
  { ledgerMinusDurableRequests := requests
    ledgerMinusDurableCostMicros := costMicros
    unexplainedRequests := Word.wrapSubI64 requests (Word.toI64 memory.requests)
    unexplainedCostMicros := Word.wrapSubI64 costMicros (Word.toI64 memory.costMicros) }

namespace UsageLedger

/-- What the store holds, the issue that reading it raises, and the ledger after the read. -/
def durableTotals (l : UsageLedger) (tenant : Option String) (fault : Option StoreError) :
    UsageReconciliationTotals × List String × UsageLedger :=
  match l.store with
  | some store =>
      match store.usageRollup fault with
      | .ok rollup => (totalsFromSummary (rollupToSummary rollup) tenant, [], l)
      | .error e => ({}, ["durable_rollup_failed"], l.markRollupFailure e.message)
  | none => ({}, ["state_store_disabled"], l)

/-- Compare the served totals of a scope with the durable and the buffered ones. -/
def reconcile (l : UsageLedger) (tenant : Option String) (fault : Option StoreError) :
    UsageReconciliationReport × UsageLedger :=
  let memory := totalsFromRecords l.records tenant
  let (durable, readIssues, l) := l.durableTotals tenant fault
  let ledger : UsageReconciliationTotals :=
    if l.store.isSome && !readIssues.contains "durable_rollup_failed" then
      { requests := Word.satAdd durable.requests memory.requests
        costMicros := Word.satAdd durable.costMicros memory.costMicros }
    else totalsFromSummary (applyRecords l.base l.records) tenant
  let health := l.health
  let delta := reconciliationDelta ledger durable memory
  let unexplained := delta.unexplainedRequests != 0 || delta.unexplainedCostMicros != 0
  let issues := readIssues ++
    (if 0 < memory.requests then ["memory_fallback"] else []) ++
    (if 0 < health.failedWrites then ["usage_write_failures"] else []) ++
    (if 0 < health.postCommitFailedWrites then ["post_commit_usage_failure"] else []) ++
    (if 0 < health.rollupFailures then ["rollup_failures"] else []) ++
    (if unexplained then ["unexplained_usage_delta"] else [])
  let status :=
    if 0 < health.postCommitFailedWrites ∨ unexplained = true then "inconsistent"
    else if l.store.isNone ∨ 0 < memory.requests ∨ 0 < health.failedWrites ∨
        0 < health.rollupFailures then "degraded"
    else "ok"
  ({ status := status
     billingGrade := status == "ok"
     storeConfigured := l.store.isSome
     tenant := tenant
     durable := durable
     ledger := ledger
     memoryFallback := memory
     delta := delta
     duplicateIgnoredWrites := health.duplicateIgnoredWrites
     memoryWrites := health.memoryWrites
     failedWrites := health.failedWrites
     postCommitFailedWrites := health.postCommitFailedWrites
     rollupFailures := health.rollupFailures
     issues := (issues.insertionSort (· ≤ ·)).destutter (· ≠ ·) }, l)

end UsageLedger

/-! ### Runs of writes -/

section Runs

variable (l : UsageLedger) (calls : List LedgerCall)

theorem recordInner_base (r : UsageRecord) (phase : Option RequiredUsagePhase)
    (fault : Option StoreError) : (l.recordInner r phase fault).2.base = l.base := by
  unfold UsageLedger.recordInner
  cases l.store with
  | none => cases phase <;> rfl
  | some store =>
    dsimp only
    split
    · rfl
    · rfl
    · cases phase <;> rfl

theorem recordInner_store (r : UsageRecord) (phase : Option RequiredUsagePhase)
    (fault : Option StoreError) :
    (l.recordInner r phase fault).2.store.isSome = l.store.isSome := by
  unfold UsageLedger.recordInner
  cases hstore : l.store with
  | none => cases phase <;> exact congrArg Option.isSome hstore
  | some store =>
    dsimp only
    split
    · rfl
    · rfl
    · cases phase <;> rfl

theorem LedgerCall.apply_frame (c : LedgerCall) :
    (c.apply l).2.base = l.base ∧ (c.apply l).2.store.isSome = l.store.isSome := by
  obtain ⟨path, r, fault⟩ := c
  cases path with
  | record => exact ⟨recordInner_base l r none fault, recordInner_store l r none fault⟩
  | recordChecked => exact ⟨recordInner_base l r _ fault, recordInner_store l r _ fault⟩
  | recordCheckedPostCommit => exact ⟨recordInner_base l r _ fault, recordInner_store l r _ fault⟩

theorem runCalls_base : (runCalls l calls).2.base = l.base := by
  induction calls generalizing l with
  | nil => rfl
  | cons c calls ih =>
    rw [runCalls]
    exact (ih _).trans (c.apply_frame l).1

theorem runCalls_store : (runCalls l calls).2.store.isSome = l.store.isSome := by
  induction calls generalizing l with
  | nil => rfl
  | cons c calls ih =>
    rw [runCalls]
    exact (ih _).trans (c.apply_frame l).2

end Runs

/-! ### The totals of a scope -/

/-- The scope of a report. -/
def scopeOf : Option String → SpendScope
  | some tenant => .tenant tenant
  | none => .total

section Totals

variable (tenant : Option String)

theorem inScope_scopeOf (r : UsageRecord) :
    r.inScope (scopeOf tenant) = tenant.all fun tenant => r.tenant = some tenant := by
  cases tenant <;> rfl

theorem costMicros_totalsFromSummary (s : LedgerSummary) :
    (totalsFromSummary s tenant).costMicros = s.micros (scopeOf tenant) := by
  cases tenant <;> rfl

theorem requests_applyRecord (s : LedgerSummary) (r : UsageRecord) (t : String) :
    (totalsFromSummary (applyRecord s r) (some t)).requests =
      (totalsFromSummary s (some t)).requests + if r.tenant = some t then 1 else 0 := by
  unfold totalsFromSummary
  dsimp only
  rw [applyRecord_byTenant]
  cases htenant : r.tenant with
  | none => simp
  | some t' =>
    simp only [Option.elim_some, Option.some.injEq, addCost]
    by_cases ht : t = t'
    · subst ht
      rw [OrdMap.getD_update_self, if_pos rfl]
    · rw [OrdMap.getD_update_of_ne _ ht, if_neg (Ne.symm ht), Nat.add_zero]

theorem requests_applyRecords (s : LedgerSummary) (records : List UsageRecord) :
    (totalsFromSummary (applyRecords s records) tenant).requests =
      (totalsFromSummary s tenant).requests +
        (records.filter fun r => r.inScope (scopeOf tenant)).length := by
  cases tenant with
  | none =>
    have hkeep : ∀ s : LedgerSummary, (records.foldl applyRecord s).requests = s.requests := by
      induction records with
      | nil => exact fun s => rfl
      | cons r records ih => exact fun s => by rw [List.foldl_cons, ih, applyRecord_requests]
    have hall : records.filter (fun r => r.inScope (scopeOf none)) = records :=
      List.filter_eq_self.2 fun _ _ => rfl
    show (records.foldl applyRecord _).requests = s.requests + _
    rw [hkeep, hall]
  | some t =>
    have hfold : ∀ s : LedgerSummary,
        (totalsFromSummary (records.foldl applyRecord s) (some t)).requests =
          (totalsFromSummary s (some t)).requests +
            (records.filter fun r => r.inScope (.tenant t)).length := by
      induction records with
      | nil => exact fun s => rfl
      | cons r records ih =>
        intro s
        rw [List.foldl_cons, ih, requests_applyRecord]
        by_cases hr : r.tenant = some t
        · rw [if_pos hr, List.filter_cons_of_pos (by simpa [UsageRecord.inScope] using hr),
            List.length_cons]
          omega
        · rw [if_neg hr, List.filter_cons_of_neg (by simpa [UsageRecord.inScope] using hr)]
          rfl
    exact hfold _

theorem min_satAdd (a b c : ℕ) :
    min (Word.satAdd a b + c) Word.u64Max = min (a + (b + c)) Word.u64Max := by
  unfold Word.satAdd
  generalize Word.u64Max = m
  omega

theorem add_eq (totals : UsageReconciliationTotals) (r : UsageRecord) :
    totals.add tenant r =
      if r.inScope (scopeOf tenant) = true then
        { requests := Word.satAdd totals.requests 1
          costMicros := Word.satAdd totals.costMicros r.cost }
      else totals := by
  rw [inScope_scopeOf]
  rfl

theorem totalsFromRecords_eq (records : List UsageRecord) :
    (totalsFromRecords records tenant).requests =
        min (records.filter fun r => r.inScope (scopeOf tenant)).length Word.u64Max ∧
      (totalsFromRecords records tenant).costMicros =
        min ((records.filter fun r => r.inScope (scopeOf tenant)).map UsageRecord.cost).sum
          Word.u64Max := by
  have hfold : ∀ totals : UsageReconciliationTotals, totals.requests ≤ Word.u64Max →
      totals.costMicros ≤ Word.u64Max →
      (records.foldl (UsageReconciliationTotals.add tenant) totals).requests =
          min (totals.requests + (records.filter fun r => r.inScope (scopeOf tenant)).length)
            Word.u64Max ∧
        (records.foldl (UsageReconciliationTotals.add tenant) totals).costMicros =
          min (totals.costMicros +
            ((records.filter fun r => r.inScope (scopeOf tenant)).map UsageRecord.cost).sum)
              Word.u64Max := by
    induction records with
    | nil => exact fun totals hr hc => ⟨by simp [hr], by simp [hc]⟩
    | cons r records ih =>
      intro totals hr hc
      rw [List.foldl_cons, add_eq, List.filter_cons]
      by_cases hin : r.inScope (scopeOf tenant) = true
      · rw [if_pos hin, if_pos hin, List.length_cons, List.map_cons, List.sum_cons]
        obtain ⟨hreq, hcost⟩ := ih
          ⟨Word.satAdd totals.requests 1, Word.satAdd totals.costMicros r.cost⟩
          (Word.satAdd_le _ _) (Word.satAdd_le _ _)
        refine ⟨hreq.trans ?_, hcost.trans ?_⟩
        · rw [min_satAdd, Nat.add_comm 1]
        · rw [min_satAdd]
      · rw [if_neg hin, if_neg hin]
        exact ih totals hr hc
  have hzero := hfold {} (Nat.zero_le _) (Nat.zero_le _)
  rw [Nat.zero_add, Nat.zero_add] at hzero
  exact hzero

theorem bucketCount_eq {key : UsageRow → Option String} {rows : List UsageRow}
    {bs : List UsageBucket} (h : StateStore.usageBuckets key rows = .ok bs) (k : String) :
    (((OrdMap.ofList bs).get k).getD (0, 0)).1 = (StateStore.group key k rows).length := by
  have hcounts : ∀ b ∈ bs, b.2.1 = (StateStore.group key b.1 rows).length := by
    intro b hb
    obtain ⟨k', -, hk'⟩ := exists_of_mem_mapM h hb
    unfold StateStore.usageBucket at hk'
    obtain ⟨cost, -, rfl⟩ := map_eq_ok_iff.1 hk'
    rfl
  obtain ⟨hkeys, -⟩ := StateStore.usageBuckets_eq_ok h
  rw [OrdMap.get_ofList (StateStore.nodup_bucket_keys h), OrdMap.getList_eq_find]
  cases hf : bs.find? fun b => b.1 = k with
  | none =>
    have hk : k ∉ StateStore.groupKeys key rows := by
      rw [← hkeys]
      intro hmem
      obtain ⟨b, hb, rfl⟩ := List.mem_map.1 hmem
      exact absurd (List.find?_eq_none.1 hf b hb) (by simp)
    rw [StateStore.group_eq_nil hk]
    rfl
  | some b =>
    obtain rfl : b.1 = k := by simpa using List.find?_some hf
    exact hcounts b (List.mem_of_find?_eq_some hf)

/-- **The hydrated totals count the rows of the scope**, and without a row they have no cost. -/
theorem requests_hydrated {store : StateStore} {fault : Option StoreError} {r : UsageRollup}
    (h : store.usageRollup fault = .ok r) :
    (totalsFromSummary (rollupToSummary r) tenant).requests =
        (store.usage.rows.filter fun row => row.inScope (scopeOf tenant)).length ∧
      (totalsFromSummary (rollupToSummary r) tenant).costMicros ≤ Word.u64Max ∧
      (store.usage.rows.filter (fun row => row.inScope (scopeOf tenant)) = [] →
        (totalsFromSummary (rollupToSummary r) tenant).costMicros = 0) := by
  obtain ⟨hsum, -⟩ := StateStore.rollupMicros_eq h (scopeOf tenant)
  rw [costMicros_totalsFromSummary, micros_rollupToSummary h, hsum]
  refine ⟨?_, Word.toU64_le _, fun hnil => ?_⟩
  · obtain ⟨hrequests, -, htenant, -⟩ := StateStore.usageRollup_eq_ok h
    cases tenant with
    | none =>
      have hall : store.usage.rows.filter (fun row => row.inScope (scopeOf none)) =
          store.usage.rows := List.filter_eq_self.2 fun _ _ => rfl
      rw [hall]
      exact hrequests
    | some t => exact bucketCount_eq htenant t
  · rw [StateStore.durableSum, hnil]
    rfl

end Totals

section Failing

variable {l : UsageLedger} {now : StateStore} {fault : Option StoreError} {e : StoreError}
  {tenant : Option String}

/-- The records of a scope. -/
def scopedRecords (records : List UsageRecord) (tenant : Option String) : List UsageRecord :=
  records.filter fun r => r.inScope (scopeOf tenant)

theorem unexplained_eq_zero_iff (l : UsageLedger) (tenant : Option String)
    (hroom : (totalsFromSummary l.base tenant).requests +
      (scopedRecords l.records tenant).length < 2 ^ 64)
    (hcost : (totalsFromSummary l.base tenant).costMicros ≤ Word.u64Max)
    (hempty : (totalsFromSummary l.base tenant).requests = 0 →
      (totalsFromSummary l.base tenant).costMicros = 0) :
    let delta := reconciliationDelta (totalsFromSummary (applyRecords l.base l.records) tenant) {}
      (totalsFromRecords l.records tenant)
    (delta.unexplainedRequests = 0 ∧ delta.unexplainedCostMicros = 0) ↔
      (totalsFromSummary l.base tenant).requests = 0 := by
  obtain ⟨hrequests, hmicros⟩ := totalsFromRecords_eq tenant l.records
  have hserved := requests_applyRecords tenant l.base l.records
  have hservedCost := served_applyRecords l.base l.records (scopeOf tenant)
  rw [← costMicros_totalsFromSummary, ← costMicros_totalsFromSummary, Word.foldl_satAdd hcost]
    at hservedCost
  unfold scopedRecords at hroom
  have hzero : Word.toI64 0 = 0 := rfl
  unfold reconciliationDelta
  dsimp only
  rw [hzero, Word.wrapSubI64_zero (by omega),
    Word.wrapSubI64_zero (by unfold Word.u64Max at hservedCost; omega),
    Word.wrapSubI64_toI64_eq_zero_iff (by omega) (by unfold Word.u64Max at hrequests; omega),
    Word.wrapSubI64_toI64_eq_zero_iff (by unfold Word.u64Max at hservedCost; omega)
      (by unfold Word.u64Max at hmicros; omega), hserved, hservedCost, hrequests, hmicros]
  constructor
  · rintro ⟨hsame, -⟩
    unfold Word.u64Max at hsame
    omega
  · intro hnone
    rw [hnone, hempty hnone]
    unfold Word.u64Max
    omega

theorem reconcile_status (hstore : l.store = some now) (hfail : now.usageRollup fault = .error e)
    (hpost : l.health.postCommitFailedWrites = 0) :
    (l.reconcile tenant fault).1.status =
      let delta := reconciliationDelta (totalsFromSummary (applyRecords l.base l.records) tenant) {}
        (totalsFromRecords l.records tenant)
      if delta.unexplainedRequests = 0 ∧ delta.unexplainedCostMicros = 0 then "degraded"
      else "inconsistent" := by
  have hread : l.durableTotals tenant fault =
      ({}, ["durable_rollup_failed"], l.markRollupFailure e.message) := by
    unfold UsageLedger.durableTotals
    rw [hstore]
    dsimp only
    rw [hfail]
  have hrollups : 0 < (l.markRollupFailure e.message).health.rollupFailures := by
    show 0 < Word.satAdd l.health.rollupFailures 1
    unfold Word.satAdd Word.u64Max
    omega
  have hpost' : ¬ 0 < (l.markRollupFailure e.message).health.postCommitFailedWrites := by
    show ¬ 0 < l.health.postCommitFailedWrites
    omega
  have hledger : ((l.markRollupFailure e.message).store.isSome &&
      !(["durable_rollup_failed"].contains "durable_rollup_failed")) = false := by
    rw [Bool.and_eq_false_iff]
    exact Or.inr rfl
  unfold UsageLedger.reconcile
  rw [hread]
  dsimp only
  rw [hledger, if_neg Bool.false_ne_true]
  show (if 0 < (l.markRollupFailure e.message).health.postCommitFailedWrites ∨ _ then _
    else if _ then _ else _) = _
  have hbase : (l.markRollupFailure e.message).base = l.base := rfl
  have hrecords : (l.markRollupFailure e.message).records = l.records := rfl
  rw [hbase, hrecords, if_pos (Or.inr (Or.inr (Or.inr hrollups)))]
  by_cases hdelta : (reconciliationDelta
      (totalsFromSummary (applyRecords l.base l.records) tenant) {}
      (totalsFromRecords l.records tenant)).unexplainedRequests = 0 ∧
    (reconciliationDelta (totalsFromSummary (applyRecords l.base l.records) tenant) {}
      (totalsFromRecords l.records tenant)).unexplainedCostMicros = 0
  · rw [if_pos hdelta, if_neg]
    simp [hpost', hdelta]
  · rw [if_neg hdelta, if_pos]
    simp only [Bool.or_eq_true, bne_iff_ne]
    tauto

end Failing

/-! ### Runs -/

section Attached

variable (before : List LedgerCall) (store : StateStore) (attachFault : Option StoreError)
  (after : List LedgerCall)

/-- A ledger in memory that a store is attached to, between two runs of writes. -/
def attachedRun : UsageLedger :=
  (runCalls ((runCalls .inMemory before).2.withStore store attachFault) after).2

theorem withStore_store (l : UsageLedger) :
    (l.withStore store attachFault).store = some store := rfl

theorem attachedRun_store : ∃ now, (attachedRun before store attachFault after).store = some now := by
  rw [← Option.isSome_iff_exists, attachedRun, runCalls_store, withStore_store]
  rfl

theorem attachedRun_base :
    (attachedRun before store attachFault after).base =
      match store.usageRollup attachFault with
      | .ok rollup => rollupToSummary rollup
      | .error _ => {} := by
  rw [attachedRun, runCalls_base]
  have hbase : (runCalls .inMemory before).2.base = {} := runCalls_base _ before
  unfold UsageLedger.withStore
  cases store.usageRollup attachFault with
  | ok rollup => rfl
  | error e => exact hbase

/-- What is hydrated of a scope: nothing, iff there is no rollup or the store has no row of it. -/
theorem hydrated_scope (tenant : Option String) :
    let base : LedgerSummary :=
      match store.usageRollup attachFault with
      | .ok rollup => rollupToSummary rollup
      | .error _ => {}
    (totalsFromSummary base tenant).requests ≤ store.usage.rows.length ∧
      (totalsFromSummary base tenant).costMicros ≤ Word.u64Max ∧
      ((totalsFromSummary base tenant).requests = 0 →
        (totalsFromSummary base tenant).costMicros = 0) ∧
      ((totalsFromSummary base tenant).requests = 0 ↔
        (∃ e, store.usageRollup attachFault = .error e) ∨
          ∀ row ∈ store.usage.rows, row.inScope (scopeOf tenant) = false) := by
  cases hrollup : store.usageRollup attachFault with
  | error e =>
    have hnone : totalsFromSummary {} tenant = {} := by cases tenant <;> rfl
    dsimp only
    rw [hnone]
    exact ⟨Nat.zero_le _, Nat.zero_le _, fun _ => rfl, iff_of_true rfl (Or.inl ⟨e, rfl⟩)⟩
  | ok rollup =>
    obtain ⟨hcount, hle, hnil⟩ := requests_hydrated tenant hrollup
    have hscope : (∀ row ∈ store.usage.rows, row.inScope (scopeOf tenant) = false) ↔
        (store.usage.rows.filter fun row => row.inScope (scopeOf tenant)).length = 0 := by
      rw [List.length_eq_zero_iff, List.filter_eq_nil_iff]
      simp only [Bool.not_eq_true]
    dsimp only
    rw [hscope, hcount]
    refine ⟨List.length_filter_le _ _, hle, fun h => hnil (List.length_eq_zero_iff.1 h), ?_⟩
    constructor
    · exact Or.inr
    · rintro (⟨e, he⟩ | h)
      · cases he
      · exact h

/-- **When a failing rollup is reported as degraded.**  After any run without a post-commit failure,
a report for which the store cannot be read says degraded, and not billing grade, iff the totals
were not hydrated when the store was attached, or the store had no row of the scope then. -/
theorem reconcile_degraded_iff (fault : Option StoreError) (tenant : Option String)
    (hpost : (attachedRun before store attachFault after).health.postCommitFailedWrites = 0)
    (hfail : ∀ now, (attachedRun before store attachFault after).store = some now →
      ∃ e, now.usageRollup fault = .error e)
    (hroom : store.usage.rows.length +
      (attachedRun before store attachFault after).records.length < 2 ^ 64) :
    let report := ((attachedRun before store attachFault after).reconcile tenant fault).1
    (report.status = "degraded" ∧ report.billingGrade = false) ↔
      (∃ e, store.usageRollup attachFault = .error e) ∨
        ∀ row ∈ store.usage.rows, row.inScope (scopeOf tenant) = false := by
  intro report
  obtain ⟨now, hnow⟩ := attachedRun_store before store attachFault after
  obtain ⟨e, he⟩ := hfail now hnow
  have hstatus : report.status = _ := @reconcile_status _ _ _ _ tenant hnow he hpost
  have hgrade : report.billingGrade = (report.status == "ok") := rfl
  have hrecords : (scopedRecords (attachedRun before store attachFault after).records
      tenant).length ≤ (attachedRun before store attachFault after).records.length :=
    List.length_filter_le _ _
  obtain ⟨hle, hcost, hempty, hzero⟩ := hydrated_scope store attachFault tenant
  rw [← attachedRun_base before store attachFault after] at hle hcost hempty hzero
  have hunexplained := unexplained_eq_zero_iff _ tenant (by omega) hcost hempty
  dsimp only at hstatus hunexplained
  rw [hgrade, hstatus, ← hzero, ← hunexplained]
  split_ifs with hdelta
  · exact iff_of_true ⟨rfl, rfl⟩ hdelta
  · exact iff_of_false (fun h => absurd h.1 (by decide)) hdelta

end Attached

/-- A store with one request of one tenant. -/
def usedStore : StateStore :=
  ((StateStore.mk KeyedLog.empty fun _ => Fp.zero).recordUsage none
    (recordToEvent (sampleRecord "req_1" 300))).2

theorem reconcile_degraded_other_tenant :
    ((attachedRun [] usedStore none []).reconcile (some "globex")
        (some ⟨"database is locked"⟩)).1.status = "degraded" :=
  ((reconcile_degraded_iff [] usedStore none [] (some ⟨"database is locked"⟩) (some "globex")
    (by decide +kernel) (fun _ _ => ⟨_, rfl⟩) (by decide +kernel)).2 (Or.inr (by decide +kernel))).1

/-- One request in the store at the start and no write since: a rollup that fails is reported as
inconsistent. -/
theorem reconcile_inconsistent_after_hydrate :
    (attachedRun [] usedStore none []).health.postCommitFailedWrites = 0 ∧
      ((attachedRun [] usedStore none []).reconcile none
        (some ⟨"database is locked"⟩)).1.status = "inconsistent" := by
  decide +kernel

end Switchback
