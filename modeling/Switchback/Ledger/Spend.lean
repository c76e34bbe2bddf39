import Switchback.Ledger.UsageLedger

/-!
# The spend that budgets are checked against

The engine's budget checks read the store's rollup; the ledger's summary adds the in-memory
buffer to it.  The two agree until a best-effort write with a cost falls back to memory.
-/

namespace Switchback

open Lib

/-! ### The engine's reads -/

namespace Engine

/-- The common shape of the engine's reads: the rollup of the store, and the ledger when there
is no store or when a store that is not required cannot be read. -/
def spendUsd (ofRollup : UsageRollup → ℕ) (ofLedger : F64) (l : UsageLedger)
    (storeRequired : Bool) (fault : Option StoreError) : Except String F64 :=
  match l.store with
  | some store =>
      match store.usageRollup fault with
      | .ok rollup => .ok (UsageLedger.usd (ofRollup rollup))
      | .error e =>
          if storeRequired then .error ("usage store rollup failed: " ++ e.message)
          else .ok ofLedger
  | none => .ok ofLedger

def globalSpendUsd (l : UsageLedger) (storeRequired : Bool) (fault : Option StoreError) :
    Except String F64 :=
  spendUsd UsageRollup.totalCostMicros (UsageLedger.usd (l.summary fault).1.totalCostMicros) l
    storeRequired fault

def tenantSpendUsd (l : UsageLedger) (storeRequired : Bool) (fault : Option StoreError)
    (tenant : String) : Except String F64 :=
  spendUsd (fun r => bucketMicros r.byTenant tenant) (l.tenantSpendUsd fault tenant) l
    storeRequired fault

def providerSpendUsd (l : UsageLedger) (storeRequired : Bool) (fault : Option StoreError)
    (providerId : String) : Except String F64 :=
  spendUsd (fun r => bucketMicros r.byProvider providerId)
    (UsageLedger.bucketUsd (l.summary fault).1.byProvider providerId) l storeRequired fault

/-- The engine's read for a scope. -/
def scopeSpendUsd (l : UsageLedger) (storeRequired : Bool) (fault : Option StoreError) :
    SpendScope → Except String F64
  | .total => globalSpendUsd l storeRequired fault
  | .tenant t => tenantSpendUsd l storeRequired fault t
  | .provider p => providerSpendUsd l storeRequired fault p

end Engine

/-- The total a summary serves for a scope. -/
def LedgerSummary.micros (s : LedgerSummary) : SpendScope → ℕ
  | .total => s.totalCostMicros
  | .tenant t => ((s.byTenant.get t).getD (0, 0)).2
  | .provider p => ((s.byProvider.get p).getD (0, 0)).2

/-- Does a record count towards a scope? -/
def UsageRecord.inScope (r : UsageRecord) : SpendScope → Bool
  | .total => true
  | .tenant t => r.tenant = some t
  | .provider p => r.providerId = p

def UsageRecord.cost (r : UsageRecord) : ℕ := r.costMicros.getD 0

theorem served_addCost (m : OrdMap String (ℕ × ℕ)) (k k' : String) (cost : ℕ) :
    (((addCost m k cost).get k').getD (0, 0)).2 =
      if k' = k then Word.satAdd ((m.get k').getD (0, 0)).2 cost
      else ((m.get k').getD (0, 0)).2 := by
  unfold addCost
  split_ifs with h
  · subst h
    rw [OrdMap.getD_update_self]
  · rw [OrdMap.getD_update_of_ne m h]

theorem served_applyRecord (s : LedgerSummary) (r : UsageRecord) (scope : SpendScope) :
    (applyRecord s r).micros scope =
      if r.inScope scope then Word.satAdd (s.micros scope) r.cost else s.micros scope := by
  cases scope with
  | total => simp [LedgerSummary.micros, UsageRecord.inScope, UsageRecord.cost]
  | tenant t =>
    simp only [LedgerSummary.micros, applyRecord_byTenant, UsageRecord.inScope]
    obtain ht | ⟨t', ht⟩ := Option.eq_none_or_eq_some r.tenant
    · simp [ht]
    · simp [ht, served_addCost, UsageRecord.cost, eq_comm]
  | provider p =>
    simp [LedgerSummary.micros, served_addCost, UsageRecord.inScope, UsageRecord.cost, eq_comm]

theorem served_applyRecords (s : LedgerSummary) (records : List UsageRecord)
    (scope : SpendScope) :
    (applyRecords s records).micros scope =
      ((records.filter fun r => r.inScope scope).map UsageRecord.cost).foldl Word.satAdd
        (s.micros scope) := by
  have h : ∀ s : LedgerSummary, (records.foldl applyRecord s).micros scope =
      ((records.filter fun r => r.inScope scope).map UsageRecord.cost).foldl Word.satAdd
        (s.micros scope) := by
    induction records with
    | nil => simp
    | cons r records ih =>
      intro s
      rw [List.foldl_cons, ih, served_applyRecord, List.filter_cons]
      split_ifs <;> rfl
  rw [applyRecords, h]
  cases scope <;> rfl

/-- A summary seeded from a rollup serves what the rollup reports. -/
theorem micros_rollupToSummary {store : StateStore} {fault : Option StoreError} {r : UsageRollup}
    (h : store.usageRollup fault = .ok r) (scope : SpendScope) :
    (rollupToSummary r).micros scope = r.micros scope := by
  obtain ⟨-, -, htenant, hprovider⟩ := StateStore.usageRollup_eq_ok h
  have hbucket (bs : List UsageBucket) (k : String) (hbs : (bs.map Prod.fst).Nodup) :
      (((OrdMap.ofList bs).get k).getD (0, 0)).2 = bucketMicros bs k := by
    rw [OrdMap.get_ofList hbs, OrdMap.getList_eq_find, bucketMicros]
    cases bs.find? fun b => b.1 = k <;> rfl
  cases scope with
  | total => rfl
  | tenant t => exact hbucket _ t (StateStore.nodup_bucket_keys htenant)
  | provider p => exact hbucket _ p (StateStore.nodup_bucket_keys hprovider)

/-! ### Runs of best-effort writes -/

/-- One best-effort write and the store's answer to it. -/
structure RecordCall where
  record : UsageRecord
  fault : Option StoreError

def runRecords (l : UsageLedger) (calls : List RecordCall) : UsageLedger :=
  calls.foldl (fun l c => l.record c.record c.fault) l

theorem runRecords_records {l : UsageLedger} {store : StateStore} (hs : l.store = some store)
    (calls : List RecordCall) :
    (∃ store', (runRecords l calls).store = some store') ∧
      (runRecords l calls).records =
        l.records ++ (calls.filter fun c => c.fault.isSome).map RecordCall.record := by
  induction calls generalizing l store with
  | nil => exact ⟨⟨store, hs⟩, by simp [runRecords]⟩
  | cons c calls ih =>
    obtain ⟨hstore, -, hrecords, -⟩ := UsageLedger.recordInner_of_store hs c.record none c.fault
    obtain ⟨hsome, hrun⟩ := ih hstore
    refine ⟨hsome, hrun.trans ?_⟩
    rw [hrecords, List.filter_cons]
    cases c.fault <;> simp

/-- The micro-USD the engine reads for a scope when the store is not required. -/
def Engine.scopeSpendMicros (l : UsageLedger) (fault : Option StoreError) (scope : SpendScope) :
    ℕ :=
  match l.store with
  | some store =>
      match store.usageRollup fault with
      | .ok rollup => rollup.micros scope
      | .error _ => (l.summary fault).1.micros scope
  | none => (l.summary fault).1.micros scope

theorem scopeSpendUsd_eq (l : UsageLedger) (fault : Option StoreError) (scope : SpendScope) :
    Engine.scopeSpendUsd l false fault scope =
      .ok (UsageLedger.usd (Engine.scopeSpendMicros l fault scope)) := by
  -- every read has the common shape, and each branch of it is a conversion
  have hcommon (ofRollup : UsageRollup → ℕ) (served : ℕ) :
      Engine.spendUsd ofRollup (UsageLedger.usd served) l false fault =
        .ok (UsageLedger.usd
          (match l.store with
            | some store =>
                match store.usageRollup fault with
                | .ok rollup => ofRollup rollup
                | .error _ => served
            | none => served)) := by
    unfold Engine.spendUsd
    cases l.store with
    | none => rfl
    | some store => cases hr : store.usageRollup fault <;> simp [hr]
  cases scope with
  | total => exact hcommon _ _
  | tenant t =>
    rw [Engine.scopeSpendUsd, Engine.tenantSpendUsd, UsageLedger.tenantSpendUsd,
      UsageLedger.bucketUsd_eq]
    exact hcommon _ _
  | provider p =>
    rw [Engine.scopeSpendUsd, Engine.providerSpendUsd, UsageLedger.bucketUsd_eq]
    exact hcommon _ _

/-- With the store readable, the reads of one scope agree iff the scope is saturated or no
buffered record of the scope has a cost. -/
theorem scopeSpendMicros_eq_served_iff {l : UsageLedger} {store : StateStore}
    {fault : Option StoreError} {rollup : UsageRollup} (hs : l.store = some store)
    (hr : store.usageRollup fault = .ok rollup) (scope : SpendScope) :
    Engine.scopeSpendMicros l fault scope = (l.summary fault).1.micros scope ↔
      store.durableSum scope = -1 ∨ ∀ r ∈ l.records, r.inScope scope = true → r.cost = 0 := by
  obtain ⟨hsum, hrange⟩ := StateStore.rollupMicros_eq hr scope
  have hle : rollup.micros scope ≤ Word.u64Max := hsum ▸ Word.toU64_le _
  have hengine : Engine.scopeSpendMicros l fault scope = rollup.micros scope := by
    simp [Engine.scopeSpendMicros, hs, hr]
  have hserved : (l.summary fault).1.micros scope =
      ((l.records.filter fun r => r.inScope scope).map UsageRecord.cost).foldl Word.satAdd
        (rollup.micros scope) := by
    simp [UsageLedger.summary, hs, hr, served_applyRecords, micros_rollupToSummary hr]
  rw [hengine, hserved, eq_comm, Word.foldl_satAdd_eq_iff hle, hsum,
    Word.toU64_eq_u64Max_iff hrange]
  refine or_congr_right ⟨fun h r hr hin => ?_, fun h b hb => ?_⟩
  · exact h _ (List.mem_map.2 ⟨r, List.mem_filter.2 ⟨hr, hin⟩, rfl⟩)
  · obtain ⟨r, hr, rfl⟩ := List.mem_map.1 hb
    rw [List.mem_filter] at hr
    exact h r hr.1 hr.2

/-- **Budgets and the summary see the same spend.**  After any run of best-effort writes on a
ledger with a store, the engine's three reads are the USD of the micro-USD they take, and these
are what the summary serves in every scope iff the store cannot be read or every write that the
store refused has no cost or counts only towards scopes whose durable sum is already the greatest
word. -/
theorem spend_eq_served_iff (store : StateStore) (how : UsageLedger.Attach)
    (calls : List RecordCall) (fault : Option StoreError) :
    let l := runRecords (UsageLedger.attach store how) calls
    (∀ scope, Engine.scopeSpendUsd l false fault scope =
        .ok (UsageLedger.usd (Engine.scopeSpendMicros l fault scope))) ∧
      ((∀ scope, Engine.scopeSpendMicros l fault scope = (l.summary fault).1.micros scope) ↔
        ∀ now, l.store = some now → (∃ e, now.usageRollup fault = .error e) ∨
          ∀ c ∈ calls, c.fault.isSome = true → c.record.cost = 0 ∨
            ∀ scope, c.record.inScope scope = true → now.durableSum scope = -1) := by
  intro l
  refine ⟨fun scope => scopeSpendUsd_eq l fault scope, ?_⟩
  obtain ⟨⟨now, hnow⟩, hrecords⟩ :=
    runRecords_records (UsageLedger.attach_store store how) calls
  rw [UsageLedger.attach_records, List.nil_append] at hrecords
  have hmem : ∀ {r : UsageRecord}, r ∈ l.records ↔
      ∃ c ∈ calls, c.fault.isSome = true ∧ c.record = r := by
    intro r
    rw [show l.records = _ from hrecords]
    simp [List.mem_filter, and_assoc]
  simp only [show l.store = some now from hnow, Option.some.injEq, forall_eq']
  cases hr : now.usageRollup fault with
  | error e =>
    refine iff_of_true (fun scope => ?_) (Or.inl ⟨e, rfl⟩)
    simp [Engine.scopeSpendMicros, show l.store = some now from hnow, hr]
  | ok rollup =>
    simp only [scopeSpendMicros_eq_served_iff (show l.store = some now from hnow) hr]
    constructor
    · intro h
      refine Or.inr fun c hc hfault => ?_
      by_cases hcost : c.record.cost = 0
      · exact Or.inl hcost
      · refine Or.inr fun scope hscope => ?_
        rcases h scope with h | h
        · exact h
        · exact absurd (h _ (hmem.2 ⟨c, hc, hfault, rfl⟩) hscope) hcost
    · rintro (⟨e, he⟩ | h) scope
      · cases he
      · by_cases hsat : now.durableSum scope = -1
        · exact Or.inl hsat
        · refine Or.inr fun r hr hscope => ?_
          obtain ⟨c, hc, hfault, rfl⟩ := hmem.1 hr
          rcases h c hc hfault with h | h
          · exact h
          · exact absurd (h scope hscope) hsat

/-- One refused write of five dollars: the summary serves it, the budget check reads zero. -/
theorem spend_ne_served_after_refused_write :
    ¬ ∀ (store : StateStore) (how : UsageLedger.Attach) (calls : List RecordCall)
        (fault : Option StoreError) (scope : SpendScope),
      let l := runRecords (UsageLedger.attach store how) calls
      Engine.scopeSpendUsd l false fault scope =
        .ok (UsageLedger.usd ((l.summary fault).1.micros scope)) := by
  intro h
  have hread := h ⟨KeyedLog.empty, fun _ => Fp.zero⟩ .lazy
    [⟨{ requestId := "req_1", providerId := "openai", model := "gpt", tenant := some "acme"
        usage := {}, costMicros := some 5000000, cacheSavingsMicros := none },
      some ⟨"database is locked"⟩⟩] none (.tenant "acme")
  revert hread
  decide +kernel

end Switchback
