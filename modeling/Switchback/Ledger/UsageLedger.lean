import Switchback.Ledger.Store

/-!
# The usage ledger

The append-only ledger over an optional durable store.  A record that the store accepts is read
back from the store's rollup; a best-effort record that it refuses stays in an in-memory buffer,
which every summary adds on top of the rollup.
-/

namespace Switchback

open Lib

/-- One executed request's usage and attributed cost. -/
structure UsageRecord where
  requestId : String
  providerId : String
  model : String
  tenant : Option String
  usage : Usage
  costMicros : Option ℕ
  cacheSavingsMicros : Option ℕ

/-- Operator-facing health of usage durability. -/
structure UsageDurabilityHealth where
  status : String
  storeConfigured : Bool
  persistedWrites : ℕ
  duplicateIgnoredWrites : ℕ
  memoryWrites : ℕ
  failedWrites : ℕ
  postCommitFailedWrites : ℕ
  rollupFailures : ℕ
  lastOutcome : Option String
  lastError : Option String
  lastRequestId : Option String

namespace UsageDurabilityHealth

def refreshStatus (h : UsageDurabilityHealth) : UsageDurabilityHealth :=
  { h with
    status :=
      if 0 < h.postCommitFailedWrites then "post_commit_failed"
      else if 0 < h.failedWrites ∨ 0 < h.rollupFailures then "degraded"
      else if h.storeConfigured then "durable"
      else "memory_only" }

def new : UsageDurabilityHealth :=
  refreshStatus
    { status := "", storeConfigured := false, persistedWrites := 0, duplicateIgnoredWrites := 0
      memoryWrites := 0, failedWrites := 0, postCommitFailedWrites := 0, rollupFailures := 0
      lastOutcome := none, lastError := none, lastRequestId := none }

end UsageDurabilityHealth

inductive RequiredUsagePhase where
  | preResponse
  | postCommit

structure EnergySummary where
  requestsWithEnergy : ℕ := 0
  energyJoules : F64 := Fp.zero
  energyKwh : F64 := Fp.zero
  durationSeconds : F64 := Fp.zero
  energyKwhConsumed : F64 := Fp.zero
  energyKwhCharged : F64 := Fp.zero

/-- Add one request's measured energy. -/
def EnergySummary.addUsage (s : EnergySummary) (usage : Usage) : EnergySummary :=
  match usage.energy.filter EnergyUsage.hasMeasuredEnergy with
  | none => s
  | some e =>
      { requestsWithEnergy := Word.satAdd s.requestsWithEnergy 1
        energyJoules := s.energyJoules + e.energyJoules.getD Fp.zero
        energyKwh := s.energyKwh + e.energyKwh.getD Fp.zero
        durationSeconds := s.durationSeconds + e.durationSeconds.getD Fp.zero
        energyKwhConsumed := s.energyKwhConsumed + e.energyKwhConsumed.getD Fp.zero
        energyKwhCharged := s.energyKwhCharged + e.energyKwhCharged.getD Fp.zero }

/-- The aggregated view of the ledger; a breakdown holds a count and a cost for each key. -/
structure LedgerSummary where
  requests : ℕ := 0
  totalCostMicros : ℕ := 0
  unknownCostRequests : ℕ := 0
  byModel : OrdMap String (ℕ × ℕ) := OrdMap.empty
  byProvider : OrdMap String (ℕ × ℕ) := OrdMap.empty
  byTenant : OrdMap String (ℕ × ℕ) := OrdMap.empty
  totalCacheSavingsMicros : ℕ := 0
  cacheSavingsByModel : OrdMap String ℕ := OrdMap.empty
  cacheSavingsByProvider : OrdMap String ℕ := OrdMap.empty
  cacheSavingsByTenant : OrdMap String ℕ := OrdMap.empty
  energy : EnergySummary := {}
  energyByModel : OrdMap String EnergySummary := OrdMap.empty
  energyByProvider : OrdMap String EnergySummary := OrdMap.empty
  energyByTenant : OrdMap String EnergySummary := OrdMap.empty

/-- Project a record onto the store's event. -/
def recordToEvent (r : UsageRecord) : UsageEvent where
  requestId := r.requestId
  providerId := r.providerId
  model := r.model
  tenant := r.tenant
  costMicros := r.costMicros
  cacheSavingsMicros := r.cacheSavingsMicros
  energyJoules := r.usage.energy.bind EnergyUsage.energyJoules
  energyKwh := r.usage.energy.bind EnergyUsage.energyKwh
  energyDurationSeconds := r.usage.energy.bind EnergyUsage.durationSeconds
  energyMeasurementAvailable := r.usage.energy.bind EnergyUsage.measurementAvailable
  energyKwhConsumed := r.usage.energy.bind EnergyUsage.energyKwhConsumed
  energyKwhCharged := r.usage.energy.bind EnergyUsage.energyKwhCharged

/-- Count a request and add its cost under a key. -/
def addCost (m : OrdMap String (ℕ × ℕ)) (k : String) (cost : ℕ) : OrdMap String (ℕ × ℕ) :=
  m.update k (0, 0) fun b => (b.1 + 1, Word.satAdd b.2 cost)

/-- Add positive savings under a key. -/
def addSavings (m : OrdMap String ℕ) (k : String) (savings : ℕ) : OrdMap String ℕ :=
  if 0 < savings then m.update k 0 fun b => Word.satAdd b savings else m

/-- Add the energy of a request under a key. -/
def addEnergy (m : OrdMap String EnergySummary) (k : String) (usage : Usage) :
    OrdMap String EnergySummary :=
  m.update k {} fun e => e.addUsage usage

/-- One round of the loop of `applyRecords`. -/
def applyRecord (s : LedgerSummary) (r : UsageRecord) : LedgerSummary :=
  let cost := r.costMicros.getD 0
  let savings := r.cacheSavingsMicros.getD 0
  let hasEnergy := r.usage.energy.any EnergyUsage.hasMeasuredEnergy
  let s :=
    { s with
      unknownCostRequests :=
        if r.costMicros.isNone then Word.satAdd s.unknownCostRequests 1
        else s.unknownCostRequests
      totalCostMicros := Word.satAdd s.totalCostMicros cost
      totalCacheSavingsMicros := Word.satAdd s.totalCacheSavingsMicros savings
      byModel := addCost s.byModel r.model cost
      cacheSavingsByModel := addSavings s.cacheSavingsByModel r.model savings
      byProvider := addCost s.byProvider r.providerId cost
      cacheSavingsByProvider := addSavings s.cacheSavingsByProvider r.providerId savings }
  let s :=
    if hasEnergy then
      { s with
        energyByModel := addEnergy s.energyByModel r.model r.usage
        energyByProvider := addEnergy s.energyByProvider r.providerId r.usage
        energy := s.energy.addUsage r.usage }
    else s
  match r.tenant with
  | none => s
  | some t =>
      { s with
        byTenant := addCost s.byTenant t cost
        cacheSavingsByTenant := addSavings s.cacheSavingsByTenant t savings
        energyByTenant := if hasEnergy then addEnergy s.energyByTenant t r.usage
          else s.energyByTenant }

variable (s : LedgerSummary)

@[simp] theorem applyRecord_requests (r : UsageRecord) :
    (applyRecord s r).requests = s.requests := by
  cases ht : r.tenant <;> simp only [applyRecord, ht] <;> split_ifs <;> rfl

@[simp] theorem applyRecord_totalCostMicros (r : UsageRecord) :
    (applyRecord s r).totalCostMicros = Word.satAdd s.totalCostMicros (r.costMicros.getD 0) := by
  cases ht : r.tenant <;> simp only [applyRecord, ht] <;> split_ifs <;> rfl

@[simp] theorem applyRecord_byProvider (r : UsageRecord) :
    (applyRecord s r).byProvider = addCost s.byProvider r.providerId (r.costMicros.getD 0) := by
  cases ht : r.tenant <;> simp only [applyRecord, ht] <;> split_ifs <;> rfl

@[simp] theorem applyRecord_byTenant (r : UsageRecord) :
    (applyRecord s r).byTenant =
      r.tenant.elim s.byTenant fun t => addCost s.byTenant t (r.costMicros.getD 0) := by
  cases ht : r.tenant <;> simp only [applyRecord, ht] <;> split_ifs <;> rfl

/-- Add the buffered records to a summary. -/
def applyRecords (s : LedgerSummary) (records : List UsageRecord) : LedgerSummary :=
  records.foldl applyRecord { s with requests := s.requests + records.length }

def energyOfRollup (e : UsageEnergyRollup) : EnergySummary where
  requestsWithEnergy := e.requestsWithEnergy
  energyJoules := e.energyJoules
  energyKwh := e.energyKwh
  durationSeconds := e.durationSeconds
  energyKwhConsumed := e.energyKwhConsumed
  energyKwhCharged := e.energyKwhCharged

/-- Seed a summary from a store rollup. -/
def rollupToSummary (r : UsageRollup) : LedgerSummary where
  requests := r.requests
  totalCostMicros := r.totalCostMicros
  unknownCostRequests := r.unknownCostRequests
  byModel := OrdMap.ofList r.byModel
  byProvider := OrdMap.ofList r.byProvider
  byTenant := OrdMap.ofList r.byTenant
  totalCacheSavingsMicros := r.totalCacheSavingsMicros
  cacheSavingsByModel := OrdMap.ofList r.cacheSavingsByModel
  cacheSavingsByProvider := OrdMap.ofList r.cacheSavingsByProvider
  cacheSavingsByTenant := OrdMap.ofList r.cacheSavingsByTenant
  energy := energyOfRollup r.energy
  energyByModel := OrdMap.ofList (r.energyByModel.map fun b => (b.1, energyOfRollup b.2))
  energyByProvider := OrdMap.ofList (r.energyByProvider.map fun b => (b.1, energyOfRollup b.2))
  energyByTenant := OrdMap.ofList (r.energyByTenant.map fun b => (b.1, energyOfRollup b.2))

/-- The ledger: the in-memory buffer, the store, the totals hydrated when the store was attached
and the durability health. -/
structure UsageLedger where
  records : List UsageRecord
  store : Option StateStore
  base : LedgerSummary
  health : UsageDurabilityHealth

namespace UsageLedger

def inMemory : UsageLedger where
  records := []
  store := none
  base := {}
  health := .new

/-! ### Health marks -/

def updateHealth (l : UsageLedger) (f : UsageDurabilityHealth → UsageDurabilityHealth) :
    UsageLedger :=
  { l with health := (f l.health).refreshStatus }

def markPersisted (l : UsageLedger) (requestId : String) : UsageLedger :=
  l.updateHealth fun h =>
    { h with
      persistedWrites := Word.satAdd h.persistedWrites 1
      lastOutcome := some "inserted"
      lastError := none
      lastRequestId := some requestId }

def markDuplicateIgnored (l : UsageLedger) (requestId : String) : UsageLedger :=
  l.updateHealth fun h =>
    { h with
      duplicateIgnoredWrites := Word.satAdd h.duplicateIgnoredWrites 1
      lastOutcome := some "duplicate_ignored"
      lastError := none
      lastRequestId := some requestId }

def markBestEffortFailure (l : UsageLedger) (requestId error : String) : UsageLedger :=
  l.updateHealth fun h =>
    { h with
      failedWrites := Word.satAdd h.failedWrites 1
      lastOutcome := some "degraded_memory_fallback"
      lastError := some error
      lastRequestId := some requestId }

def markRequiredFailure (l : UsageLedger) (requestId error : String)
    (phase : RequiredUsagePhase) : UsageLedger :=
  l.updateHealth fun h =>
    let h := { h with failedWrites := Word.satAdd h.failedWrites 1 }
    let h :=
      match phase with
      | .postCommit =>
          { h with
            postCommitFailedWrites := Word.satAdd h.postCommitFailedWrites 1
            lastOutcome := some "post_commit_failed" }
      | .preResponse => { h with lastOutcome := some "failed_closed" }
    { h with lastError := some error, lastRequestId := some requestId }

def markMemoryWrite (l : UsageLedger) (outcome requestId : String) : UsageLedger :=
  l.updateHealth fun h =>
    { h with
      memoryWrites := Word.satAdd h.memoryWrites 1
      lastOutcome := some outcome
      lastRequestId := some requestId
      lastError := if outcome = "memory_only" then none else h.lastError }

def markRollupFailure (l : UsageLedger) (error : String) : UsageLedger :=
  l.updateHealth fun h =>
    { h with
      rollupFailures := Word.satAdd h.rollupFailures 1
      lastOutcome := some "rollup_failed"
      lastError := some error }

/-! ### Attaching a store -/

/-- Attach a store and hydrate the base totals from its rollup. -/
def withStore (l : UsageLedger) (store : StateStore) (fault : Option StoreError) : UsageLedger :=
  let l := l.updateHealth fun h => { h with storeConfigured := true }
  let l :=
    match store.usageRollup fault with
    | .ok rollup => { l with base := rollupToSummary rollup }
    | .error e => l.markRollupFailure e.message
  { l with store := some store }

/-- Attach a store without reading it. -/
def withStoreLazy (l : UsageLedger) (store : StateStore) : UsageLedger :=
  { l.updateHealth fun h => { h with storeConfigured := true } with store := some store }

/-- How a store is attached: with its rollup read, or without. -/
inductive Attach where
  | hydrated (fault : Option StoreError)
  | lazy

/-- A fresh ledger on a store. -/
def attach (store : StateStore) : Attach → UsageLedger
  | .hydrated fault => inMemory.withStore store fault
  | .lazy => inMemory.withStoreLazy store

theorem attach_store (store : StateStore) (how : Attach) :
    (attach store how).store = some store := by
  cases how <;> rfl

theorem attach_records (store : StateStore) (how : Attach) : (attach store how).records = [] := by
  cases how with
  | lazy => rfl
  | hydrated fault =>
    simp only [attach, withStore]
    cases store.usageRollup fault <;> rfl

/-! ### Writing -/

/-- Append a record to the in-memory buffer. -/
def pushMemory (l : UsageLedger) (record : UsageRecord) (outcome : String) : UsageLedger :=
  markMemoryWrite { l with records := l.records ++ [record] } outcome record.requestId

/-- Record one request; `requiredPhase` is set on the fail-closed paths. -/
def recordInner (l : UsageLedger) (record : UsageRecord)
    (requiredPhase : Option RequiredUsagePhase) (fault : Option StoreError) :
    Except String Unit × UsageLedger :=
  match l.store with
  | some store =>
      let (answer, store) := store.recordUsage fault (recordToEvent record)
      let l := { l with store := some store }
      match answer with
      | .ok .inserted => (.ok (), l.markPersisted record.requestId)
      | .ok .duplicateIgnored => (.ok (), l.markDuplicateIgnored record.requestId)
      | .error e =>
          match requiredPhase with
          | some phase =>
              (.error ("usage store write failed: " ++ e.message),
                l.markRequiredFailure record.requestId e.message phase)
          | none =>
              (.ok (), (l.markBestEffortFailure record.requestId e.message).pushMemory record
                "degraded_memory_fallback")
  | none =>
      match requiredPhase with
      | some phase =>
          (.error "usage store is required but not configured",
            l.markRequiredFailure record.requestId
              "usage store is required but not configured" phase)
      | none => (.ok (), l.pushMemory record "memory_only")

/-- Best-effort write: its error is only logged. -/
def record (l : UsageLedger) (record : UsageRecord) (fault : Option StoreError) : UsageLedger :=
  (l.recordInner record none fault).2

def recordChecked (l : UsageLedger) (record : UsageRecord) (fault : Option StoreError) :
    Except String Unit × UsageLedger :=
  l.recordInner record (some .preResponse) fault

def recordCheckedPostCommit (l : UsageLedger) (record : UsageRecord)
    (fault : Option StoreError) : Except String Unit × UsageLedger :=
  l.recordInner record (some .postCommit) fault

/-! ### Reading -/

/-- The served totals. -/
def summary (l : UsageLedger) (fault : Option StoreError) : LedgerSummary × UsageLedger :=
  match l.store with
  | some store =>
      match store.usageRollup fault with
      | .ok rollup => (applyRecords (rollupToSummary rollup) l.records, l)
      | .error e => (applyRecords l.base l.records, l.markRollupFailure e.message)
  | none => (applyRecords l.base l.records, l)

/-- Micro-USD as USD. -/
def usd (micros : ℕ) : F64 := Fp.ofNat micros / Fp.ofNat 1000000

/-- The cost of a key of a breakdown, in USD. -/
def bucketUsd (m : OrdMap String (ℕ × ℕ)) (k : String) : F64 :=
  match m.get k with
  | some b => usd b.2
  | none => Fp.zero

/-- Spend of one tenant. -/
def tenantSpendUsd (l : UsageLedger) (fault : Option StoreError) (tenant : String) : F64 :=
  bucketUsd (l.summary fault).1.byTenant tenant

theorem usd_zero : usd 0 = Fp.zero := by decide +kernel

theorem bucketUsd_eq (m : OrdMap String (ℕ × ℕ)) (k : String) :
    bucketUsd m k = usd ((m.get k).getD (0, 0)).2 := by
  unfold bucketUsd
  cases m.get k with
  | none => exact usd_zero.symm
  | some b => rfl

/-- With a store attached a write leaves the base totals alone, passes the event to the store,
and fails, or keeps the record in memory, only when the store refuses it. -/
theorem recordInner_of_store {l : UsageLedger} {store : StateStore} (hs : l.store = some store)
    (r : UsageRecord) (phase : Option RequiredUsagePhase) (fault : Option StoreError) :
    let after := l.recordInner r phase fault
    after.2.store = some (store.recordUsage fault (recordToEvent r)).2 ∧
      after.2.base = l.base ∧
      after.2.records =
        (if fault.isSome && phase.isNone then l.records ++ [r] else l.records) ∧
      (after.1.isOk = true ↔ (fault.isNone || phase.isNone) = true) := by
  unfold recordInner
  rw [hs]
  cases fault with
  | some e =>
    cases phase with
    | none => exact ⟨rfl, rfl, rfl, iff_of_true rfl rfl⟩
    | some phase => exact ⟨rfl, rfl, rfl, iff_of_false Bool.false_ne_true Bool.false_ne_true⟩
  | none =>
    simp only [StateStore.recordUsage]
    split <;> simp_all [markPersisted, markDuplicateIgnored, updateHealth, Except.isOk,
      Except.toBool]

end UsageLedger

end Switchback
