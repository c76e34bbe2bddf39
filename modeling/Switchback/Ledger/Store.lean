import Switchback.Core.Ir
import Switchback.Lib.Keyed
import Switchback.Lib.Word
import Switchback.Lib.Fallible

/-!
# The durable usage table

The part of the state store that the usage ledger writes and reads.  The table keeps at most one
row for a request id.  Money columns are signed words, so a cost is cast on the way in and on the
way out, and SQL's `SUM` over them is an error once the running total leaves the signed range.

A `fault` argument is the error of a connection or a statement that fails at that moment.
-/

namespace Switchback

open Lib

/-- An error of the state store. -/
structure StoreError where
  message : String

inductive UsageWriteOutcome where
  | inserted
  | duplicateIgnored

/-- What the ledger sends to the store for one request. -/
structure UsageEvent where
  requestId : String
  providerId : String
  model : String
  tenant : Option String
  costMicros : Option ℕ
  cacheSavingsMicros : Option ℕ
  energyJoules : Option F64
  energyKwh : Option F64
  energyDurationSeconds : Option F64
  energyMeasurementAvailable : Option Bool
  energyKwhConsumed : Option F64
  energyKwhCharged : Option F64

/-- A row of the usage table. -/
structure UsageRow where
  requestId : String
  providerId : String
  model : String
  tenant : Option String
  costMicros : ℤ
  costKnown : Bool
  cacheSavingsMicros : Option ℤ
  energyJoules : Option F64
  energyKwh : Option F64
  energyDurationSeconds : Option F64
  energyMeasurementAvailable : Option Bool
  energyKwhConsumed : Option F64
  energyKwhCharged : Option F64

/-- The columns of an event. -/
def UsageRow.ofEvent (e : UsageEvent) : UsageRow where
  requestId := e.requestId
  providerId := e.providerId
  model := e.model
  tenant := e.tenant
  costMicros := Word.toI64 (e.costMicros.getD 0)
  costKnown := e.costMicros.isSome
  cacheSavingsMicros := e.cacheSavingsMicros.map Word.toI64
  energyJoules := e.energyJoules
  energyKwh := e.energyKwh
  energyDurationSeconds := e.energyDurationSeconds
  energyMeasurementAvailable := e.energyMeasurementAvailable
  energyKwhConsumed := e.energyKwhConsumed
  energyKwhCharged := e.energyKwhCharged

namespace UsageRow

/-- `COALESCE(energy_measurement_available, 1) != 0`. -/
def energyAvailable (r : UsageRow) : Bool := r.energyMeasurementAvailable.getD true

def hasMeasuredEnergy (r : UsageRow) : Bool :=
  r.energyAvailable &&
    (r.energyJoules.isSome || r.energyKwh.isSome || r.energyKwhConsumed.isSome ||
      r.energyKwhCharged.isSome)

end UsageRow

structure UsageEnergyRollup where
  requestsWithEnergy : ℕ
  energyJoules : F64
  energyKwh : F64
  durationSeconds : F64
  energyKwhConsumed : F64
  energyKwhCharged : F64

/-- Grouped totals: key, count, cost. -/
abbrev UsageBucket := String × ℕ × ℕ

structure UsageRollup where
  requests : ℕ
  totalCostMicros : ℕ
  unknownCostRequests : ℕ
  byProvider : List UsageBucket
  byModel : List UsageBucket
  byTenant : List UsageBucket
  totalCacheSavingsMicros : ℕ
  cacheSavingsByProvider : List (String × ℕ)
  cacheSavingsByModel : List (String × ℕ)
  cacheSavingsByTenant : List (String × ℕ)
  energy : UsageEnergyRollup
  energyByProvider : List (String × UsageEnergyRollup)
  energyByModel : List (String × UsageEnergyRollup)
  energyByTenant : List (String × UsageEnergyRollup)

/-- The state store: its usage table, and the database's sum of real columns. -/
structure StateStore where
  usage : KeyedLog UsageRow.requestId
  sumReal : List F64 → F64

namespace StateStore

/-- `INSERT OR IGNORE` of one event. -/
def recordUsage (s : StateStore) (fault : Option StoreError) (e : UsageEvent) :
    Except StoreError UsageWriteOutcome × StateStore :=
  match fault with
  | some err => (.error err, s)
  | none =>
      let row := UsageRow.ofEvent e
      let table := s.usage.insertOrIgnore row
      (.ok (if row.requestId ∈ s.usage.rows.map UsageRow.requestId then .duplicateIgnored
        else .inserted), { s with usage := table })

/-- `COALESCE(SUM(column), 0)` over an integer column. -/
def sumInteger (l : List ℤ) : Except StoreError ℕ :=
  match Word.checkedSum l with
  | some total => .ok (Word.toU64 total)
  | none => .error ⟨"integer overflow"⟩

/-- The distinct keys of the rows in increasing order; rows without a key form no group. -/
def groupKeys (key : UsageRow → Option String) (rows : List UsageRow) : List String :=
  (OrdMap.ofList ((rows.filterMap key).map fun k => (k, ()))).keys

/-- The rows of one group. -/
def group (key : UsageRow → Option String) (k : String) (rows : List UsageRow) :
    List UsageRow :=
  rows.filter fun r => key r = some k

/-- Count and cost of one group. -/
def usageBucket (key : UsageRow → Option String) (rows : List UsageRow) (k : String) :
    Except StoreError UsageBucket :=
  (sumInteger ((group key k rows).map UsageRow.costMicros)).map fun cost =>
    (k, (group key k rows).length, cost)

/-- Count and cost of each group. -/
def usageBuckets (key : UsageRow → Option String) (rows : List UsageRow) :
    Except StoreError (List UsageBucket) :=
  (groupKeys key rows).mapM (usageBucket key rows)

/-- Savings of each group; a group without a positive total is left out. -/
def savingsBuckets (key : UsageRow → Option String) (rows : List UsageRow) :
    Except StoreError (List (String × ℕ)) := do
  let sums ← (groupKeys key rows).mapM fun k =>
    match Word.checkedSum ((group key k rows).filterMap UsageRow.cacheSavingsMicros) with
    | some total => Except.ok (k, total)
    | none => .error ⟨"integer overflow"⟩
  pure ((sums.filter fun p => 0 < p.2).map fun p => (p.1, Word.toU64 p.2))

/-- The energy columns of a set of rows. -/
def energyRollup (s : StateStore) (rows : List UsageRow) : UsageEnergyRollup :=
  -- a row whose measurement is unavailable contributes zero, a null column nothing
  let sum (column : UsageRow → Option F64) : F64 :=
    match rows.filterMap fun r => if r.energyAvailable then column r else some Fp.zero with
    | [] => Fp.zero
    | l => s.sumReal l
  { requestsWithEnergy := (rows.filter UsageRow.hasMeasuredEnergy).length
    energyJoules := sum UsageRow.energyJoules
    energyKwh := sum UsageRow.energyKwh
    durationSeconds := sum UsageRow.energyDurationSeconds
    energyKwhConsumed := sum UsageRow.energyKwhConsumed
    energyKwhCharged := sum UsageRow.energyKwhCharged }

/-- The energy of each group of measured rows. -/
def energyBuckets (s : StateStore) (key : UsageRow → Option String) (rows : List UsageRow) :
    List (String × UsageEnergyRollup) :=
  let measured := rows.filter UsageRow.hasMeasuredEnergy
  (groupKeys key measured).map fun k => (k, s.energyRollup (group key k measured))

/-- Totals of the table and of its groups. -/
def usageRollup (s : StateStore) (fault : Option StoreError) : Except StoreError UsageRollup :=
  match fault with
  | some err => .error err
  | none => do
      let rows := s.usage.rows
      let totalCostMicros ← sumInteger (rows.map UsageRow.costMicros)
      let totalCacheSavingsMicros ← sumInteger (rows.filterMap UsageRow.cacheSavingsMicros)
      let byTenant ← usageBuckets UsageRow.tenant rows
      let byProvider ← usageBuckets (fun r => some r.providerId) rows
      let byModel ← usageBuckets (fun r => some r.model) rows
      let cacheSavingsByProvider ← savingsBuckets (fun r => some r.providerId) rows
      let cacheSavingsByModel ← savingsBuckets (fun r => some r.model) rows
      let cacheSavingsByTenant ← savingsBuckets UsageRow.tenant rows
      pure
        { requests := rows.length
          totalCostMicros, byProvider, byModel, byTenant, totalCacheSavingsMicros
          unknownCostRequests := (rows.filter fun r => !r.costKnown).length
          cacheSavingsByProvider, cacheSavingsByModel, cacheSavingsByTenant
          energy := s.energyRollup rows
          energyByProvider := s.energyBuckets (fun r => some r.providerId) rows
          energyByModel := s.energyBuckets (fun r => some r.model) rows
          energyByTenant := s.energyBuckets UsageRow.tenant rows }

end StateStore

/-! ### What a rollup says -/

/-- The totals that budgets are checked against. -/
inductive SpendScope where
  | total
  | tenant (t : String)
  | provider (p : String)

/-- Does a row count towards a scope? -/
def UsageRow.inScope (r : UsageRow) : SpendScope → Bool
  | .total => true
  | .tenant t => r.tenant = some t
  | .provider p => r.providerId = p

/-- The cost of the first bucket of a key. -/
def bucketMicros (buckets : List UsageBucket) (k : String) : ℕ :=
  ((buckets.find? fun b => b.1 = k).map fun b => b.2.2).getD 0

/-- The cost a rollup reports for a scope. -/
def UsageRollup.micros (r : UsageRollup) : SpendScope → ℕ
  | .total => r.totalCostMicros
  | .tenant t => bucketMicros r.byTenant t
  | .provider p => bucketMicros r.byProvider p

namespace StateStore

/-- The cost column summed over the rows of a scope. -/
def durableSum (s : StateStore) (scope : SpendScope) : ℤ :=
  ((s.usage.rows.filter fun r => r.inScope scope).map UsageRow.costMicros).sum

theorem sumInteger_eq_ok {l : List ℤ} {n : ℕ} (h : sumInteger l = .ok n) :
    n = Word.toU64 l.sum ∧ Word.i64Min ≤ l.sum ∧ l.sum ≤ Word.i64Max := by
  unfold sumInteger at h
  cases hs : Word.checkedSum l with
  | none => simp [hs] at h
  | some z =>
    obtain ⟨rfl, hr⟩ := Word.checkedSum_eq_some hs
    obtain rfl : Word.toU64 l.sum = n := by simpa [hs] using h
    exact ⟨rfl, hr⟩

variable {key : UsageRow → Option String} {rows : List UsageRow} {bs : List UsageBucket}

theorem usageBucket_eq_ok {k : String} {b : UsageBucket} (h : usageBucket key rows k = .ok b) :
    b.1 = k ∧ sumInteger ((group key k rows).map UsageRow.costMicros) = .ok b.2.2 := by
  unfold usageBucket at h
  cases hs : sumInteger ((group key k rows).map UsageRow.costMicros) with
  | error e => simp [hs, Except.map] at h
  | ok n =>
    obtain rfl : (k, (group key k rows).length, n) = b := by simpa [hs, Except.map] using h
    exact ⟨rfl, rfl⟩

/-- Every group has one bucket, with its own key and its own sum. -/
theorem usageBuckets_eq_ok (h : usageBuckets key rows = .ok bs) :
    bs.map Prod.fst = groupKeys key rows ∧
      ∀ b ∈ bs, sumInteger ((group key b.1 rows).map UsageRow.costMicros) = .ok b.2.2 := by
  have hall := mapM_eq_ok_iff.mp h
  generalize groupKeys key rows = ks at hall
  clear h
  induction hall with
  | nil => simp
  | cons hb _ ih =>
    obtain ⟨hk, hsum⟩ := usageBucket_eq_ok hb
    refine ⟨by rw [List.map_cons, ih.1, hk], ?_⟩
    rintro b (_ | ⟨_, hmem⟩)
    · rw [hk]
      exact hsum
    · exact ih.2 b hmem

theorem nodup_bucket_keys (h : usageBuckets key rows = .ok bs) : (bs.map Prod.fst).Nodup := by
  rw [(usageBuckets_eq_ok h).1]
  exact OrdMap.nodup_keys _

theorem group_eq_nil {k : String} (h : k ∉ groupKeys key rows) : group key k rows = [] := by
  rw [groupKeys, OrdMap.mem_keys_ofList] at h
  rw [group, List.filter_eq_nil_iff]
  intro r hr hk
  refine h ?_
  simp only [List.map_map, List.mem_map, List.mem_filterMap]
  exact ⟨k, ⟨r, hr, by simpa using hk⟩, rfl⟩

/-- The bucket of a key holds the sum over its group, and a missing bucket stands for zero. -/
theorem bucketMicros_eq (h : usageBuckets key rows = .ok bs) (k : String) :
    let sum := ((group key k rows).map UsageRow.costMicros).sum
    bucketMicros bs k = Word.toU64 sum ∧ Word.i64Min ≤ sum ∧ sum ≤ Word.i64Max := by
  obtain ⟨hkeys, hsums⟩ := usageBuckets_eq_ok h
  cases hf : bs.find? fun b => b.1 = k with
  | none =>
    have hk : k ∉ groupKeys key rows := by
      rw [← hkeys]
      rintro hmem
      obtain ⟨b, hb, rfl⟩ := List.mem_map.1 hmem
      exact absurd (List.find?_eq_none.1 hf b hb) (by simp)
    simp [bucketMicros, hf, group_eq_nil hk, Word.toU64, Word.i64Min, Word.i64Max]
  | some b =>
    obtain rfl : b.1 = k := by simpa using List.find?_some hf
    have hsum := sumInteger_eq_ok (hsums b (List.mem_of_find?_eq_some hf))
    simpa [bucketMicros, hf] using hsum

/-- A rollup that succeeds takes its totals and buckets from the rows. -/
theorem usageRollup_eq_ok {s : StateStore} {fault : Option StoreError} {r : UsageRollup}
    (h : s.usageRollup fault = .ok r) :
    r.requests = s.usage.rows.length ∧
      sumInteger (s.usage.rows.map UsageRow.costMicros) = .ok r.totalCostMicros ∧
      usageBuckets UsageRow.tenant s.usage.rows = .ok r.byTenant ∧
      usageBuckets (fun r => some r.providerId) s.usage.rows = .ok r.byProvider := by
  cases fault with
  | some e => simp [usageRollup] at h
  | none =>
    simp only [usageRollup, bind, Except.bind, pure, Except.pure] at h
    repeat' split at h <;> try cases h
    refine ⟨rfl, ?_, ?_, ?_⟩ <;> assumption

/-- **A rollup reports, for every scope, the cost column summed over the rows of the scope.** -/
theorem rollupMicros_eq {s : StateStore} {fault : Option StoreError} {r : UsageRollup}
    (h : s.usageRollup fault = .ok r) (scope : SpendScope) :
    r.micros scope = Word.toU64 (s.durableSum scope) ∧
      Word.i64Min ≤ s.durableSum scope ∧ s.durableSum scope ≤ Word.i64Max := by
  obtain ⟨-, htotal, htenant, hprovider⟩ := usageRollup_eq_ok h
  cases scope with
  | total => simpa [durableSum, UsageRow.inScope, UsageRollup.micros] using sumInteger_eq_ok htotal
  | tenant t => exact bucketMicros_eq htenant t
  | provider p =>
    have := bucketMicros_eq hprovider p
    simpa [group, durableSum, UsageRow.inScope, UsageRollup.micros] using this

end StateStore

end Switchback
