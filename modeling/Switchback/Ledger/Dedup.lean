import Mathlib.Algebra.BigOperators.Ring.Finset
import Switchback.Ledger.Spend

/-!
# Counting every request once

The store ignores a request id it already has; the in-memory buffer has no ids.  A summary counts
every accepted request once exactly when no write that fell back to memory shares its request id
with another accepted write.
-/

namespace Switchback

open Lib

inductive WritePath where
  | record
  | recordChecked
  | recordCheckedPostCommit
  deriving DecidableEq

/-- One write and the store's answer to it. -/
structure LedgerCall where
  path : WritePath
  record : UsageRecord
  fault : Option StoreError

namespace LedgerCall

def requestId (c : LedgerCall) : String := c.record.requestId

def cost (c : LedgerCall) : ℕ := c.record.cost

/-- Make the call. -/
def apply (c : LedgerCall) (l : UsageLedger) : Except String Unit × UsageLedger :=
  match c.path with
  | .record => (.ok (), l.record c.record c.fault)
  | .recordChecked => l.recordChecked c.record c.fault
  | .recordCheckedPostCommit => l.recordCheckedPostCommit c.record c.fault

/-- The store takes the event. -/
def persisted (c : LedgerCall) : Bool := c.fault.isNone

/-- The store refuses a best-effort write. -/
def fellBack (c : LedgerCall) : Bool := c.fault.isSome && decide (c.path = .record)

/-- The row the call asks the store to write. -/
def row (c : LedgerCall) : UsageRow := UsageRow.ofEvent (recordToEvent c.record)

theorem apply_spec (c : LedgerCall) {l : UsageLedger} {store : StateStore}
    (hs : l.store = some store) :
    (c.apply l).2.store = some (store.recordUsage c.fault (recordToEvent c.record)).2 ∧
      (c.apply l).2.records = (if c.fellBack then l.records ++ [c.record] else l.records) ∧
      (c.apply l).1.isOk = (c.persisted || c.fellBack) := by
  obtain ⟨path, r, fault⟩ := c
  have hspec (phase : Option RequiredUsagePhase) :=
    UsageLedger.recordInner_of_store hs r phase fault
  cases path with
  | record =>
    obtain ⟨h1, -, h3, -⟩ := hspec none
    refine ⟨h1, ?_, ?_⟩
    · simpa [fellBack, apply, UsageLedger.record, UsageLedger.recordChecked,
        UsageLedger.recordCheckedPostCommit] using h3
    · cases fault <;> rfl
  | recordChecked =>
    obtain ⟨h1, -, h3, h4⟩ := hspec (some .preResponse)
    refine ⟨h1, ?_, ?_⟩
    · simpa [fellBack, apply, UsageLedger.record, UsageLedger.recordChecked,
        UsageLedger.recordCheckedPostCommit] using h3
    · rw [Bool.eq_iff_iff]
      simpa [fellBack, persisted, apply, UsageLedger.recordChecked,
        UsageLedger.recordCheckedPostCommit] using h4
  | recordCheckedPostCommit =>
    obtain ⟨h1, -, h3, h4⟩ := hspec (some .postCommit)
    refine ⟨h1, ?_, ?_⟩
    · simpa [fellBack, apply, UsageLedger.record, UsageLedger.recordChecked,
        UsageLedger.recordCheckedPostCommit] using h3
    · rw [Bool.eq_iff_iff]
      simpa [fellBack, persisted, apply, UsageLedger.recordChecked,
        UsageLedger.recordCheckedPostCommit] using h4

end LedgerCall

/-- Make the calls in turn; the results come in the order of the calls. -/
def runCalls : UsageLedger → List LedgerCall → List (Except String Unit) × UsageLedger
  | l, [] => ([], l)
  | l, c :: calls =>
      let (result, l) := c.apply l
      let (results, l) := runCalls l calls
      (result :: results, l)

/-- The calls that returned `Ok`. -/
def acceptedCalls (calls : List LedgerCall) (results : List (Except String Unit)) :
    List LedgerCall :=
  ((calls.zip results).filter fun p => p.2.isOk).map Prod.fst

variable {l : UsageLedger} {store : StateStore} (calls : List LedgerCall)

/-- The calls that return `Ok` are those the store takes and those that fall back to memory. -/
theorem runCalls_accepted (hs : l.store = some store) (calls : List LedgerCall) :
    acceptedCalls calls (runCalls l calls).1 =
      calls.filter fun c => c.persisted || c.fellBack := by
  induction calls generalizing l store with
  | nil => rfl
  | cons c calls ih =>
    obtain ⟨hstore, -, hok⟩ := c.apply_spec hs
    have htail := ih hstore
    simp only [acceptedCalls, runCalls, List.zip_cons_cons, List.filter_cons, hok] at htail ⊢
    split_ifs with h
    · rw [List.map_cons, htail]
    · exact htail

theorem runCalls_records (hs : l.store = some store) (calls : List LedgerCall) :
    (runCalls l calls).2.records =
      l.records ++ (calls.filter LedgerCall.fellBack).map LedgerCall.record := by
  induction calls generalizing l store with
  | nil => simp [runCalls]
  | cons c calls ih =>
    obtain ⟨hstore, hrecords, -⟩ := c.apply_spec hs
    rw [runCalls, ih hstore, hrecords, List.filter_cons]
    split_ifs <;> simp

theorem runCalls_rows (hs : l.store = some store) (calls : List LedgerCall) :
    ∃ store', (runCalls l calls).2.store = some store' ∧
      store'.usage = ((calls.filter LedgerCall.persisted).map LedgerCall.row).foldl
        KeyedLog.insertOrIgnore store.usage := by
  induction calls generalizing l store with
  | nil => exact ⟨store, hs, rfl⟩
  | cons c calls ih =>
    obtain ⟨hstore, -, -⟩ := c.apply_spec hs
    obtain ⟨store', hrun, husage⟩ := ih hstore
    refine ⟨store', hrun, husage.trans ?_⟩
    rw [List.filter_cons]
    obtain ⟨path, r, fault⟩ := c
    cases fault <;> rfl

/-- The table an empty store has after taking the events of some calls. -/
def tableOf (calls : List LedgerCall) : KeyedLog UsageRow.requestId :=
  (calls.map LedgerCall.row).foldl KeyedLog.insertOrIgnore KeyedLog.empty

theorem firstWith_tableOf (k : String) :
    firstWith UsageRow.requestId k (tableOf calls).rows =
      (firstWith LedgerCall.requestId k calls).map LedgerCall.row := by
  rw [tableOf, KeyedLog.firstWith_foldl]
  simp only [firstWith, KeyedLog.empty, List.find?_nil, Option.none_or, List.find?_map]
  rfl

theorem keys_tableOf :
    keys UsageRow.requestId (tableOf calls).rows = keys LedgerCall.requestId calls := by
  ext k
  rw [← firstWith_isSome, ← firstWith_isSome, firstWith_tableOf, Option.isSome_map]

/-- The cost column of a row as the word it was cast from. -/
def UsageRow.word (r : UsageRow) : ℕ := Word.toU64 r.costMicros

theorem LedgerCall.word_row {c : LedgerCall} (h : c.cost < 2 ^ 63) :
    c.row.word = c.cost ∧ c.row.costMicros = c.cost := by
  have hrow : c.row.costMicros = c.cost := Word.toI64_of_lt h
  rw [UsageRow.word, hrow, Word.toU64_natCast (by omega)]
  exact ⟨rfl, rfl⟩

theorem sum_tableOf {calls : List LedgerCall} (hcost : ∀ c ∈ calls, c.cost < 2 ^ 63) :
    ((tableOf calls).rows.map UsageRow.costMicros).sum =
      ((∑ k ∈ keys LedgerCall.requestId calls,
        ((firstWith LedgerCall.requestId k calls).map LedgerCall.cost).getD 0 : ℕ) : ℤ) := by
  have hrow : ∀ r ∈ (tableOf calls).rows, r.costMicros = (r.word : ℤ) := by
    intro r hr
    rcases KeyedLog.mem_foldl_insertOrIgnore hr with h | h
    · obtain ⟨c, hc, rfl⟩ := List.mem_map.1 h
      obtain ⟨h1, h2⟩ := LedgerCall.word_row (hcost c hc)
      rw [h1, h2]
    · simp [KeyedLog.empty] at h
  have hcast : ((tableOf calls).rows.map UsageRow.costMicros).sum =
      (((tableOf calls).rows.map UsageRow.word).sum : ℤ) := by
    rw [Nat.cast_list_sum, List.map_map]
    exact congrArg List.sum (List.map_congr_left hrow)
  rw [hcast, ← sum_keys_of_nodup (tableOf calls).unique UsageRow.word, keys_tableOf]
  congr 1
  refine Finset.sum_congr rfl fun k _ => ?_
  rw [firstWith_tableOf]
  cases hf : firstWith LedgerCall.requestId k calls with
  | none => rfl
  | some c =>
    have hc : c ∈ calls := List.mem_of_find?_eq_some hf
    exact (LedgerCall.word_row (hcost c hc)).1

theorem filter_accepted :
    ((calls.filter fun c => c.persisted || c.fellBack).filter LedgerCall.fellBack =
        calls.filter LedgerCall.fellBack) ∧
      (calls.filter fun c => c.persisted || c.fellBack).filter (fun c => !c.fellBack) =
        calls.filter LedgerCall.persisted := by
  constructor
  · rw [List.filter_filter]
    refine List.filter_congr fun c _ => ?_
    cases c.fellBack <;> simp
  · rw [List.filter_filter]
    refine List.filter_congr fun c _ => ?_
    obtain ⟨path, r, fault⟩ := c
    cases fault <;> simp [LedgerCall.persisted, LedgerCall.fellBack]

theorem summary_of_run (sumReal : List F64 → F64) (how : UsageLedger.Attach)
    (calls : List LedgerCall)
    (hcost : ∀ c ∈ calls, c.cost < 2 ^ 63) :
    let l := (runCalls (UsageLedger.attach ⟨KeyedLog.empty, sumReal⟩ how) calls).2
    (∃ store, l.store = some store ∧ ∃ rollup, store.usageRollup none = .ok rollup) →
    (l.summary none).1.totalCostMicros < Word.u64Max →
    (l.summary none).1.requests =
        (keys LedgerCall.requestId (calls.filter LedgerCall.persisted)).card +
          (calls.filter LedgerCall.fellBack).length ∧
      (l.summary none).1.totalCostMicros =
        ∑ k ∈ keys LedgerCall.requestId (calls.filter LedgerCall.persisted),
          ((firstWith LedgerCall.requestId k (calls.filter LedgerCall.persisted)).map
            LedgerCall.cost).getD 0 +
        ((calls.filter LedgerCall.fellBack).map LedgerCall.cost).sum := by
  rintro l ⟨store, hstore, rollup, hrollup⟩ hsat
  have hinit := UsageLedger.attach_store ⟨KeyedLog.empty, sumReal⟩ how
  have hrecords : l.records = (calls.filter LedgerCall.fellBack).map LedgerCall.record := by
    rw [show l.records = _ from runCalls_records hinit calls, UsageLedger.attach_records,
      List.nil_append]
  obtain ⟨store', hstore', husage⟩ := runCalls_rows hinit calls
  obtain rfl : store = store' := by
    rw [show l.store = _ from hstore'] at hstore
    exact (Option.some.inj hstore).symm
  have htable : store.usage = tableOf (calls.filter LedgerCall.persisted) := husage
  have hsum : (l.summary none).1 = applyRecords (rollupToSummary rollup) l.records := by
    simp [UsageLedger.summary, hstore, hrollup]
  constructor
  · have hrequests : ∀ (records : List UsageRecord) (s : LedgerSummary),
        (records.foldl applyRecord s).requests = s.requests := by
      intro records
      induction records with
      | nil => exact fun s => rfl
      | cons r records ih => exact fun s => by rw [List.foldl_cons, ih, applyRecord_requests]
    rw [hsum, applyRecords, hrequests, hrecords, List.length_map, ← keys_tableOf,
      card_keys_of_nodup (tableOf _).unique, ← htable]
    exact congrArg (· + _) (StateStore.usageRollup_eq_ok hrollup).1
  · have hserved := served_applyRecords (rollupToSummary rollup) l.records .total
    rw [micros_rollupToSummary hrollup] at hserved
    obtain ⟨hmicros, hrange⟩ := StateStore.rollupMicros_eq hrollup .total
    have hfits : ∀ c ∈ calls.filter LedgerCall.persisted, c.cost < 2 ^ 63 :=
      fun c hc => hcost c (List.mem_of_mem_filter hc)
    have hdurable := sum_tableOf hfits
    have hall : store.durableSum .total = (store.usage.rows.map UsageRow.costMicros).sum := by
      simp [StateStore.durableSum, UsageRow.inScope]
    rw [← htable, ← hall] at hdurable
    rw [hdurable] at hmicros hrange
    rw [Word.toU64_natCast (by simp only [Word.i64Max] at hrange; omega)] at hmicros
    rw [hmicros, Word.foldl_satAdd (by simp only [Word.i64Max, Word.u64Max] at *; omega)]
      at hserved
    have hmem : ((l.records.filter fun r => r.inScope .total).map UsageRecord.cost) =
        (calls.filter LedgerCall.fellBack).map LedgerCall.cost := by
      rw [hrecords]
      simp [UsageRecord.inScope, LedgerCall.cost, Function.comp_def]
    rw [hmem] at hserved
    rw [hsum] at hsat ⊢
    simp only [LedgerSummary.micros] at hserved
    omega

/-- **No double counting.**  For every run from an empty store whose costs fit the cost column,
with the store readable and the summary not saturated, the summary counts every accepted request
id once, at the cost of its first accepted record, iff the calls that fell back to memory have
distinct request ids and share none with a call that the store took. -/
theorem summary_counts_once_iff (sumReal : List F64 → F64) (how : UsageLedger.Attach)
    (calls : List LedgerCall) (hcost : ∀ c ∈ calls, c.cost < 2 ^ 63)
    (hread : ∃ store,
      (runCalls (UsageLedger.attach ⟨KeyedLog.empty, sumReal⟩ how) calls).2.store = some store ∧
        ∃ rollup, store.usageRollup none = .ok rollup)
    (hsat : ((runCalls (UsageLedger.attach ⟨KeyedLog.empty, sumReal⟩ how) calls).2.summary
      none).1.totalCostMicros < Word.u64Max) :
    let run := runCalls (UsageLedger.attach ⟨KeyedLog.empty, sumReal⟩ how) calls
    let accepted := acceptedCalls calls run.1
    ((run.2.summary none).1.requests = (keys LedgerCall.requestId accepted).card ∧
        (run.2.summary none).1.totalCostMicros =
          ∑ k ∈ keys LedgerCall.requestId accepted,
            ((firstWith LedgerCall.requestId k accepted).map LedgerCall.cost).getD 0) ↔
      ((calls.filter LedgerCall.fellBack).map LedgerCall.requestId).Nodup ∧
        ∀ c ∈ calls, ∀ d ∈ calls, c.fellBack = true → d.persisted = true →
          c.requestId ≠ d.requestId := by
  intro run accepted
  obtain ⟨hrequests, htotal⟩ := summary_of_run sumReal how calls hcost hread hsat
  have haccepted : accepted = calls.filter fun c => c.persisted || c.fellBack :=
    runCalls_accepted (UsageLedger.attach_store _ how) calls
  obtain ⟨hmem, hper⟩ := filter_accepted calls
  rw [hrequests, htotal, haccepted]
  have hcard := card_keys_eq_iff LedgerCall.requestId LedgerCall.fellBack
    (calls.filter fun c => c.persisted || c.fellBack)
  rw [hmem, hper] at hcard
  -- a call that is accepted without falling back was persisted
  have hsep : (∀ a ∈ calls.filter (fun c => c.persisted || c.fellBack),
        ∀ b ∈ calls.filter (fun c => c.persisted || c.fellBack), a.fellBack = true →
          b.fellBack = false → a.requestId ≠ b.requestId) ↔
      ∀ c ∈ calls, ∀ d ∈ calls, c.fellBack = true → d.persisted = true →
        c.requestId ≠ d.requestId := by
    constructor
    · intro h c hc d hd hcf hdp
      have hdf : d.fellBack = false := by
        obtain ⟨path, r, fault⟩ := d
        cases fault with
        | none => rfl
        | some e => simp [LedgerCall.persisted] at hdp
      exact h c (List.mem_filter.2 ⟨hc, by simp [hcf]⟩) d (List.mem_filter.2 ⟨hd, by simp [hdp]⟩)
        hcf hdf
    · intro h a ha b hb haf hbf
      rw [List.mem_filter] at ha hb
      exact h a ha.1 b hb.1 haf (by simpa [hbf] using hb.2)
  rw [hsep] at hcard
  constructor
  · rintro ⟨h, -⟩
    exact hcard.1 h
  · intro h
    refine ⟨hcard.2 h, ?_⟩
    rw [sum_keys_eq LedgerCall.fellBack LedgerCall.cost (by rw [hmem]; exact h.1) (hsep.2 h.2),
      hmem, hper]

/-- A request of one tenant, for the runs below. -/
def sampleRecord (requestId : String) (costMicros : ℕ) : UsageRecord where
  requestId := requestId
  providerId := "openai"
  model := "gpt"
  tenant := some "acme"
  usage := {}
  costMicros := some costMicros
  cacheSavingsMicros := none

/-- A write, a refused best-effort write of another request, a replay of the first and a refused
required write. -/
def sampleCalls : List LedgerCall :=
  [⟨.record, sampleRecord "req_1" 300, none⟩,
    ⟨.record, sampleRecord "req_2" 50, some ⟨"database is locked"⟩⟩,
    ⟨.recordChecked, sampleRecord "req_1" 900, none⟩,
    ⟨.recordCheckedPostCommit, sampleRecord "req_3" 7, some ⟨"database is locked"⟩⟩]

theorem summary_counts_once_sampleCalls :
    let run := runCalls (UsageLedger.attach ⟨KeyedLog.empty, fun _ => Fp.zero⟩ .lazy) sampleCalls
    let accepted := acceptedCalls sampleCalls run.1
    (run.2.summary none).1.requests = (keys LedgerCall.requestId accepted).card ∧
      (run.2.summary none).1.totalCostMicros =
        ∑ k ∈ keys LedgerCall.requestId accepted,
          ((firstWith LedgerCall.requestId k accepted).map LedgerCall.cost).getD 0 :=
  (summary_counts_once_iff (fun _ => Fp.zero) .lazy sampleCalls (by decide)
    ⟨_, rfl, _, rfl⟩ (by decide +kernel)).2 (by decide)

/-- A request that fell back to memory and is then replayed is counted, and charged, twice. -/
theorem replay_after_fallback_counts_twice :
    ¬ ∀ (sumReal : List F64 → F64) (how : UsageLedger.Attach) (calls : List LedgerCall),
      (∀ c ∈ calls, c.cost < 2 ^ 63) →
      (∃ store,
        (runCalls (UsageLedger.attach ⟨KeyedLog.empty, sumReal⟩ how) calls).2.store =
          some store ∧ ∃ rollup, store.usageRollup none = .ok rollup) →
      ((runCalls (UsageLedger.attach ⟨KeyedLog.empty, sumReal⟩ how) calls).2.summary
        none).1.totalCostMicros < Word.u64Max →
      let run := runCalls (UsageLedger.attach ⟨KeyedLog.empty, sumReal⟩ how) calls
      let accepted := acceptedCalls calls run.1
      (run.2.summary none).1.requests = (keys LedgerCall.requestId accepted).card ∧
        (run.2.summary none).1.totalCostMicros =
          ∑ k ∈ keys LedgerCall.requestId accepted,
            ((firstWith LedgerCall.requestId k accepted).map LedgerCall.cost).getD 0 := by
  intro h
  have hcounts := h (fun _ => Fp.zero) .lazy
    [⟨.record, sampleRecord "req_1" 300, some ⟨"database is locked"⟩⟩,
      ⟨.record, sampleRecord "req_1" 300, none⟩] (by decide) ⟨_, rfl, _, rfl⟩ (by decide +kernel)
  revert hcounts
  decide +kernel

end Switchback
