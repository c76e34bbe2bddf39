import Switchback.Quality.Config
import Switchback.Ledger.Store
import Switchback.Lib.Machine
import Switchback.Lib.Window
import Mathlib.Data.List.MinMax
import Mathlib.Order.Nat

/-!
# The table of quality judgments

A judgment is reserved before the judge runs and finalized after it.  The budget of a reservation
is counted over the rows of the last twenty-four hours, in the transaction that inserts the new row
and then deletes all but the newest rows.

A `fault` argument is the error of a connection or a statement that fails in that call.
-/

namespace Switchback

namespace Quality

open Lib

/-- `QualityJudgmentReservation`. -/
structure Reservation where
  judgmentId : String
  judgeRequestId : String
  servedRequestId : String
  servedTargetId : String
  class' : String
  sampleRevision : ℕ
  judgeRevision : ℕ
  evaluatorId : String
  rubricVersion : String
  judgeTargetId : Option String
  inputChars : ℕ
  outputChars : ℕ
  reservedCostMicros : ℕ
  createdAtMs : ℤ

/-- `QualityJudgmentFinalization`. -/
structure Finalization where
  judgmentId : String
  judgeTargetId : Option String
  status : String
  scoreNorm : Option F64
  reasonCode : Option String
  actualCostMicros : Option ℕ
  completedAtMs : ℤ

/-- `QualityJudgmentBudget`. -/
structure Budget where
  attempted : ℕ
  costMicros : ℕ
  deriving DecidableEq

/-- `QualityJudgmentReserveOutcome`. -/
inductive ReserveOutcome where
  | reserved
  | duplicate
  | budgetExceeded (budget : Budget)
  deriving DecidableEq

/-! ### Checks -/

/-- `quality_u64_to_i64`. -/
def u64ToI64 (value : ℕ) (label : String) : Except StoreError ℤ :=
  if (value : ℤ) ≤ Word.i64Max then .ok value
  else .error ⟨s!"{label} exceeds SQLite INTEGER range"⟩

/-- `validate_quality_text`. -/
def validateText (label value : String) : Except StoreError Unit :=
  if (Text.trim value).isEmpty then .error ⟨s!"{label} must not be empty"⟩ else .ok ()

def isCodeChar (c : Char) : Bool :=
  ('a' ≤ c && c ≤ 'z') || ('0' ≤ c && c ≤ '9') || c == '_'

/-- `validate_quality_code`. -/
def validateCode (label value : String) : Except StoreError Unit :=
  if value.isEmpty || 64 < Text.len value || !value.toList.all isCodeChar then
    .error ⟨s!"{label} must be a lowercase enum identifier"⟩
  else .ok ()

/-- `validate_quality_text` on an optional text. -/
def validateOptText (label : String) : Option String → Except StoreError Unit
  | none => .ok ()
  | some value => validateText label value

/-- The texts of a reservation that may not be blank. -/
def Reservation.texts (r : Reservation) : List (String × String) :=
  [("judgment_id", r.judgmentId), ("judge_request_id", r.judgeRequestId),
    ("served_request_id", r.servedRequestId), ("served_target_id", r.servedTargetId),
    ("class", r.class'), ("evaluator_id", r.evaluatorId), ("rubric_version", r.rubricVersion)]

/-- `validate_quality_reservation`. -/
def validateReservation (r : Reservation) : Except StoreError Unit :=
  r.texts.forM (fun p => validateText p.1 p.2) >>= fun _ =>
  validateOptText "judge_target_id" r.judgeTargetId >>= fun _ =>
  if r.createdAtMs < 0 then .error ⟨"created_at_ms must be non-negative"⟩ else .ok ()

/-- The statuses that a finalization may set. -/
def terminalStatuses : List String := ["scored", "ungradable", "invalid", "failed", "timeout"]

/-- The score that a status calls for. -/
def validateScore (status : String) (scoreNorm : Option F64) : Except StoreError Unit :=
  match decide (status = "scored"), scoreNorm with
  | true, some score =>
    if score.isFinite && Fp.le Fp.zero score && Fp.le score (Fp.ofNat 1) then .ok ()
    else .error ⟨"scored quality judgment requires score_norm in [0,1]"⟩
  | true, none => .error ⟨"scored quality judgment requires score_norm in [0,1]"⟩
  | false, none => .ok ()
  | false, some _ => .error ⟨"only scored quality judgment may carry score_norm"⟩

/-- `validate_quality_finalization`. -/
def validateFinalization (f : Finalization) : Except StoreError Unit :=
  validateText "judgment_id" f.judgmentId >>= fun _ =>
  validateOptText "judge_target_id" f.judgeTargetId >>= fun _ =>
  (if terminalStatuses.contains f.status then .ok ()
    else .error ⟨"invalid terminal quality status"⟩) >>= fun _ =>
  validateScore f.status f.scoreNorm >>= fun _ =>
  (match f.reasonCode with
    | none => .ok ()
    | some code => validateCode "reason_code" code) >>= fun _ =>
  if f.completedAtMs < 0 then .error ⟨"completed_at_ms must be non-negative"⟩ else .ok ()

/-! ### Rows -/

/-- A row of `quality_judgments`: its reservation, and what a finalization sets. -/
structure Row where
  rowid : ℕ
  reservation : Reservation
  judgeTargetId : Option String
  status : String
  scoreNorm : Option F64
  reasonCode : Option String
  actualCostMicros : Option ℤ
  completedAtMs : Option ℤ

/-- The rows in the order of their rowids. -/
structure Judgments where
  rows : List Row
  ordered : (rows.map Row.rowid).Pairwise (· < ·)

namespace Judgments

def empty : Judgments := ⟨[], List.Pairwise.nil⟩

/-- The greatest rowid. -/
def maxRowid (t : Judgments) : ℕ := (t.rows.map Row.rowid).foldr max ⊥

variable {t : Judgments} {r : Row}

theorem rowid_le_maxRowid (h : r ∈ t.rows) : r.rowid ≤ t.maxRowid :=
  List.le_max_of_le (List.mem_map_of_mem h) (Nat.le_refl _)

theorem maxRowid_le {n : ℕ} (h : ∀ r ∈ t.rows, r.rowid ≤ n) : t.maxRowid ≤ n := by
  refine List.max_le_of_forall_le _ n fun k hk => ?_
  obtain ⟨r, hr, rfl⟩ := List.mem_map.mp hk
  exact h r hr

theorem eq_of_rowid {r' : Row} (h : r ∈ t.rows) (h' : r' ∈ t.rows)
    (heq : r.rowid = r'.rowid) : r = r' :=
  List.inj_on_of_nodup_map (t.ordered.imp fun hlt => Nat.ne_of_lt hlt) h h' heq

/-- The row that a reservation inserts. -/
def newRow (rowid : ℕ) (r : Reservation) : Row where
  rowid := rowid
  reservation := r
  judgeTargetId := r.judgeTargetId
  status := "started"
  scoreNorm := none
  reasonCode := none
  actualCostMicros := none
  completedAtMs := none

/-- `INSERT`: the new row has the next rowid. -/
def insert (t : Judgments) (r : Reservation) : Judgments where
  rows := t.rows ++ [newRow (t.maxRowid + 1) r]
  ordered := by
    rw [List.map_append, List.pairwise_append]
    refine ⟨t.ordered, by simp, ?_⟩
    intro a ha b hb
    obtain ⟨row, hrow, rfl⟩ := List.mem_map.mp ha
    obtain rfl : b = t.maxRowid + 1 := by simpa [newRow] using hb
    exact Nat.lt_succ_of_le (rowid_le_maxRowid hrow)

theorem insert_rows (t : Judgments) (r : Reservation) :
    (t.insert r).rows = t.rows ++ [newRow (t.maxRowid + 1) r] := rfl

/-- How many rows the table keeps. -/
def retained : ℕ := 2000

/-- `DELETE` of all but the newest rows. -/
def prune (t : Judgments) : Judgments where
  rows := t.rows.drop (t.rows.length - retained)
  ordered := by
    rw [List.map_drop]
    exact t.ordered.sublist (List.drop_sublist _ _)

theorem prune_rows (t : Judgments) : t.prune.rows = t.rows.drop (t.rows.length - retained) := by
  rw [prune]

theorem mem_prune (h : r ∈ t.prune.rows) : r ∈ t.rows := by
  rw [prune_rows] at h
  exact List.mem_of_mem_drop h

/-- `UPDATE` of the rows under `p` by a function that keeps the rowid. -/
def update (t : Judgments) (p : Row → Bool) (f : Row → Row)
    (hf : ∀ r, (f r).rowid = r.rowid) : Judgments where
  rows := t.rows.map fun r => if p r then f r else r
  ordered := by
    have h : (t.rows.map fun r => if p r then f r else r).map Row.rowid = t.rows.map Row.rowid := by
      rw [List.map_map]
      apply List.map_congr_left
      intro r _
      by_cases hp : p r = true <;> simp [hp, hf]
    rw [h]
    exact t.ordered

end Judgments

/-- What a row is charged: at least its reservation. -/
def Row.charge (r : Row) : ℤ :=
  max (r.reservation.reservedCostMicros : ℤ) (r.actualCostMicros.getD 0)

/-- `quality_judgment_budget_from`. -/
def budgetFrom (t : Judgments) (sinceMs : ℤ) : Except StoreError Budget :=
  let rows := t.rows.filter fun r => sinceMs ≤ r.reservation.createdAtMs
  match Word.checkedSum (rows.map Row.charge) with
  | none => .error ⟨"integer overflow"⟩
  | some cost =>
    if cost < 0 then .error ⟨"quality judgment cost is negative"⟩
    else .ok ⟨rows.length, cost.toNat⟩

/-- The body of the reservation transaction. -/
def reserveIn (t : Judgments) (r : Reservation) (maxJudgments maxCostMicros : ℕ) (sinceMs : ℤ) :
    Except StoreError (ReserveOutcome × Judgments) :=
  if t.rows.any fun row => row.reservation.judgmentId == r.judgmentId ||
      row.reservation.judgeRequestId == r.judgeRequestId then
    .ok (.duplicate, t)
  else
    budgetFrom t sinceMs >>= fun budget =>
    if Word.u64Max < budget.costMicros + r.reservedCostMicros then
      .error ⟨"quality judgment budget cost overflow"⟩
    else if maxJudgments ≤ budget.attempted ||
        maxCostMicros < budget.costMicros + r.reservedCostMicros then
      .ok (.budgetExceeded budget, t)
    else .ok (.reserved, (t.insert r).prune)

/-- `reserve_quality_judgment`: an error rolls the transaction back. -/
def reserveQualityJudgment (t : Judgments) (fault : Option StoreError) (r : Reservation)
    (maxJudgments maxCostMicros : ℕ) (sinceMs : ℤ) :
    Except StoreError ReserveOutcome × Judgments :=
  let outcome : Except StoreError (ReserveOutcome × Judgments) :=
    validateReservation r >>= fun _ =>
    u64ToI64 r.reservedCostMicros "reserved_cost_micros" >>= fun _ =>
    u64ToI64 r.sampleRevision "sample_revision" >>= fun _ =>
    u64ToI64 r.judgeRevision "judge_revision" >>= fun _ =>
    match fault with
    | some e => .error e
    | none => reserveIn t r maxJudgments maxCostMicros sinceMs
  match outcome with
  | .ok (answer, t') => (.ok answer, t')
  | .error e => (.error e, t)

/-- What an accepted reservation has passed: its ids are new to the table, and it fits into the
budget that the rows since `sinceMs` leave. -/
structure Fits (t : Judgments) (r : Reservation) (maxJudgments maxCostMicros : ℕ) (sinceMs : ℤ) :
    Prop where
  created : 0 ≤ r.createdAtMs
  judgment : ∀ row ∈ t.rows, row.reservation.judgmentId ≠ r.judgmentId
  request : ∀ row ∈ t.rows, row.reservation.judgeRequestId ≠ r.judgeRequestId
  attempted : (t.rows.filter fun row => sinceMs ≤ row.reservation.createdAtMs).length <
    maxJudgments
  cost : (((t.rows.filter fun row => sinceMs ≤ row.reservation.createdAtMs).map Row.charge).sum +
    r.reservedCostMicros : ℤ) ≤ maxCostMicros

theorem validateReservation_created {r : Reservation} (h : validateReservation r = .ok ()) :
    0 ≤ r.createdAtMs := by
  obtain ⟨_, _, h⟩ := bind_eq_ok_iff.mp h
  obtain ⟨_, _, h⟩ := bind_eq_ok_iff.mp h
  by_contra hneg
  rw [if_pos (by omega)] at h
  cases h

theorem budgetFrom_eq_ok {t : Judgments} {sinceMs : ℤ} {b : Budget}
    (h : budgetFrom t sinceMs = .ok b) :
    b.attempted = (t.rows.filter fun r => sinceMs ≤ r.reservation.createdAtMs).length ∧
      (b.costMicros : ℤ) =
        ((t.rows.filter fun r => sinceMs ≤ r.reservation.createdAtMs).map Row.charge).sum := by
  unfold budgetFrom at h
  dsimp only at h
  split at h
  · cases h
  · rename_i cost hsum
    split at h
    · cases h
    · rename_i hneg
      cases h
      rw [← (Word.checkedSum_eq_some hsum).1]
      refine ⟨rfl, ?_⟩
      dsimp only
      omega

theorem reserveIn_eq_ok {t t' : Judgments} {r : Reservation} {maxJudgments maxCostMicros : ℕ}
    {sinceMs : ℤ} {a : ReserveOutcome} (hcreated : 0 ≤ r.createdAtMs)
    (h : reserveIn t r maxJudgments maxCostMicros sinceMs = .ok (a, t')) :
    a = .reserved ∧ t' = (t.insert r).prune ∧ Fits t r maxJudgments maxCostMicros sinceMs ∨
      a ≠ .reserved ∧ t' = t := by
  unfold reserveIn at h
  split at h
  · cases h
    exact .inr ⟨by decide, rfl⟩
  · rename_i hdup
    simp only [List.any_eq_true, Bool.or_eq_true, beq_iff_eq, not_exists, not_and, not_or] at hdup
    obtain ⟨b, hbudget, h⟩ := bind_eq_ok_iff.mp h
    obtain ⟨hcount, hcost⟩ := budgetFrom_eq_ok hbudget
    split at h
    · cases h
    split at h
    · cases h
      exact .inr ⟨by simp, rfl⟩
    · rename_i hroom
      cases h
      simp only [Bool.or_eq_true, decide_eq_true_eq, not_or] at hroom
      refine .inl ⟨rfl, rfl, hcreated, fun row hrow => (hdup row hrow).1,
        fun row hrow => (hdup row hrow).2, ?_, ?_⟩
      · omega
      · rw [← hcost]
        omega

/-- **What a reservation call does.**  It is accepted, fits and is inserted, or nothing changes. -/
theorem reserve_cases (t : Judgments) (fault : Option StoreError) (r : Reservation)
    (maxJudgments maxCostMicros : ℕ) (sinceMs : ℤ) :
    reserveQualityJudgment t fault r maxJudgments maxCostMicros sinceMs =
        (.ok .reserved, (t.insert r).prune) ∧ Fits t r maxJudgments maxCostMicros sinceMs ∨
      (reserveQualityJudgment t fault r maxJudgments maxCostMicros sinceMs).1 ≠ .ok .reserved ∧
        (reserveQualityJudgment t fault r maxJudgments maxCostMicros sinceMs).2 = t := by
  unfold reserveQualityJudgment
  dsimp only
  split
  · rename_i a t' h
    obtain ⟨_, hvalid, h⟩ := bind_eq_ok_iff.mp h
    obtain ⟨_, _, h⟩ := bind_eq_ok_iff.mp h
    obtain ⟨_, _, h⟩ := bind_eq_ok_iff.mp h
    obtain ⟨_, _, h⟩ := bind_eq_ok_iff.mp h
    cases fault with
    | some e => cases h
    | none =>
      rcases reserveIn_eq_ok (validateReservation_created hvalid) h with
        ⟨rfl, rfl, hfits⟩ | ⟨ha, rfl⟩
      · exact .inl ⟨rfl, hfits⟩
      · exact .inr ⟨by simpa using ha, rfl⟩
  · exact .inr ⟨by simp, rfl⟩

/-- `actual_cost_micros` as a column. -/
def actualCost : Option ℕ → Except StoreError (Option ℤ)
  | none => .ok none
  | some cost => (u64ToI64 cost "actual_cost_micros").map some

/-- The row that a finalization makes. -/
def Row.finalized (f : Finalization) (cost : Option ℤ) (r : Row) : Row :=
  { r with
    judgeTargetId := f.judgeTargetId.or r.judgeTargetId
    status := f.status
    scoreNorm := f.scoreNorm
    reasonCode := f.reasonCode
    actualCostMicros := cost
    completedAtMs := some f.completedAtMs }

/-- The rows that a finalization is for. -/
def Finalization.isFor (f : Finalization) (r : Row) : Bool :=
  r.reservation.judgmentId == f.judgmentId && r.status == "started"

/-- `finalize_quality_judgment`: whether a row changed. -/
def finalizeQualityJudgment (t : Judgments) (fault : Option StoreError) (f : Finalization) :
    Except StoreError Bool × Judgments :=
  match validateFinalization f >>= fun _ => actualCost f.actualCostMicros with
  | .error e => (.error e, t)
  | .ok cost =>
    match fault with
    | some e => (.error e, t)
    | none => (.ok (t.rows.any f.isFor), t.update f.isFor (Row.finalized f cost) fun _ => rfl)

/-- The row that recovery makes of a started one. -/
def Row.abandoned (completedAtMs : ℤ) (r : Row) : Row :=
  { r with status := "abandoned", completedAtMs := some completedAtMs }

/-- `abandon_started_quality_judgments`: how many rows changed. -/
def abandonStartedQualityJudgments (t : Judgments) (fault : Option StoreError)
    (completedAtMs : ℤ) : Except StoreError ℕ × Judgments :=
  if completedAtMs < 0 then (.error ⟨"completed_at_ms must be non-negative"⟩, t)
  else
    match fault with
    | some e => (.error e, t)
    | none => (.ok (t.rows.countP fun r => r.status == "started"),
        t.update (fun r => r.status == "started") (Row.abandoned completedAtMs) fun _ => rfl)

end Quality

end Switchback
