import Switchback.Quality.Judgments

/-!
# The caps of the judge over a run

Calls on the table of judgments, and what the caps of a configuration say about every window of
twenty-four hours.
-/

namespace Switchback

namespace Quality

open Lib

def rollingWindowMs : ℤ := 24 * 60 * 60 * 1000

/-! ### Calls -/

/-- A call on the table. -/
inductive Op where
  | reserve (fault : Option StoreError) (r : Reservation)
  | finalize (fault : Option StoreError) (f : Finalization)
  | abandon (fault : Option StoreError) (completedAtMs : ℤ)

/-- When a reservation is made. -/
def Op.createdAt : Op → Option ℤ
  | .reserve _ r => some r.createdAtMs
  | _ => none

/-- What a call did: a reservation was made, or the judgment of a row is no longer started. -/
inductive Event where
  | reserved (r : Reservation)
  | left (rowid : ℕ)

def Event.reservation : Event → Option Reservation
  | .reserved r => some r
  | .left _ => none

def Event.leaves : Event → Option ℕ
  | .reserved _ => none
  | .left k => some k

def reservations (events : List Event) : List Reservation := events.filterMap Event.reservation

def lefts (events : List Event) : List ℕ := events.filterMap Event.leaves

/-- The rows that are started in the first table and ended in the second. -/
def leftStarted (t t' : Judgments) : List ℕ :=
  ((t.rows.filter fun r => r.status == "started").map Row.rowid).filter fun k =>
    t'.rows.any fun r => r.rowid == k && r.status != "started"

/-- The reservation that a call made. -/
def reservedBy (r : Reservation) : Except StoreError ReserveOutcome → List Event
  | .ok .reserved => [.reserved r]
  | _ => []

/-- One call, with the caps of the configuration and the window that ends with the reservation. -/
def Op.step (cfg : EvalConfig) (t : Judgments) : Op → Judgments × List Event
  | .reserve fault r =>
    let a := reserveQualityJudgment t fault r cfg.maxJudgmentsPer24h cfg.maxCostMicrosPer24h
      (Word.satSubI64 r.createdAtMs rollingWindowMs)
    (a.2, reservedBy r a.1 ++ (leftStarted t a.2).map .left)
  | .finalize fault f =>
    let t' := (finalizeQualityJudgment t fault f).2
    (t', (leftStarted t t').map .left)
  | .abandon fault completedAtMs =>
    let t' := (abandonStartedQualityJudgments t fault completedAtMs).2
    (t', (leftStarted t t').map .left)

/-- The times of the reservations do not decrease. -/
def Ordered (ops : List Op) : Prop := (ops.filterMap Op.createdAt).Pairwise (· ≤ ·)

/-- What the caps say about the events of a run. -/
structure Within (cfg : EvalConfig) (events : List Event) : Prop where
  count : Window.Capped Reservation.createdAtMs rollingWindowMs (fun _ => 1)
    cfg.maxJudgmentsPer24h (reservations events)
  cost : Window.Capped Reservation.createdAtMs rollingWindowMs Reservation.reservedCostMicros
    cfg.maxCostMicrosPer24h (reservations events)
  judgments : Window.Apart Reservation.createdAtMs rollingWindowMs Reservation.judgmentId
    (reservations events)
  requests : Window.Apart Reservation.createdAtMs rollingWindowMs Reservation.judgeRequestId
    (reservations events)
  leaves : (lefts events).Nodup

@[simp] theorem reservations_append (a b : List Event) :
    reservations (a ++ b) = reservations a ++ reservations b := List.filterMap_append

@[simp] theorem lefts_append (a b : List Event) : lefts (a ++ b) = lefts a ++ lefts b :=
  List.filterMap_append

@[simp] theorem reservations_left (ks : List ℕ) : reservations (ks.map .left) = [] := by
  simp [reservations, List.filterMap_map, Function.comp_def, Event.reservation]

@[simp] theorem lefts_left (ks : List ℕ) : lefts (ks.map .left) = ks := by
  simp [lefts, List.filterMap_map, Function.comp_def, Event.leaves]

@[simp] theorem lefts_reservedBy (r : Reservation) (a : Except StoreError ReserveOutcome) :
    lefts (reservedBy r a) = [] := by
  unfold reservedBy
  split <;> rfl

/-! ### What a call does to the started rows -/

/-- A started row was started before, or is new; no rowid is given again. -/
structure Moves (t t' : Judgments) : Prop where
  started : ∀ r' ∈ t'.rows, r'.status = "started" →
    (∃ r ∈ t.rows, r.rowid = r'.rowid ∧ r.status = "started") ∨ t.maxRowid < r'.rowid
  grows : t.maxRowid ≤ t'.maxRowid

theorem Moves.refl (t : Judgments) : Moves t t :=
  ⟨fun r' hr' hs => .inl ⟨r', hr', rfl, hs⟩, Nat.le_refl _⟩

variable {t : Judgments} {events : List Event} {ops : List Op} {cfg : EvalConfig} (n : ℕ)

/-- An update that starts no row. -/
theorem Moves.update {p : Row → Bool} (f : Row → Row)
    (hf : ∀ r, (f r).rowid = r.rowid) (hstatus : ∀ r, p r = true → (f r).status ≠ "started") :
    Moves t (t.update p f hf) := by
  constructor
  · intro r' hr' hs
    obtain ⟨r, hr, rfl⟩ := List.mem_map.mp hr'
    by_cases hp : p r = true
    · rw [if_pos hp] at hs
      exact absurd hs (hstatus r hp)
    · rw [if_neg hp] at hs ⊢
      exact .inl ⟨r, hr, rfl, hs⟩
  · apply Judgments.maxRowid_le
    intro r hr
    have hmem : (if p r then f r else r) ∈ (t.update p f hf).rows := List.mem_map_of_mem hr
    have hid : (if p r then f r else r).rowid = r.rowid := by
      by_cases hp : p r = true <;> simp [hp, hf]
    rw [← hid]
    exact Judgments.rowid_le_maxRowid hmem

theorem mem_prune_insert (t : Judgments) (r : Reservation) :
    Judgments.newRow (t.maxRowid + 1) r ∈ (t.insert r).prune.rows := by
  have hle : (t.rows ++ [Judgments.newRow (t.maxRowid + 1) r]).length - Judgments.retained ≤
      t.rows.length := by
    simp only [List.length_append, List.length_singleton, Judgments.retained]
    omega
  rw [Judgments.prune_rows, Judgments.insert_rows, List.drop_append_of_le_length hle]
  simp

theorem Moves.insert (t : Judgments) (r : Reservation) : Moves t (t.insert r).prune := by
  constructor
  · intro r' hr' hs
    rcases List.mem_append.mp (Judgments.mem_prune hr') with hr' | hr'
    · exact .inl ⟨r', hr', rfl, hs⟩
    · obtain rfl := List.mem_singleton.mp hr'
      exact .inr (Nat.lt_succ_self _)
  · have hle := Judgments.rowid_le_maxRowid (mem_prune_insert t r)
    exact Nat.le_trans (Nat.le_succ _) hle

theorem mem_leftStarted {t' : Judgments} {k : ℕ} (h : k ∈ leftStarted t t') :
    (∃ r ∈ t.rows, r.rowid = k ∧ r.status = "started") ∧
      ∀ r' ∈ t'.rows, r'.rowid = k → r'.status ≠ "started" := by
  simp only [leftStarted, List.mem_filter, List.mem_map, List.any_eq_true, Bool.and_eq_true,
    beq_iff_eq, bne_iff_ne] at h
  obtain ⟨⟨r, ⟨hr, hs⟩, hid⟩, u, hu, huid, hus⟩ := h
  refine ⟨⟨r, hr, hid, hs⟩, fun r' hr' hid' => ?_⟩
  rwa [Judgments.eq_of_rowid hr' hu (hid'.trans huid.symm)]

theorem nodup_leftStarted (t t' : Judgments) : (leftStarted t t').Nodup := by
  have hids : (t.rows.map Row.rowid).Nodup := t.ordered.imp fun h => Nat.ne_of_lt h
  exact (hids.sublist (List.filter_sublist.map _)).filter _

/-- The judgments that have ended are those of rows that are not started again. -/
def Ended (t : Judgments) (events : List Event) : Prop :=
  (lefts events).Nodup ∧
    ∀ k ∈ lefts events, k ≤ t.maxRowid ∧ ∀ r ∈ t.rows, r.rowid = k → r.status ≠ "started"

theorem Ended.step {t' : Judgments} {new : List Event} (h : Ended t events)
    (hmoves : Moves t t') (hnew : lefts new = leftStarted t t') : Ended t' (events ++ new) := by
  obtain ⟨hnodup, hended⟩ := h
  have hold : ∀ k ∈ lefts events,
      k ≤ t'.maxRowid ∧ ∀ r ∈ t'.rows, r.rowid = k → r.status ≠ "started" := by
    intro k hk
    obtain ⟨hle, hnot⟩ := hended k hk
    refine ⟨Nat.le_trans hle hmoves.grows, fun r hr hid hs => ?_⟩
    rcases hmoves.started r hr hs with ⟨u, hu, huid, hus⟩ | hlt
    · exact hnot u hu (huid.trans hid) hus
    · omega
  have hleft : ∀ k ∈ leftStarted t t',
      k ≤ t'.maxRowid ∧ ∀ r ∈ t'.rows, r.rowid = k → r.status ≠ "started" := by
    intro k hk
    obtain ⟨⟨r, hr, hid, -⟩, hnot⟩ := mem_leftStarted hk
    have hle := Judgments.rowid_le_maxRowid hr
    exact ⟨by have := hmoves.grows; omega, hnot⟩
  unfold Ended
  rw [lefts_append, hnew]
  refine ⟨List.nodup_append.mpr ⟨hnodup, nodup_leftStarted t t', ?_⟩, ?_⟩
  · rintro k hk _ hk' rfl
    obtain ⟨⟨r, hr, hid, hs⟩, -⟩ := mem_leftStarted hk'
    exact (hended k hk).2 r hr hid hs
  · intro k hk
    rcases List.mem_append.mp hk with hk | hk
    · exact hold k hk
    · exact hleft k hk

theorem validateFinalization_status {f : Finalization} (h : validateFinalization f = .ok ()) :
    f.status ≠ "started" := by
  obtain ⟨_, _, h⟩ := bind_eq_ok_iff.mp h
  obtain ⟨_, _, h⟩ := bind_eq_ok_iff.mp h
  obtain ⟨_, hstatus, h⟩ := bind_eq_ok_iff.mp h
  intro hs
  have hnot : terminalStatuses.contains "started" = false := by decide
  rw [hs, hnot] at hstatus
  cases hstatus

/-- **What a call does to the started rows.** -/
theorem step_moves (cfg : EvalConfig) (t : Judgments) (op : Op) :
    Moves t (op.step cfg t).1 ∧ lefts (op.step cfg t).2 = leftStarted t (op.step cfg t).1 := by
  cases op with
  | reserve fault r =>
    refine ⟨?_, by simp [Op.step]⟩
    rcases reserve_cases t fault r cfg.maxJudgmentsPer24h cfg.maxCostMicrosPer24h
      (Word.satSubI64 r.createdAtMs rollingWindowMs) with ⟨h, -⟩ | ⟨-, h⟩
    · simp only [Op.step, h]
      exact Moves.insert t r
    · simp only [Op.step, h]
      exact Moves.refl t
  | finalize fault f =>
    refine ⟨?_, by simp [Op.step]⟩
    simp only [Op.step, finalizeQualityJudgment]
    split
    · exact Moves.refl t
    · rename_i cost hvalid
      obtain ⟨_, hvalid, -⟩ := bind_eq_ok_iff.mp hvalid
      cases fault with
      | some e => exact Moves.refl t
      | none => exact Moves.update (Row.finalized f cost) (fun _ => rfl) fun _ _ =>
          validateFinalization_status hvalid
  | abandon fault completedAtMs =>
    refine ⟨?_, by simp [Op.step]⟩
    simp only [Op.step, abandonStartedQualityJudgments]
    split
    · exact Moves.refl t
    · cases fault with
      | some e => exact Moves.refl t
      | none =>
        refine Moves.update (Row.abandoned completedAtMs) (fun _ => rfl) fun _ _ => ?_
        simp [Row.abandoned]

theorem update_reservations (t : Judgments) {p : Row → Bool} (f : Row → Row)
    (hf : ∀ r, (f r).rowid = r.rowid) (h : ∀ r, (f r).reservation = r.reservation) :
    (t.update p f hf).rows.map Row.reservation = t.rows.map Row.reservation := by
  rw [Judgments.update, List.map_map]
  apply List.map_congr_left
  intro r _
  by_cases hp : p r = true <;> simp [hp, h]

/-- **What a call reserves.**  A reservation that fits is inserted, or the reservations in the table
stay as they are. -/
theorem step_reserved (cfg : EvalConfig) (t : Judgments) (op : Op) :
    (∃ fault r, op = .reserve fault r ∧ (op.step cfg t).1 = (t.insert r).prune ∧
        reservations (op.step cfg t).2 = [r] ∧
        Fits t r cfg.maxJudgmentsPer24h cfg.maxCostMicrosPer24h
          (Word.satSubI64 r.createdAtMs rollingWindowMs)) ∨
      reservations (op.step cfg t).2 = [] ∧
        (op.step cfg t).1.rows.map Row.reservation = t.rows.map Row.reservation := by
  cases op with
  | reserve fault r =>
    rcases reserve_cases t fault r cfg.maxJudgmentsPer24h cfg.maxCostMicrosPer24h
      (Word.satSubI64 r.createdAtMs rollingWindowMs) with ⟨h, hfits⟩ | ⟨hne, h⟩
    · refine .inl ⟨fault, r, rfl, ?_, ?_, hfits⟩
      · simp only [Op.step, h]
      · simp only [Op.step, h, reservations_append, reservations_left, List.append_nil]
        rfl
    · refine .inr ⟨?_, ?_⟩
      · simp only [Op.step, reservations_append, reservations_left, List.append_nil]
        unfold reservedBy
        split
        · rename_i heq
          exact absurd heq hne
        · rfl
      · simp only [Op.step, h]
  | finalize fault f =>
    refine .inr ⟨reservations_left _, ?_⟩
    simp only [Op.step, finalizeQualityJudgment]
    split
    · rfl
    · cases fault with
      | some e => rfl
      | none => exact update_reservations t (Row.finalized f _) (fun _ => rfl) fun _ => rfl
  | abandon fault completedAtMs =>
    refine .inr ⟨reservations_left _, ?_⟩
    simp only [Op.step, abandonStartedQualityJudgments]
    split
    · rfl
    · cases fault with
      | some e => rfl
      | none =>
        exact update_reservations t (Row.abandoned completedAtMs) (fun _ => rfl) fun _ => rfl

/-! ### The caps along a run -/

/-- The times of the reservations made and asked for, in order. -/
def times (events : List Event) (ops : List Op) : List ℤ :=
  (reservations events).map Reservation.createdAtMs ++ ops.filterMap Op.createdAt

/-- The invariant of a run: the table holds the newest reservations, the caps hold of those made so
far, and those to come are no earlier. -/
structure Inv (cfg : EvalConfig) (t : Judgments) (events : List Event) (ops : List Op) : Prop where
  ended : Ended t events
  tail : Window.Tail Judgments.retained (reservations events) (t.rows.map Row.reservation)
  within : Within cfg events
  sorted : (times events ops).Pairwise (· ≤ ·)

theorem inv_empty (cfg : EvalConfig) (h : Ordered ops) :
    Inv cfg .empty [] ops where
  ended := ⟨List.nodup_nil, fun k hk => by cases hk⟩
  tail := Window.tail_nil _
  within := ⟨Window.capped_nil _ _ _, Window.capped_nil _ _ _, List.Pairwise.nil, List.Pairwise.nil,
    List.nodup_nil⟩
  sorted := h

theorem satSub_le {c : ℤ} (h : 0 ≤ c) : Word.satSubI64 c rollingWindowMs ≤ c - rollingWindowMs := by
  simp only [Word.satSubI64, Word.i64Min, Word.i64Max, rollingWindowMs]
  omega

theorem weigh_cost_le (rows : List Row) :
    (Window.weigh Reservation.reservedCostMicros (rows.map Row.reservation) : ℤ) ≤
      (rows.map Row.charge).sum := by
  induction rows with
  | nil => simp [Window.weigh]
  | cons r rows ih =>
    have hone : (r.reservation.reservedCostMicros : ℤ) ≤ r.charge := le_max_left _ _
    simp only [Window.weigh, List.map_cons, List.sum_cons, Nat.cast_add] at ih ⊢
    omega

/-- What a reservation that fits finds in the window that ends with it, where the caps admit no more
judgments than the table keeps. -/
theorem Inv.room (h : Inv cfg t events ops) (hcap : cfg.maxJudgmentsPer24h ≤ Judgments.retained)
    {r : Reservation}
    (hfits : Fits t r cfg.maxJudgmentsPer24h cfg.maxCostMicrosPer24h
      (Word.satSubI64 r.createdAtMs rollingWindowMs)) :
    (Window.since Reservation.createdAtMs (r.createdAtMs - rollingWindowMs)
      (reservations events)).Sublist
        ((t.rows.filter fun row => Word.satSubI64 r.createdAtMs rollingWindowMs ≤
          row.reservation.createdAtMs).map Row.reservation) := by
  have hkept : ((t.rows.filter fun row => Word.satSubI64 r.createdAtMs rollingWindowMs ≤
      row.reservation.createdAtMs).map Row.reservation) =
      Window.since Reservation.createdAtMs (Word.satSubI64 r.createdAtMs rollingWindowMs)
        (t.rows.map Row.reservation) := by
    rw [Window.since, List.filter_map]
    rfl
  have hsorted : (reservations events).Pairwise fun a b => a.createdAtMs ≤ b.createdAtMs :=
    List.pairwise_map.mp (List.pairwise_append.mp h.sorted).1
  have hfew := hfits.attempted
  rw [← List.length_map (f := Row.reservation), hkept] at hfew
  rw [hkept, ← h.tail.since_eq hsorted (Nat.lt_of_lt_of_le hfew hcap)]
  apply List.monotone_filter_right
  intro x hx
  have hle := satSub_le hfits.created
  simp only [decide_eq_true_eq] at hx ⊢
  omega

theorem Within.concat {new : List Event}
    (h : Inv cfg t events ops) (hcap : cfg.maxJudgmentsPer24h ≤ Judgments.retained)
    {r : Reservation}
    (hfits : Fits t r cfg.maxJudgmentsPer24h cfg.maxCostMicrosPer24h
      (Word.satSubI64 r.createdAtMs rollingWindowMs))
    (hnew : reservations new = [r]) (hleaves : (lefts (events ++ new)).Nodup) :
    Within cfg (events ++ new) := by
  have hroom := h.room hcap hfits
  have hmem {b : Reservation} (hb : b ∈ Window.since Reservation.createdAtMs
      (r.createdAtMs - rollingWindowMs) (reservations events)) :
      ∃ row ∈ t.rows, row.reservation = b := by
    obtain ⟨row, hrow, hres⟩ := List.mem_map.mp (hroom.subset hb)
    exact ⟨row, (List.mem_filter.mp hrow).1, hres⟩
  constructor
  · rw [reservations_append, hnew]
    apply h.within.count.concat
    have hle := hroom.length_le
    have hlt := hfits.attempted
    rw [List.length_map] at hle
    rw [Window.weigh_one]
    omega
  · rw [reservations_append, hnew]
    apply h.within.cost.concat
    have hle : Window.weigh Reservation.reservedCostMicros _ ≤ _ :=
      Window.weigh_le_of_sublist hroom
    have hcharge := weigh_cost_le (t.rows.filter fun row =>
      Word.satSubI64 r.createdAtMs rollingWindowMs ≤ row.reservation.createdAtMs)
    have hcost := hfits.cost
    omega
  · rw [reservations_append, hnew]
    apply h.within.judgments.concat
    intro b hb
    obtain ⟨row, hrow, rfl⟩ := hmem hb
    exact hfits.judgment row hrow
  · rw [reservations_append, hnew]
    apply h.within.requests.concat
    intro b hb
    obtain ⟨row, hrow, rfl⟩ := hmem hb
    exact hfits.request row hrow
  · exact hleaves

theorem Inv.step (hcap : cfg.maxJudgmentsPer24h ≤ Judgments.retained) {op : Op}
    (h : Inv cfg t events (op :: ops)) :
    Inv cfg (op.step cfg t).1 (events ++ (op.step cfg t).2) ops := by
  obtain ⟨hmoves, hlefts⟩ := step_moves cfg t op
  have hended := h.ended.step hmoves hlefts
  rcases step_reserved cfg t op with ⟨fault, r, rfl, htable, hnew, hfits⟩ | ⟨hnew, htable⟩
  · refine ⟨hended, ?_, Within.concat h hcap hfits hnew hended.1, ?_⟩
    · rw [reservations_append, hnew, htable, Judgments.prune_rows, List.map_drop,
        Judgments.insert_rows]
      have htail := h.tail.concat (by decide) r
      simpa [Judgments.newRow] using htail
    · have hsorted := h.sorted
      simpa [times, hnew, Op.createdAt] using hsorted
  · refine ⟨hended, ?_, ?_, ?_⟩
    · rw [reservations_append, hnew, List.append_nil, htable]
      exact h.tail
    · have hsame : reservations (events ++ (op.step cfg t).2) = reservations events := by
        rw [reservations_append, hnew, List.append_nil]
      have hw := h.within
      constructor
      · rw [hsame]; exact hw.count
      · rw [hsame]; exact hw.cost
      · rw [hsame]; exact hw.judgments
      · rw [hsame]; exact hw.requests
      · exact hended.1
    · refine h.sorted.sublist ?_
      unfold times
      rw [reservations_append, hnew, List.append_nil]
      apply List.Sublist.append_left
      exact (List.sublist_cons_self op ops).filterMap _

theorem within_of_cap (hcap : cfg.maxJudgmentsPer24h ≤ Judgments.retained)
    (hordered : Ordered ops) :
    Within cfg (Machine.run (Op.step cfg) .empty ops).2 := by
  have hrun : Inv cfg _ (Machine.run (Op.step cfg) .empty ops).2 [] :=
    Machine.run_history (fun t events op ops h => h.step hcap) (inv_empty cfg hordered)
  exact hrun.within

/-! ### A cap beyond the table -/

/-- The `n`th id. -/
def floodId (n : ℕ) : String := String.ofList ('q' :: List.replicate n '0')

theorem floodId_injective : Function.Injective floodId := by
  intro m n h
  have hlength := congrArg String.length h
  simpa [floodId] using hlength

/-- The `n`th reservation, which costs nothing. -/
def floodReservation (n : ℕ) : Reservation where
  judgmentId := floodId n
  judgeRequestId := floodId n
  servedRequestId := "req"
  servedTargetId := "served/echo"
  class' := "any"
  sampleRevision := 1
  judgeRevision := 1
  evaluatorId := "quality-v1"
  rubricVersion := "quality-v1"
  judgeTargetId := none
  inputChars := 32
  outputChars := 64
  reservedCostMicros := 0
  createdAtMs := 0

/-- Reservations at one time. -/
def flood (n : ℕ) : List Op := (List.range n).map fun i => .reserve none (floodReservation i)

theorem ordered_flood : Ordered (flood n) := by
  have hzero : (flood n).filterMap Op.createdAt = List.replicate n 0 := by
    rw [List.eq_replicate_iff]
    constructor
    · simp [flood, List.filterMap_map, Function.comp_def, Op.createdAt]
    · intro c hc
      simp only [flood, List.filterMap_map, Function.comp_def, Op.createdAt] at hc
      obtain ⟨i, -, hi⟩ := List.mem_filterMap.mp hc
      exact (Option.some.inj hi).symm
  rw [Ordered, hzero, List.pairwise_replicate]
  exact .inr (le_refl _)

theorem validateText_floodId (label : String) (n : ℕ) :
    validateText label (floodId n) = .ok () := by
  have hne : Text.trim (floodId n) ≠ "" :=
    Text.trim_ne_empty (c := 'q') (by simp [floodId]) (by decide)
  rw [validateText, if_neg (by simpa using hne)]

theorem validateReservation_flood : validateReservation (floodReservation n) = .ok () := by
  have htexts : (floodReservation n).texts.forM (fun p => validateText p.1 p.2) = .ok () := by
    rw [forM_eq_ok_iff]
    intro p hp
    simp only [Reservation.texts, floodReservation, List.mem_cons, List.not_mem_nil, or_false] at hp
    rcases hp with rfl | rfl | rfl | rfl | rfl | rfl | rfl
    · exact validateText_floodId _ n
    · exact validateText_floodId _ n
    · rfl
    · rfl
    · rfl
    · rfl
    · rfl
  rw [validateReservation, htexts]
  rfl

/-- What the table holds while it is flooded. -/
def Flooded (n : ℕ) (t : Judgments) : Prop :=
  t.rows.length ≤ Judgments.retained ∧
    ∀ row ∈ t.rows, row.actualCostMicros = none ∧ ∃ i < n, row.reservation = floodReservation i

theorem checkedSum_zeros : Word.checkedSum (List.replicate n 0) = some 0 := by
  induction n with
  | zero => rfl
  | succ n ih =>
    rw [Word.checkedSum, List.replicate_succ, List.foldlM_cons]
    exact ih

theorem budgetFrom_flooded {n : ℕ} (h : Flooded n t) (w : ℤ) :
    budgetFrom t w =
      .ok ⟨(t.rows.filter fun r => w ≤ r.reservation.createdAtMs).length, 0⟩ := by
  have hcharges : (t.rows.filter fun r => w ≤ r.reservation.createdAtMs).map Row.charge =
      List.replicate (t.rows.filter fun r => w ≤ r.reservation.createdAtMs).length 0 := by
    rw [List.eq_replicate_iff]
    refine ⟨List.length_map _, fun c hc => ?_⟩
    obtain ⟨row, hrow, rfl⟩ := List.mem_map.mp hc
    obtain ⟨hactual, i, -, hi⟩ := h.2 row (List.mem_filter.mp hrow).1
    simp [Row.charge, hactual, hi, floodReservation]
  rw [budgetFrom, hcharges, checkedSum_zeros]
  rfl

theorem reserve_flood {n : ℕ} (h : Flooded n t) {maxJudgments : ℕ}
    (hmax : Judgments.retained < maxJudgments) (maxCostMicros : ℕ) (w : ℤ) :
    reserveQualityJudgment t none (floodReservation n) maxJudgments maxCostMicros w =
      (.ok .reserved, (t.insert (floodReservation n)).prune) := by
  have hnew : ∀ row ∈ t.rows, ∀ id : Reservation → String, (∀ i, id (floodReservation i) =
      floodId i) → id row.reservation ≠ floodId n := by
    intro row hrow id hid heq
    obtain ⟨-, i, hlt, hi⟩ := h.2 row hrow
    rw [hi, hid] at heq
    exact absurd (floodId_injective heq) (Nat.ne_of_lt hlt)
  have hdup : ¬ (t.rows.any fun row =>
      row.reservation.judgmentId == (floodReservation n).judgmentId ||
        row.reservation.judgeRequestId == (floodReservation n).judgeRequestId) = true := by
    simp only [List.any_eq_true, Bool.or_eq_true, beq_iff_eq, not_exists, not_and, not_or]
    exact fun row hrow => ⟨hnew row hrow Reservation.judgmentId fun _ => rfl,
      hnew row hrow Reservation.judgeRequestId fun _ => rfl⟩
  have hfew : (t.rows.filter fun r => w ≤ r.reservation.createdAtMs).length < maxJudgments :=
    Nat.lt_of_le_of_lt (Nat.le_trans (List.length_filter_le _ _) h.1) hmax
  have hin : reserveIn t (floodReservation n) maxJudgments maxCostMicros w =
      .ok (.reserved, (t.insert (floodReservation n)).prune) := by
    rw [reserveIn, if_neg hdup, budgetFrom_flooded h]
    have hfree : (floodReservation n).reservedCostMicros = 0 := rfl
    have hover : ¬ Word.u64Max < 0 + (floodReservation n).reservedCostMicros := by
      rw [hfree]
      decide
    have hroom : ¬ (decide (maxJudgments ≤
        (t.rows.filter fun r => w ≤ r.reservation.createdAtMs).length) ||
        decide (maxCostMicros < 0 + (floodReservation n).reservedCostMicros)) = true := by
      rw [hfree]
      simp only [Bool.or_eq_true, decide_eq_true_eq]
      omega
    dsimp only [bind, Except.bind]
    rw [if_neg hover, if_neg hroom]
  have hcost : u64ToI64 (floodReservation n).reservedCostMicros "reserved_cost_micros" = .ok 0 := rfl
  have hsample : u64ToI64 (floodReservation n).sampleRevision "sample_revision" = .ok 1 := rfl
  have hjudge : u64ToI64 (floodReservation n).judgeRevision "judge_revision" = .ok 1 := rfl
  unfold reserveQualityJudgment
  rw [validateReservation_flood, hcost, hsample, hjudge]
  dsimp only
  rw [hin]
  rfl

theorem Flooded.step {n : ℕ} (h : Flooded n t) :
    Flooded (n + 1) (t.insert (floodReservation n)).prune := by
  constructor
  · rw [Judgments.prune_rows, List.length_drop]
    have hlen : (t.insert (floodReservation n)).rows.length = t.rows.length + 1 := by
      simp [Judgments.insert_rows]
    omega
  · intro row hrow
    rcases List.mem_append.mp (Judgments.mem_prune hrow) with hrow | hrow
    · obtain ⟨hactual, i, hi, hres⟩ := h.2 row hrow
      exact ⟨hactual, i, by omega, hres⟩
    · obtain rfl := List.mem_singleton.mp hrow
      exact ⟨rfl, n, Nat.lt_succ_self n, rfl⟩

theorem run_flood (hmax : Judgments.retained < cfg.maxJudgmentsPer24h) (n : ℕ) :
    Flooded n (Machine.run (Op.step cfg) .empty (flood n)).1 ∧
      reservations (Machine.run (Op.step cfg) .empty (flood n)).2 =
        (List.range n).map floodReservation := by
  induction n with
  | zero => exact ⟨⟨Nat.zero_le _, fun row hrow => by cases hrow⟩, rfl⟩
  | succ n ih =>
    obtain ⟨hflooded, hlog⟩ := ih
    have hflood : flood (n + 1) = flood n ++ [.reserve none (floodReservation n)] := by
      simp [flood, List.range_succ]
    have hreserve := reserve_flood hflooded hmax cfg.maxCostMicrosPer24h
      (Word.satSubI64 (floodReservation n).createdAtMs rollingWindowMs)
    rw [hflood, Machine.run_append]
    constructor
    · have hstep := hflooded.step
      simp only [Machine.run, Op.step, hreserve]
      exact hstep
    · simp only [Machine.run, Op.step, hreserve, reservations_append, hlog, reservations_left,
        List.append_nil, List.range_succ, List.map_append]
      rfl

/-- **A flood exceeds a cap beyond the table.** -/
theorem not_within_flood (hmax : Judgments.retained < cfg.maxJudgmentsPer24h) :
    ¬ Within cfg (Machine.run (Op.step cfg) .empty (flood (cfg.maxJudgmentsPer24h + 1))).2 := by
  intro h
  have hcount := h.count 0
  rw [(run_flood hmax _).2, Window.weigh_one] at hcount
  have hall : Window.inWindow Reservation.createdAtMs rollingWindowMs 0
      ((List.range (cfg.maxJudgmentsPer24h + 1)).map floodReservation) =
      (List.range (cfg.maxJudgmentsPer24h + 1)).map floodReservation := by
    apply List.filter_eq_self.mpr
    intro r hr
    obtain ⟨i, -, rfl⟩ := List.mem_map.mp hr
    rfl
  rw [hall, List.length_map, List.length_range] at hcount
  omega

/-- **Judgment budgets hold in every rolling window** of every run exactly when the cap on judgments
is no greater than the number of rows that the table keeps. -/
theorem within_iff (cfg : EvalConfig) :
    (∀ ops, Ordered ops → Within cfg (Machine.run (Op.step cfg) .empty ops).2) ↔
      cfg.maxJudgmentsPer24h ≤ Judgments.retained := by
  constructor
  · intro h
    by_contra hmax
    exact not_within_flood (by omega) (h _ (ordered_flood _))
  · intro hcap ops hordered
    exact within_of_cap hcap hordered

/-- A configuration that the check accepts, with a cap beyond the table. -/
def wideConfig : EvalConfig where
  enabled := true
  judgeRoute := "judge/a"
  bodyAllowedTargets := ["judge/a"]
  maxJudgmentsPer24h := 2001

def wideSurroundings : Surroundings where
  stateStore := some "state.db"

/-- One reservation too many in one millisecond is accepted. -/
theorem pruned_reservations_uncounted :
    wideConfig.enabled = true ∧ qualityProblems wideConfig wideSurroundings = [] ∧
      Ordered (flood 2002) ∧
      ¬ Within wideConfig (Machine.run (Op.step wideConfig) .empty (flood 2002)).2 :=
  ⟨rfl, by decide +kernel, ordered_flood 2002, not_within_flood (by decide)⟩

end Quality

end Switchback
