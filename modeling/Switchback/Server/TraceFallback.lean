import Switchback.Server.Tenancy

/-!
# The trace ring behind the store

Every trace is written to the store and then to a bounded ring, and the list of recent traces is
read from the ring where the store does not answer.  The store filters and then takes the newest
rows; the ring takes the newest entries and then filters.
-/

namespace Switchback

namespace Tenancy

open Lib Workloads

/-- `INSERT OR IGNORE` under the request id. -/
def insertTrace (rows : List Trace) (r : Trace) : List Trace :=
  if r.requestId ∈ rows.map fun row => row.requestId then rows else rows ++ [r]

/-- `TraceLog::record` of a log that samples every request: at the cap the oldest entry goes. -/
def pushTrace (cap : ℕ) (ring : List Trace) (r : Trace) : List Trace :=
  (if ring.length = cap then ring.drop 1 else ring) ++ [r]

/-- `record_trace_to`: the store, if there is one, and the ring. -/
def recordTrace (cap : ℕ) (s : ServerState) (r : Trace) : ServerState :=
  { s with traceStore := s.traceStore.map (insertTrace · r), ring := pushTrace cap s.ring r }

/-- The state after these traces, from an empty table and an empty ring. -/
def recordedTraces (cap : ℕ) (s : ServerState) (records : List Trace) : ServerState :=
  records.foldl (recordTrace cap) { s with traceStore := some [], ring := [] }

theorem recordedTraces_eq {cap : ℕ} {s : ServerState} {records : List Trace}
    (hfit : records.length ≤ cap) (hids : (records.map fun r => r.requestId).Nodup) :
    recordedTraces cap s records = { s with traceStore := some records, ring := records } := by
  induction records using List.reverseRecOn with
  | nil => rfl
  | append_singleton records r ih =>
    rw [List.length_append, List.length_singleton] at hfit
    rw [List.map_append, List.nodup_append] at hids
    obtain ⟨hids, -, hnew⟩ := hids
    have hnotMem : r.requestId ∉ records.map fun r => r.requestId :=
      fun hmem => hnew _ hmem _ (List.mem_singleton.2 rfl) rfl
    have hroom : ¬ records.length = cap := by omega
    have hrun : recordedTraces cap s (records ++ [r]) =
        recordTrace cap (recordedTraces cap s records) r := by
      rw [recordedTraces, List.foldl_append]
      rfl
    rw [hrun, ih (by omega) hids, recordTrace, Option.map_some, insertTrace, if_neg hnotMem,
      pushTrace, if_neg hroom]

/-! ### Filtering and taking -/

section Newest

variable {α : Type} (time : α → ℕ) {keep want : α → Bool} {l window rest : List α} {k : ℕ}

/-- Newest first; what comes first stays first among equals. -/
def newestFirst (l : List α) : List α := l.insertionSort fun a b => time b ≤ time a

theorem newestFirst_pairwise : (newestFirst time l).Pairwise fun a b => time b ≤ time a := by
  have : Std.Total fun a b : α => time b ≤ time a := ⟨fun a b => le_total (time b) (time a)⟩
  have : IsTrans α fun a b => time b ≤ time a := ⟨fun _ _ _ hab hbc => le_trans hbc hab⟩
  exact List.pairwise_insertionSort _ _

theorem newestFirst_perm : (newestFirst time l).Perm l := List.perm_insertionSort _ _

theorem newestFirst_append (hwindow : window.Pairwise fun a b => time b ≤ time a)
    (hrest : ∀ a ∈ window, ∀ b ∈ rest, time b ≤ time a) :
    newestFirst time (window ++ rest) = window ++ newestFirst time rest := by
  induction window with
  | nil => rfl
  | cons a window ih =>
    rw [List.pairwise_cons] at hwindow
    have hfirst : ∀ b ∈ window ++ rest, time b ≤ time a := by
      intro b hb
      rcases List.mem_append.1 hb with hb | hb
      · exact hwindow.1 b hb
      · exact hrest a List.mem_cons_self b hb
    rw [List.cons_append, newestFirst, List.insertionSort_cons_of_forall_rel _ hfirst,
      List.cons_append]
    exact congrArg (a :: ·) (ih hwindow.2 fun b hb => hrest b (List.mem_cons_of_mem _ hb))

/-- Taking and then keeping agrees with wanting and then taking: on the entries looked at the two
filters agree; those beyond are not wanted, unless all that are looked at are; and the wanted ones
among them are in the order of their times, and none beyond is newer. -/
structure Agrees (time : α → ℕ) (keep want : α → Bool) (k : ℕ) (l : List α) : Prop where
  same : ∀ a ∈ l.take k, keep a = want a
  enough : (∀ a ∈ l.drop k, want a = false) ∨ (0 < k ∧ ∀ a ∈ l.take k, want a = true)
  ordered : ((l.take k).filter want).Pairwise fun a b => time b ≤ time a
  older : ∀ a ∈ (l.take k).filter want, ∀ b ∈ (l.drop k).filter want, time b ≤ time a

theorem filter_split : (l.take k).filter want ++ (l.drop k).filter want = l.filter want := by
  rw [← List.filter_append, List.take_append_drop]

theorem agrees_of_eq_all (h : (l.take k).filter keep = newestFirst time (l.filter want)) :
    Agrees time keep want k l := by
  have hperm : ((l.take k).filter keep).Perm
      ((l.take k).filter want ++ (l.drop k).filter want) := by
    rw [h, filter_split]
    exact newestFirst_perm time
  have himp : ∀ a ∈ l.take k, keep a = true → want a = true := by
    intro a ha hkeep
    have hmem := hperm.mem_iff.1 (List.mem_filter.2 ⟨ha, hkeep⟩)
    rw [filter_split] at hmem
    exact (List.mem_filter.1 hmem).2
  have hle := List.countP_mono_left himp
  have hlength := hperm.length_eq
  rw [List.length_append, ← List.countP_eq_length_filter, ← List.countP_eq_length_filter] at hlength
  have hbeyond : (l.drop k).filter want = [] := List.eq_nil_of_length_eq_zero (by omega)
  have hsame : (l.take k).filter keep = (l.take k).filter want := by
    have hboth : ((l.take k).filter want).filter keep = (l.take k).filter keep := by
      rw [List.filter_filter]
      refine List.filter_congr fun a ha => ?_
      have := himp a ha
      cases hkeep : keep a <;> simp_all
    refine List.Sublist.eq_of_length (hboth ▸ List.filter_sublist) ?_
    rw [← List.countP_eq_length_filter, ← List.countP_eq_length_filter]
    omega
  refine ⟨fun a ha => ?_, .inl fun a ha => ?_, ?_, ?_⟩
  · have hmem := congrArg (a ∈ ·) hsame
    simp only [List.mem_filter, ha, true_and, eq_iff_iff] at hmem
    exact Bool.eq_iff_iff.2 hmem
  · simpa using List.filter_eq_nil_iff.1 hbeyond a ha
  · rw [← hsame, h]
    exact newestFirst_pairwise time
  · rw [hbeyond]
    exact fun a _ b hb => absurd hb List.not_mem_nil

/-- **Taking before or after filtering.** -/
theorem filter_take_eq_iff :
    (l.take k).filter keep = (newestFirst time (l.filter want)).take (max k 1) ↔
      Agrees time keep want k l := by
  constructor
  · intro h
    by_cases hfew : (newestFirst time (l.filter want)).length ≤ k
    · rw [List.take_of_length_le (l := newestFirst _ _) (by omega)] at h
      exact agrees_of_eq_all time h
    rcases Nat.eq_zero_or_pos k with rfl | hk
    · -- The ring has nothing to show, the store at least one row.
      exfalso
      have hlength := congrArg List.length h
      rw [List.take_zero, List.length_take] at hlength
      simp only [List.filter_nil, List.length_nil] at hlength
      omega
    · rw [max_eq_left hk] at h
      have hlength := congrArg List.length h
      rw [List.length_take, min_eq_left (by omega)] at hlength
      have hall : (l.take k).filter keep = l.take k := by
        refine List.filter_sublist.eq_of_length ?_
        have htake := List.length_take_le k l
        have hfilter := List.length_filter_le keep (l.take k)
        omega
      rw [hall] at h
      have hwant : ∀ a ∈ l.take k, want a = true := by
        intro a ha
        rw [h] at ha
        have hmem := (newestFirst_perm time).mem_iff.1 (List.mem_of_mem_take ha)
        exact (List.mem_filter.1 hmem).2
      have hfilter : (l.take k).filter want = l.take k := List.filter_eq_self.2 hwant
      have hsorted : (newestFirst time (l.filter want)) =
          l.take k ++ (newestFirst time (l.filter want)).drop k := by
        rw [h, List.take_append_drop]
      have hsplit := @filter_split _ want l k
      rw [hfilter] at hsplit
      have hrest : ((newestFirst time (l.filter want)).drop k).Perm ((l.drop k).filter want) := by
        refine (List.perm_append_left_iff (l.take k)).1 ?_
        rw [← hsorted, hsplit]
        exact newestFirst_perm time
      have hpairwise := newestFirst_pairwise time (l := l.filter want)
      rw [hsorted, List.pairwise_append] at hpairwise
      refine ⟨fun a ha => ?_, .inr ⟨hk, hwant⟩, ?_, ?_⟩
      · rw [hwant a ha]
        exact List.filter_eq_self.1 hall a ha
      · rw [hfilter]
        exact hpairwise.1
      · rw [hfilter]
        exact fun a ha b hb => hpairwise.2.2 a ha b (hrest.mem_iff.2 hb)
  · intro h
    have hkeep : (l.take k).filter keep = (l.take k).filter want := List.filter_congr h.same
    rw [hkeep, ← @filter_split _ want l k, newestFirst_append time h.ordered h.older]
    rcases h.enough with hbeyond | ⟨hk, hall⟩
    · have hnone : (l.drop k).filter want = [] :=
        List.filter_eq_nil_iff.2 fun a ha => by simp [hbeyond a ha]
      have hlength : ((l.take k).filter want).length ≤ k :=
        (List.length_filter_le _ _).trans (List.length_take_le _ _)
      rw [hnone, newestFirst, List.insertionSort_nil, List.append_nil,
        List.take_of_length_le (l := (l.take k).filter want) (by omega)]
    · rw [List.filter_eq_self.2 hall, max_eq_left hk]
      rcases Nat.lt_or_ge l.length k with hshort | hlong
      · rw [List.drop_eq_nil_of_le hshort.le, List.filter_nil, newestFirst,
          List.insertionSort_nil, List.append_nil, List.take_take, min_self]
      · exact (List.take_left' (List.length_take_of_le hlong)).symm

end Newest

/-! ### The answers -/

/-- `limit` of the handler. -/
def tracesLimit (q : TracesQuery) : ℕ := min (q.limit.getD 50) 1000

/-- The newest of the traces that match every filter, newest first. -/
def newestMatching (records : List Trace) (q : TracesQuery) (limit : ℕ) : List Trace :=
  (newestFirst Trace.timestampUnix (records.filter (queryMatches q)).reverse).take limit

/-- The ring answers like the store, and the answer is the newest that match. -/
def AnswersAlike (s : ServerState) (records : List Trace) (p : Principal) (q : TracesQuery) :
    Prop :=
  let limit := tracesLimit q
  let answer := filteredMemoryTraces s p q limit
  storedTraces s ⟨false, false, false⟩ p q limit = some answer ∧
    answer = newestMatching records (storeTraceQuery p q limit) limit

/-- **When the ring answers like the store.**  After any traces that fit in the ring and are all
persisted. -/
theorem fallback_agrees_iff {cap : ℕ} {records : List Trace} (s : ServerState) (p : Principal)
    (q : TracesQuery) (hfit : records.length ≤ cap)
    (hpersisted : (records.map fun r => r.requestId).Nodup) :
    AnswersAlike (recordedTraces cap s records) records p q ↔
      Agrees Trace.timestampUnix (memoryTraceMatches p q)
        (queryMatches (storeTraceQuery p q (tracesLimit q))) (tracesLimit q) records.reverse := by
  have hle : tracesLimit q ≤ 1000 := min_le_right _ _
  rw [← filter_take_eq_iff, List.filter_reverse]
  unfold AnswersAlike newestMatching filteredMemoryTraces recentTraces storedTraces queryTraces
  rw [recordedTraces_eq hfit hpersisted]
  dsimp only
  rw [if_neg Bool.false_ne_true, Option.map_some, Option.some.injEq,
    min_eq_left (by omega : max (tracesLimit q) 1 ≤ 5000)]
  constructor
  · exact fun h => h.1.symm
  · intro h
    refine ⟨h.symm, ?_⟩
    rcases Nat.eq_zero_or_pos (tracesLimit q) with hzero | hpos
    · rw [hzero]
      rfl
    · rw [h, max_eq_left hpos]

/-- A trace of one session, as the examples record it. -/
def sessionTrace (id session : String) (time : ℕ) : Trace where
  requestId := id
  tenant := none
  project := none
  inboundModel := "mock/echo"
  finalStatus := 200
  streamed := false
  revision := 1
  sessionId := some session
  route := "mock/echo"
  providers := []
  totalLatencyMs := 0
  costMicros := 0
  timestampUnix := time

/-- Two sessions; the second one recorded last. -/
def twoSessions : List Trace := [sessionTrace "r1" "s1" 1, sessionTrace "r2" "s2" 2]

/-- The last trace of the first session. -/
def firstSession : TracesQuery := { limit := some 1, sessionId := some "s1" }

def adminPrincipal : Principal := ⟨none, none, .admin⟩

theorem fallback_agrees_twoSessions :
    twoSessions.length ≤ 2 ∧ (twoSessions.map fun r => r.requestId).Nodup ∧
      (AnswersAlike (recordedTraces 2 globexState twoSessions) twoSessions adminPrincipal
          firstSession ↔
        Agrees Trace.timestampUnix (memoryTraceMatches adminPrincipal firstSession)
          (queryMatches (storeTraceQuery adminPrincipal firstSession (tracesLimit firstSession)))
          (tracesLimit firstSession) twoSessions.reverse) :=
  ⟨by decide, by decide,
    fallback_agrees_iff globexState adminPrincipal firstSession (by decide) (by decide)⟩

/-- The store has the trace of the first session; the ring looks at the newest entry only. -/
theorem ring_misses_session :
    ¬ AnswersAlike (recordedTraces 2 globexState twoSessions) twoSessions adminPrincipal
      firstSession := by
  intro h
  have hring : filteredMemoryTraces (recordedTraces 2 globexState twoSessions) adminPrincipal
      firstSession (tracesLimit firstSession) = [] := by decide
  have hnewest : newestMatching twoSessions
      (storeTraceQuery adminPrincipal firstSession (tracesLimit firstSession))
      (tracesLimit firstSession) = [sessionTrace "r1" "s1" 1] := by decide
  have hanswer := h.2
  rw [hring, hnewest] at hanswer
  cases hanswer

end Tenancy

end Switchback
