import Mathlib.Data.List.Induction
import Switchback.Lib.Machine
import Switchback.Scorecard.Persist

/-!
# Runs of the scorecard

Attempts are recorded, routing reads the entries, and the flusher takes their aggregates, in any
order.
-/

namespace Switchback

open Lib

inductive ScorecardOp where
  | record (key : ScorecardKey) (seedPrior : Prior) (sample : Sample)
  | project (key : ScorecardKey) (now : ℕ)
  | dirtySnapshot (order : List ScorecardKey) (now : ℕ) (nowEpochMs : ℤ)

namespace ScorecardOp

def time : ScorecardOp → ℕ
  | record _ _ s => s.ts
  | project _ now => now
  | dirtySnapshot _ now _ => now

def isRecord : ScorecardOp → Bool
  | record .. => true
  | _ => false

end ScorecardOp

namespace Scorecard

variable (toJsonString : Json → String) (cfg : ScorecardConfig)

def step (sc : Scorecard) : ScorecardOp → Scorecard
  | .record key seedPrior s => sc.record cfg key seedPrior s
  | .project key now => (sc.project cfg key now).2
  | .dirtySnapshot order now nowEpochMs =>
      (sc.dirtySnapshot toJsonString cfg order now nowEpochMs).2

def after (sc : Scorecard) (ops : List ScorecardOp) : Scorecard :=
  ops.foldl (step toJsonString cfg) sc

/-! ### What an operation does to an entry -/

theorem entries_set (sc : Scorecard) (key k : ScorecardKey) (e : Entry) :
    (sc.set key e).entries k = if k = key then some e else sc.entries k :=
  Function.update_apply _ _ _ _

theorem entries_project (hen : cfg.enabled = true) (sc : Scorecard) (key k : ScorecardKey)
    (now : ℕ) :
    ((sc.project cfg key now).2).entries k =
      (sc.entries k).map fun e => if k = key then (e.project cfg now).2 else e := by
  unfold project
  rw [if_pos hen]
  cases hkey : sc.entries key with
  | none =>
    by_cases hk : k = key
    · subst hk
      simp [hkey]
    · simp [hk]
  | some e =>
    dsimp only
    rw [entries_set]
    split_ifs with hk
    · subst hk
      simp [hkey]
    · simp

theorem settled_of_not_dirty {e : Entry} (h : e.dirty = false) : e.settled = e := by
  unfold Entry.settled
  rw [← h]

theorem entries_snapshotStep (now : ℕ) (nowEpochMs : ℤ) (acc : List ScorecardRow × Scorecard)
    (key k : ScorecardKey) :
    ((snapshotStep toJsonString cfg now nowEpochMs acc key).2).entries k =
      (acc.2.entries k).map fun e => if k = key then e.settled else e := by
  unfold snapshotStep
  by_cases hk : k = key
  · subst hk
    cases hkey : acc.2.entries k with
    | none => simp [hkey]
    | some e =>
      dsimp only
      cases hdirty : e.dirty with
      | true => simp [entries_set]
      | false => simp [hkey, settled_of_not_dirty hdirty]
  · cases hkey : acc.2.entries key with
    | none => simp [hk]
    | some e =>
      dsimp only
      split_ifs <;> simp [entries_set, hk]

theorem entries_snapshot (order : List ScorecardKey) (now : ℕ) (nowEpochMs : ℤ)
    (acc : List ScorecardRow × Scorecard) (k : ScorecardKey) :
    ((order.foldl (snapshotStep toJsonString cfg now nowEpochMs) acc).2).entries k =
      (acc.2.entries k).map fun e => if k ∈ order then e.settled else e := by
  induction order generalizing acc with
  | nil => simp
  | cons key order ih =>
    rw [List.foldl_cons, ih, entries_snapshotStep, Option.map_map]
    refine congrArg (fun f => Option.map f (acc.2.entries k)) (funext fun e => ?_)
    have htwice : e.settled.settled = e.settled := rfl
    by_cases hk : k = key <;> by_cases hmem : k ∈ order <;>
      simp [hk, hmem, htwice, Function.comp_apply]

end Scorecard

/-! ### The hysteresis invariant -/

namespace Entry

/-- The hysteresis state hangs together. -/
structure Consistent (cfg : ScorecardConfig) (e : Entry) : Prop where
  streaks : e.consecutiveFailures = 0 ∨ e.consecutiveSuccesses = 0
  healthy : e.tier = .healthy → e.demotedSince = none ∧ e.demoteTrigger = none ∧
    e.consecutiveFailures < cfg.demotion.fastDemoteStreak
  demoted : e.tier = .demoted → e.demotedSince.isSome ∧ e.demoteTrigger.isSome

variable {cfg : ScorecardConfig} {e : Entry}

theorem Consistent.congr {e' : Entry} (h : Consistent cfg e) (ht : e'.tier = e.tier)
    (hs : e'.demotedSince = e.demotedSince) (hg : e'.demoteTrigger = e.demoteTrigger)
    (hf : e'.consecutiveFailures = e.consecutiveFailures)
    (hr : e'.consecutiveSuccesses = e.consecutiveSuccesses) : Consistent cfg e' where
  streaks := by rw [hf, hr]; exact h.streaks
  healthy := by rw [ht, hs, hg, hf]; exact h.healthy
  demoted := by rw [ht, hs, hg]; exact h.demoted

theorem countStreaks_state (e : Entry) (oc : OutcomeClass) :
    (e.countStreaks oc).tier = e.tier ∧ (e.countStreaks oc).demotedSince = e.demotedSince ∧
      (e.countStreaks oc).demoteTrigger = e.demoteTrigger := by
  cases oc <;> exact ⟨rfl, rfl, rfl⟩

theorem countStreaks_streaks (h : e.consecutiveFailures = 0 ∨ e.consecutiveSuccesses = 0)
    (oc : OutcomeClass) :
    (e.countStreaks oc).consecutiveFailures = 0 ∨ (e.countStreaks oc).consecutiveSuccesses = 0 := by
  cases oc with
  | success => exact .inl rfl
  | targetFailure => exact .inr rfl
  | _ => exact h

theorem countStreaks_failures_le (e : Entry) {oc : OutcomeClass} (h : oc ≠ .targetFailure) :
    (e.countStreaks oc).consecutiveFailures ≤ e.consecutiveFailures := by
  cases oc with
  | success => exact Nat.zero_le _
  | targetFailure => exact absurd rfl h
  | _ => exact le_rfl

section Streaks

variable (hdemote : 1 ≤ cfg.demotion.fastDemoteStreak)
  (hrecover : 1 ≤ cfg.demotion.fastRecoverStreak)

include hdemote

theorem consistent_new (prior : Prior) : Consistent cfg (Entry.new prior) where
  streaks := .inl rfl
  healthy := fun _ => ⟨rfl, rfl, hdemote⟩
  demoted := nofun

theorem Consistent.reset (h : Consistent cfg e) (stats : WindowStats) :
    Consistent cfg (e.resetIfTtlLapsed stats) := by
  unfold resetIfTtlLapsed
  split_ifs with hlive
  · exact h
  · exact ⟨.inl rfl, fun _ => ⟨rfl, rfl, hdemote⟩, nofun⟩

theorem Consistent.project (h : Consistent cfg e) (now : ℕ) :
    Consistent cfg (e.project cfg now).2 := by
  have hreset := h.reset hdemote (e.stats cfg now)
  unfold Entry.project
  dsimp only
  split_ifs <;> exact hreset

include hrecover

/-- What the streaks of a sample break, the transition on it repairs. -/
theorem Consistent.transition (h : Consistent cfg e) (stats : WindowStats) (now : ℕ)
    (oc : OutcomeClass) :
    Consistent cfg ((e.countStreaks oc).applyHysteresis stats cfg.demotion now oc) := by
  obtain ⟨ht, hs, hg⟩ := countStreaks_state e oc
  have hstreaks := countStreaks_streaks h.streaks oc
  have hcount (hoc : oc ≠ .targetFailure) := countStreaks_failures_le e hoc
  unfold applyHysteresis
  generalize e.countStreaks oc = c at *
  cases htier : c.tier with
  | healthy =>
    obtain ⟨hsince, htrigger, hlt⟩ := h.healthy (ht.symm.trans htier)
    rw [← hs] at hsince
    rw [← hg] at htrigger
    dsimp only
    by_cases hnegative : oc = .targetFailure ∨ oc = .truncated
    · rw [if_pos hnegative]
      split
      · exact ⟨hstreaks, nofun, fun _ => ⟨rfl, rfl⟩⟩
      · rename_i hfires
        refine ⟨hstreaks, fun _ => ⟨hsince, htrigger, ?_⟩, by rw [htier]; nofun⟩
        simp only [Bool.or_eq_true, decide_eq_true_eq, not_or, not_le] at hfires
        exact hfires.1.1
    · rw [if_neg hnegative]
      refine ⟨hstreaks, fun _ => ⟨hsince, htrigger, ?_⟩, by rw [htier]; nofun⟩
      exact (hcount fun hoc => hnegative (.inl hoc)).trans_lt hlt
  | demoted =>
    obtain ⟨hsince, htrigger⟩ := h.demoted (ht.symm.trans htier)
    rw [← hs] at hsince
    rw [← hg] at htrigger
    dsimp only
    split_ifs with hrecovers
    · refine ⟨hstreaks, fun _ => ⟨rfl, rfl, ?_⟩, nofun⟩
      have hzero : c.consecutiveFailures = 0 := by
        simp only [recovers, Bool.or_eq_true, Bool.and_eq_true, decide_eq_true_eq] at hrecovers
        omega
      show c.consecutiveFailures < _
      omega
    · exact ⟨hstreaks, by rw [htier]; nofun, fun _ => ⟨hsince, htrigger⟩⟩

theorem Consistent.record (h : Consistent cfg e) (s : Sample) :
    Consistent cfg (e.record cfg s) := by
  have hpush : Consistent cfg
      ((e.resetIfTtlLapsed (e.stats cfg s.ts)).push s cfg.window.maxSamples) :=
    (h.reset hdemote (e.stats cfg s.ts)).congr rfl rfl rfl rfl rfl
  exact (hpush.transition hdemote hrecover _ s.ts s.outcome).congr rfl rfl rfl rfl rfl

end Streaks

theorem tier_record (s : Sample) (hbefore : e.tier = .healthy)
    (hafter : (e.record cfg s).tier = .demoted) :
    s.outcome = .targetFailure ∨ s.outcome = .truncated := by
  by_contra hnegative
  have hreset : (e.resetIfTtlLapsed (e.stats cfg s.ts)).tier = .healthy := by
    unfold resetIfTtlLapsed
    split_ifs
    · exact hbefore
    · rfl
  have htier := (countStreaks_state ((e.resetIfTtlLapsed (e.stats cfg s.ts)).push s
    cfg.window.maxSamples) s.outcome).1.trans hreset
  have hsame : (e.record cfg s).tier = .healthy := by
    unfold record applyHysteresis
    dsimp only
    rw [htier]
    dsimp only
    rw [if_neg hnegative]
    exact htier
  rw [hsame] at hafter
  cases hafter

theorem tier_reset (stats : WindowStats) (h : (e.resetIfTtlLapsed stats).tier = .demoted) :
    e.tier = .demoted ∧ stats.nScoreable ≠ 0 := by
  unfold resetIfTtlLapsed at h
  split_ifs at h with hlive
  · exact ⟨h, hlive⟩

theorem project_demoted {now : ℕ} {signal : OutcomeSignal}
    (h : (e.project cfg now).1 = some signal) (htier : signal.tier = .demoted) :
    0 < signal.samples := by
  unfold project at h
  dsimp only at h
  split_ifs at h <;> cases h <;> exact Nat.pos_of_ne_zero (tier_reset _ htier).2

end Entry

namespace Scorecard

variable {toJsonString : Json → String} {cfg : ScorecardConfig}

/-- **What an operation does to the entry of a key**: nothing, a record of a sample on the key's
entry or a new one, the reset of a read, or a settling. -/
theorem entries_step (toJsonString : Json → String) (cfg : ScorecardConfig) (sc : Scorecard)
    (op : ScorecardOp) (key : ScorecardKey) :
    (sc.step toJsonString cfg op).entries key = sc.entries key ∨
      (∃ seedPrior s, op = .record key seedPrior s ∧
        (sc.step toJsonString cfg op).entries key =
          some ((sc.getOrCreate key seedPrior).record cfg s)) ∨
      (∃ now, op = .project key now ∧ (sc.step toJsonString cfg op).entries key =
        (sc.entries key).map fun e => (e.project cfg now).2) ∨
      (op.isRecord = false ∧ (sc.step toJsonString cfg op).entries key =
        (sc.entries key).map Entry.settled) := by
  cases op with
  | record k seedPrior s =>
    by_cases hk : key = k
    · subst hk
      cases hen : cfg.enabled with
      | false => exact .inl (by simp [step, record, hen])
      | true => exact .inr (.inl ⟨seedPrior, s, rfl, record_entries_self hen sc key seedPrior s⟩)
    · exact .inl (record_entries_of_ne hk sc seedPrior s)
  | project k now =>
    cases hen : cfg.enabled with
    | false => exact .inl (by simp [step, project, hen])
    | true =>
      have hproject := entries_project cfg hen sc k key now
      by_cases hk : key = k
      · subst hk
        simp only [if_true] at hproject
        exact .inr (.inr (.inl ⟨now, rfl, hproject⟩))
      · simp only [hk, if_false, Option.map_id'] at hproject
        exact .inl hproject
  | dirtySnapshot order now nowEpochMs =>
    have hsnapshot := entries_snapshot toJsonString cfg order now nowEpochMs ([], sc) key
    by_cases hk : key ∈ order
    · simp only [hk, if_true] at hsnapshot
      exact .inr (.inr (.inr ⟨rfl, hsnapshot⟩))
    · simp only [hk, if_false, Option.map_id'] at hsnapshot
      exact .inl hsnapshot

theorem after_concat (sc : Scorecard) (ops : List ScorecardOp) (op : ScorecardOp) :
    sc.after toJsonString cfg (ops ++ [op]) =
      (sc.after toJsonString cfg ops).step toJsonString cfg op := by
  rw [after, List.foldl_append]
  rfl

variable {key : ScorecardKey}

/-- **The invariant of every run.** -/
theorem consistent_after (hdemote : 1 ≤ cfg.demotion.fastDemoteStreak)
    (hrecover : 1 ≤ cfg.demotion.fastRecoverStreak) (ops : List ScorecardOp)
    {e : Entry} (he : (new.after toJsonString cfg ops).entries key = some e) :
    e.Consistent cfg := by
  induction ops using List.reverseRec generalizing e with
  | nil => cases he
  | append_singleton ops op ih =>
    rw [after_concat] at he
    rcases entries_step toJsonString cfg (new.after toJsonString cfg ops) op key with
      hsame | ⟨seedPrior, s, -, hrecord⟩ | ⟨now, -, hproject⟩ | ⟨-, hsettled⟩
    · exact ih (hsame.symm.trans he)
    · rw [hrecord, Option.some.injEq] at he
      rw [← he]
      refine Entry.Consistent.record hdemote hrecover ?_ s
      rw [getOrCreate]
      cases hentry : (new.after toJsonString cfg ops).entries key with
      | none => exact Entry.consistent_new hdemote seedPrior
      | some e => exact ih hentry
    · rw [hproject] at he
      obtain ⟨e', hentry, rfl⟩ := Option.map_eq_some_iff.1 he
      exact (ih hentry).project hdemote now
    · rw [hsettled] at he
      obtain ⟨e', hentry, rfl⟩ := Option.map_eq_some_iff.1 he
      exact (ih hentry).congr rfl rfl rfl rfl rfl

/-- The tier of a key; one without an entry is healthy. -/
def tierOf (sc : Scorecard) (key : ScorecardKey) : OutcomeTier :=
  (sc.entries key).elim .healthy Entry.tier

/-- Only recording a negative sample of the key demotes it. -/
theorem demotes (sc : Scorecard) {op : ScorecardOp} (hbefore : sc.tierOf key = .healthy)
    (hafter : (sc.step toJsonString cfg op).tierOf key = .demoted) :
    ∃ seedPrior s, op = .record key seedPrior s ∧
      (s.outcome = .targetFailure ∨ s.outcome = .truncated) := by
  unfold tierOf at hbefore hafter
  rcases entries_step toJsonString cfg sc op key with
    hsame | ⟨seedPrior, s, hop, hrecord⟩ | ⟨now, -, hproject⟩ | ⟨-, hsettled⟩
  · rw [hsame, hbefore] at hafter
    cases hafter
  · rw [hrecord] at hafter
    refine ⟨seedPrior, s, hop, Entry.tier_record s ?_ hafter⟩
    rw [getOrCreate]
    cases hentry : sc.entries key with
    | none => rfl
    | some e =>
      rw [hentry] at hbefore
      exact hbefore
  · cases hentry : sc.entries key with
    | none =>
      rw [hproject, hentry] at hafter
      cases hafter
    | some e =>
      rw [hproject, hentry, Option.map_some, Option.elim_some, Entry.project_snd] at hafter
      rw [hentry, Option.elim_some, (Entry.tier_reset _ hafter).1] at hbefore
      cases hbefore
  · cases hentry : sc.entries key with
    | none =>
      rw [hsettled, hentry] at hafter
      cases hafter
    | some e =>
      rw [hsettled, hentry] at hafter
      rw [hentry] at hbefore
      exact absurd (hbefore.symm.trans hafter) nofun

theorem project_demoted {sc : Scorecard} {now : ℕ} {signal : OutcomeSignal}
    (h : (sc.project cfg key now).1 = some signal) (htier : signal.tier = .demoted) :
    0 < signal.samples := by
  unfold project at h
  split_ifs at h
  cases hentry : sc.entries key with
  | none => rw [hentry] at h; cases h
  | some e =>
    rw [hentry] at h
    exact Entry.project_demoted h htier

/-- **The hysteresis invariant.**  In every run each entry's state hangs together, only a negative
sample demotes a key, and a read that shows a demotion shows its samples. -/
theorem hysteresis_invariant (hdemote : 1 ≤ cfg.demotion.fastDemoteStreak)
    (hrecover : 1 ≤ cfg.demotion.fastRecoverStreak) (ops : List ScorecardOp) :
    (∀ key e, (new.after toJsonString cfg ops).entries key = some e → e.Consistent cfg) ∧
      (∀ op key, (new.after toJsonString cfg ops).tierOf key = .healthy →
        ((new.after toJsonString cfg ops).step toJsonString cfg op).tierOf key = .demoted →
          ∃ seedPrior s, op = .record key seedPrior s ∧
            (s.outcome = .targetFailure ∨ s.outcome = .truncated)) ∧
      ∀ key now signal, ((new.after toJsonString cfg ops).project cfg key now).1 = some signal →
        signal.tier = .demoted → 0 < signal.samples := by
  refine ⟨fun key e he => consistent_after hdemote hrecover ops he, fun op key => ?_,
    fun key now signal => project_demoted⟩
  exact fun hbefore hafter => demotes _ hbefore hafter

/-- Three failures in a row demote a key, and the read shows them. -/
theorem hysteresis_invariant_streak :
    (∀ key e, ((new.after (fun _ => "") {}
      (List.replicate 3 (.record ("t", "any") (Prior.fromConfig {})
        ⟨0, .targetFailure, 5, none, some .timeout⟩))).entries key) = some e →
          e.Consistent {}) ∧
      (new.after (fun _ => "") {}
        (List.replicate 3 (.record ("t", "any") (Prior.fromConfig {})
          ⟨0, .targetFailure, 5, none, some .timeout⟩))).tierOf ("t", "any") = .demoted := by
  exact ⟨(hysteresis_invariant (by decide) (by decide) _).1, by decide +kernel⟩

end Scorecard

/-! ### Observing -/

namespace Entry

variable {cfg : ScorecardConfig} {t : ℕ} {e e' : Entry}

/-- After the reset that every access makes, the entries differ in their dirty flags at most. -/
def SameReads (cfg : ScorecardConfig) (t : ℕ) (e e' : Entry) : Prop :=
  (e.resetIfTtlLapsed (e.stats cfg t)).settled = (e'.resetIfTtlLapsed (e'.stats cfg t)).settled

theorem SameReads.stats_eq (h : SameReads cfg t e e') (now : ℕ) :
    e.stats cfg now = e'.stats cfg now := by
  have hring := congrArg Entry.ring h
  have hprior := congrArg Entry.prior h
  simp only [settled, resetIfTtlLapsed_ring, resetIfTtlLapsed_prior] at hring hprior
  rw [stats, stats, hring, hprior]

theorem nScoreable_mono (e : Entry) {now : ℕ} (h : t ≤ now) (ht : (e.stats cfg t).nScoreable = 0) :
    (e.stats cfg now).nScoreable = 0 := by
  unfold stats at ht ⊢
  rw [windowStats_nScoreable] at ht ⊢
  have hle := List.countP_mono_left (p := countsAt now (ttlNanos cfg))
    (q := countsAt t (ttlNanos cfg)) (l := e.ring) fun s _ => countsAt_of_le h
  omega

theorem settled_reset_of_eq {st : WindowStats} (h : st.nScoreable = 0) (e : Entry) :
    (e.resetIfTtlLapsed st).settled =
      { Entry.new e.prior with ring := e.ring, hydrated := e.hydrated } := by
  unfold resetIfTtlLapsed
  rw [if_neg (by simpa using h)]
  rfl

/-- Time passing keeps the relation: a window that lapsed stays lapsed. -/
theorem SameReads.advance (h : SameReads cfg t e e') {now : ℕ} (ht : t ≤ now) :
    SameReads cfg now e e' := by
  have hring := congrArg Entry.ring h
  have hprior := congrArg Entry.prior h
  have hhydrated := congrArg Entry.hydrated h
  simp only [settled, resetIfTtlLapsed_ring, resetIfTtlLapsed_prior,
    resetIfTtlLapsed_hydrated] at hring hprior hhydrated
  have hstats := h.stats_eq
  unfold SameReads
  by_cases hnow : (e.stats cfg now).nScoreable = 0
  · rw [settled_reset_of_eq hnow, settled_reset_of_eq (hstats now ▸ hnow), hring, hprior,
      hhydrated]
  · have hthen : (e.stats cfg t).nScoreable ≠ 0 := fun h0 => hnow (nScoreable_mono e ht h0)
    unfold SameReads at h
    rw [resetIfTtlLapsed_of_ne hthen, resetIfTtlLapsed_of_ne (hstats t ▸ hthen)] at h
    rw [resetIfTtlLapsed_of_ne hnow, resetIfTtlLapsed_of_ne (hstats now ▸ hnow), h]

theorem sameReads_project (e : Entry) (t : ℕ) : SameReads cfg t (e.project cfg t).2 e := by
  have hstats : (e.resetIfTtlLapsed (e.stats cfg t)).stats cfg t = e.stats cfg t := by
    rw [stats, stats, resetIfTtlLapsed_ring, resetIfTtlLapsed_prior]
  rw [project_snd, SameReads, hstats]
  by_cases hlapsed : (e.stats cfg t).nScoreable = 0
  · rw [settled_reset_of_eq hlapsed, settled_reset_of_eq hlapsed, resetIfTtlLapsed_ring,
      resetIfTtlLapsed_prior, resetIfTtlLapsed_hydrated]
  · rw [resetIfTtlLapsed_of_ne hlapsed, resetIfTtlLapsed_of_ne hlapsed]

theorem sameReads_settled (e : Entry) (t : ℕ) : SameReads cfg t e.settled e := by
  have hstats : e.settled.stats cfg t = e.stats cfg t := rfl
  rw [SameReads, hstats]
  by_cases hlapsed : (e.stats cfg t).nScoreable = 0
  · rw [settled_reset_of_eq hlapsed, settled_reset_of_eq hlapsed]
    rfl
  · rw [resetIfTtlLapsed_of_ne hlapsed, resetIfTtlLapsed_of_ne hlapsed]
    rfl

theorem applyHysteresis_settled (e : Entry) (st : WindowStats) (dcfg : ScorecardDemotionConfig)
    (now : ℕ) (oc : OutcomeClass) :
    e.settled.applyHysteresis st dcfg now oc = (e.applyHysteresis st dcfg now oc).settled := by
  have hsettled : e.settled.tier = e.tier := rfl
  unfold applyHysteresis
  rw [hsettled]
  cases e.tier with
  | healthy =>
    dsimp only
    rw [apply_ite settled, apply_ite settled]
    rfl
  | demoted =>
    dsimp only
    rw [apply_ite settled]
    rfl

theorem countStreaks_settled (e : Entry) (oc : OutcomeClass) :
    e.settled.countStreaks oc = (e.countStreaks oc).settled := by
  cases oc <;> rfl

theorem record_settled (cfg : ScorecardConfig) (e : Entry) (s : Sample) :
    (e.record cfg s).settled =
      let next := ((e.resetIfTtlLapsed (e.stats cfg s.ts)).settled.push s
        cfg.window.maxSamples).countStreaks s.outcome
      next.applyHysteresis (next.stats cfg s.ts) cfg.demotion s.ts s.outcome := by
  have hpush : (e.resetIfTtlLapsed (e.stats cfg s.ts)).settled.push s cfg.window.maxSamples =
      ((e.resetIfTtlLapsed (e.stats cfg s.ts)).push s cfg.window.maxSamples).settled := rfl
  rw [hpush, countStreaks_settled]
  dsimp only
  rw [applyHysteresis_settled]
  rfl

/-- Recording brings the two entries together. -/
theorem SameReads.record {s : Sample} (h : SameReads cfg s.ts e e') :
    e.record cfg s = e'.record cfg s := by
  have hsettled : (e.record cfg s).settled = (e'.record cfg s).settled := by
    rw [record_settled, record_settled, show _ = _ from h]
  have hdirty (e : Entry) : e.record cfg s = { (e.record cfg s).settled with dirty := true } := rfl
  rw [hdirty e, hdirty e', hsettled]

theorem SameReads.project_eq (h : SameReads cfg t e e') :
    (e.project cfg t).1 = (e'.project cfg t).1 := by
  have htier := congrArg Entry.tier h
  have htrigger := congrArg Entry.demoteTrigger h
  have hfailures := congrArg Entry.consecutiveFailures h
  have hhydrated := congrArg Entry.hydrated h
  simp only [settled] at htier htrigger hfailures hhydrated
  unfold project
  simp only [htier, htrigger, hfailures, hhydrated]
  rw [h.stats_eq t]
  split
  · rfl
  · split <;> rfl

end Entry

namespace Scorecard

variable {toJsonString : Json → String} {cfg : ScorecardConfig}

/-- Scorecards that no read from `t` on tells apart. -/
def SameReads (cfg : ScorecardConfig) (t : ℕ) (sc sc' : Scorecard) : Prop :=
  ∀ key, Option.Rel (Entry.SameReads cfg t) (sc.entries key) (sc'.entries key)

theorem sameReads_refl (t : ℕ) (sc : Scorecard) : SameReads cfg t sc sc := by
  intro key
  cases sc.entries key with
  | none => exact .none
  | some e => exact .some rfl

variable {sc sc' : Scorecard}

/-- What the two have at a key: nothing, or entries that are not told apart. -/
theorem SameReads.at_key {t : ℕ} (h : SameReads cfg t sc sc') (key : ScorecardKey) :
    (sc.entries key = none ∧ sc'.entries key = none) ∨
      ∃ e e', sc.entries key = some e ∧ sc'.entries key = some e' ∧ Entry.SameReads cfg t e e' := by
  have hkey := h key
  generalize sc.entries key = o at hkey ⊢
  generalize sc'.entries key = o' at hkey ⊢
  cases hkey with
  | none => exact .inl ⟨rfl, rfl⟩
  | some he => exact .inr ⟨_, _, rfl, rfl, he⟩

theorem SameReads.advance {t now : ℕ} (h : SameReads cfg t sc sc')
    (ht : t ≤ now) : SameReads cfg now sc sc' := by
  intro key
  rcases h.at_key key with ⟨hnone, hnone'⟩ | ⟨e, e', he, he', hsame⟩
  · rw [hnone, hnone']
    exact .none
  · rw [he, he']
    exact .some (hsame.advance ht)

theorem SameReads.trans {t : ℕ} {sc'' : Scorecard} (h : SameReads cfg t sc sc')
    (h' : SameReads cfg t sc' sc'') : SameReads cfg t sc sc'' := by
  intro key
  have hkey' := h' key
  rcases h.at_key key with ⟨hnone, hnone'⟩ | ⟨e, e', he, he', hsame⟩
  · rw [hnone]
    rwa [hnone'] at hkey'
  · rw [he]
    rw [he'] at hkey'
    generalize sc''.entries key = o at hkey' ⊢
    cases hkey' with
    | some hsame' => exact .some (Eq.trans hsame hsame')

theorem sameReads_step (sc : Scorecard) {op : ScorecardOp} (h : op.isRecord = false) :
    SameReads cfg op.time (sc.step toJsonString cfg op) sc := by
  intro key
  rcases entries_step toJsonString cfg sc op key with
    hsame | ⟨seedPrior, s, rfl, -⟩ | ⟨now, rfl, hproject⟩ | ⟨-, hsettled⟩
  · rw [hsame]
    exact sameReads_refl _ sc key
  · cases h
  · rw [hproject]
    cases sc.entries key with
    | none => exact .none
    | some e => exact .some (e.sameReads_project now)
  · rw [hsettled]
    cases sc.entries key with
    | none => exact .none
    | some e => exact .some (e.sameReads_settled _)

theorem SameReads.getOrCreate {t : ℕ} (h : SameReads cfg t sc sc')
    (key : ScorecardKey) (seedPrior : Prior) :
    Entry.SameReads cfg t (sc.getOrCreate key seedPrior) (sc'.getOrCreate key seedPrior) := by
  unfold Scorecard.getOrCreate
  rcases h.at_key key with ⟨hnone, hnone'⟩ | ⟨e, e', he, he', hsame⟩
  · rw [hnone, hnone']
    rfl
  · rw [he, he']
    exact hsame

theorem SameReads.project_eq {t : ℕ} (h : SameReads cfg t sc sc')
    (key : ScorecardKey) : (sc.project cfg key t).1 = (sc'.project cfg key t).1 := by
  unfold Scorecard.project
  split_ifs
  · rcases h.at_key key with ⟨hnone, hnone'⟩ | ⟨e, e', he, he', hsame⟩
    · rw [hnone, hnone']
    · rw [he, he']
      exact hsame.project_eq
  · rfl

theorem SameReads.record {key : ScorecardKey} {seedPrior : Prior} {s : Sample}
    (h : SameReads cfg s.ts sc sc') :
    SameReads cfg s.ts (sc.record cfg key seedPrior s) (sc'.record cfg key seedPrior s) := by
  intro k
  unfold Scorecard.record
  split_ifs
  · rw [entries_set, entries_set, (h.getOrCreate key seedPrior).record]
    split_ifs
    · exact .some rfl
    · exact h k
  · exact h k

/-- **The two runs**: with the reads and snapshots, and without. -/
theorem sameReads_after {t : ℕ} (h : SameReads cfg t sc sc')
    {ops : List ScorecardOp} (htime : Machine.Timely ScorecardOp.time t ops) {now : ℕ}
    (hnow : t ≤ now) (hle : ∀ op ∈ ops, op.time ≤ now) :
    SameReads cfg now (sc.after toJsonString cfg ops)
      (sc'.after toJsonString cfg (ops.filter ScorecardOp.isRecord)) := by
  induction ops generalizing t sc sc' with
  | nil => exact h.advance hnow
  | cons op ops ih =>
    obtain ⟨htop, hrest⟩ := htime.cons
    obtain ⟨hop, hrestle⟩ := List.forall_mem_cons.1 hle
    have hthen := h.advance htop
    cases hrecord : op.isRecord with
    | true =>
      rw [List.filter_cons_of_pos hrecord]
      cases op with
      | record key seedPrior s => exact ih hthen.record hrest hop hrestle
      | _ => cases hrecord
    | false =>
      rw [List.filter_cons_of_neg (by simp [hrecord])]
      exact ih ((sameReads_step sc hrecord).trans hthen) hrest hop hrestle

/-- The tier, the trigger and the streaks that a record finds, once its reset is done. -/
def seen (cfg : ScorecardConfig) (sc : Scorecard) (key : ScorecardKey) (seedPrior : Prior)
    (now : ℕ) : OutcomeTier × Option DemoteTrigger × ℕ × ℕ :=
  let e := sc.getOrCreate key seedPrior
  (e.resetIfTtlLapsed (e.stats cfg now)).hysteresis

/-- **Observing changes nothing.**  Whatever reads and snapshots are put between the records of a
run, a later read answers as without them, and a later record finds and leaves the same. -/
theorem observing_inert {ops : List ScorecardOp} (htime : Machine.Timely ScorecardOp.time 0 ops)
    {now : ℕ} (hnow : ∀ op ∈ ops, op.time ≤ now) (key : ScorecardKey) :
    ((new.after toJsonString cfg ops).project cfg key now).1 =
        ((new.after toJsonString cfg (ops.filter ScorecardOp.isRecord)).project cfg key now).1 ∧
      ∀ seedPrior,
        (new.after toJsonString cfg ops).seen cfg key seedPrior now =
            (new.after toJsonString cfg (ops.filter ScorecardOp.isRecord)).seen cfg key seedPrior
              now ∧
          ∀ s : Sample, s.ts = now →
            ((new.after toJsonString cfg ops).getOrCreate key seedPrior).record cfg s =
              ((new.after toJsonString cfg (ops.filter ScorecardOp.isRecord)).getOrCreate key
                seedPrior).record cfg s := by
  have hsame : SameReads cfg now (new.after toJsonString cfg ops)
      (new.after toJsonString cfg (ops.filter ScorecardOp.isRecord)) :=
    sameReads_after (sameReads_refl 0 new) htime (Nat.zero_le now) hnow
  refine ⟨hsame.project_eq key, fun seedPrior => ⟨?_, ?_⟩⟩
  · have hread := hsame.getOrCreate key seedPrior
    unfold Entry.SameReads at hread
    have hstate := congrArg Entry.hysteresis hread
    exact hstate
  · rintro s rfl
    exact (hsame.getOrCreate key seedPrior).record

/-- A demotion that lapsed between two records, read in between or not. -/
theorem observing_inert_lapse :
    ((new.after (fun _ => "") {}
        [.record ("t", "any") (Prior.fromConfig {})
            ⟨0, .targetFailure, 5, none, some .timeout⟩,
          .project ("t", "any") 86400000000001,
          .dirtySnapshot [("t", "any")] 86400000000001 0,
          .record ("t", "any") (Prior.fromConfig {})
            ⟨86400000000002, .success, 5, none, none⟩]).project {} ("t", "any") 86400000000003).1 =
      ((new.after (fun _ => "") {}
        [.record ("t", "any") (Prior.fromConfig {})
            ⟨0, .targetFailure, 5, none, some .timeout⟩,
          .record ("t", "any") (Prior.fromConfig {})
            ⟨86400000000002, .success, 5, none, none⟩]).project {} ("t", "any")
        86400000000003).1 := by
  refine (observing_inert ?_ ?_ ("t", "any")).1
  · decide
  · decide

end Scorecard

end Switchback
