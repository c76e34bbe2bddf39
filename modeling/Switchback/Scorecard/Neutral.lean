import Switchback.Scorecard.Entry

/-!
# Neutral outcomes and routing evidence

A run of `record` calls is compared with the same run less its neutral samples.  Neutral samples
take part in two things: they fill the ring, and they give a demoted entry another look at its
way back to health.
-/

namespace Switchback

open Lib

namespace Entry

/-! ### The hysteresis state -/

/-- Tier, trigger and streaks. -/
def hysteresis (e : Entry) : OutcomeTier × Option DemoteTrigger × ℕ × ℕ :=
  (e.tier, e.demoteTrigger, e.consecutiveFailures, e.consecutiveSuccesses)

@[simp] theorem resetIfTtlLapsed_ring (e : Entry) (st : WindowStats) :
    (e.resetIfTtlLapsed st).ring = e.ring := by
  unfold resetIfTtlLapsed; split <;> rfl

@[simp] theorem resetIfTtlLapsed_prior (e : Entry) (st : WindowStats) :
    (e.resetIfTtlLapsed st).prior = e.prior := by
  unfold resetIfTtlLapsed; split <;> rfl

@[simp] theorem resetIfTtlLapsed_hydrated (e : Entry) (st : WindowStats) :
    (e.resetIfTtlLapsed st).hydrated = e.hydrated := by
  unfold resetIfTtlLapsed; split <;> rfl

variable {st : WindowStats} {now ttl : ℕ} {s : Sample}

theorem resetIfTtlLapsed_of_ne (h : st.nScoreable ≠ 0) (e : Entry) : e.resetIfTtlLapsed st = e := by
  unfold resetIfTtlLapsed; rw [if_pos h]

theorem hysteresis_reset_of_eq (h : st.nScoreable = 0) (e : Entry) :
    (e.resetIfTtlLapsed st).hysteresis = (.healthy, none, 0, 0) := by
  unfold resetIfTtlLapsed; rw [if_neg (by simpa using h)]; rfl

theorem hysteresis_reset_congr {e e' : Entry} (h : e.hysteresis = e'.hysteresis)
    (st : WindowStats) :
    (e.resetIfTtlLapsed st).hysteresis = (e'.resetIfTtlLapsed st).hysteresis := by
  by_cases hn : st.nScoreable = 0
  · rw [hysteresis_reset_of_eq hn, hysteresis_reset_of_eq hn]
  · rw [resetIfTtlLapsed_of_ne hn, resetIfTtlLapsed_of_ne hn, h]

theorem hysteresis_reset_reset (e : Entry) (st : WindowStats) :
    ((e.resetIfTtlLapsed st).resetIfTtlLapsed st).hysteresis =
      (e.resetIfTtlLapsed st).hysteresis := by
  by_cases hn : st.nScoreable = 0
  · rw [hysteresis_reset_of_eq hn, hysteresis_reset_of_eq hn]
  · rw [resetIfTtlLapsed_of_ne hn, resetIfTtlLapsed_of_ne hn]

/-- The streaks and the transition after a sample read the hysteresis state only. -/
theorem hysteresis_step_congr {e e' : Entry} (h : e.hysteresis = e'.hysteresis)
    (st : WindowStats) (cfg : ScorecardDemotionConfig) (now : ℕ) (oc : OutcomeClass) :
    ((e.countStreaks oc).applyHysteresis st cfg now oc).hysteresis =
      ((e'.countStreaks oc).applyHysteresis st cfg now oc).hysteresis := by
  have hstreaks : (e.countStreaks oc).hysteresis = (e'.countStreaks oc).hysteresis := by
    simp only [hysteresis, Prod.mk.injEq] at h ⊢
    obtain ⟨ht, hd, hf, hs⟩ := h
    cases oc <;> simp only [countStreaks, ht, hd, hf, hs, and_self]
  generalize e.countStreaks oc = a at hstreaks
  generalize e'.countStreaks oc = a' at hstreaks
  have hfields := hstreaks
  simp only [hysteresis, Prod.mk.injEq] at hfields
  obtain ⟨ht, -, hf, hs⟩ := hfields
  unfold applyHysteresis recovers
  rw [ht, hf, hs]
  cases a'.tier with
  | healthy =>
    dsimp only
    split
    · split
      · simp only [hysteresis]
      · exact hstreaks
    · exact hstreaks
  | demoted =>
    dsimp only
    split
    · simp only [hysteresis]
    · exact hstreaks

theorem hysteresis_step_of_neutral {e : Entry}
    {cfg : ScorecardDemotionConfig} {oc : OutcomeClass} (hoc : oc.isScoreable = false)
    (h : ¬ (e.tier = .demoted ∧ e.recovers st cfg = true)) (now : ℕ) :
    ((e.countStreaks oc).applyHysteresis st cfg now oc).hysteresis = e.hysteresis := by
  have hstreaks : e.countStreaks oc = e := by
    cases oc <;> first | rfl | exact absurd hoc (by decide)
  have hclass : ¬ (oc = .targetFailure ∨ oc = .truncated) := by
    rintro (rfl | rfl) <;> exact absurd hoc (by decide)
  rw [hstreaks]
  unfold applyHysteresis
  cases ht : e.tier with
  | healthy => dsimp only; rw [if_neg hclass]
  | demoted => dsimp only; rw [if_neg fun hr => h ⟨ht, hr⟩]

theorem applyHysteresis_frame (e : Entry) (st : WindowStats) (cfg : ScorecardDemotionConfig)
    (now : ℕ) (oc : OutcomeClass) :
    (e.applyHysteresis st cfg now oc).ring = e.ring ∧
      (e.applyHysteresis st cfg now oc).prior = e.prior ∧
      (e.applyHysteresis st cfg now oc).hydrated = e.hydrated := by
  unfold applyHysteresis
  cases e.tier <;> dsimp only <;> repeat' split
  all_goals exact ⟨rfl, rfl, rfl⟩

theorem countStreaks_frame (e : Entry) (oc : OutcomeClass) :
    (e.countStreaks oc).ring = e.ring ∧ (e.countStreaks oc).prior = e.prior ∧
      (e.countStreaks oc).hydrated = e.hydrated := by
  cases oc <;> exact ⟨rfl, rfl, rfl⟩

theorem record_frame (cfg : ScorecardConfig) (e : Entry) (s : Sample) :
    (e.record cfg s).ring = Ring.push cfg.window.maxSamples e.ring s ∧
      (e.record cfg s).prior = e.prior ∧ (e.record cfg s).hydrated = e.hydrated := by
  obtain ⟨hr, hp, hh⟩ := applyHysteresis_frame
    (((e.resetIfTtlLapsed (e.stats cfg s.ts)).push s cfg.window.maxSamples).countStreaks s.outcome)
    (Entry.stats (((e.resetIfTtlLapsed (e.stats cfg s.ts)).push s
      cfg.window.maxSamples).countStreaks s.outcome) cfg s.ts) cfg.demotion s.ts s.outcome
  obtain ⟨hr', hp', hh'⟩ := countStreaks_frame
    ((e.resetIfTtlLapsed (e.stats cfg s.ts)).push s cfg.window.maxSamples) s.outcome
  refine ⟨hr.trans (hr'.trans ?_), hp.trans (hp'.trans ?_), hh.trans (hh'.trans ?_)⟩
  · show Ring.push _ (e.resetIfTtlLapsed _).ring s = _
    rw [resetIfTtlLapsed_ring]
  · exact resetIfTtlLapsed_prior e _
  · exact resetIfTtlLapsed_hydrated e _

/-- What `record` does to the hysteresis state: reset, streaks, transition on the statistics of
the window with the new sample. -/
theorem record_hysteresis (cfg : ScorecardConfig) (e : Entry) (s : Sample) :
    (e.record cfg s).hysteresis =
      (((e.resetIfTtlLapsed (e.stats cfg s.ts)).countStreaks s.outcome).applyHysteresis
        ((e.record cfg s).stats cfg s.ts) cfg.demotion s.ts s.outcome).hysteresis := by
  obtain ⟨hr, hp, -⟩ := record_frame cfg e s
  obtain ⟨hr', hp', -⟩ := countStreaks_frame
    ((e.resetIfTtlLapsed (e.stats cfg s.ts)).push s cfg.window.maxSamples) s.outcome
  have hst : (e.record cfg s).stats cfg s.ts =
      (((e.resetIfTtlLapsed (e.stats cfg s.ts)).push s
        cfg.window.maxSamples).countStreaks s.outcome).stats cfg s.ts := by
    unfold stats at hr' hp' ⊢
    rw [hr, hp, hr', hp', push, resetIfTtlLapsed_ring, resetIfTtlLapsed_prior]
  have hpush : ((e.resetIfTtlLapsed (e.stats cfg s.ts)).push s
      cfg.window.maxSamples).hysteresis =
      (e.resetIfTtlLapsed (e.stats cfg s.ts)).hysteresis := rfl
  rw [hst]
  exact hysteresis_step_congr hpush _ _ _ _

/-! ### The simulation for one key -/

/-- The push of `s` pops a live scoreable sample. -/
def EvictsEvidence (cfg : ScorecardConfig) (e : Entry) (s : Sample) : Prop :=
  ∃ x ∈ Ring.evicted cfg.window.maxSamples e.ring, countsAt s.ts (ttlNanos cfg) x = true

/-- After the TTL reset the entry is demoted, and its window would let it recover. -/
def MayRecover (cfg : ScorecardConfig) (e : Entry) (now : ℕ) : Prop :=
  (e.resetIfTtlLapsed (e.stats cfg now)).tier = .demoted ∧
    (e.resetIfTtlLapsed (e.stats cfg now)).recovers (e.stats cfg now) cfg.demotion = true

instance (cfg : ScorecardConfig) (e : Entry) (s : Sample) : Decidable (e.EvictsEvidence cfg s) :=
  inferInstanceAs (Decidable (∃ x ∈ _, _))

instance (cfg : ScorecardConfig) (e : Entry) (now : ℕ) : Decidable (e.MayRecover cfg now) :=
  inferInstanceAs (Decidable (_ ∧ _))

/-- At time `t`: `e` has recorded the samples `l` (newest first) on top of `base`, and `e'` the
scoreable ones among them. -/
structure Sim (cfg : ScorecardConfig) (t : ℕ) (l base : List Sample) (e e' : Entry) : Prop where
  keeps : Ring.Keeps cfg.window.maxSamples (l ++ base) e.ring
  keeps' : Ring.Keeps cfg.window.maxSamples (l.filter Sample.isScoreable ++ base) e'.ring
  evidence : e.ring.filter (countsAt t (ttlNanos cfg)) = e'.ring.filter (countsAt t (ttlNanos cfg))
  prior : e.prior = e'.prior
  hydrated : e.hydrated = e'.hydrated
  state : (e.resetIfTtlLapsed (e.stats cfg t)).hysteresis =
    (e'.resetIfTtlLapsed (e'.stats cfg t)).hysteresis

variable {cfg : ScorecardConfig} {t : ℕ} {l base : List Sample} {e e' : Entry}

theorem sim_refl (cfg : ScorecardConfig) (t : ℕ) (e : Entry) :
    Sim cfg t [] e.ring.reverse e e where
  keeps := Ring.keeps_reverse _ _
  keeps' := Ring.keeps_reverse _ _
  evidence := rfl
  prior := rfl
  hydrated := rfl
  state := rfl

theorem stats_congr (h : e.ring.filter (countsAt t (ttlNanos cfg)) =
      e'.ring.filter (countsAt t (ttlNanos cfg)))
    (hp : e.prior = e'.prior) : e.stats cfg t = e'.stats cfg t := by
  unfold stats
  rw [hp]
  exact windowStats_congr h _

theorem Sim.stats_eq (h : Sim cfg t l base e e') : e.stats cfg t = e'.stats cfg t :=
  stats_congr h.evidence h.prior

theorem countsAt_of_le (h : t ≤ now)
    (hs : countsAt now ttl s = true) : countsAt t ttl s = true := by
  unfold countsAt isLive at hs ⊢
  simp only [Bool.and_eq_true, decide_eq_true_eq] at hs ⊢
  exact ⟨hs.1, by omega⟩

theorem filter_countsAt_of_le (h : t ≤ now) (ring : List Sample) :
    (ring.filter (countsAt t ttl)).filter (countsAt now ttl) = ring.filter (countsAt now ttl) := by
  rw [List.filter_filter]
  refine List.filter_congr fun s _ => ?_
  by_cases hs : countsAt now ttl s = true
  · rw [hs, countsAt_of_le h hs, Bool.and_self]
  · rw [Bool.eq_false_iff.mpr hs, Bool.false_and]

/-- Time passing keeps the relation: evidence only ages out, and the same from both. -/
theorem Sim.advance (h : Sim cfg t l base e e') (ht : t ≤ now) : Sim cfg now l base e e' := by
  have hev : e.ring.filter (countsAt now (ttlNanos cfg)) =
      e'.ring.filter (countsAt now (ttlNanos cfg)) := by
    rw [← filter_countsAt_of_le ht, ← filter_countsAt_of_le ht e'.ring, h.evidence]
  have hst : e.stats cfg now = e'.stats cfg now := stats_congr hev h.prior
  refine ⟨h.keeps, h.keeps', hev, h.prior, h.hydrated, ?_⟩
  by_cases hn : (e.stats cfg now).nScoreable = 0
  · rw [hysteresis_reset_of_eq hn, hysteresis_reset_of_eq (hst ▸ hn)]
  · -- the window was not quiet at `t` either, so no reset has taken place
    have ht0 : (e.stats cfg t).nScoreable ≠ 0 := by
      unfold stats at hn ⊢
      rw [windowStats_nScoreable] at hn ⊢
      have := List.countP_mono_left (p := countsAt now (ttlNanos cfg))
        (q := countsAt t (ttlNanos cfg)) (l := e.ring) fun s _ => countsAt_of_le ht
      omega
    have hstate := h.state
    rw [resetIfTtlLapsed_of_ne ht0, resetIfTtlLapsed_of_ne (h.stats_eq ▸ ht0)] at hstate
    rw [resetIfTtlLapsed_of_ne hn, resetIfTtlLapsed_of_ne (hst ▸ hn), hstate]

theorem isScoreable_of_countsAt (s : Sample) (h : countsAt now ttl s = true) :
    s.isScoreable = true :=
  (Bool.and_eq_true _ _ ▸ h).1

theorem Sim.record_scoreable (h : Sim cfg s.ts l base e e') (hs : s.isScoreable = true)
    (hev : e.EvictsEvidence cfg s →
      ∀ x ∈ (s :: l).take (max cfg.window.maxSamples 1), x.isScoreable = true) :
    Sim cfg s.ts (s :: l) base (e.record cfg s) (e'.record cfg s) := by
  obtain ⟨hr, hp, hh⟩ := record_frame cfg e s
  obtain ⟨hr', hp', hh'⟩ := record_frame cfg e' s
  have hevidence : (e.record cfg s).ring.filter (countsAt s.ts (ttlNanos cfg)) =
      (e'.record cfg s).ring.filter (countsAt s.ts (ttlNanos cfg)) := by
    rw [hr, hr']
    exact Ring.filter_push_eq isScoreable_of_countsAt h.keeps h.keeps' h.evidence hs hev
  have hprior : (e.record cfg s).prior = (e'.record cfg s).prior := by rw [hp, hp', h.prior]
  have hst := stats_congr hevidence hprior
  refine ⟨?_, ?_, hevidence, hprior, by rw [hh, hh', h.hydrated], ?_⟩
  · rw [hr]
    exact h.keeps.push s
  · rw [hr', List.filter_cons_of_pos hs]
    exact h.keeps'.push s
  · rw [hst]
    refine hysteresis_reset_congr ?_ _
    rw [record_hysteresis, record_hysteresis, hst]
    exact hysteresis_step_congr h.state _ _ _ _

theorem Sim.record_neutral (h : Sim cfg s.ts l base e e')
    (hs : s.isScoreable = false) (hev : ¬ e.EvictsEvidence cfg s)
    (hrec : ¬ e.MayRecover cfg s.ts) : Sim cfg s.ts (s :: l) base (e.record cfg s) e' := by
  obtain ⟨hr, hp, hh⟩ := record_frame cfg e s
  have hsame : (e.record cfg s).ring.filter (countsAt s.ts (ttlNanos cfg)) =
      e.ring.filter (countsAt s.ts (ttlNanos cfg)) := by
    have hnone : ∀ x ∈ Ring.evicted cfg.window.maxSamples e.ring,
        countsAt s.ts (ttlNanos cfg) x = false := by
      intro x hx
      rw [← Bool.not_eq_true]
      exact fun hc => hev ⟨x, hx, hc⟩
    have hself : [s].filter (countsAt s.ts (ttlNanos cfg)) = [] := by
      simp [countsAt, hs]
    rw [hr, Ring.filter_push_of_evicted s hnone, hself, List.append_nil]
  have hst : (e.record cfg s).stats cfg s.ts = e.stats cfg s.ts := stats_congr hsame hp
  have hstate : (e.record cfg s).hysteresis =
      (e.resetIfTtlLapsed (e.stats cfg s.ts)).hysteresis := by
    rw [record_hysteresis, hst]
    exact hysteresis_step_of_neutral hs hrec _
  refine ⟨?_, ?_, hsame.trans h.evidence, hp.trans h.prior, hh.trans h.hydrated, ?_⟩
  · rw [hr]
    exact h.keeps.push s
  · rw [List.filter_cons_of_neg (by simp [hs])]
    exact h.keeps'
  · rw [hst, hysteresis_reset_congr hstate, hysteresis_reset_reset, h.state]

/-- The routing read does not tell the two entries apart. -/
theorem Sim.project_eq (h : Sim cfg t l base e e') :
    (e.project cfg t).1 = (e'.project cfg t).1 := by
  have hstate := h.state
  simp only [hysteresis, Prod.mk.injEq] at hstate
  obtain ⟨ht, hd, hf, -⟩ := hstate
  rw [h.stats_eq] at ht hd hf
  unfold project
  simp only [h.stats_eq, resetIfTtlLapsed_hydrated, h.hydrated, ht, hd, hf]
  split
  · rfl
  · split <;> rfl

theorem project_snd (cfg : ScorecardConfig) (e : Entry) (now : ℕ) :
    (e.project cfg now).2 = e.resetIfTtlLapsed (e.stats cfg now) := by
  unfold project
  dsimp only
  split_ifs <;> rfl

end Entry

/-! ### Runs -/

/-- One call of `Scorecard.record`. -/
structure ScorecardCall where
  key : ScorecardKey
  seedPrior : Prior
  sample : Sample

/-- The calls with a scoreable sample: what is left when the neutral ones are deleted. -/
def scoreableCalls (calls : List ScorecardCall) : List ScorecardCall :=
  calls.filter fun c => c.sample.isScoreable

/-- The samples of one key, newest first. -/
def recorded (key : ScorecardKey) (calls : List ScorecardCall) : List Sample :=
  ((calls.filter fun c => c.key = key).map ScorecardCall.sample).reverse

namespace Scorecard

/-- A sequence of `record` calls. -/
def run (cfg : ScorecardConfig) (sc : Scorecard) (calls : List ScorecardCall) : Scorecard :=
  calls.foldl (fun sc c => sc.record cfg c.key c.seedPrior c.sample) sc

/-- What call `c` may meet after the calls `past` from `sc`:
if it pops a live scoreable sample, none of the newest samples recorded since the start is
neutral; if it is neutral, the entry is not about to recover; and if it is the first scoreable
call of its key, no neutral call before it has created the entry with another prior. -/
def CallOk (cfg : ScorecardConfig) (sc : Scorecard) (past : List ScorecardCall)
    (c : ScorecardCall) : Prop :=
  let e := (sc.run cfg past).getOrCreate c.key c.seedPrior
  (e.EvictsEvidence cfg c.sample →
    ∀ x ∈ (c.sample :: recorded c.key past).take (max cfg.window.maxSamples 1),
      x.isScoreable = true) ∧
  (c.sample.isScoreable = false → ¬ e.MayRecover cfg c.sample.ts) ∧
  (c.sample.isScoreable = true → sc.entries c.key = none →
    (∀ p ∈ past, p.key = c.key → p.sample.isScoreable = false) → c.seedPrior = e.prior)

instance (cfg : ScorecardConfig) (sc : Scorecard) (past : List ScorecardCall) (c : ScorecardCall) :
    Decidable (sc.CallOk cfg past c) :=
  inferInstanceAs (Decidable (_ ∧ _ ∧ _))

/-- Every call of a run meets its condition. -/
def RunOk (cfg : ScorecardConfig) (sc : Scorecard) (past : List ScorecardCall) :
    List ScorecardCall → Prop
  | [] => True
  | c :: rest => sc.CallOk cfg past c ∧ sc.RunOk cfg (past ++ [c]) rest

instance decidableRunOk (cfg : ScorecardConfig) (sc : Scorecard) :
    (past calls : List ScorecardCall) → Decidable (sc.RunOk cfg past calls)
  | _, [] => .isTrue trivial
  | past, c :: rest =>
      have := decidableRunOk cfg sc (past ++ [c]) rest
      inferInstanceAs (Decidable (_ ∧ _))

theorem run_append (cfg : ScorecardConfig) (sc : Scorecard) (calls : List ScorecardCall)
    (c : ScorecardCall) :
    sc.run cfg (calls ++ [c]) = (sc.run cfg calls).record cfg c.key c.seedPrior c.sample := by
  simp only [run, List.foldl_append, List.foldl_cons, List.foldl_nil]

variable {cfg : ScorecardConfig} {sc : Scorecard}

theorem record_entries_self (hen : cfg.enabled = true) (sc : Scorecard) (key : ScorecardKey)
    (p : Prior) (s : Sample) :
    (sc.record cfg key p s).entries key = some ((sc.getOrCreate key p).record cfg s) := by
  unfold record set
  rw [if_pos hen]
  exact Function.update_self _ _ _

variable {key : ScorecardKey} {past : List ScorecardCall} {c : ScorecardCall}

theorem record_entries_of_ne {k : ScorecardKey} (hk : k ≠ key) (sc : Scorecard)
    (p : Prior) (s : Sample) : (sc.record cfg key p s).entries k = sc.entries k := by
  unfold record set
  split
  · exact Function.update_of_ne hk _ _
  · rfl

theorem of_run_entries_eq_none (hen : cfg.enabled = true) {calls : List ScorecardCall}
    (h : (sc.run cfg calls).entries key = none) :
    sc.entries key = none ∧ ∀ c ∈ calls, c.key ≠ key := by
  induction calls using List.reverseRecOn with
  | nil => exact ⟨h, by simp⟩
  | append_singleton calls c ih =>
    rw [run_append] at h
    by_cases hc : key = c.key
    · rw [hc, record_entries_self hen] at h
      exact absurd h (by simp)
    · rw [record_entries_of_ne hc] at h
      obtain ⟨h0, hall⟩ := ih h
      refine ⟨h0, fun d hd => ?_⟩
      rcases List.mem_append.mp hd with hd | hd
      · exact hall d hd
      · rw [List.mem_singleton.mp hd]
        exact fun hkey => hc hkey.symm

/-- The relation of one key in the full and the filtered run.  An entry that only the full run
has is compared with a new one. -/
def EntryRel (cfg : ScorecardConfig) (t : ℕ) (l base : List Sample) :
    Option Entry → Option Entry → Prop
  | none, o' => o' = none ∧ l = [] ∧ base = []
  | some e, o' => Entry.Sim cfg t l base e (o'.getD (Entry.new e.prior))

/-- What the entry of a key held at the start, newest first. -/
def base (sc : Scorecard) (key : ScorecardKey) : List Sample :=
  (sc.entries key).elim [] fun e => e.ring.reverse

/-- The relation between the full and the filtered run of `past`. -/
def Rel (cfg : ScorecardConfig) (sc : Scorecard) (t : ℕ) (past : List ScorecardCall) : Prop :=
  ∀ key, EntryRel cfg t (recorded key past) (sc.base key) ((sc.run cfg past).entries key)
    ((sc.run cfg (scoreableCalls past)).entries key)

theorem rel_nil (cfg : ScorecardConfig) (sc : Scorecard) (t : ℕ) : sc.Rel cfg t [] := by
  intro key
  show EntryRel cfg t [] (sc.base key) (sc.entries key) (sc.entries key)
  unfold base
  cases sc.entries key with
  | none => exact ⟨rfl, rfl, rfl⟩
  | some e => exact Entry.sim_refl cfg t e

theorem EntryRel.advance {t now : ℕ} {l b : List Sample} {o o' : Option Entry}
    (h : EntryRel cfg t l b o o') (ht : t ≤ now) : EntryRel cfg now l b o o' := by
  cases o with
  | none => exact h
  | some e => exact Entry.Sim.advance h ht

/-- Before a call of its key, the full run's entry is related to the other's, or to a new one
with the same prior. -/
theorem Rel.sim_getD {t : ℕ} (h : sc.Rel cfg t past) (key : ScorecardKey) (seed : Prior) :
    Entry.Sim cfg t (recorded key past) (sc.base key) ((sc.run cfg past).getOrCreate key seed)
      (((sc.run cfg (scoreableCalls past)).entries key).getD
        (Entry.new ((sc.run cfg past).getOrCreate key seed).prior)) := by
  have hkey := h key
  unfold getOrCreate
  cases ho : (sc.run cfg past).entries key with
  | none =>
    rw [ho] at hkey
    obtain ⟨ho', hl, hb⟩ := hkey
    rw [ho', hl, hb]
    exact Entry.sim_refl cfg t (Entry.new seed)
  | some e =>
    rw [ho] at hkey
    exact hkey

theorem getD_eq_getOrCreate_of_callOk (hen : cfg.enabled = true)
    (hok : sc.CallOk cfg past c) (hs : c.sample.isScoreable = true) :
    ((sc.run cfg (scoreableCalls past)).entries c.key).getD
        (Entry.new ((sc.run cfg past).getOrCreate c.key c.seedPrior).prior) =
      (sc.run cfg (scoreableCalls past)).getOrCreate c.key c.seedPrior := by
  obtain ⟨-, -, hseed⟩ := hok
  unfold getOrCreate at hseed ⊢
  cases ho' : (sc.run cfg (scoreableCalls past)).entries c.key with
  | some e' => rfl
  | none =>
    obtain ⟨h0, hall⟩ := of_run_entries_eq_none hen ho'
    have hneutral : ∀ p ∈ past, p.key = c.key → p.sample.isScoreable = false := by
      intro p hp hpk
      rw [← Bool.not_eq_true]
      exact fun hps => hall p (List.mem_filter.mpr ⟨hp, hps⟩) hpk
    rw [← hseed hs h0 hneutral]

theorem recorded_append_of_ne (h : key ≠ c.key)
    (past : List ScorecardCall) : recorded key (past ++ [c]) = recorded key past := by
  unfold recorded
  rw [List.filter_append, List.filter_cons_of_neg (by simpa using h.symm), List.filter_nil,
    List.append_nil]

theorem recorded_append_self (past : List ScorecardCall) (c : ScorecardCall) :
    recorded c.key (past ++ [c]) = c.sample :: recorded c.key past := by
  unfold recorded
  rw [List.filter_append, List.filter_cons_of_pos (by simp), List.filter_nil, List.map_append,
    List.reverse_append]
  rfl

theorem scoreableCalls_append (past : List ScorecardCall) (c : ScorecardCall) :
    scoreableCalls (past ++ [c]) =
      if c.sample.isScoreable then scoreableCalls past ++ [c] else scoreableCalls past := by
  unfold scoreableCalls
  rw [List.filter_append]
  split
  · rw [List.filter_cons_of_pos (by assumption), List.filter_nil]
  · rw [List.filter_cons_of_neg (by assumption), List.filter_nil, List.append_nil]

/-- **One call keeps the relation.** -/
theorem Rel.step (hen : cfg.enabled = true) {t : ℕ} (h : sc.Rel cfg t past) (ht : t ≤ c.sample.ts)
    (hok : sc.CallOk cfg past c) : sc.Rel cfg c.sample.ts (past ++ [c]) := by
  intro key
  have hsim := (h.sim_getD c.key c.seedPrior).advance ht
  have hmore := getD_eq_getOrCreate_of_callOk hen hok
  obtain ⟨hev, hrec, -⟩ := hok
  rw [run_append, scoreableCalls_append]
  by_cases hk : key = c.key
  · rw [hk, record_entries_self hen, recorded_append_self]
    by_cases hs : c.sample.isScoreable = true
    · rw [if_pos hs, run_append, record_entries_self hen]
      rw [hmore hs] at hsim
      exact hsim.record_scoreable hs hev
    · rw [if_neg hs]
      have hs' := Bool.eq_false_iff.mpr hs
      have hkeep : ¬ ((sc.run cfg past).getOrCreate c.key c.seedPrior).EvictsEvidence cfg
          c.sample := by
        intro hlost
        have hhead : c.sample ∈
            (c.sample :: recorded c.key past).take (max cfg.window.maxSamples 1) := by
          obtain ⟨m, hm⟩ : ∃ m, max cfg.window.maxSamples 1 = m + 1 :=
            ⟨max cfg.window.maxSamples 1 - 1, by omega⟩
          rw [hm, List.take_succ_cons]
          exact List.mem_cons_self
        exact hs (hev hlost c.sample hhead)
      have hstep := hsim.record_neutral hs' hkeep (hrec hs')
      rw [← (Entry.record_frame cfg _ c.sample).2.1] at hstep
      exact hstep
  · rw [record_entries_of_ne hk, recorded_append_of_ne hk]
    have hkey := (h key).advance ht
    by_cases hs : c.sample.isScoreable = true
    · rw [if_pos hs, run_append, record_entries_of_ne hk]
      exact hkey
    · rw [if_neg hs]
      exact hkey

/-- **A whole run keeps the relation.** -/
theorem Rel.run (hen : cfg.enabled = true) {calls : List ScorecardCall} {t now : ℕ}
    (h : sc.Rel cfg t past) (hok : sc.RunOk cfg past calls)
    (hts : ((t :: calls.map fun c => c.sample.ts) ++ [now]).Pairwise (· ≤ ·)) :
    sc.Rel cfg now (past ++ calls) := by
  induction calls generalizing past t with
  | nil =>
    have ht : t ≤ now := by simpa using hts
    rw [List.append_nil]
    exact fun key => (h key).advance ht
  | cons c rest ih =>
    obtain ⟨hc, hrest⟩ := hok
    simp only [List.map_cons, List.cons_append, List.pairwise_cons] at hts ih
    have ht : t ≤ c.sample.ts := hts.1 _ List.mem_cons_self
    have hnext := ih (h.step hen ht hc) hrest hts.2
    rwa [List.append_assoc, List.singleton_append] at hnext

/-- **Neutral samples are inert where each call meets its condition.**  At every later time the
routing read of every key is the one of the run without them. -/
theorem project_eq_of_runOk (cfg : ScorecardConfig) (sc : Scorecard) (calls : List ScorecardCall)
    (now : ℕ) (hts : ((calls.map fun c => c.sample.ts) ++ [now]).Pairwise (· ≤ ·))
    (hok : cfg.enabled = true → sc.RunOk cfg [] calls) (key : ScorecardKey) :
    ((sc.run cfg calls).project cfg key now).1 =
      ((sc.run cfg (scoreableCalls calls)).project cfg key now).1 := by
  unfold project
  by_cases hen : cfg.enabled = true
  · rw [if_pos hen, if_pos hen]
    have hts0 := List.pairwise_cons.mpr ⟨fun t _ => Nat.zero_le t, hts⟩
    have hrel := (rel_nil cfg sc 0).run hen (hok hen) hts0 key
    rw [List.nil_append] at hrel
    cases ho : (sc.run cfg calls).entries key with
    | none =>
      rw [ho] at hrel
      rw [hrel.1]
    | some e =>
      rw [ho] at hrel
      have hproj := Entry.Sim.project_eq hrel
      cases ho' : (sc.run cfg (scoreableCalls calls)).entries key with
      | none => rw [ho'] at hproj; exact hproj
      | some e' => rw [ho'] at hproj; exact hproj
  · rw [if_neg hen, if_neg hen]

/-- A call for one fixed key, with the prior of the configuration. -/
def callAt (cfg : ScorecardConfig) (oc : OutcomeClass) (ts : ℕ) : ScorecardCall where
  key := ("gpt", "chat")
  seedPrior := Prior.fromConfig cfg
  sample := { ts := ts, outcome := oc, latencyMs := 100, costMicros := none, err := none }

/-- A refusal, a client fault and a cancellation among four scoreable samples. -/
theorem project_eq_mixed_run :
    ((new.run {} [callAt {} .cancelled 1, callAt {} .success 2, callAt {} .refusal 3,
        callAt {} .targetFailure 3, callAt {} .clientOrAccountFault 4,
        callAt {} .truncated 5, callAt {} .success 6]).project {} ("gpt", "chat") 7).1 =
      ((new.run {} [callAt {} .success 2, callAt {} .targetFailure 3, callAt {} .truncated 5,
        callAt {} .success 6]).project {} ("gpt", "chat") 7).1 :=
  project_eq_of_runOk {} new [callAt {} .cancelled 1, callAt {} .success 2,
    callAt {} .refusal 3, callAt {} .targetFailure 3, callAt {} .clientOrAccountFault 4,
    callAt {} .truncated 5, callAt {} .success 6] 7 (by decide) (fun _ => by decide +kernel) _

/-- Five successes and three truncations demote; the cancellation after them restores health. -/
def demotedThenCancelled : List ScorecardCall :=
  [1, 2, 3, 4, 5].map (callAt {} .success) ++ [6, 7, 8].map (callAt {} .truncated) ++
    [callAt {} .cancelled 9]

/-- Under the default configuration a cancellation lifts a demotion, and a ring of one sample
loses its evidence to a cancellation. -/
theorem neutral_sample_changes_project :
    ((new.run {} demotedThenCancelled).project {} ("gpt", "chat") 10).1 ≠
        ((new.run {} (scoreableCalls demotedThenCancelled)).project {} ("gpt", "chat") 10).1 ∧
      ((new.run { window := { maxSamples := 1 } }
          [callAt {} .success 1, callAt {} .cancelled 2]).project
            { window := { maxSamples := 1 } } ("gpt", "chat") 3).1 ≠
        ((new.run { window := { maxSamples := 1 } }
          (scoreableCalls [callAt {} .success 1, callAt {} .cancelled 2])).project
            { window := { maxSamples := 1 } } ("gpt", "chat") 3).1 := by
  decide +kernel

end Scorecard

end Switchback
