import Switchback.Runtime.Preview

/-!
# Previews in a run

What happens to an engine between two requests, and what a preview changes of it.  Planning reads
the scorecard through a repair: it resets the entry of a quiet window and removes the judgments that
have expired.  Such a repair shows only where a later call uses a longer TTL, or where a full ring
gives up a judgment that is live while it keeps one that has expired.
-/

namespace Switchback

namespace Preview

open Lib Router Profiles

/-- What happens to an engine.  An attempt and a judgment are recorded under the config they began
with; a spend is what the ledger answers. -/
inductive Action where
  | preview (req : AiRequest)
  | execute (req : AiRequest) (globalSpend tenantSpend : Except String F64)
  | record (cfg : ScorecardConfig) (key : ScorecardKey) (seedPrior : Prior) (sample : Sample)
  | judge (cfg : ScorecardConfig) (qualityCfg : Quality.EvalConfig) (key : ScorecardKey)
      (evaluatorId : String) (sample : QualitySample)
  | flush
  | resolver (op : ResolverOp)
  | measured (registry : Registry)
  | publish (snapshot : Snapshot) (resolver : CredentialResolver)

/-- An action at a time of the monotonic clock and a second of the other one. -/
structure Input where
  now : ℕ
  nowUnix : ℕ := 0
  action : Action

def Input.isPreview (i : Input) : Bool :=
  match i.action with
  | .preview _ => true
  | _ => false

/-- One action, and the decision of a request that is executed. -/
def step (env : Env) (e : EngineState) (i : Input) :
    EngineState × List (Except ExecError EngineState.Planned) :=
  match i.action with
  | .preview req => ((e.previewRoute env req i.now i.nowUnix).2, [])
  | .execute req globalSpend tenantSpend =>
      let (planned, e) := e.executeRoute env req i.now i.nowUnix globalSpend tenantSpend
      (e, [planned])
  | .record cfg key seedPrior sample =>
      ({ e with scorecard := e.scorecard.record cfg key seedPrior { sample with ts := i.now } }, [])
  | .judge cfg qualityCfg key evaluatorId sample =>
      ({ e with
        scorecard := e.scorecard.recordQuality cfg qualityCfg key evaluatorId
          { sample with ts := i.now } }, [])
  | .flush => ({ e with scorecard := e.scorecard.flush e.snapshot.config.server.scorecard i.now }, [])
  | .resolver op => ({ e with resolver := e.resolver.apply i.now op }, [])
  | .measured registry => ({ e with snapshot := { e.snapshot with registry := registry } }, [])
  | .publish snapshot resolver => ({ e with snapshot := snapshot, resolver := resolver }, [])

/-! ### Related engines -/

/-- The TTL of the scorecard in force. -/
def EngineState.ttl (e : EngineState) : ℕ := ttlNanos e.snapshot.config.server.scorecard

/-- The engines decide the same from time `now` on. -/
structure Related (now : ℕ) (e e' : EngineState) : Prop where
  snapshot : e.snapshot = e'.snapshot
  resolver : e.resolver = e'.resolver
  scorecard : LiveScorecard.Alike e.ttl now e.scorecard e'.scorecard
  comboRr : ∀ name, (e.comboRr.get name).getD 0 = (e'.comboRr.get name).getD 0
  exactCache : e.exactCache = e'.exactCache

theorem Related.refl (now : ℕ) (e : EngineState) : Related now e e :=
  ⟨rfl, rfl, LiveScorecard.Alike.refl _ now _, fun _ => rfl, rfl⟩

theorem Related.later {now now' : ℕ} {e e' : EngineState} (h : Related now e e')
    (hnow : now ≤ now') : Related now' e e' :=
  { h with scorecard := h.scorecard.later hnow (Nat.le_refl _) }

section Stamps

variable (env : Env) (config : Config) (resolver : CredentialResolver) (now : ℕ)

theorem alike_stamp (sc : LiveScorecard) (c : ExecutionTarget) :
    LiveScorecard.Alike (ttlNanos config.server.scorecard) now
      (stamp env config resolver now sc c).2 sc := by
  have hproject := LiveScorecard.alike_project config.server.scorecard sc (c.id, "any") now
  unfold stamp
  dsimp only
  split_ifs with hquality
  · exact (LiveScorecard.alike_projectQuality ..).trans hproject
  · exact hproject

theorem stamp_congr {sc sc' : LiveScorecard}
    (h : LiveScorecard.Alike (ttlNanos config.server.scorecard) now sc sc') (c : ExecutionTarget) :
    (stamp env config resolver now sc c).1 = (stamp env config resolver now sc' c).1 := by
  have hproject := LiveScorecard.alike_project config.server.scorecard sc (c.id, "any") now
  have hproject' := LiveScorecard.alike_project config.server.scorecard sc' (c.id, "any") now
  have hnext := (hproject.trans h).trans hproject'.symm
  unfold stamp
  dsimp only
  rw [h.project_eq]
  split_ifs with hquality
  · rw [← hnext.projectQuality_eq]
  · rfl

theorem alike_stampAll (sc : LiveScorecard) (candidates : List ExecutionTarget) :
    LiveScorecard.Alike (ttlNanos config.server.scorecard) now
      (stampAll env config resolver now sc candidates).2 sc := by
  induction candidates generalizing sc with
  | nil => exact LiveScorecard.Alike.refl _ now sc
  | cons c candidates ih =>
    exact (ih (stamp env config resolver now sc c).2).trans (alike_stamp env config resolver now sc c)

theorem stampAll_congr {sc sc' : LiveScorecard}
    (h : LiveScorecard.Alike (ttlNanos config.server.scorecard) now sc sc')
    (candidates : List ExecutionTarget) :
    (stampAll env config resolver now sc candidates).1 =
      (stampAll env config resolver now sc' candidates).1 := by
  induction candidates generalizing sc sc' with
  | nil => rfl
  | cons c candidates ih =>
    have hnext := ((alike_stamp env config resolver now sc c).trans h).trans
      (alike_stamp env config resolver now sc' c).symm
    simp only [stampAll]
    rw [stamp_congr env config resolver now h c, ih hnext]

end Stamps

section Plans

variable (env : Env) {e e' : EngineState} {now : ℕ}

theorem alike_resolveCandidates (e : EngineState) (model : String) (now : ℕ) :
    LiveScorecard.Alike e.ttl now (e.resolveCandidates env model now).2 e.scorecard := by
  unfold EngineState.resolveCandidates
  cases resolveRoute e.snapshot.config e.snapshot.registry model with
  | error error => exact LiveScorecard.Alike.refl _ now _
  | ok resolved => exact alike_stampAll env _ e.resolver now e.scorecard resolved.candidates

theorem Related.resolveCandidates (h : Related now e e') (model : String) :
    (e.resolveCandidates env model now).1 = (e'.resolveCandidates env model now).1 := by
  unfold EngineState.resolveCandidates
  rw [← h.snapshot, ← h.resolver]
  cases resolveRoute e.snapshot.config e.snapshot.registry model with
  | error error => rfl
  | ok resolved =>
    dsimp only
    rw [stampAll_congr env e.snapshot.config e.resolver now h.scorecard resolved.candidates]

theorem applyComboOrder_congr {c c' : ComboCursors}
    (h : ∀ name, (c.get name).getD 0 = (c'.get name).getD 0) (resolved : Profiles.CandidateResolution)
    (advance : Bool) :
    (applyComboOrder c resolved advance).1 = (applyComboOrder c' resolved advance).1 ∧
      ∀ name, ((applyComboOrder c resolved advance).2.get name).getD 0 =
        ((applyComboOrder c' resolved advance).2.get name).getD 0 := by
  unfold applyComboOrder
  cases resolved.combo with
  | none => exact ⟨rfl, h⟩
  | some combo =>
    dsimp only
    cases combo.strategy with
    | fallback => exact ⟨rfl, h⟩
    | roundRobin =>
      dsimp only
      split_ifs with hlen hadvance
      · exact ⟨rfl, h⟩
      all_goals
        rw [h combo.name]
        refine ⟨rfl, fun name => ?_⟩
        dsimp only
        rw [OrdMap.get_insert, OrdMap.get_insert]
        split_ifs
        · rfl
        · exact h name

theorem applyComboOrder_stays (c : ComboCursors) (resolved : Profiles.CandidateResolution)
    (name : String) :
    ((applyComboOrder c resolved false).2.get name).getD 0 = (c.get name).getD 0 := by
  unfold applyComboOrder
  cases resolved.combo with
  | none => rfl
  | some combo =>
    dsimp only
    cases combo.strategy with
    | fallback => rfl
    | roundRobin =>
      simp only [Bool.false_eq_true, if_false]
      by_cases hlen : resolved.candidates.length ≤ 1
      · rw [if_pos hlen]
      · rw [if_neg hlen]
        dsimp only
        rw [OrdMap.get_insert]
        split_ifs with hname
        · rw [hname]
          rfl
        · rfl

variable (config : Config) (runtime : Profiles.Runtime) (resolver : CredentialResolver)
  (req : AiRequest) (profile : Option Profiles.ClientProfileConfig)
  (resolved : Profiles.CandidateResolution) (advance : Bool)

theorem planResolvedRoute_snd (c : ComboCursors) :
    (planResolvedRoute c config runtime resolver req profile resolved advance).2 =
      (applyComboOrder c resolved advance).2 := by
  unfold planResolvedRoute
  dsimp only
  split <;> rfl

theorem planResolvedRoute_fst {c c' : ComboCursors}
    (h : (applyComboOrder c resolved advance).1 = (applyComboOrder c' resolved advance).1) :
    (planResolvedRoute c config runtime resolver req profile resolved advance).1 =
      (planResolvedRoute c' config runtime resolver req profile resolved advance).1 := by
  unfold planResolvedRoute
  dsimp only
  rw [h]
  split <;> rfl

theorem related_plan (e : EngineState) (now : ℕ) :
    Related now (e.plan env req profile now false).2 e := by
  have halike := alike_resolveCandidates env e req.model now
  unfold EngineState.plan
  revert halike
  rcases e.resolveCandidates env req.model now with ⟨_ | resolved, scorecard⟩
  · exact fun halike => ⟨rfl, rfl, halike, fun _ => rfl, rfl⟩
  · intro halike
    refine ⟨rfl, rfl, halike, fun name => ?_, rfl⟩
    dsimp only
    rw [planResolvedRoute_snd]
    exact applyComboOrder_stays e.comboRr resolved name

theorem Related.plan (h : Related now e e') :
    (e.plan env req profile now advance).1 = (e'.plan env req profile now advance).1 ∧
      Related now (e.plan env req profile now advance).2
        (e'.plan env req profile now advance).2 := by
  have halike := alike_resolveCandidates env e req.model now
  have halike' := alike_resolveCandidates env e' req.model now
  have hresolve := h.resolveCandidates env req.model
  have httl : e'.ttl = e.ttl := by unfold EngineState.ttl; rw [h.snapshot]
  rw [httl] at halike'
  unfold EngineState.plan
  revert halike halike' hresolve
  rcases e.resolveCandidates env req.model now with ⟨result, scorecard⟩
  rcases e'.resolveCandidates env req.model now with ⟨result', scorecard'⟩
  intro halike halike' hresolve
  obtain rfl : result = result' := hresolve
  have hscorecard := (halike.trans h.scorecard).trans halike'.symm
  cases result with
  | error error => exact ⟨rfl, h.snapshot, h.resolver, hscorecard, h.comboRr, h.exactCache⟩
  | ok resolved =>
    obtain ⟨horder, hcursors⟩ := applyComboOrder_congr h.comboRr resolved advance
    dsimp only
    rw [← h.snapshot, ← h.resolver]
    constructor
    · rw [planResolvedRoute_fst _ _ _ _ _ _ _ horder]
    · refine ⟨rfl, rfl, hscorecard, fun name => ?_, h.exactCache⟩
      dsimp only
      rw [planResolvedRoute_snd, planResolvedRoute_snd]
      exact hcursors name

end Plans

section Requests

variable (env : Env) {e e' : EngineState} {now : ℕ} (req : AiRequest) (nowUnix : ℕ)

/-- **A preview leaves its engine related to what it was.** -/
theorem related_previewRoute (e : EngineState) (now : ℕ) :
    Related now (e.previewRoute env req now nowUnix).2 e := by
  unfold EngineState.previewRoute
  rcases preRoute e.snapshot.plugins req with ⟨_ | _, req⟩
  · dsimp only
    cases applyRequestClientProfile e.snapshot.config req with
    | error error => exact Related.refl now e
    | ok r => exact related_plan env r.2 r.1 e now
  · exact Related.refl now e

/-- **Related engines decide the same.** -/
theorem Related.executeRoute (h : Related now e e') (globalSpend tenantSpend : Except String F64) :
    (e.executeRoute env req now nowUnix globalSpend tenantSpend).1 =
        (e'.executeRoute env req now nowUnix globalSpend tenantSpend).1 ∧
      Related now (e.executeRoute env req now nowUnix globalSpend tenantSpend).2
        (e'.executeRoute env req now nowUnix globalSpend tenantSpend).2 := by
  have hglobal : e.overGlobalBudget globalSpend = e'.overGlobalBudget globalSpend := by
    unfold EngineState.overGlobalBudget
    rw [h.snapshot]
  have htenant : e.overTenantBudget req tenantSpend = e'.overTenantBudget req tenantSpend := by
    unfold EngineState.overTenantBudget
    rw [h.snapshot]
  unfold EngineState.executeRoute
  rw [hglobal, htenant, h.snapshot, h.exactCache]
  cases e'.overGlobalBudget globalSpend with
  | some error => exact ⟨rfl, h⟩
  | none =>
  cases e'.overTenantBudget req tenantSpend with
  | some error => exact ⟨rfl, h⟩
  | none =>
  dsimp only
  rcases preRoute e'.snapshot.plugins _ with ⟨_ | _, req₁⟩
  · dsimp only
    cases applyRequestClientProfile e'.snapshot.config req₁ with
    | error error => exact ⟨rfl, h⟩
    | ok r =>
      dsimp only
      have hcached (cache : ExactRequestCache) :
          Related now { e with snapshot := e'.snapshot, exactCache := cache }
            { e' with exactCache := cache } := by
        refine ⟨rfl, h.resolver, ?_, h.comboRr, rfl⟩
        have halike := h.scorecard
        unfold EngineState.ttl at halike ⊢
        rwa [h.snapshot] at halike
      have hplan := (hcached (lookupExactCache env e'.exactCache r.2
        e'.snapshot.config.server.executionCache nowUnix).2).plan env r.2 r.1 true
      rw [hplan.1]
      exact ⟨rfl, hplan.2⟩
  · exact ⟨rfl, h⟩

end Requests

/-- No call of the scorecard uses a longer TTL than the one in force, and a full ring gives up its
expired judgments first. -/
def KeepsEvidence (e : EngineState) (i : Input) : Prop :=
  match i.action with
  | .publish snapshot _ => ttlNanos snapshot.config.server.scorecard ≤ e.ttl
  | .record cfg _ _ _ => ttlNanos cfg ≤ e.ttl
  | .judge cfg qualityCfg key evaluatorId sample =>
      LiveScorecard.accepts cfg qualityCfg evaluatorId { sample with ts := i.now } = true →
        e.scorecard.ExpiredFirst cfg e.ttl key evaluatorId { sample with ts := i.now }
  | _ => True

/-- A step that is no preview keeps related engines in step. -/
theorem Related.step (env : Env) {t : ℕ} {e e' : EngineState} {i : Input} (ht : t ≤ i.now)
    (hi : i.isPreview = false) (hok : KeepsEvidence e i) (hok' : KeepsEvidence e' i)
    (h : Related t e e') :
    Related i.now (step env e i).1 (step env e' i).1 ∧ (step env e i).2 = (step env e' i).2 := by
  have hnow := h.later ht
  have httl : e'.ttl = e.ttl := by unfold EngineState.ttl; rw [h.snapshot]
  obtain ⟨now, nowUnix, action⟩ := i
  cases action with
  | preview req => cases hi
  | execute req globalSpend tenantSpend =>
    have hexec := hnow.executeRoute env req nowUnix globalSpend tenantSpend
    exact ⟨hexec.2, congrArg (fun planned => [planned]) hexec.1⟩
  | record cfg key seedPrior sample =>
    let stamped : Sample := { sample with ts := now }
    have hscorecard : LiveScorecard.Alike e.ttl stamped.ts e.scorecard e'.scorecard :=
      hnow.scorecard
    exact ⟨{ hnow with scorecard := hscorecard.record hok key seedPrior }, rfl⟩
  | judge cfg qualityCfg key evaluatorId sample =>
    let stamped : QualitySample := { sample with ts := now }
    have hscorecard : LiveScorecard.Alike e.ttl stamped.ts e.scorecard e'.scorecard :=
      hnow.scorecard
    refine ⟨{ hnow with
      scorecard := hscorecard.recordQuality fun haccepted => ⟨hok haccepted, ?_⟩ }, rfl⟩
    have hfirst := hok' haccepted
    rwa [httl] at hfirst
  | flush =>
    refine ⟨{ hnow with scorecard := ?_ }, rfl⟩
    have hflush := LiveScorecard.alike_flush e.snapshot.config.server.scorecard e.scorecard now
    have hflush' := LiveScorecard.alike_flush e'.snapshot.config.server.scorecard e'.scorecard now
    rw [← h.snapshot] at hflush'
    show LiveScorecard.Alike _ now _ (LiveScorecard.flush e'.snapshot.config.server.scorecard _ _)
    rw [← h.snapshot]
    exact (hflush.trans hnow.scorecard).trans hflush'.symm
  | resolver op =>
    refine ⟨{ hnow with resolver := ?_ }, rfl⟩
    show e.resolver.apply now op = e'.resolver.apply now op
    rw [h.resolver]
  | measured registry =>
    refine ⟨{ hnow with snapshot := ?_ }, rfl⟩
    show { e.snapshot with registry := registry } = { e'.snapshot with registry := registry }
    rw [h.snapshot]
  | publish snapshot resolver =>
    exact ⟨{ hnow with
      snapshot := rfl, resolver := rfl
      scorecard := hnow.scorecard.later (Nat.le_refl _) hok }, rfl⟩

/-- **A preview plans what execution would, and leaves every later decision alone**: the first at
any state and time, the second in every run that keeps its evidence. -/
theorem preview_law (env : Env) (e : EngineState) :
    (∀ req now nowUnix globalSpend tenantSpend, WithinBudget e req globalSpend tenantSpend →
      (e.previewRoute env req now nowUnix).1.map (fun r => r.2.plan) =
        (e.executeRoute env req now nowUnix globalSpend tenantSpend).1.map fun r => r.plan) ∧
    ∀ t inputs, Machine.Timely Input.now t inputs →
      Machine.StepsOk (step env) KeepsEvidence e inputs →
      Machine.StepsOk (step env) KeepsEvidence e (inputs.filter fun i => !i.isPreview) →
      (Machine.run (step env) e inputs).2 =
        (Machine.run (step env) e (inputs.filter fun i => !i.isPreview)).2 := by
  constructor
  · exact fun req now nowUnix globalSpend tenantSpend h => preview_plan_eq env e req now nowUnix h
  · intro t inputs htime hok hok'
    refine Machine.run_observers (R := Related) ?_ ?_ (Related.refl t e) htime hok hok'
    · intro t e e' i ht hi h
      obtain ⟨now, nowUnix, action⟩ := i
      cases action with
      | preview req =>
        have hpreview := related_previewRoute env req nowUnix e now
        refine ⟨?_, rfl⟩
        have hlater := h.later ht
        exact
          { snapshot := hpreview.snapshot.trans h.snapshot
            resolver := hpreview.resolver.trans h.resolver
            scorecard := hpreview.scorecard.trans (by
              have halike := hlater.scorecard
              unfold EngineState.ttl at halike ⊢
              rwa [← hpreview.snapshot] at halike)
            comboRr := fun name => (hpreview.comboRr name).trans (h.comboRr name)
            exactCache := hpreview.exactCache.trans h.exactCache }
      | _ => cases hi
    · exact fun t e e' i ht hi hok hok' h => h.step env ht hi hok hok'

/-! ### Where a repair shows -/

def plainEnv : Env where
  compressText := id
  exactRequestKey := AiRequest.id
  evaluatorId := fun _ => "judge"

/-- Two targets of one provider with one account, behind one route. -/
def twoTargets (server : ServerConfig) : Snapshot where
  config :=
    { server := server
      routes := [{ name := "r", matchModel := some "auto/cheap", targets := ["p/a", "p/b"] }] }
  registry :=
    { targetFor := fun id =>
        if id = "p/a" then some (.new "p" "a" .modelApi)
        else if id = "p/b" then some (.new "p" "b" .modelApi)
        else none
      targetForProviderModel := fun _ _ => none }

def oneAccount : CredentialResolver :=
  .new (OrdMap.ofList [("p", { accounts := [{ id := "x" }] })]) {}

def cheapRequest : AiRequest := { id := "q", model := "auto/cheap", messages := [] }

def quietServer (ttlSecs : ℕ) : ServerConfig where
  scorecard := { window := { ttlSecs := ttlSecs } }

/-- The first target was demoted at the start. -/
def demotedEngine : EngineState where
  snapshot := twoTargets (quietServer 10)
  resolver := oneAccount
  scorecard :=
    { LiveScorecard.new with
      outcomes := Scorecard.new.set ("p/a", "any")
        { Entry.new (Prior.fromConfig {}) with
          ring := [⟨0, .targetFailure, 5, none, some .timeout⟩]
          tier := .demoted
          demotedSince := some 0
          demoteTrigger := some .streak
          consecutiveFailures := 3 } }

def cheapExecution : Action := .execute cheapRequest (.ok Fp.zero) (.ok Fp.zero)

/-- A preview under a TTL of ten seconds, and a publication that raises it. -/
def raisedTtl : List Input :=
  [{ now := secs 20, action := .preview cheapRequest },
    { now := secs 20, action := .publish (twoTargets (quietServer 100)) oneAccount },
    { now := secs 21, action := cheapExecution }]

def judgedServer : ServerConfig where
  scorecard := { window := { maxSamples := 2, ttlSecs := 10 } }
  qualityEval :=
    { enabled := true, routingMinSamples := 1, routingFullConfidenceSamples := 1
      routingWeight := Fp.ofDecimal 10 2, bodyAllowedTargets := ["p/a"] }

/-- The judgment of the first target that was created later was recorded earlier. -/
def judgedEngine : EngineState where
  snapshot := twoTargets judgedServer
  resolver := oneAccount
  scorecard :=
    { outcomes := ⟨fun _ => some (Entry.new (Prior.fromConfig {}))⟩
      quality := fun key =>
        if key.1 = "p/a" then
          { evaluatorId := some "judge"
            ring := (QualityRing.empty.push ⟨"a", 0, 100, Fp.zero⟩ 2).push
              ⟨"b", secs 10, 50, Fp.ofNat 1⟩ 2 }
        else
          { evaluatorId := some "judge"
            ring := QualityRing.empty.push ⟨"d", secs 12, 70, Fp.ofNat 1⟩ 2 } }

/-- A preview between the expiry of a judgment and a new one. -/
def fullRing : List Input :=
  [{ now := secs 12, action := .preview cheapRequest },
    { now := secs 13, action := .judge judgedServer.scorecard judgedServer.qualityEval ("p/a", "any")
        "judge" ⟨"c", 0, 60, Fp.zero⟩ },
    { now := secs 14, action := cheapExecution }]

/-- The targets that a run selects. -/
def selections (e : EngineState) (inputs : List Input) : List (Option String) :=
  (Machine.run (step plainEnv) e inputs).2.map fun planned =>
    planned.toOption.bind fun p => p.plan.decision.selected.map TargetRef.targetId

/-- **A preview changes a later decision**: when the TTL of the scorecard is raised after it, and
when a full ring gives up a live judgment after it. -/
theorem preview_moves_selection :
    (Machine.Timely Input.now 0 raisedTtl ∧
      selections demotedEngine raisedTtl = [some "p/a"] ∧
      selections demotedEngine (raisedTtl.filter fun i => !i.isPreview) = [some "p/b"]) ∧
    Machine.Timely Input.now 0 fullRing ∧
      selections judgedEngine fullRing = [some "p/a"] ∧
      selections judgedEngine (fullRing.filter fun i => !i.isPreview) = [some "p/b"] := by
  decide +kernel

/-- The law at an engine whose window has gone quiet: the preview repairs it, and the execution
decides the same. -/
theorem preview_law_quiet :
    (demotedEngine.previewRoute plainEnv cheapRequest (secs 20) 0).1.map (fun r => r.2.plan) =
        (demotedEngine.executeRoute plainEnv cheapRequest (secs 20) 0 (.ok Fp.zero)
          (.ok Fp.zero)).1.map (fun r => r.plan) ∧
      (Machine.run (step plainEnv) demotedEngine
          [{ now := secs 20, action := .preview cheapRequest },
            { now := secs 21, action := cheapExecution }]).2 =
        (Machine.run (step plainEnv) demotedEngine
          [{ now := secs 21, action := cheapExecution }]).2 :=
  ⟨(preview_law plainEnv demotedEngine).1 cheapRequest (secs 20) 0 (.ok Fp.zero) (.ok Fp.zero)
      ⟨rfl, rfl⟩,
    (preview_law plainEnv demotedEngine).2 0
      [{ now := secs 20, action := .preview cheapRequest },
        { now := secs 21, action := cheapExecution }]
      (by decide) (by simp [Machine.StepsOk, Machine.visited, KeepsEvidence, cheapExecution])
      (by simp [Machine.StepsOk, Machine.visited, KeepsEvidence, Input.isPreview, cheapExecution])⟩

end Preview

end Switchback
