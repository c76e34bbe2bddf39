import Switchback.Runtime.Dispatch

/-!
# Which accounts a request is sent with

The loop picks accounts from the allow-list of the tenant and the client profile.  The race does
not: a racer can be made to dispatch any account of its provider.
-/

namespace Switchback

open Lib

/-! ### A run in which a racer is dispatched -/

def others (now : ℕ) (ops : List ResolverOp) : List Event :=
  ops.map fun op => { now := now, input := .other op }

/-- The race is entered at time zero; at the time of the racer with number `i` other requests make
`before`, the racer resolves its account, others make `after`, and the racer is dispatched. -/
def raceEvents (c : Call) (i : ℕ) (before after : List ResolverOp) (ledger : UsageLedger)
    (fault : Option StoreError) : List Event :=
  let now := hedgeDelay c.snap.hedge i
  { now := 0, input := .own 0 .advance } ::
    (others now before ++ ({ now := now, input := .own i .advance } ::
      (others now after ++
        [{ now := now, input := .own i (.leased .static), ledger := ledger, fault := fault }])))

section

variable (c : Call) (i : ℕ) (before after : List ResolverOp) (ledger : UsageLedger)
  (fault : Option StoreError)

theorem timely_raceEvents : Timely (raceEvents c i before after ledger fault) := by
  unfold Timely Machine.Timely raceEvents
  rw [List.map_cons]
  refine List.pairwise_cons.mpr ⟨fun _ _ => Nat.zero_le _, ?_⟩
  refine List.pairwise_cons.mpr ⟨fun _ _ => Nat.zero_le _, ?_⟩
  have hconst : ∀ e ∈ others (hedgeDelay c.snap.hedge i) before ++
      ({ now := hedgeDelay c.snap.hedge i, input := .own i .advance } ::
        (others (hedgeDelay c.snap.hedge i) after ++
          [{ now := hedgeDelay c.snap.hedge i, input := .own i (.leased .static),
             ledger := ledger, fault := fault }])),
      Event.now e = hedgeDelay c.snap.hedge i := by
    intro e he
    simp only [others, List.mem_append, List.mem_cons, List.mem_map, List.not_mem_nil,
      or_false] at he
    rcases he with ⟨op, -, rfl⟩ | rfl | ⟨op, -, rfl⟩ | rfl <;> rfl
  exact (List.pairwise_cons.mp (Machine.Timely.const hconst)).2

theorem run_others (s : ExecState) (now : ℕ) (ops : List ResolverOp) :
    Machine.run (step c) s (others now ops) =
      ({ s with resolver := s.resolver.runOps (ops.map fun op => (now, op)) }, []) := by
  induction ops generalizing s with
  | nil => rfl
  | cons op ops ih =>
    show ((Machine.run (step c) _ (others now ops)).1,
      [] ++ (Machine.run (step c) _ (others now ops)).2) = _
    rw [ih]
    rfl

/-- The resolver when the racer resolves. -/
def resolverBefore : CredentialResolver :=
  (start c).resolver.runOps (before.map fun op => (hedgeDelay c.snap.hedge i, op))

end

/-- The racers of a race that was just entered. -/
def freshRacers (c : Call) : List Racer := c.raced.map fun target => { target := target }

theorem step_enter {c : Call} (hhedges : c.hedges = true) :
    step c (start c) { now := 0, input := .own 0 .advance } =
      ({ start c with phase := .racing 0 (freshRacers c) }, []) := by
  show (enter c (start c) 0, []) = _
  unfold enter
  rw [if_pos hhedges]
  rfl

variable {e : Event} {racers : List Racer} {s : ExecState} {startedAt : ℕ}
variable {r : CredentialResolver} {accountId : String} {lease : CredentialLease}
variable {target : ExecutionTarget}

theorem step_racing {c : Call} (hs : s.phase = .racing startedAt racers) {i : ℕ} {answer : Answer}
    (he : e.input = .own i answer) :
    step c s e = raceStep c s startedAt racers e i answer := by
  unfold step
  rw [he]
  dsimp only
  rw [hs]

theorem raceStep_going {c : Call}
    {i : ℕ} {answer : Answer} {racer : Racer} (hi : racers[i]? = some racer) {phase : RacerPhase}
    {effects : List Effect}
    (hstep : racerStep c s.resolver startedAt i racer e answer = (.going phase, r, effects))
    (hphase : phase ≠ .lost) :
    raceStep c s startedAt racers e i answer =
      ({ s with
          resolver := r
          phase := .racing startedAt (racers.set i { racer with phase := phase }) }, effects) := by
  have hlen : i < racers.length := (List.getElem?_eq_some_iff.mp hi).1
  have hgoing : (racers.set i { racer with phase := phase }).all
      (fun racer => decide (racer.phase = .lost)) = false := by
    rw [List.all_eq_false]
    exact ⟨_, List.mem_set hlen _, by simpa using hphase⟩
  unfold raceStep
  rw [hi]
  dsimp only
  rw [hstep]
  dsimp only
  rw [hgoing]
  rfl

theorem racerStep_resolve {c : Call} {r' : CredentialResolver} {i : ℕ}
    (hnow : startedAt + hedgeDelay c.snap.hedge i ≤ e.now)
    (hadapter : (c.snap.adapter target.providerId).isSome)
    (hsel : r.resolveWithSession target.providerId target.model [] (sessionAffinityKey c.req)
      e.now = (.selected accountId lease, r')) :
    racerStep c r startedAt i { target := target } e .advance =
      (.going (.leasing accountId lease), r', []) := by
  obtain ⟨adapter, ha⟩ := Option.isSome_iff_exists.mp hadapter
  unfold racerStep
  dsimp only
  rw [if_neg (not_lt.mpr hnow), ha]
  dsimp only
  rw [hsel]

theorem step_resolve {c : Call} (hs : s.phase = .racing 0 (freshRacers c)) {i : ℕ}
    (hi : c.raced[i]? = some target)
    (hadapter : (c.snap.adapter target.providerId).isSome)
    (hsel : s.resolver.resolveWithSession target.providerId target.model []
      (sessionAffinityKey c.req) (hedgeDelay c.snap.hedge i) = (.selected accountId lease, r)) :
    step c s { now := hedgeDelay c.snap.hedge i, input := .own i .advance } =
      ({ s with
          resolver := r
          phase := .racing 0 ((freshRacers c).set i
            { target := target, phase := .leasing accountId lease }) }, []) := by
  have hracer : (freshRacers c)[i]? = some { target := target } := by
    unfold freshRacers
    rw [List.getElem?_map, hi]
    rfl
  have hstep : racerStep c s.resolver 0 i { target := target }
      { now := hedgeDelay c.snap.hedge i, input := .own i .advance } .advance =
      (.going (.leasing accountId lease), r, []) :=
    racerStep_resolve (Nat.zero_add _).le hadapter hsel
  rw [step_racing hs rfl, raceStep_going hracer hstep (by simp)]

theorem step_dispatch {c : Call} (hs : s.phase = .racing 0 racers) {i : ℕ}
    (hi : racers[i]? = some { target := target, phase := .leasing accountId lease })
    (he : e.input = .own i (.leased .static)) :
    (step c s e).2 = [dispatch true target accountId lease s.resolver e] := by
  rw [step_racing hs he]
  unfold raceStep
  rw [hi]
  rfl

/-- **A racer is dispatched** with whatever account the resolver selects without an allow-list. -/
theorem race_dispatches {c : Call} (hhedges : c.hedges = true) {i : ℕ}
    (hi : c.raced[i]? = some target) (hadapter : (c.snap.adapter target.providerId).isSome)
    {before : List ResolverOp}
    (hsel : (resolverBefore c i before).resolveWithSession target.providerId target.model []
      (sessionAffinityKey c.req) (hedgeDelay c.snap.hedge i) = (.selected accountId lease, r))
    (after : List ResolverOp) (ledger : UsageLedger) (fault : Option StoreError) :
    { hedged := true, target := target, accountId := accountId, lease := lease,
      breaker := (r.runOps (after.map fun op => (hedgeDelay c.snap.hedge i, op))).breaker,
      now := hedgeDelay c.snap.hedge i, ledger := ledger, fault := fault } ∈
      dispatches c (raceEvents c i before after ledger fault) := by
  have hlen : i < (freshRacers c).length := by
    unfold freshRacers
    rw [List.length_map]
    exact (List.getElem?_eq_some_iff.mp hi).1
  -- the state when the racer has its lease
  have hset : ((freshRacers c).set i { target := target, phase := .leasing accountId lease })[i]? =
      some { target := target, phase := .leasing accountId lease } := List.getElem?_set_self hlen
  refine List.mem_filterMap.mpr ⟨.dispatch _, ?_, rfl⟩
  unfold execute raceEvents
  dsimp only
  rw [Machine.run, step_enter hhedges]
  dsimp only
  rw [List.nil_append, Machine.run_append, run_others, Machine.run,
    step_resolve rfl hi hadapter hsel]
  dsimp only
  rw [List.nil_append, List.nil_append, Machine.run_append, run_others, Machine.run]
  dsimp only
  rw [step_dispatch rfl hset rfl]
  exact List.mem_append_right _ List.mem_cons_self

/-- Authentication failures of other requests on every account but one. -/
def lockOthers (providerId model accountId : String) (accounts : List Account) : List ResolverOp :=
  ((accounts.map Account.id).filter fun id => id ≠ accountId).map fun id =>
    .reportFailure providerId id model .authentication

theorem runOps_reportFailure (r : CredentialResolver) (providerId model : String) (now : ℕ)
    (ids : List String) (id : String) :
    (r.runOps ((ids.map fun id => ResolverOp.reportFailure providerId id model
        .authentication).map fun op => (now, op))).availability.isAvailable providerId id model
          now =
      (r.availability.isAvailable providerId id model now && decide (id ∉ ids)) := by
  induction ids generalizing r with
  | nil => simp [CredentialResolver.runOps]
  | cons x ids ih =>
    have hcons := ih (r.apply now (.reportFailure providerId x model .authentication))
    show ((r.apply now (.reportFailure providerId x model .authentication)).runOps
      _).availability.isAvailable providerId id model now = _
    rw [hcons]
    by_cases hx : id = x
    · have hlocked : (r.apply now (.reportFailure providerId x model
          .authentication)).availability.isAvailable providerId id model now = false := by
        rw [hx]
        exact r.availability.isAvailable_after_accountWide rfl providerId x model model now
      rw [hlocked]
      simp [hx]
    · have hsame : (r.apply now (.reportFailure providerId x model
          .authentication)).availability.isAvailable providerId id model now =
          r.availability.isAvailable providerId id model now :=
        Availability.isAvailable_reportFailure_of_ne (by simp [hx]) _ _ _ _ _ _
      rw [hsame]
      simp [hx]

theorem resolve_lockOthers {c : Call} (i : ℕ) {a : Account}
    (ha : a ∈ c.accounts target.providerId) :
    ∃ lease r, (resolverBefore c i (lockOthers target.providerId target.model a.id
        (c.accounts target.providerId))).resolveWithSession target.providerId target.model []
      (sessionAffinityKey c.req) (hedgeDelay c.snap.hedge i) = (.selected a.id lease, r) ∧
      lease.providerAccountId = a.id := by
  have havail (id : String) :=
    runOps_reportFailure (start c).resolver target.providerId target.model
      (hedgeDelay c.snap.hedge i)
      (((c.accounts target.providerId).map Account.id).filter fun id => id ≠ a.id) id
  change ∀ id, (resolverBefore c i (lockOthers target.providerId target.model a.id
    (c.accounts target.providerId))).availability.isAvailable target.providerId id target.model
      (hedgeDelay c.snap.hedge i) = _ at havail
  have hproviders : (resolverBefore c i (lockOthers target.providerId target.model a.id
      (c.accounts target.providerId))).providers = c.snap.providers :=
    CredentialResolver.runOps_providers _ _
  generalize resolverBefore c i (lockOthers target.providerId target.model a.id
    (c.accounts target.providerId)) = r at havail hproviders ⊢
  have haccounts : r.accountsOf target.providerId = c.accounts target.providerId := by
    unfold CredentialResolver.accountsOf Call.accounts
    rw [hproviders]
  have hcand : r.isCandidate target.providerId target.model [] none (hedgeDelay c.snap.hedge i)
      a = true := by
    unfold CredentialResolver.isCandidate
    rw [havail]
    simp [start, CredentialResolver.new]
  obtain ⟨accountId, lease, hsel⟩ := r.resolve_isSelected target.providerId target.model []
    (sessionAffinityKey c.req) none (hedgeDelay c.snap.hedge i) (haccounts ▸ ha) hcand
  obtain ⟨b, hb, hid, hlease, hc⟩ := r.resolve_selected target.providerId target.model []
    (sessionAffinityKey c.req) none (hedgeDelay c.snap.hedge i) hsel
  -- every other account is locked
  have hba : b.id = a.id := by
    by_contra hne
    have hmem : b.id ∈ ((c.accounts target.providerId).map Account.id).filter
        fun id => id ≠ a.id := by
      rw [List.mem_filter]
      exact ⟨List.mem_map_of_mem (haccounts ▸ hb), by simpa using hne⟩
    have hlocked : r.availability.isAvailable target.providerId b.id target.model
        (hedgeDelay c.snap.hedge i) = false := by
      rw [havail, decide_eq_false (not_not.mpr hmem), Bool.and_false]
    unfold CredentialResolver.isCandidate at hc
    rw [hlocked, Bool.and_false] at hc
    exact absurd hc (by simp)
  refine ⟨lease, _, Prod.ext ?_ rfl, ?_⟩
  · rw [← hba, hid]
    exact hsel
  · rw [← hlease, ← hba]
    rfl

/-- **No run sends a request with an account outside its allow-list, exactly when it does not
hedge or every account of the raced providers is in the list.** -/
theorem dispatch_allowed_iff (c : Call) :
    (∀ events, Timely events → ∀ d ∈ dispatches c events,
        c.Allows d.target.providerId d.lease.providerAccountId) ↔
      (c.hedges = true → ∀ target ∈ c.raced, (c.snap.adapter target.providerId).isSome →
        ∀ a ∈ c.accounts target.providerId, c.Allows target.providerId a.id) := by
  constructor
  · intro h hhedges target htarget hadapter a ha
    obtain ⟨i, hlt, hi⟩ := List.getElem_of_mem htarget
    have hget : c.raced[i]? = some target := by rw [List.getElem?_eq_getElem hlt, hi]
    obtain ⟨lease, r, hsel, hlease⟩ := resolve_lockOthers i ha
    have hd := race_dispatches hhedges hget hadapter hsel [] .inMemory none
    have hallows := h _ (timely_raceEvents c i _ _ _ _) _ hd
    rw [hlease] at hallows
    exact hallows
  · intro h events htime d hd
    have hok := dispatchOk_of_mem htime hd
    rw [hok.lease]
    cases hh : d.hedged with
    | false => exact hok.allows hh
    | true =>
      obtain ⟨hhedges, hraced, hadapter, a, ha, hid⟩ := hok.hedges hh
      rw [← hid]
      exact h hhedges d.target hraced hadapter a ha

/-- Two providers; the tenant may use the second account of the first one only. -/
def tenantCall (hedge : Bool) : Call where
  snap :=
    { providers := .ofList
        [("p", { accounts := [{ id := "a" }, { id := "b", priority := 1 }] }),
          ("q", { accounts := [{ id := "c" }] })]
      adapter := fun _ => some {}
      tenants := [{ id := "acme", allowedAccounts := ["p/b", "q/c"] }]
      hedge := { enabled := hedge } }
  req := { id := "r", model := "m", messages := [], tenant := some "acme" }
  candidates := [.new "p" "m" .modelApi, .new "q" "m" .modelApi]
  fromStr := fun _ => .error ""

/-- The race sends the request with the account that the tenant may not use. -/
theorem race_ignores_allowedAccounts :
    Timely (raceEvents (tenantCall true) 0 [] [] .inMemory none) ∧
      (dispatches (tenantCall true) (raceEvents (tenantCall true) 0 [] [] .inMemory none)).map
        (fun d => (d.target.providerId, d.lease.providerAccountId)) = [("p", "a")] ∧
      (tenantCall true).allowedAccounts "p" = some ["b"] :=
  ⟨timely_raceEvents _ _ _ _ _ _, by decide +kernel, by decide +kernel⟩

/-- The loop sends it with the account that the tenant may use. -/
example :
    (dispatches (tenantCall false)
      [{ now := 0, input := .own 0 .advance }, { now := 0, input := .own 0 .advance },
        { now := 0, input := .own 0 .advance },
        { now := 0, input := .own 0 (.leased .static) }]).map
      (fun d => (d.target.providerId, d.lease.providerAccountId)) = [("p", "b")] := by
  decide +kernel

end Switchback
