import Switchback.Coordination.Leases

/-!
# One request per idempotency key

Requests with an idempotency key claim it before they execute.  The claim is a lease in the store,
or a member of a set in the process when the store call fails and the store is not required.  The
store call and the local claim are two steps, so other requests can come between them.
-/

namespace Switchback

open Lib

/-- The claim of a request: a lease of the store, or local. -/
structure ClaimGuard where
  key : String
  durable : Option String
  deriving DecidableEq

/-- The answer to a request that begins. -/
inductive Begin where
  | proceed (guard : ClaimGuard)
  | replay (rec : IdempotencyRecord)
  | rejected (status : ℕ) (message : String)
  /-- The store call failed; the local claim comes next. -/
  | fallingBack

def Begin.mismatchResponse : Begin :=
  .rejected 422 "idempotency key reused with different request parameters"

def Begin.inProgressResponse : Begin :=
  .rejected 409 "a request with this idempotency key is already in progress"

/-- The claims of a process, and the store beside it. -/
structure Flights where
  store : LeaseStore := {}
  /-- The keys claimed in the process. -/
  inflight : List String := []
  /-- The keys of the requests whose store call failed. -/
  fallingBack : List String := []
  /-- The claims that are held, in the order they were given. -/
  held : List ClaimGuard := []
  /-- The lease identifiers drawn so far. -/
  drawn : ℕ := 0

inductive FlightInput where
  | begin (key fingerprint : String) (ttlMs : ℕ)
  /-- The request with number `i` among those whose store call failed claims locally. -/
  | tryClaim (i : ℕ)
  | storeJson (rec : IdempotencyRecord)
  /-- A renewal; one can still be under way when its guard is dropped. -/
  | renew (key leaseId : String) (ttlMs : ℕ)
  /-- The request with number `i` among those that hold a claim ends. -/
  | dropGuard (i : ℕ)

/-- An input at a time; `fault` is the error of its store call. -/
structure FlightEvent where
  now : ℕ
  input : FlightInput
  fault : Option StoreError := none

namespace Flights

variable (newId : String → ℕ → String)

/-- The store call of a request that begins. -/
def begin (s : Flights) (fault : Option StoreError) (key fingerprint : String)
    (ttlMs now : ℕ) : Begin × Flights :=
  let leaseId := newId "idem" s.drawn
  let s := { s with drawn := s.drawn + 1 }
  match s.store.idempotencyBegin fault key fingerprint leaseId ttlMs now with
  | (.ok .claimed, store) =>
      let guard : ClaimGuard := { key := key, durable := some leaseId }
      (.proceed guard, { s with store := store, held := s.held ++ [guard] })
  | (.ok .inProgress, store) => (Begin.inProgressResponse, { s with store := store })
  | (.ok .mismatch, store) => (Begin.mismatchResponse, { s with store := store })
  | (.ok (.replay rec), store) => (.replay rec, { s with store := store })
  | (.error _, store) =>
      (.fallingBack, { s with store := store, fallingBack := s.fallingBack ++ [key] })

/-- The local claim after a store call that failed. -/
def tryClaim (s : Flights) (i : ℕ) : Begin × Flights :=
  match s.fallingBack[i]? with
  | none => (.fallingBack, s)
  | some key =>
      let s := { s with fallingBack := s.fallingBack.eraseIdx i }
      if key ∈ s.inflight then (Begin.inProgressResponse, s)
      else
        let guard : ClaimGuard := { key := key, durable := none }
        (.proceed guard, { s with inflight := s.inflight ++ [key], held := s.held ++ [guard] })

/-- A claim is dropped with its request. -/
def dropGuard (s : Flights) (fault : Option StoreError) (i : ℕ) : Flights :=
  match s.held[i]? with
  | none => s
  | some guard =>
      let s := { s with held := s.held.eraseIdx i }
      match guard.durable with
      | none => { s with inflight := s.inflight.filter fun key => key ≠ guard.key }
      | some leaseId =>
          { s with store := (s.store.idempotencyRelease fault guard.key leaseId).2 }

def step (s : Flights) (e : FlightEvent) : Flights :=
  match e.input with
  | .begin key fingerprint ttlMs => (s.begin newId e.fault key fingerprint ttlMs e.now).2
  | .tryClaim i => (s.tryClaim i).2
  | .storeJson rec => { s with store := (s.store.idempotencyPut e.fault rec).2 }
  | .renew key leaseId ttlMs =>
      { s with store := (s.store.idempotencyRenew e.fault key leaseId ttlMs e.now).2 }
  | .dropGuard i => s.dropGuard e.fault i

/-- The lease of a claim is alive: a local one always, a durable one until it expires. -/
def Alive (s : Flights) (now : ℕ) (guard : ClaimGuard) : Prop :=
  ∀ leaseId, guard.durable = some leaseId → s.store.Owns guard.key leaseId now

/-- No claim is held beside an earlier one of its key whose lease is alive. -/
def SingleFlight (s : Flights) (now : ℕ) : Prop :=
  s.held.Pairwise fun first second => first.key = second.key → ¬ s.Alive now first

/-- A step gives no claim in one registry while the other one has a claim of the key: the store
none while the key is claimed in the process, the process none while a claim of the key that is
held in the store is unexpired. -/
def StepOk (s : Flights) (e : FlightEvent) : Prop :=
  match e.input with
  | .begin key _ _ =>
      e.fault = none → ¬ s.store.Stored key → ¬ s.store.Claimed key e.now → key ∉ s.inflight
  | .tryClaim i =>
      ∀ key, s.fallingBack[i]? = some key → key ∉ s.inflight →
        ∀ guard ∈ s.held, guard.key = key → ∀ leaseId, guard.durable = some leaseId →
          ¬ s.store.Owns key leaseId e.now
  | _ => True

/-- The set in the process is that of the local claims, and leases have distinct identifiers. -/
structure Inv (s : Flights) : Prop where
  inflight : ∀ key, key ∈ s.inflight ↔ ({ key := key, durable := none } : ClaimGuard) ∈ s.held
  nodup : s.held.Pairwise fun first second => first.durable = none → first ≠ second
  drawn : ∀ guard ∈ s.held, ∀ leaseId, guard.durable = some leaseId →
    ∃ n < s.drawn, leaseId = newId "idem" n

variable {newId} {s : Flights} {now : ℕ}

variable {guard : ClaimGuard} {t : ℕ}

theorem Alive.mono {now' : ℕ} (h : s.Alive now' guard) (hle : now ≤ now') :
    s.Alive now guard := fun leaseId hid => (h leaseId hid).mono hle

theorem alive_local (s : Flights) (now : ℕ) (h : guard.durable = none) :
    s.Alive now guard := fun leaseId hid => absurd (h.symm.trans hid) (by simp)

theorem SingleFlight.of_sublist {s' : Flights} (h : s.SingleFlight t)
    (hheld : s'.held.Sublist s.held)
    (halive : ∀ guard ∈ s.held, s'.Alive now guard → s.Alive t guard) :
    s'.SingleFlight now := by
  have hsub : s'.held.Pairwise fun first second => first.key = second.key → ¬ s.Alive t first :=
    h.sublist hheld
  refine hsub.imp_of_mem fun hfirst _ hdead hkey hnow => ?_
  exact hdead hkey (halive _ (hheld.subset hfirst) hnow)

theorem singleFlight_append {s' : Flights} (h : s.SingleFlight t)
    (hheld : s'.held = s.held ++ [guard])
    (halive : ∀ guard ∈ s.held, s'.Alive now guard → s.Alive t guard) :
    s'.SingleFlight now ↔ ∀ first ∈ s.held, first.key = guard.key → ¬ s'.Alive now first := by
  have hold : s.held.Pairwise fun first second => first.key = second.key → ¬ s'.Alive now first :=
    List.Pairwise.imp_of_mem (fun hfirst _ hdead hkey hnow => hdead hkey (halive _ hfirst hnow)) h
  unfold SingleFlight
  rw [hheld, List.pairwise_append]
  constructor
  · rintro ⟨-, -, hall⟩ first hfirst hkey
    exact hall first hfirst guard List.mem_cons_self hkey
  · intro hall
    refine ⟨hold, List.pairwise_singleton _ _, fun first hfirst second hsecond hkey => ?_⟩
    rw [List.mem_singleton.mp hsecond] at hkey
    exact hall first hfirst hkey

/-! ### What a step can do -/

/-- Every claim that is unexpired in `s'` is so in `s`. -/
def NoneRevived (s s' : Flights) (now : ℕ) : Prop :=
  ∀ key leaseId, s'.store.Owns key leaseId now → s.store.Owns key leaseId now

/-- The four things a step can do. -/
inductive Moves (newId : String → ℕ → String) (s : Flights) (e : FlightEvent) (s' : Flights) :
    Prop where
  /-- No claim is given or dropped. -/
  | quiet (hheld : s'.held = s.held) (hinflight : s'.inflight = s.inflight)
      (hdrawn : s.drawn ≤ s'.drawn) (hstore : NoneRevived s s' e.now) (hok : s.StepOk e)
  | ended (i : ℕ) (guard : ClaimGuard) (hguard : s.held[i]? = some guard)
      (hheld : s'.held = s.held.eraseIdx i)
      (hinflight : s'.inflight =
        if guard.durable = none then s.inflight.filter fun key => key ≠ guard.key else s.inflight)
      (hdrawn : s'.drawn = s.drawn) (hstore : NoneRevived s s' e.now) (hok : s.StepOk e)
  | durable (key : String) (hfree : ¬ s.store.Claimed key e.now)
      (hheld : s'.held = s.held ++ [{ key := key, durable := some (newId "idem" s.drawn) }])
      (hinflight : s'.inflight = s.inflight) (hdrawn : s'.drawn = s.drawn + 1)
      (hstore : ∀ key leaseId, s'.store.Owns key leaseId e.now →
        s.store.Owns key leaseId e.now ∨ leaseId = newId "idem" s.drawn)
      (hok : s.StepOk e ↔ key ∉ s.inflight)
  | locally (key : String) (hfree : key ∉ s.inflight)
      (hheld : s'.held = s.held ++ [{ key := key, durable := none }])
      (hinflight : s'.inflight = s.inflight ++ [key]) (hdrawn : s'.drawn = s.drawn)
      (hstore : s'.store = s.store)
      (hok : s.StepOk e ↔ ∀ guard ∈ s.held, guard.key = key → ∀ leaseId,
        guard.durable = some leaseId → ¬ s.store.Owns key leaseId e.now)

theorem begin_moves (s : Flights) (now : ℕ) (fault : Option StoreError)
    (key fingerprint : String) (ttlMs : ℕ) :
    Moves newId s { now := now, input := .begin key fingerprint ttlMs, fault := fault }
      (s.begin newId fault key fingerprint ttlMs now).2 := by
  unfold begin
  dsimp only
  cases fault with
  | some err =>
    exact .quiet rfl rfl (Nat.le_succ _) (fun _ _ h => h) fun h => absurd h (by simp)
  | none =>
    rcases s.store.begin_cases key fingerprint (newId "idem" s.drawn) ttlMs now with
      ⟨rec, hrec, hb⟩ | ⟨-, hclaimed, answer, ha, hb⟩ | ⟨hstored, hfree, t, ht, hb⟩
    · have hstored : s.store.Stored key := by
        by_contra hnot
        rw [LeaseStore.firstWith_stored.mpr hnot] at hrec
        exact absurd hrec (by simp)
      rw [hb]
      by_cases hfp : rec.fingerprint = fingerprint
      · rw [if_pos hfp]
        exact .quiet rfl rfl (Nat.le_succ _) (fun _ _ h => h.of_purge) fun _ h => absurd hstored h
      · rw [if_neg hfp]
        exact .quiet rfl rfl (Nat.le_succ _) (fun _ _ h => h.of_purge) fun _ h => absurd hstored h
    · rw [hb]
      rcases ha with rfl | rfl <;> exact .quiet rfl rfl (Nat.le_succ _) (fun _ _ h => h.of_purge)
        fun _ _ h => absurd hclaimed h
    · have howns : ∀ key' leaseId, (s.store.idempotencyBegin none key fingerprint
          (newId "idem" s.drawn) ttlMs now).2.Owns key' leaseId now →
          s.store.Owns key' leaseId now ∨ leaseId = newId "idem" s.drawn :=
        fun _ _ h => h.of_begin
      rw [hb] at howns ⊢
      exact .durable key hfree rfl rfl rfl howns ⟨fun h => h rfl hstored hfree, fun h _ _ _ => h⟩

theorem tryClaim_moves (s : Flights) (now i : ℕ) (fault : Option StoreError) :
    Moves newId s { now := now, input := .tryClaim i, fault := fault } (s.tryClaim i).2 := by
  unfold tryClaim
  cases hi : s.fallingBack[i]? with
  | none =>
    refine .quiet rfl rfl le_rfl (fun _ _ h => h) fun key hkey => ?_
    rw [hi] at hkey
    exact absurd hkey (by simp)
  | some key =>
    dsimp only
    by_cases hkey : key ∈ s.inflight
    · rw [if_pos hkey]
      refine .quiet rfl rfl le_rfl (fun _ _ h => h) fun key' hkey' hfree => ?_
      obtain rfl : key = key' := by rw [hi] at hkey'; exact Option.some.inj hkey'
      exact absurd hkey hfree
    · rw [if_neg hkey]
      refine .locally key hkey rfl rfl rfl rfl ⟨fun h => h key hi hkey, fun h key' hkey' _ => ?_⟩
      obtain rfl : key = key' := by rw [hi] at hkey'; exact Option.some.inj hkey'
      exact h

theorem dropGuard_moves (s : Flights) (now i : ℕ) (fault : Option StoreError) :
    Moves newId s { now := now, input := .dropGuard i, fault := fault } (s.dropGuard fault i) := by
  unfold dropGuard
  cases hi : s.held[i]? with
  | none => exact .quiet rfl rfl le_rfl (fun _ _ h => h) trivial
  | some guard =>
    dsimp only
    cases hd : guard.durable with
    | none =>
      exact .ended i guard hi rfl (by rw [if_pos hd]) rfl (fun _ _ h => h) trivial
    | some leaseId =>
      refine .ended i guard hi rfl ?_ rfl (fun _ _ h => h.of_release) trivial
      rw [if_neg (by simp [hd])]

theorem step_moves (s : Flights) (e : FlightEvent) : Moves newId s e (s.step newId e) := by
  obtain ⟨now, input, fault⟩ := e
  cases input with
  | begin key fingerprint ttlMs => exact s.begin_moves now fault key fingerprint ttlMs
  | tryClaim i => exact s.tryClaim_moves now i fault
  | storeJson rec => exact .quiet rfl rfl le_rfl (fun _ _ h => h.of_put) trivial
  | renew key leaseId ttlMs => exact .quiet rfl rfl le_rfl (fun _ _ h => h.of_renew) trivial
  | dropGuard i => exact s.dropGuard_moves now i fault

/-! ### The invariant and safety -/

theorem notMem_of_nodup {before after : List ClaimGuard}
    (h : (before ++ guard :: after).Pairwise fun first second =>
      first.durable = none → first ≠ second) (hd : guard.durable = none) :
    guard ∉ before ++ after := by
  obtain ⟨-, hcons, hbefore⟩ := List.pairwise_append.mp h
  intro hin
  rcases List.mem_append.mp hin with hin | hin
  · exact hbefore guard hin guard List.mem_cons_self hd rfl
  · exact (List.pairwise_cons.mp hcons).1 guard hin hd rfl

theorem Inv.step (h : s.Inv newId) (e : FlightEvent) : (s.step newId e).Inv newId := by
  have hmoves : Moves newId s e (s.step newId e) := s.step_moves e
  cases hmoves with
  | quiet hheld hinflight hdrawn _ _ =>
    refine ⟨by rw [hheld, hinflight]; exact h.inflight, by rw [hheld]; exact h.nodup, ?_⟩
    rw [hheld]
    intro guard hguard leaseId hid
    obtain ⟨n, hn, hid⟩ := h.drawn guard hguard leaseId hid
    exact ⟨n, hn.trans_le hdrawn, hid⟩
  | ended i guard hguard hheld hinflight hdrawn _ _ =>
    obtain ⟨before, after, hsplit, herase⟩ := eraseIdx_split hguard
    rw [herase] at hheld
    have hsub : (before ++ after).Sublist s.held := by
      rw [hsplit]
      exact List.Sublist.append_left (List.sublist_cons_self guard after) before
    refine ⟨fun key => ?_, by rw [hheld]; exact h.nodup.sublist hsub, ?_⟩
    · rw [hheld, hinflight]
      have hmem := h.inflight key
      rw [hsplit, List.mem_append, List.mem_cons] at hmem
      rw [List.mem_append]
      by_cases hd : guard.durable = none
      · have hout : guard ∉ before ++ after := notMem_of_nodup (hsplit ▸ h.nodup) hd
        rw [if_pos hd, List.mem_filter, hmem, decide_eq_true_eq]
        constructor
        · rintro ⟨hin | rfl | hin, hne⟩
          · exact Or.inl hin
          · exact absurd rfl hne
          · exact Or.inr hin
        · intro hin
          refine ⟨hin.imp_right Or.inr, fun hkey => hout ?_⟩
          rw [show guard = { key := key, durable := none } by rw [hkey, ← hd]]
          exact List.mem_append.mpr hin
      · have hne : ({ key := key, durable := none } : ClaimGuard) ≠ guard := by
          rintro rfl
          exact hd rfl
        rw [if_neg hd, hmem]
        simp [hne]
    · rw [hheld, hdrawn]
      exact fun guard hguard => h.drawn guard (hsub.subset hguard)
  | durable key _ hheld hinflight hdrawn _ _ =>
    refine ⟨fun key' => ?_, ?_, ?_⟩
    · rw [hheld, hinflight, h.inflight, List.mem_append]
      simp
    · rw [hheld, List.pairwise_append]
      refine ⟨h.nodup, List.pairwise_singleton _ _, fun first _ second hsecond hlocal heq => ?_⟩
      rw [heq, List.mem_singleton.mp hsecond] at hlocal
      exact absurd hlocal (by simp)
    · rw [hheld, hdrawn]
      intro guard hguard leaseId hid
      rcases List.mem_append.mp hguard with hguard | hguard
      · obtain ⟨n, hn, hid⟩ := h.drawn guard hguard leaseId hid
        exact ⟨n, Nat.lt_succ_of_lt hn, hid⟩
      · rw [List.mem_singleton.mp hguard] at hid
        exact ⟨s.drawn, Nat.lt_succ_self _, (Option.some.inj hid).symm⟩
  | locally key hfree hheld hinflight hdrawn _ _ =>
    refine ⟨fun key' => ?_, ?_, ?_⟩
    · rw [hheld, hinflight, List.mem_append, List.mem_append, h.inflight]
      simp
    · rw [hheld, List.pairwise_append]
      refine ⟨h.nodup, List.pairwise_singleton _ _, fun first hfirst second hsecond _ heq => ?_⟩
      rw [heq, List.mem_singleton.mp hsecond] at hfirst
      exact hfree ((h.inflight key).mpr hfirst)
    · rw [hheld, hdrawn]
      intro guard hguard leaseId hid
      rcases List.mem_append.mp hguard with hguard | hguard
      · exact h.drawn guard hguard leaseId hid
      · rw [List.mem_singleton.mp hguard] at hid
        exact absurd hid (by simp)

theorem singleFlight_step (hnew : Function.Injective (newId "idem")) {e : FlightEvent}
    (hle : t ≤ e.now) (h : s.Inv newId) (hsafe : s.SingleFlight t) :
    (s.step newId e).SingleFlight e.now ↔ s.StepOk e := by
  have hmoves : Moves newId s e (s.step newId e) := s.step_moves e
  cases hmoves with
  | quiet hheld _ _ hstore hok =>
    refine iff_of_true ?_ hok
    refine hsafe.of_sublist (hheld ▸ List.Sublist.refl _) fun guard _ halive leaseId hid => ?_
    exact (hstore _ _ (halive leaseId hid)).mono hle
  | ended i guard hguard hheld _ _ hstore hok =>
    refine iff_of_true ?_ hok
    refine hsafe.of_sublist (hheld ▸ List.eraseIdx_sublist _ _) fun guard _ halive leaseId hid => ?_
    exact (hstore _ _ (halive leaseId hid)).mono hle
  | durable key hfree hheld _ _ hstore hok =>
    -- the lease of an earlier claim was drawn before
    have hold : ∀ guard ∈ s.held, (s.step newId e).Alive e.now guard → s.Alive e.now guard := by
      intro guard hguard halive leaseId hid
      rcases hstore _ _ (halive leaseId hid) with howns | rfl
      · exact howns
      · obtain ⟨n, hn, heq⟩ := h.drawn guard hguard _ hid
        exact absurd (hnew heq) hn.ne'
    rw [hok, singleFlight_append hsafe hheld fun guard hguard halive =>
      (hold guard hguard halive).mono hle]
    constructor
    · intro hall hin
      exact hall _ ((h.inflight key).mp hin) rfl (alive_local _ _ rfl)
    · rintro hnot ⟨key', durable⟩ hfirst (rfl : key' = key) halive
      cases durable with
      | none => exact hnot ((h.inflight key').mpr hfirst)
      | some leaseId => exact hfree (hold _ hfirst halive leaseId rfl).claimed
  | locally key hfree hheld _ _ hstore hok =>
    have hsame : ∀ guard, (s.step newId e).Alive e.now guard ↔ s.Alive e.now guard := by
      intro guard
      unfold Alive
      rw [hstore]
    rw [hok, singleFlight_append hsafe hheld fun guard _ halive =>
      ((hsame guard).mp halive).mono hle]
    constructor
    · intro hall guard hguard hkey leaseId hid howns
      refine hall guard hguard hkey ((hsame guard).mpr fun leaseId' hid' => ?_)
      obtain rfl : leaseId = leaseId' := Option.some.inj (hid.symm.trans hid')
      exact hkey ▸ howns
    · rintro hall ⟨key', durable⟩ hfirst (rfl : key' = key) halive
      cases durable with
      | none => exact hfree ((h.inflight key').mpr hfirst)
      | some leaseId =>
        exact hall _ hfirst rfl leaseId rfl ((hsame _).mp halive leaseId rfl)

end Flights

/-- Times of events do not decrease. -/
def FlightEvent.Timely (events : List FlightEvent) : Prop :=
  Machine.Timely FlightEvent.now 0 events

/-- **After every step of a run no claim is held beside an earlier one of its key that is alive,
exactly when every step of the run is in order.** -/
theorem singleFlight_iff {newId : String → ℕ → String} (hnew : Function.Injective (newId "idem"))
    {events : List FlightEvent} (htime : FlightEvent.Timely events) :
    (∀ v ∈ Machine.visited (Flights.step newId) {} events,
        (Flights.step newId v.1 v.2).SingleFlight v.2.now) ↔
      ∀ v ∈ Machine.visited (Flights.step newId) {} events, v.1.StepOk v.2 := by
  have hinv : ∀ (t : ℕ) (s : Flights) (e : FlightEvent), t ≤ e.now → s.Inv newId →
      (s.step newId e).Inv newId := fun _ _ e _ h => h.step e
  have hok : ∀ (t : ℕ) (s : Flights) (e : FlightEvent), t ≤ e.now → s.Inv newId →
      s.SingleFlight t → ((s.step newId e).SingleFlight e.now ↔ s.StepOk e) :=
    fun _ _ _ hle h hsafe => Flights.singleFlight_step hnew hle h hsafe
  have hstart : ({} : Flights).Inv newId := ⟨by simp, List.Pairwise.nil, by simp⟩
  exact Machine.safe_iff_timed hinv hok hstart List.Pairwise.nil htime

/-- Two requests with one key while the store answers. -/
def answeredFlights : List FlightEvent :=
  [{ now := 0, input := .begin "k" "f" 10 }, { now := 1, input := .begin "k" "f" 10 }]

/-- The theorem while the store answers: one claim is held. -/
theorem singleFlight_answered :
    (∀ v ∈ Machine.visited (Flights.step sampleId) {} answeredFlights,
        (Flights.step sampleId v.1 v.2).SingleFlight v.2.now) ∧
      (answeredFlights.foldl (Flights.step sampleId) {}).held.length = 1 := by
  refine ⟨(singleFlight_iff (sampleId_injective "idem") ?_).mpr ?_, by decide +kernel⟩
  · unfold FlightEvent.Timely Machine.Timely answeredFlights
    decide
  · intro v hv
    simp only [Machine.visited, answeredFlights, List.mem_cons, List.not_mem_nil, or_false] at hv
    rcases hv with rfl | rfl
    · exact fun _ _ _ => by decide
    · exact fun _ _ _ => by decide +kernel

/-- The second request begins while the store fails. -/
def failedFlights : List FlightEvent :=
  [{ now := 0, input := .begin "k" "f" 10 },
    { now := 1, input := .begin "k" "f" 10, fault := some ⟨"disk I/O error"⟩ },
    { now := 1, input := .tryClaim 0 }]

/-- Both requests hold a claim of the key, and the lease of the first one is alive. -/
theorem fallback_claims_twice :
    FlightEvent.Timely failedFlights ∧
      let s := failedFlights.foldl (Flights.step sampleId) {}
      s.held =
          [{ key := "k", durable := some (sampleId "idem" 0) }, { key := "k", durable := none }] ∧
        s.store.Owns "k" (sampleId "idem" 0) 1 ∧ ¬ s.SingleFlight 1 := by
  have hheld : (failedFlights.foldl (Flights.step sampleId) {}).held =
      [{ key := "k", durable := some (sampleId "idem" 0) }, { key := "k", durable := none }] := by
    decide +kernel
  have howns : (failedFlights.foldl (Flights.step sampleId) {}).store.Owns "k"
      (sampleId "idem" 0) 1 := by
    rw [LeaseStore.owns_iff]
    decide +kernel
  refine ⟨?_, hheld, howns, fun hsafe => ?_⟩
  · unfold FlightEvent.Timely Machine.Timely failedFlights
    decide
  · unfold Flights.SingleFlight at hsafe
    rw [hheld] at hsafe
    refine (List.pairwise_cons.mp hsafe).1 _ List.mem_cons_self rfl fun leaseId hid => ?_
    obtain rfl : sampleId "idem" 0 = leaseId := Option.some.inj hid
    exact howns

end Switchback
