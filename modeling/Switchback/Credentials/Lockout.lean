import Mathlib.Order.Bounds.Basic
import Switchback.Credentials.Resolver

/-!
# When a locked account is usable again

An account is held by two locks, its own and that of the model.  A wait ends with the last lock of
the first account that is free, and a report of a failure replaces one lock.
-/

namespace Switchback

open Lib

namespace Availability

/-! ### Locks by the time they end -/

variable (av : Availability) (provider account model : String) (now : ℕ)

def lockAt (modelKey : String) : Option ℕ :=
  (av.inner.get (accountKey provider account)).bind fun state =>
    (state.locks.get modelKey).map LockEntry.unlockAt

/-- The ends of the locks that hold the account for the model. -/
def holds : List ℕ := (av.lockAt provider account modelAll).toList ++
  (av.lockAt provider account model).toList

theorem mem_holds {u : ℕ} :
    u ∈ av.holds provider account model ↔
      av.lockAt provider account modelAll = some u ∨ av.lockAt provider account model = some u := by
  rw [holds, List.mem_append, Option.mem_toList, Option.mem_toList]

theorem locked_iff {state : AccountState}
    (h : av.inner.get (accountKey provider account) = some state) (modelKey : String) :
    state.locked modelKey now = true ↔
      ∃ u, av.lockAt provider account modelKey = some u ∧ now < u := by
  rw [lockAt, h, Option.bind_some, AccountState.locked]
  cases hlock : state.locks.get modelKey with
  | none => simp
  | some lock => simp

/-- An account is usable once the locks that hold it have ended. -/
theorem isAvailable_iff :
    av.isAvailable provider account model now = true ↔
      ∀ u ∈ av.holds provider account model, u ≤ now := by
  simp only [mem_holds]
  unfold isAvailable
  cases h : av.inner.get (accountKey provider account) with
  | none => simp [lockAt, h]
  | some state =>
    have hall := locked_iff av provider account now h modelAll
    have hmodel := locked_iff av provider account now h model
    rw [Bool.and_eq_true, Bool.not_eq_true', Bool.not_eq_true', ← Bool.not_eq_true,
      ← Bool.not_eq_true, hall, hmodel]
    constructor
    · rintro ⟨hno, hno'⟩ u (hu | hu)
      · exact Nat.not_lt.1 fun hlt => hno ⟨u, hu, hlt⟩
      · exact Nat.not_lt.1 fun hlt => hno' ⟨u, hu, hlt⟩
    · intro hle
      constructor
      · rintro ⟨u, hu, hlt⟩
        exact Nat.not_lt.2 (hle u (Or.inl hu)) hlt
      · rintro ⟨u, hu, hlt⟩
        exact Nat.not_lt.2 (hle u (Or.inr hu)) hlt

theorem isAvailable_eq_false_iff :
    av.isAvailable provider account model now = false ↔
      ∃ u ∈ av.holds provider account model, now < u := by
  rw [← Bool.not_eq_true, isAvailable_iff]
  push Not
  rfl

theorem earliestUnlock_eq (accounts : List String) :
    av.earliestUnlock provider accounts model now =
      ((accounts.flatMap fun account => av.holds provider account model).filter fun u =>
        now < u).min? := by
  have hstates : ((accounts.filterMap fun account =>
      av.inner.get (accountKey provider account)).flatMap fun state =>
        ([state.locks.get modelAll, state.locks.get model].filterMap id).map LockEntry.unlockAt) =
      accounts.flatMap fun account => av.holds provider account model := by
    induction accounts with
    | nil => rfl
    | cons account accounts ih =>
      rw [List.flatMap_cons, ← ih]
      cases h : av.inner.get (accountKey provider account) with
      | none => simp [h, holds, lockAt]
      | some state =>
        simp only [List.filterMap_cons, h, List.flatMap_cons]
        congr 1
        cases hall : state.locks.get modelAll <;> cases hmodel : state.locks.get model <;>
          simp [holds, lockAt, h, hall, hmodel]
  unfold earliestUnlock
  rw [← hstates]

/-- The least time, `now` or later, at which one of the accounts is usable. -/
def FreeAt (accounts : List String) (t : ℕ) : Prop :=
  IsLeast {t | now ≤ t ∧ ∃ account ∈ accounts, av.isAvailable provider account model t = true} t

/-- Some account is held by no lock that ends later than the first lock to end. -/
def EndsFirst (accounts : List String) : Prop :=
  ∃ account ∈ accounts, ∀ u ∈ av.holds provider account model, now < u →
    ∀ other ∈ accounts, ∀ u' ∈ av.holds provider other model, now < u' → u ≤ u'

variable {av provider model now} {accounts : List String}

/-- The first lock that ends frees an account exactly when no other lock holds that account. -/
theorem earliestUnlock_free_iff
    (h : ∀ account ∈ accounts, av.isAvailable provider account model now = false) :
    (∃ t, av.earliestUnlock provider accounts model now = some t ∧
        av.FreeAt provider model now accounts t) ↔ av.EndsFirst provider model now accounts := by
  rw [earliestUnlock_eq]
  constructor
  · rintro ⟨t, hmin, ⟨-, account, hmem, hfree⟩, -⟩
    refine ⟨account, hmem, fun u hu hlt other hother u' hu' hlt' => ?_⟩
    have hle : t ≤ u' := by
      refine (List.min?_eq_some_iff.1 hmin).2 u' (List.mem_filter.2 ⟨?_, by simpa using hlt'⟩)
      exact List.mem_flatMap.2 ⟨other, hother, hu'⟩
    exact ((isAvailable_iff av provider account model t).1 hfree u hu).trans hle
  · rintro ⟨account, hmem, hfirst⟩
    obtain ⟨u₀, hu₀, hlt₀⟩ := (isAvailable_eq_false_iff av provider account model now).1
      (h account hmem)
    have hactive : u₀ ∈ (accounts.flatMap fun account =>
        av.holds provider account model).filter fun u => now < u :=
      List.mem_filter.2 ⟨List.mem_flatMap.2 ⟨account, hmem, hu₀⟩, by simpa using hlt₀⟩
    obtain ⟨t, hmin⟩ := Option.isSome_iff_exists.1
      (List.isSome_min?_of_mem hactive)
    obtain ⟨htmem, htle⟩ := List.min?_eq_some_iff.1 hmin
    obtain ⟨hin, hnow⟩ := List.mem_filter.1 htmem
    obtain ⟨other, hother, ht⟩ := List.mem_flatMap.1 hin
    have hnow : now < t := by simpa using hnow
    refine ⟨t, hmin, ⟨hnow.le, account, hmem, ?_⟩, ?_⟩
    · rw [isAvailable_iff]
      intro u hu
      by_cases hlt : now < u
      · exact hfirst u hu hlt other hother t ht hnow
      · omega
    · rintro t' ⟨hle, account', hmem', hfree⟩
      obtain ⟨u, hu, hlt⟩ := (isAvailable_eq_false_iff av provider account' model now).1
        (h account' hmem')
      have hut' := (isAvailable_iff av provider account' model t').1 hfree u hu
      have htu := htle u (List.mem_filter.2
        ⟨List.mem_flatMap.2 ⟨account', hmem', hu⟩, by simpa using hlt⟩)
      omega

end Availability

namespace CredentialResolver

/-- The accounts that a wait is computed over: those that the caller may use. -/
def allowedIds (r : CredentialResolver) (providerId : String)
    (allowedAccounts : Option (List String)) : List String :=
  ((r.accountsOf providerId).filter fun a =>
    allowedAccounts.elim true fun allowed => allowed.contains a.id).map Account.id

theorem resolve_allUnavailable {r : CredentialResolver} {providerId model : String} {now : ℕ}
    {allowedAccounts : Option (List String)} (hknown : r.accountsOf providerId ≠ [])
    (h : ∀ id ∈ r.allowedIds providerId allowedAccounts,
      r.availability.isAvailable providerId id model now = false)
    (exclude : List String) (sessionId : Option String) :
    (r.resolveWithSessionAllowed providerId model exclude sessionId allowedAccounts now).1 =
      .allUnavailable ((r.availability.earliestUnlock providerId
        (r.allowedIds providerId allowedAccounts) model now).map fun unlock => unlock - now) := by
  obtain ⟨pa, hpa⟩ : ∃ pa, r.providers.get providerId = some pa := by
    cases hget : r.providers.get providerId with
    | none => simp [accountsOf, hget] at hknown
    | some pa => exact ⟨pa, rfl⟩
  have haccounts : r.accountsOf providerId = pa.accounts := by simp [accountsOf, hpa]
  have hnone : ((List.range pa.accounts.length).filter fun i =>
      r.isCandidate providerId model exclude allowedAccounts now
        (pa.accounts.getD i default)) = [] := by
    rw [List.filter_eq_nil_iff]
    intro i hi hcandidate
    rw [List.mem_range] at hi
    simp only [isCandidate, Bool.and_eq_true] at hcandidate
    obtain ⟨⟨-, hallowed⟩, havailable⟩ := hcandidate
    have hmem : pa.accounts.getD i default ∈ pa.accounts := by
      rw [List.getD_eq_getElem _ _ hi]
      exact List.getElem_mem hi
    have hid := h (pa.accounts.getD i default).id
      (List.mem_map.2 ⟨_, List.mem_filter.2 ⟨haccounts ▸ hmem, hallowed⟩, rfl⟩)
    rw [hid] at havailable
    cases havailable
  have hne : pa.accounts.isEmpty = false := by
    rw [← haccounts]
    simpa using hknown
  unfold resolveWithSessionAllowed
  rw [hpa]
  dsimp only
  rw [hne, if_neg (by simp), hnone, List.isEmpty_nil, if_pos rfl, allowedIds, haccounts]

end CredentialResolver

/-- What changes the locks. -/
inductive LockOp where
  | failure (provider account model : String) (errorClass : ErrorClass)
  | success (provider account : String)
  | reset (provider account : String) (model : Option String)

namespace Availability

def applyLock (av : Availability) (now : ℕ) : LockOp → Availability
  | .failure provider account model errorClass =>
    (av.reportFailure provider account model errorClass now).2
  | .success provider account => av.reportSuccess provider account
  | .reset provider account model => (av.resetLockout provider account model).2

def runLocks (ops : List (ℕ × LockOp)) : Availability :=
  ops.foldl (fun av op => av.applyLock op.1 op.2) {}

variable {av : Availability} {provider model : String} {now : ℕ} {accounts : List String}

/-- **The wait is exact** when some account is held by no lock that ends after the first lock to
end, and only then: the earliest unlock is the time at which an account is usable again, and the
resolver tells the wait for it. -/
theorem retryAfter_exact_iff
    (h : ∀ account ∈ accounts, av.isAvailable provider account model now = false) :
    ((∃ t, av.earliestUnlock provider accounts model now = some t ∧
        av.FreeAt provider model now accounts t) ↔ av.EndsFirst provider model now accounts) ∧
      ∀ (r : CredentialResolver) (exclude : List String) (sessionId : Option String)
        (allowedAccounts : Option (List String)), r.availability = av →
        r.accountsOf provider ≠ [] → r.allowedIds provider allowedAccounts = accounts →
        ((∃ wait, (r.resolveWithSessionAllowed provider model exclude sessionId allowedAccounts
            now).1 = .allUnavailable (some wait) ∧
          av.FreeAt provider model now accounts (now + wait)) ↔
          av.EndsFirst provider model now accounts) := by
  have hfree := earliestUnlock_free_iff h
  refine ⟨hfree, ?_⟩
  rintro r exclude sessionId allowedAccounts rfl hknown rfl
  rw [CredentialResolver.resolve_allUnavailable hknown h exclude sessionId, ← hfree]
  constructor
  · rintro ⟨wait, houtcome, hleast⟩
    obtain ⟨t, hunlock, rfl⟩ := Option.map_eq_some_iff.1 (ResolveOutcome.allUnavailable.inj houtcome)
    have hlater : now < t := by
      rw [earliestUnlock_eq] at hunlock
      simpa using (List.mem_filter.1 (List.min?_eq_some_iff.1 hunlock).1).2
    rw [Nat.add_sub_cancel' hlater.le] at hleast
    exact ⟨t, hunlock, hleast⟩
  · rintro ⟨t, hunlock, hleast⟩
    have hle : now ≤ t := hleast.1.1
    refine ⟨t - now, by rw [hunlock]; rfl, ?_⟩
    rwa [Nat.add_sub_cancel' hle]

/-- A rate limit alone. -/
theorem retryAfter_exact_rateLimited :
    (∃ t, (runLocks [(0, .failure "p" "a" "m" .rateLimited)]).earliestUnlock "p" ["a"] "m" 0 =
        some t ∧
      (runLocks [(0, .failure "p" "a" "m" .rateLimited)]).FreeAt "p" "m" 0 ["a"] t) ↔
      (runLocks [(0, .failure "p" "a" "m" .rateLimited)]).EndsFirst "p" "m" 0 ["a"] :=
  (retryAfter_exact_iff (by decide +kernel)).1

/-! ### What a report of a failure replaces -/

variable (av) (provider model) (now) (account : String) (errorClass : ErrorClass)

/-- The key of the lock that a report sets. -/
def slotOf (model : String) (errorClass : ErrorClass) : String :=
  if accountWide errorClass then modelAll else model

/-- How long a report of this class would lock the account now. -/
def cooldownAt (provider account : String) : ℕ :=
  cooldownFor errorClass ((av.inner.get (accountKey provider account)).getD {}).backoffLevel

def isAboutRequest (errorClass : ErrorClass) : Bool :=
  errorClass.isClientError || errorClass = .safetyBlocked

theorem lockAt_reportFailure (hreport : isAboutRequest errorClass = false)
    (provider' account' modelKey : String) :
    (av.reportFailure provider account model errorClass now).2.lockAt provider' account' modelKey =
      if provider' = provider ∧ account' = account ∧ modelKey = slotOf model errorClass then
        some (now + av.cooldownAt errorClass provider account)
      else av.lockAt provider' account' modelKey := by
  unfold reportFailure
  rw [if_neg (by simpa [isAboutRequest] using hreport)]
  unfold lockAt
  dsimp only
  rw [OrdMap.get_insert]
  by_cases hkey : accountKey provider' account' = accountKey provider account
  · obtain ⟨rfl, rfl⟩ := accountKey_inj.1 hkey
    rw [if_pos rfl, Option.bind_some]
    dsimp only
    rw [OrdMap.get_insert, show (if accountWide errorClass = true then modelAll else model) =
      slotOf model errorClass from rfl]
    by_cases hslot : modelKey = slotOf model errorClass
    · rw [if_pos hslot, if_pos ⟨rfl, rfl, hslot⟩]
      rfl
    · rw [if_neg hslot, if_neg fun hall => hslot hall.2.2]
      cases av.inner.get (accountKey provider' account') with
      | none => simp
      | some state => rfl
  · rw [if_neg hkey, if_neg fun hall => hkey (accountKey_inj.2 ⟨hall.1, hall.2.1⟩)]

/-- A report that is about the request sets no lock.  Any other one leaves the account held for as
long as it was: the lock that it replaces ends no later than the new one, or no later than the lock
of the whole account, which it leaves. -/
def KeepsHeld : Prop :=
  isAboutRequest errorClass = true ∨
    ∀ u, av.lockAt provider account (slotOf model errorClass) = some u →
      u ≤ now + av.cooldownAt errorClass provider account ∨
        slotOf model errorClass ≠ modelAll ∧
          ∃ wide, av.lockAt provider account modelAll = some wide ∧ u ≤ wide

theorem reportFailure_aboutRequest (hreport : isAboutRequest errorClass = true) :
    (av.reportFailure provider account model errorClass now).2 = av := by
  unfold reportFailure
  rw [if_pos (by simpa [isAboutRequest] using hreport)]

/-- **A failure report makes no account usable sooner** exactly when the lock that it replaces does
not outlast what holds the account afterwards. -/
theorem report_keeps_locked_iff :
    (∀ provider' account' model' t, now ≤ t →
        av.isAvailable provider' account' model' t = false →
        (av.reportFailure provider account model errorClass now).2.isAvailable provider' account'
          model' t = false) ↔ KeepsHeld av provider model now account errorClass := by
  by_cases hreport : isAboutRequest errorClass = true
  · rw [reportFailure_aboutRequest av provider model now account errorClass hreport]
    exact iff_of_true (fun _ _ _ _ _ h => h) (Or.inl hreport)
  have hreport : isAboutRequest errorClass = false := by simpa using hreport
  have hlock := lockAt_reportFailure av provider model now account errorClass hreport
  constructor
  · intro hkeeps
    refine Or.inr fun u hu => ?_
    by_contra hcovered
    obtain ⟨hshort, hwide⟩ := not_or.1 hcovered
    -- from then on nothing holds the account for the model of the slot
    obtain ⟨t, hnow, hcool, hlt, hall⟩ : ∃ t, now ≤ t ∧
        now + av.cooldownAt errorClass provider account ≤ t ∧ t < u ∧
        (slotOf model errorClass ≠ modelAll → ∀ wide,
          av.lockAt provider account modelAll = some wide → wide ≤ t) := by
      by_cases hslot : slotOf model errorClass = modelAll
      · exact ⟨now + av.cooldownAt errorClass provider account, by omega, le_rfl, by omega,
          fun hne => absurd hslot hne⟩
      · cases hlockAll : av.lockAt provider account modelAll with
        | none =>
          exact ⟨now + av.cooldownAt errorClass provider account, by omega, le_rfl, by omega,
            fun _ _ h => by cases h⟩
        | some wide =>
          have hless : wide < u := Nat.not_le.1 fun hle => hwide ⟨hslot, wide, hlockAll, hle⟩
          refine ⟨max (now + av.cooldownAt errorClass provider account) wide, by omega, by omega,
            by omega, fun _ w h => ?_⟩
          obtain rfl := Option.some.inj h
          omega
    have hbefore : av.isAvailable provider account (slotOf model errorClass) t = false :=
      (isAvailable_eq_false_iff av _ _ _ t).2 ⟨u, (mem_holds av _ _ _).2 (Or.inr hu), hlt⟩
    have hafter := hkeeps provider account (slotOf model errorClass) t hnow hbefore
    obtain ⟨v, hv, htv⟩ := (isAvailable_eq_false_iff _ _ _ _ t).1 hafter
    rw [mem_holds, hlock, hlock] at hv
    rw [if_pos (show provider = provider ∧ account = account ∧ slotOf model errorClass =
      slotOf model errorClass from ⟨rfl, rfl, rfl⟩)] at hv
    rcases hv with hv | hv
    · split_ifs at hv with hslot
      · obtain rfl := Option.some.inj hv
        omega
      · have hle := hall (fun h => hslot ⟨rfl, rfl, h.symm⟩) v hv
        omega
    · obtain rfl := Option.some.inj hv
      omega
  · intro hheld provider' account' model' t hnow hbefore
    have hcovered := hheld.resolve_left (by simp [hreport])
    obtain ⟨v, hv, htv⟩ := (isAvailable_eq_false_iff av _ _ _ t).1 hbefore
    rw [isAvailable_eq_false_iff]
    -- the lock that held the account still does, unless it is the one replaced
    have hkey : ∃ modelKey, (modelKey = modelAll ∨ modelKey = model') ∧
        av.lockAt provider' account' modelKey = some v := by
      rcases (mem_holds av _ _ _).1 hv with h | h
      · exact ⟨modelAll, Or.inl rfl, h⟩
      · exact ⟨model', Or.inr rfl, h⟩
    have hheldBy (modelKey : String) (u : ℕ) (hmodel : modelKey = modelAll ∨ modelKey = model')
        (h : (av.reportFailure provider account model errorClass now).2.lockAt provider' account'
          modelKey = some u) : u ∈ (av.reportFailure provider account model errorClass
            now).2.holds provider' account' model' := by
      rw [mem_holds]
      rcases hmodel with rfl | rfl
      · exact Or.inl h
      · exact Or.inr h
    obtain ⟨modelKey, hmodel, hsome⟩ := hkey
    by_cases hreplaced :
        provider' = provider ∧ account' = account ∧ modelKey = slotOf model errorClass
    · obtain ⟨rfl, rfl, rfl⟩ := hreplaced
      rcases hcovered v hsome with hle | ⟨hslot, wide, hwide, hle⟩
      · refine ⟨_, hheldBy _ _ hmodel (by rw [hlock, if_pos ⟨rfl, rfl, rfl⟩]), ?_⟩
        omega
      · refine ⟨wide, hheldBy modelAll wide (Or.inl rfl) ?_, by omega⟩
        rw [hlock, if_neg fun h => hslot h.2.2.symm]
        exact hwide
    · refine ⟨v, hheldBy modelKey v hmodel ?_, htv⟩
      rw [hlock, if_neg hreplaced]
      exact hsome

/-- An account held for two minutes and for one of its models for two seconds is free in two
minutes. -/
theorem retryAfter_short :
    ¬ ∀ (ops : List (ℕ × LockOp)) (provider model : String) (now : ℕ) (accounts : List String),
      (∀ account ∈ accounts, (runLocks ops).isAvailable provider account model now = false) →
        ∃ t, (runLocks ops).earliestUnlock provider accounts model now = some t ∧
          (runLocks ops).FreeAt provider model now accounts t := by
  intro h
  obtain ⟨t, hunlock, ⟨-, account, hmem, hfree⟩, -⟩ := h
    [(0, .failure "p" "a" "m" .authentication), (0, .failure "p" "a" "m" .rateLimited)] "p" "m" 0
    ["a"] (by decide +kernel)
  have ht : some t = some (millis 2000) := hunlock.symm.trans (by decide +kernel)
  obtain rfl := Option.some.inj ht
  obtain rfl := List.mem_singleton.1 hmem
  exact absurd hfree (by decide +kernel)

/-- A report of a rate limit replaces a lock of thirty seconds by one of two. -/
theorem report_unlocks :
    ¬ ∀ (ops : List (ℕ × LockOp)) (provider account model : String) (errorClass : ErrorClass)
      (now : ℕ) (provider' account' model' : String) (t : ℕ), now ≤ t →
        (runLocks ops).isAvailable provider' account' model' t = false →
        ((runLocks ops).reportFailure provider account model errorClass now).2.isAvailable provider'
          account' model' t = false := by
  intro h
  have hlocked := h [(0, .failure "p" "a" "m" .network)] "p" "a" "m" .rateLimited 1
    "p" "a" "m" (secs 10) (by decide) (by decide +kernel)
  exact absurd hlocked (by decide +kernel)

/-! ### No lock lasts -/

theorem cooldownFor_le (errorClass : ErrorClass) (level : ℕ) :
    cooldownFor errorClass level ≤ secs 300 := by
  have hbackoff : backoffMs level ≤ 300000 := min_le_right _ _
  cases errorClass <;> simp only [cooldownFor, millis, secs] <;> omega

/-- Every lock ends by then. -/
def EndBy (t : ℕ) (av : Availability) : Prop :=
  ∀ k state, av.inner.get k = some state →
    ∀ key lock, state.locks.get key = some lock → lock.unlockAt ≤ t

variable {t now : ℕ} {av : Availability}

theorem EndBy.reportFailure (h : EndBy t av) (hnow : now + secs 300 ≤ t)
    (provider account model : String) (errorClass : ErrorClass) :
    EndBy t (av.reportFailure provider account model errorClass now).2 := by
  unfold Availability.reportFailure
  split
  · exact h
  intro k state hstate key lock hlock
  dsimp only at hstate
  rw [OrdMap.get_insert] at hstate
  by_cases hk : k = accountKey provider account
  · rw [if_pos hk] at hstate
    obtain rfl := Option.some.inj hstate
    dsimp only at hlock
    rw [OrdMap.get_insert] at hlock
    by_cases hkey : key = if accountWide errorClass = true then modelAll else model
    · rw [if_pos hkey] at hlock
      obtain rfl := Option.some.inj hlock
      exact (Nat.add_le_add_left (cooldownFor_le _ _) now).trans hnow
    · rw [if_neg hkey] at hlock
      cases hold : av.inner.get (accountKey provider account) with
      | none =>
        rw [hold] at hlock
        cases hlock
      | some old =>
        rw [hold] at hlock
        exact h _ old hold key lock hlock
  · rw [if_neg hk] at hstate
    exact h k state hstate key lock hlock

theorem EndBy.reportSuccess (h : EndBy t av) (provider account : String) :
    EndBy t (av.reportSuccess provider account) := by
  intro k state hstate key lock hlock
  rw [Availability.reportSuccess, OrdMap.get_modify] at hstate
  split_ifs at hstate with hk
  · obtain ⟨_, -, rfl⟩ := Option.map_eq_some_iff.1 hstate
    cases hlock
  · exact h k state hstate key lock hlock

theorem EndBy.resetLockout (h : EndBy t av) (provider account : String) (model : Option String) :
    EndBy t (av.resetLockout provider account model).2 := by
  unfold Availability.resetLockout
  cases hold : av.inner.get (accountKey provider account) with
  | none => exact h
  | some old =>
    have hgone : EndBy t { inner := av.inner.erase (accountKey provider account) } :=
      fun k state hstate => h k state (OrdMap.get_of_get_erase hstate)
    cases model with
    | none => exact hgone
    | some model =>
      dsimp only
      split_ifs
      · exact hgone
      · intro k state hstate key lock hlock
        dsimp only at hstate
        rw [OrdMap.get_insert] at hstate
        split_ifs at hstate with hk
        · obtain rfl := Option.some.inj hstate
          exact h _ old hold key lock (OrdMap.get_of_get_erase hlock)
        · exact h k state hstate key lock hlock

/-- **No lockout outlasts five minutes**: after any run of failures, successes and resets, every
account is usable for every model once no failure was reported for that long. -/
theorem runLocks_available {ops : List (ℕ × LockOp)} {last : ℕ} (hlast : ∀ op ∈ ops, op.1 ≤ last)
    (provider account model : String) :
    (runLocks ops).isAvailable provider account model (last + secs 300) = true := by
  have hends : EndBy (last + secs 300) (runLocks ops) := by
    unfold runLocks
    induction ops using List.reverseRecOn with
    | nil => exact fun k state hstate => by cases hstate
    | append_singleton ops op ih =>
      have hend := ih fun op' hop' => hlast op' (List.mem_append_left _ hop')
      have hnow := Nat.add_le_add_right (hlast op (by simp)) (secs 300)
      rw [List.foldl_append, List.foldl_cons, List.foldl_nil]
      obtain ⟨now, op⟩ := op
      cases op with
      | failure provider account model errorClass =>
        exact hend.reportFailure hnow provider account model errorClass
      | success provider account => exact hend.reportSuccess provider account
      | reset provider account model => exact hend.resetLockout provider account model
  rw [isAvailable_iff]
  intro u hu
  have hlock : ∀ key, (runLocks ops).lockAt provider account key = some u →
      u ≤ last + secs 300 := by
    intro key hkey
    obtain ⟨state, hstate, hmap⟩ := Option.bind_eq_some_iff.1 hkey
    obtain ⟨lock, hget, rfl⟩ := Option.map_eq_some_iff.1 hmap
    exact hends _ state hstate key lock hget
  exact (mem_holds _ _ _ _).1 hu |>.elim (hlock _) (hlock _)

theorem runLocks_available_rateLimited :
    (runLocks [(7, .failure "p" "a" "m" .rateLimited)]).isAvailable "p" "a" "m" (7 + secs 300) =
      true :=
  runLocks_available (by simp) "p" "a" "m"

end Availability

end Switchback
