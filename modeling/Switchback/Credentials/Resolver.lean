import Mathlib.Data.List.GetD
import Switchback.Credentials.Availability

/-!
# The credential resolver

Picks an account of a provider for a model: the session's last account while it is usable, and
else by the provider's strategy among the accounts that are usable, not excluded and allowed.
-/

namespace Switchback

open Lib

structure CredentialLease where
  providerAccountId : String
  secret : String
  deriving DecidableEq

def CredentialLease.bearer (account key : String) : CredentialLease := ⟨account, key⟩

inductive SelectionStrategy where
  | fillFirst
  | roundRobin

structure Account where
  id : String
  secret : String := ""
  priority : ℤ := 0
  deriving Inhabited

def Account.lease (a : Account) : CredentialLease := .bearer a.id a.secret

/-- The accounts of one provider and its selection policy. -/
structure ProviderAccounts where
  accounts : List Account
  strategy : SelectionStrategy := .fillFirst
  sticky : ℕ := 1

structure RrState where
  cursor : ℕ := 0
  count : ℕ := 0

inductive ResolveOutcome where
  | selected (accountId : String) (lease : CredentialLease)
  | allUnavailable (retryAfter : Option ℕ)
  | noAccounts

structure CredentialResolver where
  providers : OrdMap String ProviderAccounts
  availability : Availability := {}
  rr : OrdMap String RrState := OrdMap.empty
  sessionAffinity : OrdMap (String ×ₗ String) String := OrdMap.empty
  breaker : CircuitBreaker

namespace CredentialResolver

def new (providers : OrdMap String ProviderAccounts) (breaker : BreakerConfig) :
    CredentialResolver where
  providers := providers
  breaker := .new breaker

/-- The configured accounts of a provider. -/
def accountsOf (r : CredentialResolver) (providerId : String) : List Account :=
  ((r.providers.get providerId).map ProviderAccounts.accounts).getD []

def circuitAllows (r : CredentialResolver) (providerId : String) (now : ℕ) :
    Bool × CredentialResolver :=
  let (ok, breaker) := r.breaker.allows providerId now
  (ok, { r with breaker := breaker })

def circuitRecord (r : CredentialResolver) (providerId : String) (ok : Bool) (now : ℕ) :
    CredentialResolver :=
  { r with breaker := r.breaker.record providerId ok now }

def reportFailure (r : CredentialResolver) (providerId accountId model : String)
    (errorClass : ErrorClass) (now : ℕ) : CredentialResolver :=
  { r with
    availability := (r.availability.reportFailure providerId accountId model errorClass now).2 }

def reportSuccess (r : CredentialResolver) (providerId accountId : String) : CredentialResolver :=
  { r with availability := r.availability.reportSuccess providerId accountId }

/-- Only an account that is known can be reset. -/
def resetLockout (r : CredentialResolver) (providerId accountId : String)
    (model : Option String) : Option Bool × CredentialResolver :=
  if (r.accountsOf providerId).any fun a => a.id = accountId then
    let (cleared, availability) := r.availability.resetLockout providerId accountId model
    (some cleared, { r with availability := availability })
  else (none, r)

/-- The first available position at or after the cursor, which moves on once an account was used
`sticky` times. -/
def pickRoundRobin (r : CredentialResolver) (providerId : String) (n : ℕ) (available : List ℕ)
    (sticky : ℕ) : ℕ × CredentialResolver :=
  let st := (r.rr.get providerId).getD {}
  let st :=
    if st.count ≥ max sticky 1 then { cursor := (st.cursor + 1) % 2 ^ 64, count := 0 } else st
  let start := st.cursor % n
  match (List.range n).find? fun off => (start + off) % n ∈ available with
  | some off =>
      let idx := (start + off) % n
      let count := if off ≠ 0 then 0 else st.count
      (idx, { r with rr := r.rr.insert providerId { cursor := idx, count := count + 1 } })
  | none => (available.headD 0, { r with rr := r.rr.insert providerId st })

/-- Is the account one that may be picked? -/
def isCandidate (r : CredentialResolver) (providerId model : String) (exclude : List String)
    (allowedAccounts : Option (List String)) (now : ℕ) (a : Account) : Bool :=
  !exclude.contains a.id && (allowedAccounts.elim true fun allowed => allowed.contains a.id) &&
    r.availability.isAvailable providerId a.id model now

def resolveWithSessionAllowed (r : CredentialResolver) (providerId model : String)
    (exclude : List String) (sessionId : Option String) (allowedAccounts : Option (List String))
    (now : ℕ) : ResolveOutcome × CredentialResolver :=
  match r.providers.get providerId with
  | none => (.noAccounts, r)
  | some pa =>
      if pa.accounts.isEmpty then (.noAccounts, r)
      else
        let account (i : ℕ) : Account := pa.accounts.getD i default
        let available := (List.range pa.accounts.length).filter fun i =>
          r.isCandidate providerId model exclude allowedAccounts now (account i)
        if available.isEmpty then
          let ids := (pa.accounts.filter fun a =>
            allowedAccounts.elim true fun allowed => allowed.contains a.id).map Account.id
          let unlock := r.availability.earliestUnlock providerId ids model now
          (.allUnavailable (unlock.map fun unlock => unlock - now), r)
        else
          let sessionId := sessionId.filter fun s => s ≠ ""
          let last := sessionId.bind fun s => r.sessionAffinity.get (accountKey providerId s)
          match last.bind fun accountId => available.find? fun i =>
              (account i).id = accountId ∧ accountId ∉ exclude with
          | some i => (.selected (account i).id (account i).lease, r)
          | none =>
              let (i, r) := match pa.strategy with
                -- the first of the lowest priority
                | .fillFirst => ((available.minOn? fun i => (account i).priority).getD 0, r)
                | .roundRobin =>
                    r.pickRoundRobin providerId pa.accounts.length available pa.sticky
              let sessionAffinity := sessionId.elim r.sessionAffinity fun s =>
                r.sessionAffinity.insert (accountKey providerId s) (account i).id
              (.selected (account i).id (account i).lease,
                { r with sessionAffinity := sessionAffinity })

/-- Without an allow-list. -/
def resolveWithSession (r : CredentialResolver) (providerId model : String)
    (exclude : List String) (sessionId : Option String) (now : ℕ) :
    ResolveOutcome × CredentialResolver :=
  r.resolveWithSessionAllowed providerId model exclude sessionId none now

end CredentialResolver

/-- What the live credential sources answer for an account. -/
inductive Mint where
  | static
  | minted (result : Except String String)

/-- The static lease, or one with the minted token. -/
def freshLease (accountId : String) (lease : CredentialLease) :
    Mint → Except String CredentialLease
  | .static => .ok lease
  | .minted result => result.map fun token => .bearer accountId token

/-- A call of the resolver by another request. -/
inductive ResolverOp where
  | resolve (providerId model : String) (exclude : List String) (sessionId : Option String)
      (allowedAccounts : Option (List String))
  | reportFailure (providerId accountId model : String) (errorClass : ErrorClass)
  | reportSuccess (providerId accountId : String)
  | resetLockout (providerId accountId : String) (model : Option String)
  | circuitAllows (providerId : String)
  | circuitRecord (providerId : String) (ok : Bool)

namespace CredentialResolver

def apply (r : CredentialResolver) (now : ℕ) : ResolverOp → CredentialResolver
  | .resolve providerId model exclude sessionId allowedAccounts =>
      (r.resolveWithSessionAllowed providerId model exclude sessionId allowedAccounts now).2
  | .reportFailure providerId accountId model errorClass =>
      r.reportFailure providerId accountId model errorClass now
  | .reportSuccess providerId accountId => r.reportSuccess providerId accountId
  | .resetLockout providerId accountId model => (r.resetLockout providerId accountId model).2
  | .circuitAllows providerId => (r.circuitAllows providerId now).2
  | .circuitRecord providerId ok => r.circuitRecord providerId ok now

def runOps (r : CredentialResolver) (ops : List (ℕ × ResolverOp)) : CredentialResolver :=
  ops.foldl (fun r op => r.apply op.1 op.2) r

/-! ### What is selected -/

variable (r : CredentialResolver)

theorem pickRoundRobin_mem (providerId : String) (n : ℕ) {available : List ℕ}
    (h : available ≠ []) (sticky : ℕ) :
    (r.pickRoundRobin providerId n available sticky).1 ∈ available := by
  unfold pickRoundRobin
  dsimp only
  split
  · next off hfind => simpa using List.find?_some hfind
  · obtain ⟨i, rest, rfl⟩ := List.exists_cons_of_ne_nil h
    exact List.mem_cons_self

theorem minOn_mem {available : List ℕ} (h : available ≠ []) (f : ℕ → ℤ) :
    (available.minOn? f).getD 0 ∈ available := by
  have hsome : (available.minOn? f).isSome := List.isSome_minOn?_iff.mpr h
  obtain ⟨i, hi⟩ := Option.isSome_iff_exists.mp hsome
  rw [hi]
  exact List.minOn?_mem hi

section Resolve

variable (providerId model : String) (exclude : List String) (sessionId : Option String)
  (allowedAccounts : Option (List String)) (now : ℕ)

theorem resolve_cases :
    (r.accountsOf providerId = [] ∧
      (r.resolveWithSessionAllowed providerId model exclude sessionId allowedAccounts now).1 =
        .noAccounts) ∨
    ((∀ a ∈ r.accountsOf providerId,
        r.isCandidate providerId model exclude allowedAccounts now a = false) ∧
      ∃ retryAfter,
        (r.resolveWithSessionAllowed providerId model exclude sessionId allowedAccounts now).1 =
          .allUnavailable retryAfter) ∨
    ∃ a ∈ r.accountsOf providerId,
      r.isCandidate providerId model exclude allowedAccounts now a = true ∧
      (r.resolveWithSessionAllowed providerId model exclude sessionId allowedAccounts now).1 =
        .selected a.id a.lease := by
  unfold resolveWithSessionAllowed accountsOf
  cases hpa : r.providers.get providerId with
  | none => exact .inl ⟨rfl, rfl⟩
  | some pa =>
    dsimp only [Option.map_some, Option.getD_some]
    by_cases hempty : pa.accounts.isEmpty = true
    · rw [if_pos hempty]
      exact .inl ⟨List.isEmpty_iff.mp hempty, rfl⟩
    rw [if_neg hempty]
    right
    -- an index among the available ones is that of a candidate
    have hmem {i : ℕ} (hi : i ∈ (List.range pa.accounts.length).filter fun i =>
        r.isCandidate providerId model exclude allowedAccounts now (pa.accounts.getD i default)) :
        pa.accounts.getD i default ∈ pa.accounts ∧
          r.isCandidate providerId model exclude allowedAccounts now
            (pa.accounts.getD i default) = true := by
      obtain ⟨hlt, hc⟩ := List.mem_filter.mp hi
      rw [List.mem_range] at hlt
      refine ⟨?_, hc⟩
      rw [List.getD_eq_getElem _ _ hlt]
      exact List.getElem_mem hlt
    have hall : ((List.range pa.accounts.length).filter fun i =>
        r.isCandidate providerId model exclude allowedAccounts now
          (pa.accounts.getD i default)) = [] →
        ∀ a ∈ pa.accounts,
          r.isCandidate providerId model exclude allowedAccounts now a = false := by
      intro hnil a ha
      obtain ⟨i, hlt, rfl⟩ := List.getElem_of_mem ha
      have := List.filter_eq_nil_iff.mp hnil i (List.mem_range.mpr hlt)
      rw [List.getD_eq_getElem _ _ hlt] at this
      simpa using this
    generalize ((List.range pa.accounts.length).filter fun i =>
      r.isCandidate providerId model exclude allowedAccounts now
        (pa.accounts.getD i default)) = available at hmem hall ⊢
    by_cases hnil : available.isEmpty = true
    · rw [if_pos hnil]
      exact .inl ⟨hall (List.isEmpty_iff.mp hnil), _, rfl⟩
    rw [if_neg hnil]
    have hne : available ≠ [] := fun h => hnil (List.isEmpty_iff.mpr h)
    right
    split
    · next i hfind =>
      obtain ⟨accountId, -, hi⟩ := Option.bind_eq_some_iff.mp hfind
      obtain ⟨ha, hc⟩ := hmem (List.mem_of_find?_eq_some hi)
      exact ⟨_, ha, hc, rfl⟩
    · cases pa.strategy with
      | fillFirst =>
        obtain ⟨ha, hc⟩ := hmem (minOn_mem hne fun i => (pa.accounts.getD i default).priority)
        exact ⟨_, ha, hc, rfl⟩
      | roundRobin =>
        obtain ⟨ha, hc⟩ := hmem
          (r.pickRoundRobin_mem providerId pa.accounts.length hne pa.sticky)
        exact ⟨_, ha, hc, rfl⟩

/-- **A selected account may be picked.** -/
theorem resolve_selected {accountId : String} {lease : CredentialLease}
    (h : (r.resolveWithSessionAllowed providerId model exclude sessionId allowedAccounts now).1 =
      .selected accountId lease) :
    ∃ a ∈ r.accountsOf providerId, a.id = accountId ∧ a.lease = lease ∧
      r.isCandidate providerId model exclude allowedAccounts now a = true := by
  rcases r.resolve_cases providerId model exclude sessionId allowedAccounts now with
    ⟨-, hno⟩ | ⟨-, retryAfter, hun⟩ | ⟨a, ha, hc, hsel⟩
  · rw [h] at hno
    exact absurd hno (by simp)
  · rw [h] at hun
    exact absurd hun (by simp)
  · rw [h] at hsel
    injection hsel with hid hlease
    exact ⟨a, ha, hid.symm, hlease.symm, hc⟩

theorem resolve_isSelected {a : Account} (ha : a ∈ r.accountsOf providerId)
    (hc : r.isCandidate providerId model exclude allowedAccounts now a = true) :
    ∃ accountId lease,
      (r.resolveWithSessionAllowed providerId model exclude sessionId allowedAccounts now).1 =
        .selected accountId lease := by
  rcases r.resolve_cases providerId model exclude sessionId allowedAccounts now with
    ⟨hnil, -⟩ | ⟨hnone, -⟩ | ⟨b, -, -, hsel⟩
  · rw [hnil] at ha
    exact absurd ha (by simp)
  · exact absurd (hnone a ha) (by simp [hc])
  · exact ⟨_, _, hsel⟩

/-- A resolution moves the cursor and the session only. -/
theorem resolve_frame :
    (r.resolveWithSessionAllowed providerId model exclude sessionId allowedAccounts
        now).2.providers = r.providers ∧
      (r.resolveWithSessionAllowed providerId model exclude sessionId allowedAccounts
        now).2.breaker = r.breaker ∧
      (r.resolveWithSessionAllowed providerId model exclude sessionId allowedAccounts
        now).2.availability = r.availability := by
  unfold resolveWithSessionAllowed
  split
  · exact ⟨rfl, rfl, rfl⟩
  · next pa hpa =>
    dsimp only
    split
    · exact ⟨rfl, rfl, rfl⟩
    · split
      · exact ⟨rfl, rfl, rfl⟩
      · split
        · exact ⟨rfl, rfl, rfl⟩
        · cases pa.strategy with
          | fillFirst => exact ⟨rfl, rfl, rfl⟩
          | roundRobin =>
            unfold pickRoundRobin
            dsimp only
            split
            · exact ⟨rfl, rfl, rfl⟩
            · exact ⟨rfl, rfl, rfl⟩

end Resolve

@[simp] theorem apply_providers (now : ℕ) (op : ResolverOp) :
    (r.apply now op).providers = r.providers := by
  cases op with
  | resolve providerId model exclude sessionId allowedAccounts =>
    exact (r.resolve_frame providerId model exclude sessionId allowedAccounts now).1
  | reportFailure => rfl
  | reportSuccess => rfl
  | resetLockout providerId accountId model =>
    show (r.resetLockout providerId accountId model).2.providers = r.providers
    unfold resetLockout
    split <;> rfl
  | circuitAllows => rfl
  | circuitRecord => rfl

@[simp] theorem runOps_providers (ops : List (ℕ × ResolverOp)) :
    (r.runOps ops).providers = r.providers := by
  unfold runOps
  induction ops generalizing r with
  | nil => rfl
  | cons op ops ih => rw [List.foldl_cons, ih, apply_providers]

end CredentialResolver

end Switchback
