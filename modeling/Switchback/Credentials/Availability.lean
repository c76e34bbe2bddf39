import Mathlib.Data.Prod.Lex
import Switchback.Core.Ir
import Switchback.Credentials.Breaker

/-!
# The availability of accounts

A failure locks an account, as a whole or for the model that failed, until a time; a success
unlocks it.
-/

namespace Switchback

open Lib

/-- The model key that stands for the whole account. -/
def modelAll : String := "__all__"

structure LockEntry where
  unlockAt : ℕ
  errorClass : ErrorClass

structure AccountState where
  locks : OrdMap String LockEntry := OrdMap.empty
  backoffLevel : ℕ := 0

/-- Accounts by provider and account id. -/
structure Availability where
  inner : OrdMap (String ×ₗ String) AccountState := OrdMap.empty

def accountKey (provider account : String) : String ×ₗ String := toLex (provider, account)

theorem accountKey_inj {p p' a a' : String} :
    accountKey p a = accountKey p' a' ↔ p = p' ∧ a = a' := by
  unfold accountKey
  rw [toLex_inj, Prod.mk.injEq]

def AccountState.locked (state : AccountState) (modelKey : String) (now : ℕ) : Bool :=
  (state.locks.get modelKey).any fun lock => now < lock.unlockAt

def accountWide : ErrorClass → Bool
  | .authentication | .authorization => true
  | _ => false

def isBackoff : ErrorClass → Bool
  | .rateLimited | .quotaExceeded | .providerOverloaded => true
  | _ => false

/-- 2s, 4s, 8s and so on, at most 5 minutes. -/
def backoffMs (level : ℕ) : ℕ := min (2000 * 2 ^ min level 8) 300000

def cooldownFor (errorClass : ErrorClass) (backoffLevel : ℕ) : ℕ :=
  match errorClass with
  | .rateLimited | .quotaExceeded | .providerOverloaded => millis (backoffMs backoffLevel)
  | .authentication | .authorization => secs 120
  | _ => secs 30

namespace Availability

def isAvailable (av : Availability) (provider account model : String) (now : ℕ) : Bool :=
  match av.inner.get (accountKey provider account) with
  | none => true
  | some state => !state.locked modelAll now && !state.locked model now

/-- Lock the account, or the model, for the cooldown of the class; a client error says nothing
about the account. -/
def reportFailure (av : Availability) (provider account model : String) (errorClass : ErrorClass)
    (now : ℕ) : ℕ × Availability :=
  if errorClass.isClientError || errorClass = .safetyBlocked then (0, av)
  else
    let state := (av.inner.get (accountKey provider account)).getD {}
    let cooldown := cooldownFor errorClass state.backoffLevel
    let modelKey := if accountWide errorClass then modelAll else model
    let lock := { unlockAt := now + cooldown, errorClass := errorClass }
    let backoffLevel :=
      if isBackoff errorClass then min (state.backoffLevel + 1) (2 ^ 32 - 1) else state.backoffLevel
    (cooldown,
      { inner := av.inner.insert (accountKey provider account)
          { locks := state.locks.insert modelKey lock, backoffLevel := backoffLevel } })

/-- Unlock the account. -/
def reportSuccess (av : Availability) (provider account : String) : Availability where
  inner := av.inner.modify (accountKey provider account) fun _ => {}

/-- The earliest time at which a lock of one of the accounts ends. -/
def earliestUnlock (av : Availability) (provider : String) (accounts : List String)
    (model : String) (now : ℕ) : Option ℕ :=
  let states := accounts.filterMap fun account => av.inner.get (accountKey provider account)
  let unlocks := states.flatMap fun state =>
    ([state.locks.get modelAll, state.locks.get model].filterMap id).map LockEntry.unlockAt
  (unlocks.filter fun unlock => now < unlock).min?

/-- Clear a lockout by hand; was there a lock? -/
def resetLockout (av : Availability) (provider account : String) (model : Option String) :
    Bool × Availability :=
  match av.inner.get (accountKey provider account) with
  | none => (false, av)
  | some state =>
      let cleared := match model with
        | some model => (state.locks.get model).isSome
        | none => !state.locks.entries.isEmpty
      let locks := match model with
        | some model => state.locks.erase model
        | none => OrdMap.empty
      let inner :=
        if locks.entries.isEmpty then av.inner.erase (accountKey provider account)
        else av.inner.insert (accountKey provider account) { state with locks := locks }
      (cleared, { inner := inner })

@[simp] theorem isAvailable_empty (provider account model : String) (now : ℕ) :
    ({} : Availability).isAvailable provider account model now = true := rfl

theorem isAvailable_reportFailure_of_ne {provider account provider' account' : String}
    (h : (provider', account') ≠ (provider, account)) (av : Availability) (model model' : String)
    (errorClass : ErrorClass) (now now' : ℕ) :
    (av.reportFailure provider account model errorClass now).2.isAvailable provider' account' model'
      now' = av.isAvailable provider' account' model' now' := by
  unfold reportFailure
  split
  · rfl
  · have hne : accountKey provider' account' ≠ accountKey provider account := by
      intro he
      obtain ⟨hp, ha⟩ := accountKey_inj.mp he
      exact h (by rw [hp, ha])
    unfold isAvailable
    dsimp only
    rw [OrdMap.get_insert, if_neg hne]

theorem cooldownFor_pos (errorClass : ErrorClass) (level : ℕ) :
    0 < cooldownFor errorClass level := by
  have hbackoff : 0 < millis (backoffMs level) := by
    unfold millis backoffMs
    positivity
  cases errorClass with
  | rateLimited => exact hbackoff
  | quotaExceeded => exact hbackoff
  | providerOverloaded => exact hbackoff
  | _ => exact secs_pos (by decide)

theorem isAvailable_after_accountWide (av : Availability) {errorClass : ErrorClass}
    (hwide : accountWide errorClass = true) (provider account model model' : String) (now : ℕ) :
    (av.reportFailure provider account model errorClass now).2.isAvailable provider account
      model' now = false := by
  have hreported : (errorClass.isClientError || decide (errorClass = .safetyBlocked)) = false := by
    cases errorClass <;> first | rfl | exact absurd hwide (by decide)
  have hcooldown := cooldownFor_pos errorClass
    ((av.inner.get (accountKey provider account)).getD {}).backoffLevel
  unfold reportFailure
  rw [hreported, if_neg (by simp), hwide, if_pos rfl]
  dsimp only
  generalize cooldownFor errorClass
    ((av.inner.get (accountKey provider account)).getD {}).backoffLevel = cooldown at hcooldown
  unfold isAvailable AccountState.locked
  dsimp only
  rw [OrdMap.get_insert, if_pos rfl]
  dsimp only
  have hlater : now < now + cooldown := by omega
  rw [OrdMap.get_insert, if_pos rfl, Option.any_some, decide_eq_true hlater]
  rfl

end Availability

end Switchback
