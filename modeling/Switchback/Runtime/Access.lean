import Switchback.Core.Target

/-!
# What a request may use

The account allow-lists of a tenant and of a client profile, and the small readers of the
dispatch loop.
-/

namespace Switchback

open Lib

structure TenantConfig where
  id : String
  allowedAccounts : List String := []

structure ClientProfileConfig where
  id : String
  accounts : List String := []

/-- The accounts of a provider among `provider/account` references. -/
def accountsForProvider (accountRefs : List String) (providerId : String) : List String :=
  accountRefs.filterMap fun accountRef =>
    (Text.splitOnce "/" accountRef).bind fun p => if p.1 = providerId then some p.2 else none

def tenantAllowedAccounts (tenant : TenantConfig) (providerId : String) : List String :=
  accountsForProvider tenant.allowedAccounts providerId

def profileAccountsForProvider (profile : ClientProfileConfig) (providerId : String) :
    List String :=
  accountsForProvider profile.accounts providerId

/-- A profile without accounts allows every account. -/
def clientProfileAllowedAccounts (profile : Option ClientProfileConfig) (providerId : String) :
    Option (List String) :=
  profile.bind fun profile =>
    if profile.accounts.isEmpty then none else some (profileAccountsForProvider profile providerId)

def combineAllowedAccounts : Option (List String) → Option (List String) → Option (List String)
  | none, none => none
  | some accounts, none | none, some accounts => some accounts
  | some left, some right => some (left.filter fun account => right.contains account)

def sessionKeys : List String := ["session_id", "switchback_session_id", "codex_session_id"]

/-- The first session key with a value, in the metadata and then in the passed-through one. -/
def sessionAffinityKey (req : AiRequest) : Option String :=
  match sessionKeys.findSome? fun key => (req.metadata.get key).filter fun v => v ≠ "" with
  | some value => some value
  | none =>
      match ((Json.obj req.passthrough).get "metadata").bind Json.asObject with
      | none => none
      | some metadata =>
          sessionKeys.findSome? fun key =>
            ((Json.obj metadata).getStr key).filter fun v => v ≠ ""

def highLossinessSchemaWarning (warnings : List String) : Option String :=
  warnings.find? fun warning =>
    ((Text.stripLit "schema_downlevel:" warning).or
      ((Text.splitOnce ": schema_downlevel:" warning).map Prod.snd)).any (Text.startsWith "high:")

/-- Transient errors that the same account is tried again for. -/
def retryable : ErrorClass → Bool
  | .timeout | .network | .serverError => true
  | _ => false

structure RetryConfig where
  maxRetries : ℕ := 0
  baseDelayMs : ℕ := 100
  maxDelayMs : ℕ := 2000

/-- Exponential backoff with a cap, in milliseconds. -/
def retryBackoff (retry : RetryConfig) (attempt : ℕ) : ℕ :=
  let factor := min (2 ^ (attempt - 1)) (2 ^ 64 - 1)
  min (min (retry.baseDelayMs * factor) (2 ^ 64 - 1)) retry.maxDelayMs

end Switchback
