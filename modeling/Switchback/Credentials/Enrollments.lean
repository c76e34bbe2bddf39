import Switchback.Lib.Ieee
import Switchback.Lib.Text
import Switchback.Lib.Utf8

/-!
# Provider accounts

The accounts that imports from local tools enroll, and the names by which they are known.
-/

namespace Switchback

namespace Enrollment

open Lib

/-! ### Aliases -/

/-- What kind of identity an alias is. -/
inductive AliasScheme where
  | openAiAccountUuid
  | codexBarAccountKey
  | codexMultiAuthAccountId
  | openAiOrgId
  | anthropicAccountUuid
  | anthropicOrgUuid
  | zaiTokenAccountId
  | email
  | label
  deriving DecidableEq, Inhabited

namespace AliasScheme

/-- The weaker schemes come later. -/
def rank : AliasScheme → ℕ
  | openAiAccountUuid => 1
  | anthropicAccountUuid => 1
  | codexBarAccountKey => 2
  | codexMultiAuthAccountId => 3
  | zaiTokenAccountId => 3
  | openAiOrgId => 4
  | anthropicOrgUuid => 4
  | email => 5
  | label => 6

/-- The scheme as it is stored. -/
def asStr : AliasScheme → String
  | openAiAccountUuid => "openai.account_uuid"
  | codexBarAccountKey => "codexbar.account_key"
  | codexMultiAuthAccountId => "codex_multi_auth.account_id"
  | openAiOrgId => "openai.org_id"
  | anthropicAccountUuid => "anthropic.account_uuid"
  | anthropicOrgUuid => "anthropic.org_uuid"
  | zaiTokenAccountId => "zai.token_account_id"
  | email => "email"
  | label => "label"

/-- The provider that owns the scheme; an email or a label is any provider's. -/
def provider : AliasScheme → Option String
  | openAiAccountUuid | openAiOrgId | codexBarAccountKey | codexMultiAuthAccountId => some "openai"
  | anthropicAccountUuid | anthropicOrgUuid => some "anthropic"
  | zaiTokenAccountId => some "zai"
  | email | label => none

/-- The schemes that prove an identity across sources. -/
def strongIdentityProvider : AliasScheme → Option String
  | openAiAccountUuid => some "openai"
  | anthropicAccountUuid => some "anthropic"
  | zaiTokenAccountId => some "zai"
  | _ => none

end AliasScheme

/-- An alias in normal form, with the rank of its scheme. -/
structure NormalizedAlias where
  scheme : AliasScheme
  value : String
  display : String
  rank : ℕ := scheme.rank
  rank_eq : rank = scheme.rank := by rfl
  deriving DecidableEq

/-- Where enrollments are imported from. -/
inductive ImportSource where
  | codexActiveAuth
  | switchbackCodexRegistry
  | codexMultiAuth
  | codexMultiAuthQuota
  | codexBar
  | claudeAuth
  | codexBarConfig
  deriving DecidableEq, Inhabited

namespace ImportSource

/-- The source as it is stored. -/
def asStr : ImportSource → String
  | codexActiveAuth => "codex_active_auth"
  | switchbackCodexRegistry => "switchback_codex_registry"
  | codexMultiAuth => "codex_multi_auth"
  | codexMultiAuthQuota => "codex_multi_auth_quota"
  | codexBar => "codex_bar"
  | claudeAuth => "claude_auth"
  | codexBarConfig => "codexbar_config"

/-- The name of the variant, as `{:?}` writes it. -/
def debug : ImportSource → String
  | codexActiveAuth => "CodexActiveAuth"
  | switchbackCodexRegistry => "SwitchbackCodexRegistry"
  | codexMultiAuth => "CodexMultiAuth"
  | codexMultiAuthQuota => "CodexMultiAuthQuota"
  | codexBar => "CodexBar"
  | claudeAuth => "ClaudeAuth"
  | codexBarConfig => "CodexBarConfig"

/-- The place of the variant in the derived order. -/
def ord : ImportSource → ℕ
  | codexActiveAuth => 0
  | switchbackCodexRegistry => 1
  | codexMultiAuth => 2
  | codexMultiAuthQuota => 3
  | codexBar => 4
  | claudeAuth => 5
  | codexBarConfig => 6

end ImportSource

/-- Whether a binding counts. -/
inductive AliasBindingState where
  | bound
  | parkedConflict
  | superseded
  deriving DecidableEq, Inhabited

/-- An alias of an enrollment, as one source has it. -/
structure AliasBinding where
  scheme : AliasScheme
  normalizedValue : String
  display : String
  source : ImportSource
  sourceRecordKey : String
  firstSeenAtMs : ℤ
  lastSeenAtMs : ℤ
  bindingState : AliasBindingState
  deriving DecidableEq, Inhabited

/-- What the authority refuses. -/
inductive AuthorityError where
  | absent
  | invalidAlias (reason : String)
  | revisionConflict
  | staleRevision (expected current : ℕ)
  | resolution (reason : String)
  | sqlite
  deriving DecidableEq

/-! ### Hashes -/

/-- What the code takes from elsewhere: the hash, the Unicode tables and the quoting of `{:?}`. -/
structure Env where
  sha256 : List UInt8 → List UInt8
  nfc : String → String
  toLowercase : String → String
  quote : String → String

/-- Part of every digest of an alias. -/
def normalizationVersion : String := "provider-alias/v1"

/-- Part of every digest of a plan. -/
def policyVersion : String := "provider-reconciliation/v0"

/-- The bytes of a text. -/
def utf8 (s : String) : List UInt8 := Utf8.encode s.toList

/-- The two digits of a byte. -/
def hexDigits (b : UInt8) : List Char := [Nat.digitChar (b.toNat / 16), Nat.digitChar (b.toNat % 16)]

/-- The digest as text. -/
def hexDigest (env : Env) (bytes : List UInt8) : String :=
  String.ofList ((env.sha256 bytes).flatMap hexDigits)

/-- The digits in base 32. -/
def base32Alphabet : List Char := "abcdefghijklmnopqrstuvwxyz234567".toList

/-- Take the five upper bits of a buffer while it holds that many. -/
def base32Drain (buffer : ℕ) : ℕ → List Char × ℕ
  | bits + 5 =>
      let rest := base32Drain buffer bits
      (base32Alphabet.getD (buffer / 2 ^ bits % 32) 'a' :: rest.1, rest.2)
  | bits => ([], bits)

/-- The digits of the bits in the buffer and of the bytes that follow. -/
def base32Loop (buffer bits : ℕ) : List UInt8 → List Char
  | [] => if 0 < bits then [base32Alphabet.getD (buffer * 2 ^ (5 - bits) % 32) 'a'] else []
  | byte :: bytes =>
      let buffer := (buffer * 256 + byte.toNat) % 2 ^ 32
      let drained := base32Drain buffer (bits + 8)
      drained.1 ++ base32Loop buffer drained.2 bytes

/-- Lower-case base 32 without padding. -/
def base32Lower (bytes : List UInt8) : List Char := base32Loop 0 0 bytes

/-- The id of an account, from its provider and the text that anchors it. -/
def deterministicId (env : Env) (provider anchor : String) : String :=
  String.ofList ("pa_".toList ++ (base32Lower (env.sha256
    (utf8 "switchback-provider-account\x00" ++ utf8 provider ++ [0] ++ utf8 normalizationVersion ++
      [0] ++ utf8 anchor))).take 26)

/-- A binding is named by its source, its record and its alias. -/
def bindingId (env : Env) (binding : AliasBinding) : String :=
  let material := binding.source.asStr ++ "\x00" ++ binding.sourceRecordKey ++ "\x00" ++
    binding.scheme.asStr ++ "\x00" ++ binding.normalizedValue
  "pab_" ++ String.ofList ((hexDigest env (utf8 material)).toList.take 24)

/-! ### Normal forms -/

/-- What is shown of an opaque value. -/
def mask (value : String) : String := String.ofList (value.toList.take 4) ++ "…"

/-- A hexadecimal digit of either case. -/
def isAsciiHexdigit (c : Char) : Bool :=
  ('0' ≤ c && c ≤ '9') || ('a' ≤ c && c ≤ 'f') || ('A' ≤ c && c ≤ 'F')

/-- Thirty-six characters, hyphens at four places and hexadecimal digits elsewhere. -/
def normalizeUuid (value : String) : Except AuthorityError String :=
  let value := Text.toAsciiLowercase value
  let chars := value.toList
  if chars.length = 36 ∧
      (List.range 36).all (fun i =>
        if i = 8 ∨ i = 13 ∨ i = 18 ∨ i = 23 then chars.getD i ' ' = '-'
        else isAsciiHexdigit (chars.getD i ' ')) then
    .ok value
  else .error (.invalidAlias "invalid UUID")

/-- What is shown of a UUID. -/
def uuidDisplay (value : String) : String :=
  String.ofList (value.toList.take 4) ++ "…" ++
    String.ofList (value.toList.drop (value.toList.length - 4))

/-- The value and the display of an alias of a scheme. -/
def normalizeValue (env : Env) (trimmed : String) :
    AliasScheme → Except AuthorityError (String × String)
  | .openAiAccountUuid | .anthropicAccountUuid | .anthropicOrgUuid | .zaiTokenAccountId => do
      let value ← normalizeUuid trimmed
      pure (value, uuidDisplay value)
  | .openAiOrgId =>
      if !(Text.startsWith "org-" trimmed || Text.startsWith "org_" trimmed) ||
          decide (Text.len trimmed < 5) then
        .error (.invalidAlias "invalid OpenAI org id")
      else .ok (trimmed, mask trimmed)
  | .codexBarAccountKey =>
      let parts := trimmed.toList.splitOn ':'
      if parts.length < 4 ∨ parts.head? ≠ some "codex".toList ∨ parts[1]? ≠ some "v1".toList ∨
          [] ∈ parts then
        .error (.invalidAlias "invalid CodexBar account key")
      else
        .ok (trimmed, "codex:v1:***:" ++ mask (String.ofList (parts.getLastD [])))
  | .codexMultiAuthAccountId => .ok (trimmed, mask trimmed)
  | .email =>
      if 320 < Text.len trimmed ∨ '@' ∉ trimmed.toList then
        .error (.invalidAlias "invalid email hint")
      else
        let normalized := env.toLowercase (env.nfc trimmed)
        let local_ := normalized.toList.takeWhile (· ≠ '@')
        .ok ("email_sha256:" ++ hexDigest env (utf8 normalized),
          String.ofList [local_.headD '*'] ++ "***@***")
  | .label =>
      if 128 < Text.len trimmed ∨ trimmed = "." ∨ trimmed = ".." ∨ '/' ∈ trimmed.toList ∨
          '\\' ∈ trimmed.toList then
        .error (.invalidAlias "invalid label")
      else .ok (env.nfc trimmed, env.nfc trimmed)

/-- The alias of a raw value, which is bounded and of the form of its scheme. -/
def normalizeAlias (env : Env) (scheme : AliasScheme) (raw : String) :
    Except AuthorityError NormalizedAlias :=
  if 1024 < Text.len raw ∨ '\x00' ∈ raw.toList then
    .error (.invalidAlias "alias exceeds bounds")
  else if Text.trim raw = "" then .error (.invalidAlias "alias is empty")
  else do
    let (value, display) ← normalizeValue env (Text.trim raw) scheme
    pure { scheme := scheme, value := value, display := display }

/-! ### What is stored of an account -/

/-- Where an enrollment stands. -/
inductive EnrollmentState where
  | enrolled
  | parked
  | retired
  deriving DecidableEq

/-- An account of a provider that is known to the authority. -/
structure ProviderAccountEnrollment where
  id : String
  provider : String
  state : EnrollmentState
  aliases : List AliasBinding
  createdRevision : ℕ
  updatedRevision : ℕ
  createdAtMs : ℤ
  updatedAtMs : ℤ
  supersededBy : Option String
  deriving DecidableEq

/-- Where a credential is kept. -/
inductive CredentialPointer where
  | switchbackCodexRegistry (slot : String)
  | codexActiveAuth
  | configuredAccount (providerId accountId : String)
  deriving DecidableEq

/-- What a credential is. -/
inductive CredentialKind where
  | oAuth
  | apiKey
  deriving DecidableEq

/-- Whether a credential can be used. -/
inductive CredentialReadiness where
  | ready
  | missing
  | expired
  | conflict
  | stale
  deriving DecidableEq

/-- A credential of an account, without its secret. -/
structure CredentialMetadata where
  accountId : String
  pointer : CredentialPointer
  credentialKind : CredentialKind
  accessPresent : Bool
  refreshPresent : Bool
  idTokenPresent : Bool
  expiresAtMs : Option ℤ
  sourceRevision : String
  observedAtMs : ℤ
  readiness : CredentialReadiness
  deriving DecidableEq

/-- How old what is known is. -/
inductive Freshness where
  | fresh
  | stale
  | unknown
  | error
  deriving DecidableEq

/-- Which limit a window is about. -/
inductive CapacityWindowKind where
  | primary
  | secondary
  | requestsPerMinute
  | tokensPerMinute
  | concurrentSessions
  | providerDefined (name : String)
  deriving DecidableEq, Inhabited

/-- The place of the variant in the derived order, and its name. -/
def CapacityWindowKind.ord : CapacityWindowKind → ℕ × String
  | primary => (0, "")
  | secondary => (1, "")
  | requestsPerMinute => (2, "")
  | tokensPerMinute => (3, "")
  | concurrentSessions => (4, "")
  | providerDefined name => (5, name)

/-- How much of a limit is used. -/
inductive CapacityUsed where
  | percent (usedPercent : F64)
  | requests (used : ℕ) (limit : Option ℕ)
  | tokens (used : ℕ) (limit : Option ℕ)
  | concurrent (inUse : ℕ) (limit : Option ℕ)
  | unknown
  deriving DecidableEq, Inhabited

/-- When a limit starts anew. -/
inductive CapacityReset where
  | at_ (resetsAtMs : ℤ)
  | rolling
  | unknown
  deriving DecidableEq, Inhabited

/-- One limit of an account, as it was sampled. -/
structure CapacityWindow where
  windowKind : CapacityWindowKind
  windowMinutes : Option ℕ
  used : CapacityUsed
  resetsAt : CapacityReset
  source : ImportSource
  deriving DecidableEq, Inhabited

/-- A sample of the limits of an account. -/
structure AccountCapacityHealth where
  accountId : String
  model : Option String
  windows : List CapacityWindow
  sampledAtMs : ℤ
  ingestedAtMs : ℤ
  sourceRevision : String
  freshness : Freshness
  deriving DecidableEq

/-- A client process that runs. -/
structure ActiveRun where
  pid : ℕ
  accountLabel : String
  started : String
  deriving DecidableEq

/-- Where the active account is read. -/
inductive ActiveAccountSource where
  | codexActiveAuth
  | unknown
  deriving DecidableEq

/-- What the clients on the machine use. -/
structure ActiveClientState where
  activeAccount : Option String
  activeSource : ActiveAccountSource
  activeRuns : List ActiveRun
  sourceRevision : String
  observedAtMs : ℤ
  freshness : Freshness
  deriving DecidableEq

/-- How the read of a source went. -/
inductive SourceReadStatus where
  | ok
  | missing
  | malformed
  | unsafePermissions
  | concurrentWrite
  | error
  deriving DecidableEq

/-- What is kept of the last read of a source. -/
structure ImportSourceStatus where
  source : ImportSource
  fingerprint : Option String
  status : SourceReadStatus
  observedAtMs : ℤ
  lastGoodRevision : Option ℕ
  detail : Option String
  deriving DecidableEq

/-- The document of the authority. -/
structure ProviderAccountSnapshot where
  revision : ℕ := 0
  freshness : Freshness := .unknown
  accounts : List ProviderAccountEnrollment := []
  credentials : List CredentialMetadata := []
  activeClients : List ActiveClientState := []
  capacity : List AccountCapacityHealth := []
  sources : List ImportSourceStatus := []
  conflicts : List String := []
  deriving DecidableEq

/-- One record of a source. -/
structure Observation where
  source : ImportSource
  recordKey : String
  fingerprint : String
  aliases : List NormalizedAlias
  credential : Option CredentialMetadata
  capacity : List AccountCapacityHealth
  active : Bool
  runs : List ActiveRun
  deriving DecidableEq

/-- What a read of a source has brought. -/
structure ImportBatch where
  source : ImportSource
  fingerprint : Option String
  status : SourceReadStatus
  detail : Option String
  observations : List Observation

end Enrollment

end Switchback
