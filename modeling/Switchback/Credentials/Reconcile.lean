import Mathlib.Data.Prod.Lex
import Mathlib.Data.String.Basic
import Mathlib.Order.WithBot
import Switchback.Credentials.Enrollments
import Switchback.Lib.OrdMap
import Switchback.Lib.Runs

/-!
# Reconciliation

One run of imports is composed with the stored snapshot into the next one.
-/

namespace Switchback

namespace Enrollment

open Lib Runs

/-- An alias, as it is looked up. -/
abbrev AliasKey := AliasScheme × String

/-- An alias by its scheme and value. -/
def NormalizedAlias.key (a : NormalizedAlias) : AliasKey := (a.scheme, a.value)

/-- The alias of a binding. -/
def AliasBinding.key (b : AliasBinding) : AliasKey := (b.scheme, b.normalizedValue)

/-- Is this alias bound to the account? -/
def ProviderAccountEnrollment.Holds (account : ProviderAccountEnrollment) (key : AliasKey) : Prop :=
  ∃ b ∈ account.aliases, b.key = key ∧ b.bindingState = .bound

instance (account : ProviderAccountEnrollment) (key : AliasKey) : Decidable (account.Holds key) :=
  inferInstanceAs (Decidable (∃ b ∈ account.aliases, _))

/-! ### The account of an observation -/

/-- The first of the aliases that proves an identity. -/
def uuidAlias (o : Observation) : Option NormalizedAlias :=
  o.aliases.find? fun a => a.scheme.strongIdentityProvider.isSome

/-- The first of the elements with the least key. -/
def minByKey {α : Type} (key : α → ℕ) : List α → Option α
  | [] => none
  | a :: l => some (l.foldl (fun best b => if key b < key best then b else best) a)

/-- The provider of the strongest alias, OpenAI where that has none. -/
def observationProvider (o : Observation) : String :=
  ((minByKey NormalizedAlias.rank o.aliases).bind fun a => a.scheme.provider).getD "openai"

/-- For each identity that is bound, its account; of several accounts it is the last. -/
def identityOwners (accounts : List ProviderAccountEnrollment) : AliasKey → Option String :=
  accounts.foldl
    (fun owners account =>
      account.aliases.foldl
        (fun owners b =>
          if b.scheme.strongIdentityProvider.isSome && b.bindingState = .bound then
            Function.update owners b.key (some account.id)
          else owners)
        owners)
    fun _ => none

/-- An identity that is new gets a hashed id. -/
def identityOwnersWith (env : Env) (observations : List Observation)
    (owners : AliasKey → Option String) : AliasKey → Option String :=
  observations.foldl
    (fun owners o =>
      match uuidAlias o with
      | some uuid =>
          match owners uuid.key with
          | some _ => owners
          | none =>
              Function.update owners uuid.key
                (some (deterministicId env (observationProvider o) uuid.value))
      | none => owners)
    owners

/-- The first account that one of the strong aliases is bound to, alias by alias. -/
def matchExisting (o : Observation) (accounts : List ProviderAccountEnrollment) : Option String :=
  (o.aliases.filter fun a => a.rank ≤ 3).findSome? fun a =>
    (accounts.find? fun account => account.Holds a.key).map ProviderAccountEnrollment.id

/-- The text that anchors an observation without a known account. -/
def anchorOf (o : Observation) : String :=
  match minByKey NormalizedAlias.rank o.aliases with
  | some a => o.source.debug ++ "\x00" ++ o.recordKey ++ "\x00" ++ a.value
  | none => o.source.debug ++ "\x00" ++ o.recordKey

/-- The account that an observation belongs to. -/
def assign (env : Env) (accounts : List ProviderAccountEnrollment)
    (owners : AliasKey → Option String) (o : Observation) : String :=
  match uuidAlias o with
  | some uuid => (owners uuid.key).getD ""
  | none =>
      match matchExisting o accounts with
      | some id => id
      | none => deterministicId env (observationProvider o) (anchorOf o)

/-- The accounts by id. -/
def accountMap (accounts : List ProviderAccountEnrollment) :
    OrdMap String ProviderAccountEnrollment :=
  OrdMap.ofList (accounts.map fun a => (a.id, a))

/-- The values of a map, in key order. -/
def values (m : OrdMap String ProviderAccountEnrollment) : List ProviderAccountEnrollment :=
  m.entries.map Prod.snd

/-- The records of the sources that could be read. -/
def observed (batches : List ImportBatch) : List Observation :=
  (batches.filter fun b => b.status = .ok).flatMap ImportBatch.observations

/-- Each observation with its account. -/
def assignments (env : Env) (current : ProviderAccountSnapshot) (batches : List ImportBatch) :
    List (Observation × String) :=
  let accounts := values (accountMap current.accounts)
  let owners := identityOwnersWith env (observed batches) (identityOwners accounts)
  (observed batches).map fun o => (o, assign env accounts owners o)

/-! ### What an observation adds to its account -/

/-- The accounts while observations are entered, one after the other. -/
structure Enrolling where
  accounts : OrdMap String ProviderAccountEnrollment
  strongOwner : AliasKey → Option String := fun _ => none
  conflicts : List String := []

/-- Does the account have this alias from this record? -/
def ProviderAccountEnrollment.Records (account : ProviderAccountEnrollment) (o : Observation)
    (a : NormalizedAlias) : Prop :=
  ∃ b ∈ account.aliases, b.source = o.source ∧ b.sourceRecordKey = o.recordKey ∧ b.key = a.key

instance (account : ProviderAccountEnrollment) (o : Observation) (a : NormalizedAlias) :
    Decidable (account.Records o a) :=
  inferInstanceAs (Decidable (∃ b ∈ account.aliases, _))

/-- Within a run a strong alias belongs to the first account that claims it. -/
def claim (strongOwner : AliasKey → Option String) (id : String) (a : NormalizedAlias) :
    AliasBindingState × (AliasKey → Option String) :=
  if a.rank ≤ 3 then
    match strongOwner a.key with
    | some owner =>
        if owner ≠ id then (.parkedConflict, strongOwner)
        else (.bound, Function.update strongOwner a.key (some id))
    | none => (.bound, Function.update strongOwner a.key (some id))
  else (.bound, strongOwner)

/-- The binding of an alias that was not seen before. -/
def newBinding (nowMs : ℤ) (o : Observation) (a : NormalizedAlias) (state : AliasBindingState) :
    AliasBinding where
  scheme := a.scheme
  normalizedValue := a.value
  display := a.display
  source := o.source
  sourceRecordKey := o.recordKey
  firstSeenAtMs := nowMs
  lastSeenAtMs := nowMs
  bindingState := state

/-- An alias of an observation, on its account. -/
def bindAlias (nowMs : ℤ) (o : Observation) (id : String)
    (s : ProviderAccountEnrollment × (AliasKey → Option String) × List String)
    (a : NormalizedAlias) :
    ProviderAccountEnrollment × (AliasKey → Option String) × List String :=
  let (state, strongOwner) := claim s.2.1 id a
  let conflicts :=
    if state = .parkedConflict then s.2.2 ++ [a.scheme.asStr ++ " alias collision"] else s.2.2
  if s.1.Records o a then (s.1, strongOwner, conflicts)
  else
    ({ s.1 with aliases := s.1.aliases ++ [newBinding nowMs o a state] }, strongOwner, conflicts)

/-- The account of an observation that has none. -/
def newEnrollment (revision : ℕ) (nowMs : ℤ) (o : Observation) (id : String) :
    ProviderAccountEnrollment where
  id := id
  provider := observationProvider o
  state := if (uuidAlias o).isSome then .enrolled else .parked
  aliases := []
  createdRevision := revision
  updatedRevision := revision
  createdAtMs := nowMs
  updatedAtMs := nowMs
  supersededBy := none

/-- The account of an observation, before its aliases. -/
def touch (revision : ℕ) (nowMs : ℤ) (o : Observation) (account : ProviderAccountEnrollment) :
    ProviderAccountEnrollment :=
  { account with
    state :=
      if (uuidAlias o).isSome && account.state ≠ .retired then .enrolled else account.state
    updatedRevision := revision
    updatedAtMs := nowMs }

/-- One observation is entered. -/
def enroll (revision : ℕ) (nowMs : ℤ) (s : Enrolling) (p : Observation × String) : Enrolling :=
  let account := touch revision nowMs p.1
    ((s.accounts.get p.2).getD (newEnrollment revision nowMs p.1 p.2))
  let (account, strongOwner, conflicts) :=
    p.1.aliases.foldl (bindAlias nowMs p.1 p.2) (account, s.strongOwner, s.conflicts)
  { accounts := s.accounts.insert p.2 account
    strongOwner := strongOwner
    conflicts := conflicts }

/-- All of them, from the accounts of the document. -/
def enrolled (env : Env) (current : ProviderAccountSnapshot) (batches : List ImportBatch)
    (revision : ℕ) (nowMs : ℤ) : Enrolling :=
  (assignments env current batches).foldl (enroll revision nowMs)
    { accounts := accountMap current.accounts }

/-! ### Credentials and capacity -/

/-- The source that a credential points to was read. -/
def credentialSourceReplaced (c : CredentialMetadata) (successful : List ImportSource) : Bool :=
  match c.pointer with
  | .codexActiveAuth => successful.contains .codexActiveAuth
  | .switchbackCodexRegistry _ => successful.contains .switchbackCodexRegistry
  | .configuredAccount _ _ => false

/-- The sources that could be read. -/
def successfulSources (batches : List ImportBatch) : List ImportSource :=
  (batches.filter fun b => b.status = .ok).map ImportBatch.source

/-- The credential of an observation replaces that of the same pointer. -/
def putCredential (accounts : OrdMap String ProviderAccountEnrollment)
    (credentials : List CredentialMetadata) (p : Observation × String) : List CredentialMetadata :=
  match p.1.credential with
  | none => credentials
  | some credential =>
      let credential := { credential with
        accountId := p.2
        readiness :=
          if (accounts.get p.2).any fun a => a.state ≠ .enrolled then .conflict
          else credential.readiness }
      credentials.filter (fun c => c.pointer ≠ credential.pointer) ++ [credential]

/-- The name of a pointer, as `{:?}` writes it; `quote` writes a text. -/
def CredentialPointer.debug (quote : String → String) : CredentialPointer → String
  | switchbackCodexRegistry slot =>
      "SwitchbackCodexRegistry \x7b slot: " ++ quote slot ++ ", json_pointer: AccessToken \x7d"
  | codexActiveAuth => "CodexActiveAuth \x7b json_pointer: AccessToken \x7d"
  | configuredAccount providerId accountId =>
      "ConfiguredAccount \x7b provider_id: " ++ quote providerId ++ ", account_id: " ++
        quote accountId ++ " \x7d"

/-- The credentials of the next document. -/
def credentialsAfter (env : Env) (current : ProviderAccountSnapshot) (batches : List ImportBatch)
    (accounts : OrdMap String ProviderAccountEnrollment) : List CredentialMetadata :=
  let kept := current.credentials.filter fun c =>
    !credentialSourceReplaced c (successfulSources batches)
  let credentials := (assignments env current batches).foldl (putCredential accounts) kept
  sortOn (fun c => toLex (c.accountId, c.pointer.debug env.quote)) credentials

/-- One sample for each window. -/
def flatten (capacity : List AccountCapacityHealth) : List AccountCapacityHealth :=
  capacity.flatMap fun health => health.windows.map fun window => { health with windows := [window] }

/-- What a sample is about. -/
abbrev SampleKey := String × Option String × CapacityWindowKind × ImportSource

/-- The group of a sample; a group keeps eight. -/
def sampleKey (sample : AccountCapacityHealth) : SampleKey :=
  let window := sample.windows.headD default
  (sample.accountId, sample.model, window.windowKind, window.source)

/-- Keep the first eight samples of each key. -/
def retainEight (samples : List AccountCapacityHealth) : List AccountCapacityHealth :=
  (samples.foldl
    (fun (s : List AccountCapacityHealth × (SampleKey → ℕ)) sample =>
      if 8 ≤ s.2 (sampleKey sample) then s
      else
        (s.1 ++ [sample], Function.update s.2 (sampleKey sample) (s.2 (sampleKey sample) + 1)))
    ([], fun _ => 0)).1

/-- Drop a sample that repeats the one before it. -/
def dedupBy {α : Type} (same : α → α → Bool) : List α → List α
  | [] => []
  | a :: l => a :: go a l
where
  go (last : α) : List α → List α
    | [] => []
    | b :: l => if same b last then go last l else b :: go b l

/-- Two samples of one moment that say the same. -/
def sameSample (a b : AccountCapacityHealth) : Bool :=
  decide (sampleKey a = sampleKey b) && decide (a.sampledAtMs = b.sampledAtMs) &&
    decide (a.sourceRevision = b.sourceRevision)

/-- The samples of an observation, under its account. -/
def putCapacity (capacity : List AccountCapacityHealth) (p : Observation × String) :
    List AccountCapacityHealth :=
  capacity ++ p.1.capacity.map fun health => { health with accountId := p.2 }

/-- A missing name goes first. -/
def optionKey (o : Option String) : WithBot String := o

/-- The samples of the next document. -/
def capacityAfter (env : Env) (current : ProviderAccountSnapshot) (batches : List ImportBatch) :
    List AccountCapacityHealth :=
  let samples := flatten ((assignments env current batches).foldl putCapacity current.capacity)
  let latest := sortOn (fun a => OrderDual.toDual
    (toLex (a.sampledAtMs, toLex (a.ingestedAtMs, a.sourceRevision)))) samples
  let ordered := sortOn (fun a => toLex (a.accountId, toLex (optionKey a.model,
      toLex ((a.windows.headD default).windowKind.ord.1,
        toLex ((a.windows.headD default).windowKind.ord.2, a.sampledAtMs)))))
    (retainEight latest)
  dedupBy sameSample ordered

/-- The clients of the next document. -/
def activeClientsAfter (env : Env) (current : ProviderAccountSnapshot) (batches : List ImportBatch)
    (nowMs : ℤ) : List ActiveClientState :=
  let assigned := assignments env current batches
  match assigned.find? fun p => p.1.source = .codexActiveAuth && p.1.active with
  | some (o, id) =>
      [{ activeAccount := some id
         activeSource := .codexActiveAuth
         activeRuns := ((assigned.find? fun p => p.1.source = .switchbackCodexRegistry).map
            fun p => p.1.runs).getD []
         sourceRevision := o.fingerprint
         observedAtMs := nowMs
         freshness := .fresh }]
  | none =>
      [{ activeAccount := none
         activeSource := .unknown
         activeRuns := []
         sourceRevision := ""
         observedAtMs := nowMs
         freshness := .unknown }]

/-- The sources of the next document. -/
def sourcesAfter (current : ProviderAccountSnapshot) (batches : List ImportBatch) (revision : ℕ)
    (nowMs : ℤ) : List ImportSourceStatus :=
  batches.map fun b =>
    { source := b.source
      fingerprint := b.fingerprint
      status := b.status
      observedAtMs := nowMs
      lastGoodRevision :=
        if b.status = .ok then some revision
        else (current.sources.find? fun s => s.source = b.source).bind fun s => s.lastGoodRevision
      detail := b.detail }

/-! ### The next snapshot -/

/-- The bindings of an account in a fixed order. -/
def sortAliases (account : ProviderAccountEnrollment) : ProviderAccountEnrollment :=
  { account with
    aliases := sortOn (fun b => toLex (b.scheme.rank, toLex (b.source.ord, b.normalizedValue)))
      account.aliases }

/-- The accounts of the next document. -/
def accountsAfter (accounts : OrdMap String ProviderAccountEnrollment) :
    List ProviderAccountEnrollment :=
  sortOn (fun a => toLex (a.provider, a.id)) ((values accounts).map sortAliases)

/-- The next document. -/
def compose (env : Env) (current : ProviderAccountSnapshot) (batches : List ImportBatch)
    (revision : ℕ) (nowMs : ℤ) : ProviderAccountSnapshot :=
  let enrolling := enrolled env current batches revision nowMs
  { revision := revision
    freshness :=
      if batches.all fun b => b.status = .ok || b.status = .missing then .fresh else .error
    accounts := accountsAfter enrolling.accounts
    credentials := credentialsAfter env current batches enrolling.accounts
    activeClients := activeClientsAfter env current batches nowMs
    capacity := capacityAfter env current batches
    sources := sourcesAfter current batches revision nowMs
    conflicts := enrolling.conflicts }

/-- The status as a conflict names it. -/
def statusText : SourceReadStatus → String
  | .missing => "missing"
  | .malformed => "malformed"
  | .unsafePermissions => "unsafe_permissions"
  | .concurrentWrite => "concurrent_write"
  | .error => "error"
  | .ok => "ok"

/-- What a run read, as one hash; the texts are sorted. -/
def inputDigest (env : Env) (batches : List ImportBatch) : String :=
  let tuples := batches.map fun b =>
    b.source.debug ++ "\x00configured\x00" ++ b.fingerprint.getD (statusText b.status) ++
      "\x00provider-import/v0"
  hexDigest env ((sortOn id tuples).flatMap utf8 ++ utf8 normalizationVersion ++ utf8 policyVersion)

/-- What a run would do, before it does it. -/
structure ReconcilePlan where
  baseRevision : ℕ
  digest : String
  changed : Bool
  snapshot : ProviderAccountSnapshot

/-- A run that read what the last one read changes nothing. -/
def build (env : Env) (batches : List ImportBatch) (nowMs : ℤ) (current : ProviderAccountSnapshot)
    (currentDigest : Option String) : ReconcilePlan :=
  let digest := inputDigest env batches
  if 0 < current.revision ∧ currentDigest = some digest then
    { baseRevision := current.revision
      digest := digest
      changed := false
      snapshot := current }
  else
    { baseRevision := current.revision
      digest := digest
      changed := true
      snapshot := compose env current batches (current.revision + 1) nowMs }

end Enrollment

end Switchback
