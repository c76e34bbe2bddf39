import Switchback.Credentials.Reconcile

/-!
# The provider-account authority

The stored snapshots and the commands on them.
-/

namespace Switchback

namespace Enrollment

open Lib

/-- A question for the account behind an alias. -/
structure AccountResolutionQuery where
  provider : String
  client : String
  aliasScheme : AliasScheme
  aliasValue : String
  expectedRevision : Option ℕ

/-- Its answer. -/
structure AccountResolution where
  authorityRevision : ℕ
  accountId : String
  credentialPointer : CredentialPointer

/-- The first account of the provider that the alias is bound to; a label counts only where the
registry gave it. -/
def resolveAccount (query : AccountResolutionQuery) (normalized : String)
    (accounts : List ProviderAccountEnrollment) : Option ProviderAccountEnrollment :=
  accounts.find? fun a => a.provider = query.provider ∧ ∃ b ∈ a.aliases,
    b.key = (query.aliasScheme, normalized) ∧ b.bindingState = .bound ∧
      (query.aliasScheme ≠ .label ∨ b.source = .switchbackCodexRegistry)

/-- A ready registry credential of the account, by preference that of the label asked for. -/
def resolveCredential (query : AccountResolutionQuery) (accountId : String)
    (credentials : List CredentialMetadata) : Option CredentialMetadata :=
  let ready := credentials.filter fun c => c.accountId = accountId ∧ c.readiness = .ready
  (ready.find? fun c =>
      match c.pointer, query.aliasScheme with
      | .switchbackCodexRegistry slot, .label => slot = Text.trim query.aliasValue
      | _, _ => false).or
    (ready.find? fun c => match c.pointer with
      | .switchbackCodexRegistry _ => true
      | _ => false)

/-- The answer of a snapshot. -/
def resolveIn (query : AccountResolutionQuery) (normalized : String)
    (snapshot : ProviderAccountSnapshot) : Except AuthorityError AccountResolution :=
  match resolveAccount query normalized snapshot.accounts with
  | none => .error (.resolution "alias does not identify an account")
  | some account =>
      if account.state ≠ .enrolled then .error (.resolution "account is not enrolled")
      else if account.aliases.any fun b => b.bindingState = .parkedConflict then
        .error (.resolution "account has conflicting bindings")
      else
        match resolveCredential query account.id snapshot.credentials with
        | none =>
            .error (.resolution "no fresh, conflict-free Switchback registry credential")
        | some credential =>
            .ok
              { authorityRevision := snapshot.revision
                accountId := account.id
                credentialPointer := credential.pointer }

/-! ### Decisions of an operator -/

/-- Change the first element that meets a condition. -/
def updateFirst {α : Type} (p : α → Bool) (f : α → α) : List α → List α
  | [] => []
  | a :: l => if p a then f a :: l else a :: updateFirst p f l

def AliasBinding.rebound (b : AliasBinding) : AliasBinding := { b with bindingState := .bound }

/-- The survivor of a merge, and the account that it absorbs. -/
def ProviderAccountEnrollment.absorb (account : ProviderAccountEnrollment) (revision : ℕ)
    (moved : List AliasBinding) : ProviderAccountEnrollment :=
  { account with
    aliases := account.aliases ++ moved.map AliasBinding.rebound
    state := .enrolled
    updatedRevision := revision }

def ProviderAccountEnrollment.retire (account : ProviderAccountEnrollment) (revision : ℕ)
    (into : String) : ProviderAccountEnrollment :=
  { account with
    state := .retired
    supersededBy := some into
    updatedRevision := revision }

/-- Fold an account into another. -/
def merge (snapshot : ProviderAccountSnapshot) (source into : String) :
    Except AuthorityError ProviderAccountSnapshot :=
  if source = into then .error (.resolution "merge source and survivor must differ")
  else
    match snapshot.accounts.find? fun a => a.id = source with
    | none => .error (.resolution "merge source missing")
    | some absorbed =>
        if (snapshot.accounts.find? fun a => a.id = into).isNone then
          .error (.resolution "merge survivor missing")
        else
          let accounts := updateFirst (fun a => a.id = into)
            (fun a => a.absorb (snapshot.revision + 1) absorbed.aliases) snapshot.accounts
          .ok { snapshot with
            accounts := updateFirst (fun a => a.id = source)
              (fun a => a.retire (snapshot.revision + 1) into) accounts
            credentials := snapshot.credentials.map fun c =>
              if c.accountId = source then { c with accountId := into } else c
            capacity := snapshot.capacity.map fun c =>
              if c.accountId = source then { c with accountId := into } else c }

def AliasBinding.OfRecord (b selected : AliasBinding) : Prop :=
  b.source = selected.source ∧ b.sourceRecordKey = selected.sourceRecordKey

instance (b selected : AliasBinding) : Decidable (b.OfRecord selected) :=
  inferInstanceAs (Decidable (_ ∧ _))

/-- What a split leaves of an account. -/
def ProviderAccountEnrollment.without (account : ProviderAccountEnrollment)
    (selected : AliasBinding) : ProviderAccountEnrollment :=
  { account with aliases := account.aliases.filter fun b => ¬b.OfRecord selected }

/-- The account that the aliases of one record make when they are split off. -/
def splitAccount (env : Env) (revision : ℕ) (nowMs : ℤ) (selected : AliasBinding)
    (moved : List AliasBinding) : ProviderAccountEnrollment :=
  let anchor := ((minByKey (fun p : ℕ × AliasBinding => p.1)
    (moved.map fun b => (b.scheme.rank, b))).map Prod.snd).getD selected
  let provider := anchor.scheme.provider.getD "openai"
  { id := deterministicId env provider ("split\x00" ++ selected.source.asStr ++ "\x00" ++
      selected.sourceRecordKey ++ "\x00" ++ anchor.scheme.asStr ++ "\x00" ++
      anchor.normalizedValue)
    provider := provider
    state :=
      if moved.any fun b => b.scheme.strongIdentityProvider.isSome then .enrolled else .parked
    aliases := moved
    createdRevision := revision
    updatedRevision := revision
    createdAtMs := nowMs
    updatedAtMs := nowMs
    supersededBy := none }

/-- Does the credential come from the record that is split off? -/
def belongsTo (selected : AliasBinding) (c : CredentialMetadata) : Bool :=
  match c.pointer with
  | .switchbackCodexRegistry slot =>
      selected.source = .switchbackCodexRegistry && slot = selected.sourceRecordKey
  | .codexActiveAuth => selected.source = .codexActiveAuth
  | .configuredAccount _ _ => false

/-- Give a binding an account of its own. -/
def split (env : Env) (nowMs : ℤ) (snapshot : ProviderAccountSnapshot) (account binding : String) :
    Except AuthorityError ProviderAccountSnapshot :=
  match snapshot.accounts.find? fun a => a.id = account with
  | none => .error (.resolution "split account missing")
  | some whole =>
      match whole.aliases.find? fun b => bindingId env b = binding with
      | none => .error (.resolution "split binding missing")
      | some selected =>
          let moved := whole.aliases.filter fun b => b.OfRecord selected
          let part := splitAccount env (snapshot.revision + 1) nowMs selected moved
          .ok { snapshot with
            accounts := updateFirst (fun a => a.id = account) (fun a => a.without selected)
              snapshot.accounts ++ [part]
            credentials := snapshot.credentials.map fun c =>
              if belongsTo selected c then { c with accountId := part.id } else c }

/-- The commands of an operator. -/
inductive AdjudicationCommand where
  | merge (source into : String) (expectedRevision : ℕ)
  | split (account binding : String) (expectedRevision : ℕ)

def AdjudicationCommand.expectedRevision : AdjudicationCommand → ℕ
  | merge _ _ expectedRevision => expectedRevision
  | split _ _ expectedRevision => expectedRevision

/-! ### The store -/

/-- A row of the store. -/
structure Revision where
  inputDigest : String
  snapshot : ProviderAccountSnapshot
  deriving DecidableEq

/-- The latest revision, if there is one. -/
structure AuthorityStore where
  latest : Option Revision := none
  deriving DecidableEq

namespace AuthorityStore

/-- The newest row's revision and digest. -/
def currentRevision (store : AuthorityStore) : ℕ × Option String :=
  match store.latest with
  | some row => (row.snapshot.revision, some row.inputDigest)
  | none => (0, none)

/-- The newest snapshot. -/
def snapshot (store : AuthorityStore) : Except AuthorityError ProviderAccountSnapshot :=
  match store.latest with
  | some row => .ok row.snapshot
  | none => .error .absent

end AuthorityStore

/-- The primary keys of the tables that a snapshot is written to. -/
def storable (s : ProviderAccountSnapshot) : Bool :=
  (s.accounts.map ProviderAccountEnrollment.id).Nodup &&
    s.accounts.all (fun a =>
      (a.aliases.map fun b => (b.key, b.source, b.sourceRecordKey)).Nodup) &&
    (s.credentials.map fun c => (c.accountId, c.pointer)).Nodup &&
    (s.sources.map ImportSourceStatus.source).Nodup

namespace AuthorityStore

/-- Store a plan that was built on the newest revision. -/
def apply (store : AuthorityStore) (plan : ReconcilePlan) : Except AuthorityError AuthorityStore :=
  if store.currentRevision.1 ≠ plan.baseRevision then .error .revisionConflict
  else if storable plan.snapshot then
    .ok { latest := some { inputDigest := plan.digest, snapshot := plan.snapshot } }
  else .error .sqlite

/-- The snapshot that a run of imports starts from. -/
def current (store : AuthorityStore) : ProviderAccountSnapshot :=
  match store.latest with
  | some row => if row.snapshot.revision = 0 then {} else row.snapshot
  | none => {}

/-- Import batches and store what they make. -/
def reconcile (env : Env) (store : AuthorityStore) (batches : List ImportBatch) (nowMs : ℤ)
    (dryRun : Bool) : Except AuthorityError AuthorityStore :=
  let plan := build env batches nowMs store.current store.currentRevision.2
  if dryRun || !plan.changed then .ok store else store.apply plan

/-- Every account that a decision touched gets its time. -/
def stamp (nowMs : ℤ) (snapshot : ProviderAccountSnapshot) (revision : ℕ) :
    ProviderAccountSnapshot :=
  { snapshot with
    revision := revision
    accounts := snapshot.accounts.map fun a =>
      if a.updatedRevision = revision then { a with updatedAtMs := nowMs } else a }

/-- A command on a snapshot. -/
def carryOut (env : Env) (nowMs : ℤ) (snapshot : ProviderAccountSnapshot) :
    AdjudicationCommand → Except AuthorityError ProviderAccountSnapshot
  | .merge source into _ => merge snapshot source into
  | .split account binding _ => split env nowMs snapshot account binding

/-- A command on the store. -/
def adjudicate (env : Env) (store : AuthorityStore) (command : AdjudicationCommand) (nowMs : ℤ) :
    Except AuthorityError AuthorityStore := do
  let snapshot ← store.snapshot
  if command.expectedRevision ≠ snapshot.revision then
    .error (.staleRevision command.expectedRevision snapshot.revision)
  else do
    let decided ← carryOut env nowMs snapshot command
    store.apply
      { baseRevision := snapshot.revision
        digest := "adjudication:" ++ toString (snapshot.revision + 1)
        changed := true
        snapshot := stamp nowMs decided (snapshot.revision + 1) }

/-- A question to the store. -/
def resolve (env : Env) (store : AuthorityStore) (query : AccountResolutionQuery) :
    Except AuthorityError AccountResolution := do
  let snapshot ← store.snapshot
  if query.expectedRevision.any fun expected => expected ≠ snapshot.revision then
    .error (.staleRevision (query.expectedRevision.getD 0) snapshot.revision)
  else if query.provider ≠ "openai" ∨ query.client ≠ "codex" then
    .error (.resolution "v0 supports only provider=openai client=codex")
  else do
    let normalized ← normalizeAlias env query.aliasScheme query.aliasValue
    resolveIn query normalized.value snapshot

end AuthorityStore

/-- The calls that write. -/
inductive Action where
  | reconcile (batches : List ImportBatch) (nowMs : ℤ) (dryRun : Bool)
  | adjudicate (command : AdjudicationCommand) (nowMs : ℤ)

/-- One writing call. -/
def submit (env : Env) (store : AuthorityStore) : Action → Except AuthorityError AuthorityStore
  | .reconcile batches nowMs dryRun => store.reconcile env batches nowMs dryRun
  | .adjudicate command nowMs => store.adjudicate env command nowMs

/-- What fails leaves the store as it is. -/
def next (env : Env) (store : AuthorityStore) (action : Action) : AuthorityStore :=
  match submit env store action with
  | .ok store => store
  | .error _ => store

theorem next_of_ok {env : Env} {store store' : AuthorityStore} {action : Action}
    (h : submit env store action = .ok store') : next env store action = store' := by
  rw [next, h]

theorem next_of_error {env : Env} {store : AuthorityStore} {action : Action} {e : AuthorityError}
    (h : submit env store action = .error e) : next env store action = store := by
  rw [next, h]

end Enrollment

end Switchback
