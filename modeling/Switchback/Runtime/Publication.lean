import Switchback.Lib.Ieee
import Switchback.Lib.Keyed
import Switchback.Lib.Machine

/-!
# Publishing a config

The engine serves from one snapshot: a config, what it compiles to, and a revision.  Publishing and
reloading a config and changing the knobs replace the snapshot under one lock, and write a revision
record and an audit entry to the state store.
-/

namespace Switchback

namespace Publication

open Lib

/-! ### The state store -/

structure RevisionRecord where
  revision : ℕ
  configHash : String
  source : String
  createdAtMs : ℤ
  deriving DecidableEq

structure AuditEntry where
  revision : ℕ
  action : String
  detail : String
  actorRole : Option String
  actorTenant : Option String
  actorProject : Option String
  source : String
  objectId : Option String
  createdAtMs : ℤ

structure AuditContext where
  source : String
  detail : String
  objectId : Option String := none
  actorRole : Option String := none
  actorTenant : Option String := none
  actorProject : Option String := none

/-- The tables of the store that hold the history of the config. -/
structure HistoryStore where
  revisions : KeyedLog RevisionRecord.revision := KeyedLog.empty
  audit : List AuditEntry := []

namespace HistoryStore

def recordRevision (store : HistoryStore) (rec : RevisionRecord) : HistoryStore :=
  { store with revisions := store.revisions.insertOrReplace rec }

def recordAudit (store : HistoryStore) (entry : AuditEntry) : HistoryStore :=
  { store with audit := store.audit ++ [entry] }

def getRevision (store : HistoryStore) (revision : ℕ) : Option RevisionRecord :=
  firstWith RevisionRecord.revision revision store.revisions.rows

/-- Both writes. -/
def record (store : HistoryStore) (rec : RevisionRecord) (entry : AuditEntry) : HistoryStore :=
  (store.recordRevision rec).recordAudit entry

/-- Both writes in one transaction; `fault` is the error of a statement or a commit that fails. -/
def recordRevisionAndAudit (store : HistoryStore) (rec : RevisionRecord) (entry : AuditEntry)
    (fault : Option String) : Except String HistoryStore :=
  match fault with
  | some error => .error error
  | none => .ok (store.record rec entry)

theorem getRevision_record (store : HistoryStore) (rec : RevisionRecord) (entry : AuditEntry)
    (revision : ℕ) : (store.record rec entry).getRevision revision =
      if rec.revision = revision then some rec else store.getRevision revision :=
  KeyedLog.firstWith_insertOrReplace _ _ _

end HistoryStore

/-- A store with the policy for its failures. -/
structure Attached where
  store : HistoryStore
  required : Bool

def revisionRecord (revision : ℕ) (configHash : String) (audit : AuditContext) (now : ℤ) :
    RevisionRecord where
  revision := revision
  configHash := configHash
  source := audit.source
  createdAtMs := now

def auditEntry (revision : ℕ) (audit : AuditContext) (now : ℤ) : AuditEntry where
  revision := revision
  action := audit.source
  detail := audit.detail
  actorRole := audit.actorRole
  actorTenant := audit.actorTenant
  actorProject := audit.actorProject
  source := audit.source
  objectId := audit.objectId
  createdAtMs := now

/-- Write the record and the entry of a revision.  Without a store there is nothing to write. -/
def persistChecked (store : Option Attached) (revision : ℕ) (configHash : String)
    (audit : AuditContext) (now : ℤ) (fault : Option String) : Except String (Option Attached) :=
  match store with
  | none => .ok none
  | some attached =>
      match attached.store.recordRevisionAndAudit (revisionRecord revision configHash audit now)
        (auditEntry revision audit now) fault with
      | .error e => .error s!"state store persistence failed for revision {revision}: {e}"
      | .ok store => .ok (some { attached with store })

/-- As `persistChecked`, but an error is only logged. -/
def persistBestEffort (store : Option Attached) (revision : ℕ) (configHash : String)
    (audit : AuditContext) (now : ℤ) (fault : Option String) : Option Attached :=
  match persistChecked store revision configHash audit now fault with
  | .ok store => store
  | .error _ => store

/-! ### Snapshots -/

/-- The knobs that change without a restart. -/
structure Runtime where
  costAware : Bool
  latencyAware : Bool
  hedgeEnabled : Bool
  retryMax : ℕ
  budgetMaxUsd : Option F64

section Types

variable (γ ρ χ π : Type)

/-- A config of type `γ`, with its registry, resolver and plugins. -/
structure Snapshot where
  revision : ℕ
  config : γ
  registry : ρ
  resolver : χ
  runtime : Runtime
  plugins : π

/-- What the compilation of a config comes to at some moment. -/
structure Compiler where
  validateConfig : γ → Except String Unit
  registry : γ → Except String ρ
  resolver : γ → Except String χ
  plugins : γ → Except String π

/-- What is read off a config or off knobs, and does not change with time. -/
structure Readings where
  configHash : γ → String
  runtime : γ → Runtime
  knobsJson : Runtime → String

inductive PublishError where
  | conflict (expected current : ℕ)
  | failed (message : String)

/-- The calls that replace the snapshot. -/
inductive Call where
  | publishWithAudit (config : γ) (audit : AuditContext) (expectedRevision : Option ℕ)
  | reloadWithAudit (config : γ) (audit : AuditContext)
  | updateRuntimeWithAudit (edit : Runtime → Runtime) (audit : Option AuditContext)

/-- What a call has prepared: the next snapshot, and what the store is told of it. -/
structure Prepared where
  next : Snapshot γ ρ χ π
  hash : String
  audit : AuditContext

/-- How far a call has come. -/
inductive Stage where
  | waiting
  | entered
  | checked
  | built (p : Prepared γ ρ χ π)
  /-- The store has taken the record, and the snapshot is not yet in place. -/
  | persisted (p : Prepared γ ρ χ π)
  /-- The snapshot is in place, and the store has not yet been told. -/
  | swapped (p : Prepared γ ρ χ π)
  | returned (result : Except PublishError ℕ)
  | panicked

inductive Action where
  | start (call : Call γ)
  | lock
  | check
  | build (compiler : Compiler γ ρ χ π)
  | persist (now : ℤ) (fault : Option String)
  | swap
  | panic

/-- A step of the call with the given number. -/
structure Event where
  id : ℕ
  action : Action γ ρ χ π

structure Engine where
  snapshot : Snapshot γ ρ χ π
  store : Option Attached := none
  /-- The call that holds the reload lock. -/
  holder : Option ℕ := none
  poisoned : Bool := false
  calls : ℕ → Option (Call γ × Stage γ ρ χ π) := fun _ => none
  installs : List (ℕ × Snapshot γ ρ χ π) := []

end Types

variable {γ ρ χ π : Type}

/-! ### Starting -/

/-- The first snapshot, at revision 1. -/
def bootSnapshot (r : Readings γ) (config : γ) (registry : ρ) (resolver : χ) (plugins : π) :
    Snapshot γ ρ χ π where
  revision := 1
  config := config
  registry := registry
  resolver := resolver
  runtime := r.runtime config
  plugins := plugins

def tryNew (r : Readings γ) (compiler : Compiler γ ρ χ π) (config : γ) (registry : ρ)
    (resolver : χ) : Except String (Engine γ ρ χ π) :=
  match compiler.plugins config with
  | .error e => .error e
  | .ok plugins => .ok { snapshot := bootSnapshot r config registry resolver plugins }

def bootAudit : AuditContext := { source := "bootstrap", detail := "engine start" }

/-- Attach a store, and record the current revision in it. -/
def withStorePolicy (r : Readings γ) (engine : Engine γ ρ χ π) (store : HistoryStore)
    (required : Bool) (now : ℤ) (fault : Option String) : Except String (Engine γ ρ χ π) :=
  if required then
    match persistChecked (some { store, required }) engine.snapshot.revision
      (r.configHash engine.snapshot.config) bootAudit now fault with
    | .error e => .error e
    | .ok store => .ok { engine with store }
  else
    .ok { engine with
      store := persistBestEffort (some { store, required }) engine.snapshot.revision
        (r.configHash engine.snapshot.config) bootAudit now fault }

/-- The store an engine is started with. -/
structure Attachment where
  store : HistoryStore
  required : Bool
  now : ℤ
  fault : Option String

/-- What an engine is started from. -/
structure Boot (γ ρ χ π : Type) where
  compiler : Compiler γ ρ χ π
  config : γ
  registry : ρ
  resolver : χ
  attachment : Option Attachment := none

def boot (r : Readings γ) (b : Boot γ ρ χ π) : Except String (Engine γ ρ χ π) :=
  match tryNew r b.compiler b.config b.registry b.resolver with
  | .error e => .error e
  | .ok engine =>
      match b.attachment with
      | none => .ok engine
      | some a => withStorePolicy r engine a.store a.required a.now a.fault

/-! ### One call -/

/-- The revision a publish holds. -/
def Call.expected : Call γ → Option ℕ
  | .publishWithAudit _ _ expectedRevision => expectedRevision
  | .reloadWithAudit _ _ => none
  | .updateRuntimeWithAudit _ _ => none

/-- Compile a config into the successor of the current snapshot. -/
def swapConfig (r : Readings γ) (compiler : Compiler γ ρ χ π) (cur : Snapshot γ ρ χ π) (config : γ)
    (audit : AuditContext) : Except String (Prepared γ ρ χ π) :=
  match compiler.validateConfig config with
  | .error e => .error e
  | .ok () =>
      match compiler.registry config with
      | .error e => .error e
      | .ok registry =>
          match compiler.resolver config with
          | .error e => .error e
          | .ok resolver =>
              match compiler.plugins config with
              | .error e => .error e
              | .ok plugins =>
                  .ok {
                    next :=
                      { revision := cur.revision + 1, config, registry, resolver
                        runtime := r.runtime config, plugins }
                    hash := r.configHash config
                    audit }

/-- The audit context of a change of the knobs: the knobs are its detail unless it has one. -/
def knobAudit (detail : String) (audit : Option AuditContext) : AuditContext :=
  let audit := audit.getD { source := "runtime_patch", detail }
  if audit.detail.isEmpty then { audit with detail } else audit

/-- Change the knobs, and keep what the config compiled to. -/
def updateRuntime (r : Readings γ) (cur : Snapshot γ ρ χ π) (edit : Runtime → Runtime)
    (audit : Option AuditContext) : Prepared γ ρ χ π where
  next := { cur with revision := cur.revision + 1, runtime := edit cur.runtime }
  hash := r.configHash cur.config
  audit := knobAudit (r.knobsJson (edit cur.runtime)) audit

def Call.prepare (r : Readings γ) (compiler : Compiler γ ρ χ π) (cur : Snapshot γ ρ χ π) :
    Call γ → Except String (Prepared γ ρ χ π)
  | .publishWithAudit config audit _ => swapConfig r compiler cur config audit
  | .reloadWithAudit config audit => swapConfig r compiler cur config audit
  | .updateRuntimeWithAudit edit audit => .ok (updateRuntime r cur edit audit)

namespace Engine

def storeRequired (s : Engine γ ρ χ π) : Bool :=
  match s.store with
  | some attached => attached.required
  | none => false

/-- Move a call to a stage. -/
def put (s : Engine γ ρ χ π) (id : ℕ) (call : Call γ) (stage : Stage γ ρ χ π) : Engine γ ρ χ π :=
  { s with calls := Function.update s.calls id (some (call, stage)) }

/-- Return from a call, which gives the lock back. -/
def leave (s : Engine γ ρ χ π) (id : ℕ) (call : Call γ) (result : Except PublishError ℕ) :
    Engine γ ρ χ π :=
  { s.put id call (.returned result) with holder := none }

/-- Put a snapshot in place. -/
def install (s : Engine γ ρ χ π) (id : ℕ) (next : Snapshot γ ρ χ π) : Engine γ ρ χ π :=
  { s with snapshot := next, installs := s.installs ++ [(id, next)] }

/-- Take the lock, once it is free. -/
def lock (s : Engine γ ρ χ π) (id : ℕ) (call : Call γ) : Engine γ ρ χ π :=
  if s.holder.isSome then s
  else if s.poisoned then
    s.put id call (.returned (.error (.failed "reload lock poisoned")))
  else { s.put id call .entered with holder := some id }

/-- Compare the revision a publish holds with the current one. -/
def check (s : Engine γ ρ χ π) (id : ℕ) (call : Call γ) : Engine γ ρ χ π :=
  match call.expected with
  | none => s.put id call .checked
  | some expected =>
      if s.snapshot.revision ≠ expected then
        s.leave id call (.error (.conflict expected s.snapshot.revision))
      else s.put id call .checked

def build (r : Readings γ) (s : Engine γ ρ χ π) (id : ℕ) (call : Call γ)
    (compiler : Compiler γ ρ χ π) : Engine γ ρ χ π :=
  match call.prepare r compiler s.snapshot with
  | .error e => s.leave id call (.error (.failed e))
  | .ok p => s.put id call (.built p)

/-- The write before the swap, where the store is required. -/
def persistFirst (s : Engine γ ρ χ π) (id : ℕ) (call : Call γ) (p : Prepared γ ρ χ π) (now : ℤ)
    (fault : Option String) : Engine γ ρ χ π :=
  if s.storeRequired then
    match persistChecked s.store p.next.revision p.hash p.audit now fault with
    | .error e => s.leave id call (.error (.failed e))
    | .ok store => { s with store }.put id call (.persisted p)
  else s

/-- The swap before the write, where the store is not required. -/
def swapFirst (s : Engine γ ρ χ π) (id : ℕ) (call : Call γ) (p : Prepared γ ρ χ π) :
    Engine γ ρ χ π :=
  if s.storeRequired then s else (s.install id p.next).put id call (.swapped p)

/-- The swap behind an accepted write. -/
def swapLast (s : Engine γ ρ χ π) (id : ℕ) (call : Call γ) (p : Prepared γ ρ χ π) :
    Engine γ ρ χ π :=
  (s.install id p.next).leave id call (.ok p.next.revision)

/-- The write behind a swap. -/
def persistLast (s : Engine γ ρ χ π) (id : ℕ) (call : Call γ) (p : Prepared γ ρ χ π) (now : ℤ)
    (fault : Option String) : Engine γ ρ χ π :=
  { s with store := persistBestEffort s.store p.next.revision p.hash p.audit now fault }.leave
    id call (.ok p.next.revision)

/-- A panic in the critical section poisons the lock. -/
def panic (s : Engine γ ρ χ π) (id : ℕ) (call : Call γ) : Engine γ ρ χ π :=
  { s.put id call .panicked with holder := none, poisoned := true }

end Engine

/-- The stages in which a call holds the lock. -/
def Stage.inside : Stage γ ρ χ π → Bool
  | .waiting | .returned _ | .panicked => false
  | .entered | .checked | .built _ | .persisted _ | .swapped _ => true

/-- One step of a call that has come to `stage`.  A step that is not the next one does nothing. -/
def advance (r : Readings γ) (s : Engine γ ρ χ π) (id : ℕ) (call : Call γ)
    (stage : Stage γ ρ χ π) (action : Action γ ρ χ π) : Engine γ ρ χ π :=
  match stage, action with
  | .waiting, .lock => s.lock id call
  | .entered, .check => s.check id call
  | .checked, .build compiler => s.build r id call compiler
  | .built p, .persist now fault => s.persistFirst id call p now fault
  | .built p, .swap => s.swapFirst id call p
  | .persisted p, .swap => s.swapLast id call p
  | .swapped p, .persist now fault => s.persistLast id call p now fault
  | stage, .panic => if stage.inside then s.panic id call else s
  | _, _ => s

def step (r : Readings γ) (s : Engine γ ρ χ π) (e : Event γ ρ χ π) : Engine γ ρ χ π :=
  match s.calls e.id, e.action with
  | none, .start call => s.put e.id call .waiting
  | none, _ => s
  | some (call, stage), action => advance r s e.id call stage action

/-! ### What every interleaving keeps -/

namespace Engine

/-- The snapshots in the order they were put in place, `first` before any call. -/
def snapshots (s : Engine γ ρ χ π) (first : Snapshot γ ρ χ π) : List (Snapshot γ ρ χ π) :=
  first :: s.installs.map Prod.snd

/-- The snapshots a call has put in place. -/
def installedBy (s : Engine γ ρ χ π) (id : ℕ) : List (Snapshot γ ρ χ π) :=
  (s.installs.filter fun p => p.1 = id).map Prod.snd

/-- The store holds the revision record and the audit entry of a snapshot. -/
def Stored (r : Readings γ) (s : Engine γ ρ χ π) (snap : Snapshot γ ρ χ π) : Prop :=
  ∃ attached audit now, s.store = some attached ∧
    attached.store.getRevision snap.revision =
      some (revisionRecord snap.revision (r.configHash snap.config) audit now) ∧
    auditEntry snap.revision audit now ∈ attached.store.audit

end Engine

/-- What the store is told of a prepared snapshot is its own. -/
structure Prepared.Follows (r : Readings γ) (cur : Snapshot γ ρ χ π) (p : Prepared γ ρ χ π) :
    Prop where
  revision : p.next.revision = cur.revision + 1
  hash : p.hash = r.configHash p.next.config

/-- The revision a publish holds, if it holds one, is `revision`. -/
def Call.Agrees (call : Call γ) (revision : ℕ) : Prop :=
  ∀ expected, call.expected = some expected → revision = expected

/-- The revision a publish holds, if it holds one, is the one before `revision`. -/
def Call.Precedes (call : Call γ) (revision : ℕ) : Prop :=
  ∀ expected, call.expected = some expected → revision = expected + 1

/-- What holds of a call at each stage. -/
def Stage.Sound (r : Readings γ) (s : Engine γ ρ χ π) (id : ℕ) (call : Call γ) :
    Stage γ ρ χ π → Prop
  | .waiting => s.installedBy id = []
  | .entered => s.holder = some id ∧ s.installedBy id = []
  | .checked => s.holder = some id ∧ s.installedBy id = [] ∧ call.Agrees s.snapshot.revision
  | .built p => s.holder = some id ∧ s.installedBy id = [] ∧ call.Agrees s.snapshot.revision ∧
      p.Follows r s.snapshot
  | .persisted p => s.holder = some id ∧ s.installedBy id = [] ∧ call.Agrees s.snapshot.revision ∧
      p.Follows r s.snapshot ∧ s.Stored r p.next
  | .swapped p => s.holder = some id ∧ s.installedBy id = [p.next] ∧
      call.Precedes p.next.revision ∧ s.storeRequired = false ∧ p.hash = r.configHash p.next.config
  | .returned (.ok revision) => ∃ next, s.installedBy id = [next] ∧ next.revision = revision ∧
      call.Precedes revision
  | .returned (.error _) => s.installedBy id = []
  | .panicked => True

theorem Call.Agrees.precedes {call : Call γ} {revision next : ℕ} (h : call.Agrees revision)
    (hnext : next = revision + 1) : call.Precedes next := by
  intro expected hexpected
  rw [hnext, h expected hexpected]

/-- What holds of the snapshots put in place. -/
structure History (r : Readings γ) (first : Snapshot γ ρ χ π) (s : Engine γ ρ χ π) : Prop where
  chain : (s.snapshots first).IsChain fun a b => b.revision = a.revision + 1
  current : (s.snapshots first).getLast? = some s.snapshot
  stored : s.storeRequired = true → ∀ snap ∈ s.snapshots first, s.Stored r snap

/-- The invariant. -/
structure Consistent (r : Readings γ) (first : Snapshot γ ρ χ π) (s : Engine γ ρ χ π) : Prop where
  history : History r first s
  sound : ∀ id call stage, s.calls id = some (call, stage) → stage.Sound r s id call
  known : ∀ id, s.calls id = none → s.installedBy id = []

section Frame

variable {r : Readings γ} {s s' : Engine γ ρ χ π} {first : Snapshot γ ρ χ π}

variable {call : Call γ} {stage : Stage γ ρ χ π}

theorem Stage.Sound.holder {id : ℕ}
    (h : stage.Sound r s id call) (hin : stage.inside = true) : s.holder = some id := by
  cases stage with
  | waiting => cases hin
  | returned result => cases hin
  | panicked => cases hin
  | entered => exact h.1
  | checked => exact h.1
  | built p => exact h.1
  | persisted p => exact h.1
  | swapped p => exact h.1

/-- A call notices of a step only its own installs, and inside the lock what the lock guards. -/
theorem Stage.Sound.frame {id : ℕ}
    (h : stage.Sound r s id call) (hinst : s'.installedBy id = s.installedBy id)
    (hguard : s.holder = some id →
      s'.holder = s.holder ∧ s'.snapshot = s.snapshot ∧ s'.store = s.store) :
    stage.Sound r s' id call := by
  by_cases hin : stage.inside = true
  · obtain ⟨hholder, hsnap, hstore⟩ := hguard (h.holder hin)
    have hstored (snap : Snapshot γ ρ χ π) : s'.Stored r snap ↔ s.Stored r snap := by
      unfold Engine.Stored
      rw [hstore]
    have hrequired : s'.storeRequired = s.storeRequired := by
      unfold Engine.storeRequired
      rw [hstore]
    cases stage with
    | waiting => cases hin
    | returned result => cases hin
    | panicked => cases hin
    | entered => simpa only [Stage.Sound, hinst, hholder] using h
    | checked => simpa only [Stage.Sound, hinst, hholder, hsnap] using h
    | built p => simpa only [Stage.Sound, hinst, hholder, hsnap] using h
    | persisted p => simpa only [Stage.Sound, hinst, hholder, hsnap, hstored] using h
    | swapped p => simpa only [Stage.Sound, hinst, hholder, hrequired] using h
  · cases stage with
    | waiting => exact hinst.trans h
    | returned result =>
      cases result with
      | error e => exact hinst.trans h
      | ok revision =>
        obtain ⟨next, hnext, hrest⟩ := h
        exact ⟨next, hinst.trans hnext, hrest⟩
    | panicked => trivial
    | entered => exact absurd rfl hin
    | checked => exact absurd rfl hin
    | built p => exact absurd rfl hin
    | persisted p => exact absurd rfl hin
    | swapped p => exact absurd rfl hin

theorem forall_calls_update {calls : ℕ → Option (Call γ × Stage γ ρ χ π)}
    {P P' : ℕ → Call γ → Stage γ ρ χ π → Prop}
    (h : ∀ id call stage, calls id = some (call, stage) → P id call stage) {id : ℕ}
    (hown : P' id call stage)
    (hother : ∀ id' call' stage', id' ≠ id → P id' call' stage' → P' id' call' stage') :
    ∀ id' call' stage', Function.update calls id (some (call, stage)) id' = some (call', stage') →
      P' id' call' stage' := by
  intro id' call' stage' hcall
  by_cases hid : id' = id
  · subst hid
    rw [Function.update_self] at hcall
    cases hcall
    exact hown
  · rw [Function.update_of_ne hid] at hcall
    exact hother id' call' stage' hid (h id' call' stage' hcall)

/-- A step of one call that disturbs no other call inside the lock. -/
theorem Consistent.move (h : Consistent r first s) {id : ℕ}
    (hcalls : s'.calls = Function.update s.calls id (some (call, stage)))
    (hinst : ∀ id', id' ≠ id → s'.installedBy id' = s.installedBy id')
    (hguard : ∀ id', id' ≠ id → s.holder = some id' →
      s'.holder = s.holder ∧ s'.snapshot = s.snapshot ∧ s'.store = s.store)
    (hsound : stage.Sound r s' id call) (hhistory : History r first s') :
    Consistent r first s' := by
  refine ⟨hhistory, ?_, ?_⟩
  · rw [hcalls]
    refine forall_calls_update h.sound hsound fun id' call' stage' hid hstage => ?_
    exact hstage.frame (hinst id' hid) (hguard id' hid)
  · intro id' hcall
    rw [hcalls] at hcall
    by_cases hid : id' = id
    · subst hid
      rw [Function.update_self] at hcall
      cases hcall
    · rw [Function.update_of_ne hid] at hcall
      exact (hinst id' hid).trans (h.known id' hcall)

/-- A step of the holder of the lock disturbs no other call. -/
theorem Consistent.move_holder (h : Consistent r first s) {id : ℕ} (hholder : s.holder = some id)
    (hcalls : s'.calls = Function.update s.calls id (some (call, stage)))
    (hinst : ∀ id', id' ≠ id → s'.installedBy id' = s.installedBy id')
    (hsound : stage.Sound r s' id call) (hhistory : History r first s') :
    Consistent r first s' := by
  refine h.move hcalls hinst ?_ hsound hhistory
  intro id' hne hid'
  rw [hholder] at hid'
  exact absurd (Option.some.inj hid').symm hne

/-- Nothing that the lock guards changes. -/
theorem History.congr (h : History r first s) (hsnap : s'.snapshot = s.snapshot)
    (hinst : s'.installs = s.installs) (hstore : s'.store = s.store) : History r first s' := by
  have hsnapshots : s'.snapshots first = s.snapshots first := by
    unfold Engine.snapshots
    rw [hinst]
  have hrequired : s'.storeRequired = s.storeRequired := by
    unfold Engine.storeRequired
    rw [hstore]
  refine ⟨hsnapshots ▸ h.chain, by rw [hsnapshots, hsnap]; exact h.current, ?_⟩
  rw [hrequired, hsnapshots]
  intro hreq snap hmem
  obtain ⟨attached, audit, now, hat, hrest⟩ := h.stored hreq snap hmem
  exact ⟨attached, audit, now, hstore.trans hat, hrest⟩

theorem History.revision_le (h : History r first s) {snap : Snapshot γ ρ χ π}
    (hmem : snap ∈ s.snapshots first) : snap.revision ≤ s.snapshot.revision := by
  have hpair : (s.snapshots first).Pairwise fun a b => a.revision < b.revision := by
    refine List.isChain_iff_pairwise.1 (h.chain.imp fun a b hab => ?_)
    omega
  obtain ⟨l, hl⟩ := List.getLast?_eq_some_iff.1 h.current
  rw [hl] at hmem hpair
  rcases List.mem_append.1 hmem with hmem | hmem
  · exact (List.pairwise_append.1 hpair).2.2 snap hmem _ (List.mem_singleton_self _) |>.le
  · rw [List.mem_singleton.1 hmem]

/-- Putting the successor of the current snapshot in place. -/
theorem History.install (h : History r first s) {id : ℕ} {next : Snapshot γ ρ χ π}
    (hsnap : s'.snapshot = next) (hinst : s'.installs = s.installs ++ [(id, next)])
    (hstore : s'.store = s.store) (hrevision : next.revision = s.snapshot.revision + 1)
    (hstored : s.storeRequired = true → s.Stored r next) : History r first s' := by
  have hsnapshots : s'.snapshots first = s.snapshots first ++ [next] := by
    simp [Engine.snapshots, hinst]
  have hrequired : s'.storeRequired = s.storeRequired := by
    unfold Engine.storeRequired
    rw [hstore]
  refine ⟨?_, by simp [hsnapshots, hsnap], ?_⟩
  · rw [hsnapshots]
    refine List.IsChain.append h.chain (List.isChain_singleton next) ?_
    rw [h.current]
    rintro a ha b hb
    cases ha
    cases hb
    exact hrevision
  · intro hreq snap hmem
    rw [hrequired] at hreq
    have hold : s.Stored r snap := by
      rw [hsnapshots] at hmem
      rcases List.mem_append.1 hmem with hmem | hmem
      · exact h.stored hreq snap hmem
      · rw [List.mem_singleton.1 hmem]
        exact hstored hreq
    obtain ⟨attached, audit, now, hat, hrest⟩ := hold
    exact ⟨attached, audit, now, hstore.trans hat, hrest⟩

end Frame

/-! ### Writing to the store -/

section Store

variable {r : Readings γ} {s : Engine γ ρ χ π} {revision : ℕ} {hash : String}
  {audit : AuditContext} {now : ℤ} {fault : Option String}

variable {store' : Option Attached}

theorem persistChecked_ok {store : Option Attached}
    (h : persistChecked store revision hash audit now fault = .ok store') :
    (store = none ∧ store' = none) ∨ ∃ attached, store = some attached ∧ fault = none ∧
      store' = some { attached with
        store := attached.store.record (revisionRecord revision hash audit now)
          (auditEntry revision audit now) } := by
  cases store with
  | none =>
    cases h
    exact Or.inl ⟨rfl, rfl⟩
  | some attached =>
    cases fault with
    | some e => cases h
    | none =>
      cases h
      exact Or.inr ⟨attached, rfl, rfl, rfl⟩

theorem required_of_persistChecked
    (h : persistChecked s.store revision hash audit now fault = .ok store') :
    { s with store := store' }.storeRequired = s.storeRequired := by
  unfold Engine.storeRequired
  rcases persistChecked_ok h with ⟨hnone, rfl⟩ | ⟨attached, hsome, -, rfl⟩
  · rw [hnone]
  · rw [hsome]

theorem stored_of_persistChecked {snap : Snapshot γ ρ χ π}
    (h : persistChecked s.store snap.revision (r.configHash snap.config) audit now fault =
      .ok store') (hreq : s.storeRequired = true) : { s with store := store' }.Stored r snap := by
  rcases persistChecked_ok h with ⟨hnone, -⟩ | ⟨attached, -, -, rfl⟩
  · simp [Engine.storeRequired, hnone] at hreq
  · refine ⟨_, audit, now, rfl, ?_, ?_⟩
    · rw [HistoryStore.getRevision_record]
      exact if_pos rfl
    · simp [HistoryStore.record, HistoryStore.recordAudit]

/-- A write keeps the records of other revisions. -/
theorem Engine.Stored.persistChecked {snap : Snapshot γ ρ χ π} (hs : s.Stored r snap)
    (hne : revision ≠ snap.revision)
    (h : persistChecked s.store revision hash audit now fault = .ok store') :
    { s with store := store' }.Stored r snap := by
  obtain ⟨attached, audit₀, now₀, hat, hrow, haudit⟩ := hs
  rcases persistChecked_ok h with ⟨hnone, -⟩ | ⟨attached', hsome, -, rfl⟩
  · rw [hnone] at hat
    cases hat
  · rw [hsome] at hat
    cases hat
    refine ⟨_, audit₀, now₀, rfl, ?_, ?_⟩
    · rw [HistoryStore.getRevision_record]
      exact (if_neg hne).trans hrow
    · exact List.mem_append_left _ haudit

theorem History.persist {first : Snapshot γ ρ χ π} (h : History r first s)
    (hrevision : s.snapshot.revision < revision)
    (hp : persistChecked s.store revision hash audit now fault = .ok store') :
    History r first { s with store := store' } := by
  refine ⟨h.chain, h.current, ?_⟩
  intro hreq snap hmem
  rw [required_of_persistChecked hp] at hreq
  have hle := h.revision_le hmem
  exact (h.stored hreq snap hmem).persistChecked (by omega) hp

theorem required_persistBestEffort (s : Engine γ ρ χ π) (revision : ℕ) (hash : String)
    (audit : AuditContext) (now : ℤ) (fault : Option String) :
    { s with store := persistBestEffort s.store revision hash audit now fault }.storeRequired =
      s.storeRequired := by
  unfold persistBestEffort
  cases hp : persistChecked s.store revision hash audit now fault with
  | ok store' => exact required_of_persistChecked hp
  | error e => rfl

end Store

/-! ### One step -/

section Step

variable {r : Readings γ} {s : Engine γ ρ χ π} {first : Snapshot γ ρ χ π} {id : ℕ}
  {call : Call γ}

variable {p : Prepared γ ρ χ π}

theorem prepare_follows {compiler : Compiler γ ρ χ π}
    {cur : Snapshot γ ρ χ π} (h : call.prepare r compiler cur = .ok p) : p.Follows r cur := by
  have hswap (config : γ) (audit : AuditContext)
      (h : swapConfig r compiler cur config audit = .ok p) : p.Follows r cur := by
    unfold swapConfig at h
    split at h
    · cases h
    split at h
    · cases h
    split at h
    · cases h
    split at h
    · cases h
    cases h
    exact ⟨rfl, rfl⟩
  cases call with
  | publishWithAudit config audit expected => exact hswap config audit h
  | reloadWithAudit config audit => exact hswap config audit h
  | updateRuntimeWithAudit edit audit =>
    cases h
    exact ⟨rfl, rfl⟩

/-- The installs of a call after it installs one more, or another call does. -/
theorem installedBy_install (next : Snapshot γ ρ χ π) (id' : ℕ) :
    (s.install id next).installedBy id' =
      if id = id' then s.installedBy id' ++ [next] else s.installedBy id' := by
  unfold Engine.installedBy Engine.install
  by_cases h : id = id' <;> simp [List.filter_append, h]

/-- A call moves on and what the lock guards stays. -/
theorem Consistent.put (h : Consistent r first s) {stage : Stage γ ρ χ π}
    (hsound : stage.Sound r s id call) : Consistent r first (s.put id call stage) := by
  refine h.move rfl (fun _ _ => rfl) (fun _ _ _ => ⟨rfl, rfl, rfl⟩) ?_
    (h.history.congr rfl rfl rfl)
  exact hsound.frame rfl fun _ => ⟨rfl, rfl, rfl⟩

theorem Consistent.leave_error (h : Consistent r first s) (hholder : s.holder = some id)
    (hnone : s.installedBy id = []) (e : PublishError) :
    Consistent r first (s.leave id call (.error e)) := by
  exact h.move_holder hholder rfl (fun _ _ => rfl) hnone (h.history.congr rfl rfl rfl)

theorem Consistent.lock (h : Consistent r first s) (hcall : s.calls id = some (call, .waiting)) :
    Consistent r first (s.lock id call) := by
  have hnone : s.installedBy id = [] := h.sound id call _ hcall
  unfold Engine.lock
  split_ifs with hheld hpoisoned
  · exact h
  · exact h.put hnone
  · refine h.move rfl (fun _ _ => rfl) ?_ ⟨rfl, hnone⟩ (h.history.congr rfl rfl rfl)
    intro id' _ hid'
    rw [hid'] at hheld
    exact absurd rfl hheld

theorem Consistent.check (h : Consistent r first s) (hcall : s.calls id = some (call, .entered)) :
    Consistent r first (s.check id call) := by
  obtain ⟨hholder, hnone⟩ : s.holder = some id ∧ s.installedBy id = [] := h.sound id call _ hcall
  unfold Engine.check
  split
  case h_1 hexpected =>
    refine h.put ⟨hholder, hnone, fun e he => ?_⟩
    rw [hexpected] at he
    cases he
  case h_2 expected hexpected =>
    split_ifs with hrevision
    · exact h.leave_error hholder hnone _
    · refine h.put ⟨hholder, hnone, fun e he => ?_⟩
      rw [hexpected] at he
      cases he
      exact not_not.1 hrevision

theorem Consistent.build (h : Consistent r first s) (hcall : s.calls id = some (call, .checked))
    (compiler : Compiler γ ρ χ π) : Consistent r first (s.build r id call compiler) := by
  obtain ⟨hholder, hnone, hagrees⟩ := h.sound id call _ hcall
  unfold Engine.build
  split
  case h_1 e _ => exact h.leave_error hholder hnone _
  case h_2 p hp => exact h.put ⟨hholder, hnone, hagrees, prepare_follows hp⟩

theorem Consistent.persistFirst (h : Consistent r first s)
    (hcall : s.calls id = some (call, .built p)) (now : ℤ) (fault : Option String) :
    Consistent r first (s.persistFirst id call p now fault) := by
  obtain ⟨hholder, hnone, hagrees, hfollows⟩ := h.sound id call _ hcall
  unfold Engine.persistFirst
  split_ifs with hreq
  · split
    case h_1 e _ => exact h.leave_error hholder hnone _
    case h_2 store' hp =>
      have hlt : s.snapshot.revision < p.next.revision := by
        rw [hfollows.revision]
        exact Nat.lt_succ_self _
      have hhistory := h.history.persist hlt hp
      rw [hfollows.hash] at hp
      have hstored := stored_of_persistChecked hp hreq
      exact h.move_holder hholder rfl (fun _ _ => rfl)
        ⟨hholder, hnone, hagrees, hfollows, hstored⟩ (hhistory.congr rfl rfl rfl)
  · exact h

theorem Consistent.swapFirst (h : Consistent r first s)
    (hcall : s.calls id = some (call, .built p)) : Consistent r first (s.swapFirst id call p) := by
  obtain ⟨hholder, hnone, hagrees, hfollows⟩ := h.sound id call _ hcall
  unfold Engine.swapFirst
  split_ifs with hreq
  · exact h
  · have hreq : s.storeRequired = false := by simpa using hreq
    refine h.move_holder hholder rfl ?_
      ⟨hholder, ?_, hagrees.precedes hfollows.revision, hreq, hfollows.hash⟩
      (h.history.install rfl rfl rfl hfollows.revision fun hreq' => ?_)
    · intro id' hne
      exact (installedBy_install p.next id').trans (if_neg hne.symm)
    · exact (installedBy_install p.next id).trans (by simp [hnone])
    · rw [hreq] at hreq'
      cases hreq'

theorem Consistent.swapLast (h : Consistent r first s)
    (hcall : s.calls id = some (call, .persisted p)) :
    Consistent r first (s.swapLast id call p) := by
  obtain ⟨hholder, hnone, hagrees, hfollows, hstored⟩ := h.sound id call _ hcall
  refine h.move_holder hholder rfl ?_ ⟨p.next, ?_, rfl, hagrees.precedes hfollows.revision⟩
    (h.history.install rfl rfl rfl hfollows.revision fun _ => hstored)
  · intro id' hne
    exact (installedBy_install p.next id').trans (if_neg hne.symm)
  · exact (installedBy_install p.next id).trans (by simp [hnone])

theorem Consistent.persistLast (h : Consistent r first s)
    (hcall : s.calls id = some (call, .swapped p)) (now : ℤ) (fault : Option String) :
    Consistent r first (s.persistLast id call p now fault) := by
  obtain ⟨hholder, hinstalled, hprecedes, hreq, -⟩ := h.sound id call _ hcall
  -- the store is not required, so nothing is asked of its rows
  have hrequired : (s.persistLast id call p now fault).storeRequired = false :=
    (required_persistBestEffort s p.next.revision p.hash p.audit now fault).trans hreq
  refine h.move_holder hholder rfl (fun _ _ => rfl) ⟨p.next, hinstalled, rfl, hprecedes⟩
    ⟨h.history.chain, h.history.current, fun hreq' => ?_⟩
  rw [hrequired] at hreq'
  cases hreq'

theorem Consistent.panic (h : Consistent r first s) (hholder : s.holder = some id) :
    Consistent r first (s.panic id call) := by
  exact h.move_holder hholder rfl (fun _ _ => rfl) trivial (h.history.congr rfl rfl rfl)

theorem Consistent.advance (h : Consistent r first s) {stage : Stage γ ρ χ π}
    (hcall : s.calls id = some (call, stage)) (action : Action γ ρ χ π) :
    Consistent r first (advance r s id call stage action) := by
  have hpanic : Consistent r first (if stage.inside then s.panic id call else s) := by
    split_ifs with hin
    · exact h.panic ((h.sound id call stage hcall).holder hin)
    · exact h
  unfold Publication.advance
  split
  · exact h.lock hcall
  · exact h.check hcall
  · exact h.build hcall _
  · exact h.persistFirst hcall _ _
  · exact h.swapFirst hcall
  · exact h.swapLast hcall
  · exact h.persistLast hcall _ _
  · exact hpanic
  · exact h

theorem Consistent.step (h : Consistent r first s) (e : Event γ ρ χ π) :
    Consistent r first (step r s e) := by
  unfold Publication.step
  split
  case h_1 call hcall _ => exact h.put (h.known e.id hcall)
  case h_2 => exact h
  case h_3 call stage action hcall => exact h.advance hcall _

theorem consistent_foldl (h : Consistent r first s) (events : List (Event γ ρ χ π)) :
    Consistent r first (events.foldl (Publication.step r) s) := by
  induction events generalizing s with
  | nil => exact h
  | cons e events ih => exact ih (h.step e)

/-- The call has come back with a revision. -/
def Stage.publishes : Stage γ ρ χ π → Bool
  | .returned (.ok _) => true
  | _ => false

/-- What a step can do. -/
inductive Move (s : Engine γ ρ χ π) (e : Event γ ρ χ π) : Engine γ ρ χ π → Prop
  | stay : Move s e s
  /-- A call moves on, fails or panics, which neither installs nor writes. -/
  | quiet {s' : Engine γ ρ χ π} {call : Call γ} {stage : Stage γ ρ χ π}
      (hstage : Stage.publishes stage = false)
      (hcalls : s'.calls = Function.update s.calls e.id (some (call, stage)))
      (hsnap : s'.snapshot = s.snapshot) (hinst : s'.installs = s.installs)
      (hstore : s'.store = s.store) : Move s e s'
  | persistFirst {call : Call γ} {p : Prepared γ ρ χ π} {now : ℤ} {fault : Option String}
      {store' : Option Attached} (hcall : s.calls e.id = some (call, .built p))
      (hp : persistChecked s.store p.next.revision p.hash p.audit now fault = .ok store') :
      Move s e ({ s with store := store' }.put e.id call (.persisted p))
  | swapFirst {call : Call γ} {p : Prepared γ ρ χ π}
      (hcall : s.calls e.id = some (call, .built p)) :
      Move s e ((s.install e.id p.next).put e.id call (.swapped p))
  | swapLast {call : Call γ} {p : Prepared γ ρ χ π}
      (hcall : s.calls e.id = some (call, .persisted p)) :
      Move s e (s.swapLast e.id call p)
  | persistLast {call : Call γ} {p : Prepared γ ρ χ π} {now : ℤ} {fault : Option String}
      (haction : e.action = .persist now fault)
      (hcall : s.calls e.id = some (call, .swapped p)) :
      Move s e (s.persistLast e.id call p now fault)

theorem step_move (r : Readings γ) (s : Engine γ ρ χ π) (e : Event γ ρ χ π) :
    Move s e (Publication.step r s e) := by
  unfold Publication.step
  split
  · exact .quiet rfl rfl rfl rfl rfl
  · exact .stay
  · rename_i action call stage hcall
    unfold Publication.advance
    split
    · unfold Engine.lock
      split_ifs
      · exact .stay
      · exact .quiet rfl rfl rfl rfl rfl
      · exact .quiet rfl rfl rfl rfl rfl
    · unfold Engine.check
      split
      · exact .quiet rfl rfl rfl rfl rfl
      · split_ifs <;> exact .quiet rfl rfl rfl rfl rfl
    · unfold Engine.build
      split <;> exact .quiet rfl rfl rfl rfl rfl
    · unfold Engine.persistFirst
      split_ifs
      · split
        · exact .quiet rfl rfl rfl rfl rfl
        · rename_i hp
          exact .persistFirst hcall hp
      · exact .stay
    · unfold Engine.swapFirst
      split_ifs
      · exact .stay
      · exact .swapFirst hcall
    · exact .swapLast hcall
    · rename_i p now fault haction
      exact .persistLast haction hcall
    · split_ifs
      · exact .quiet rfl rfl rfl rfl rfl
      · exact .stay
    · exact .stay

/-- A step puts a snapshot in place for its own call, or leaves the snapshot. -/
theorem step_installs (r : Readings γ) (s : Engine γ ρ χ π) (e : Event γ ρ χ π) :
    ((Publication.step r s e).installs = s.installs ∧
        (Publication.step r s e).snapshot = s.snapshot) ∨
      (Publication.step r s e).installs =
        s.installs ++ [(e.id, (Publication.step r s e).snapshot)] := by
  have hmove := step_move r s e
  generalize Publication.step r s e = s' at hmove ⊢
  cases hmove with
  | stay => exact Or.inl ⟨rfl, rfl⟩
  | quiet hstage hcalls hsnap hinst hstore => exact Or.inl ⟨hinst, hsnap⟩
  | persistFirst hcall hp => exact Or.inl ⟨rfl, rfl⟩
  | swapFirst hcall => exact Or.inr rfl
  | swapLast hcall => exact Or.inr rfl
  | persistLast haction hcall => exact Or.inl ⟨rfl, rfl⟩

theorem step_installedBy (r : Readings γ) (s : Engine γ ρ χ π) (e : Event γ ρ χ π) (id : ℕ) :
    ((Publication.step r s e).installedBy id = s.installedBy id ∧
        (e.id = id → (Publication.step r s e).snapshot = s.snapshot)) ∨
      (e.id = id ∧ (Publication.step r s e).installedBy id =
        s.installedBy id ++ [(Publication.step r s e).snapshot]) := by
  unfold Engine.installedBy
  rcases step_installs r s e with ⟨hinst, hsnap⟩ | hinst
  · exact Or.inl ⟨by rw [hinst], fun _ => hsnap⟩
  · rw [hinst, List.filter_append, List.map_append]
    by_cases hid : e.id = id
    · exact Or.inr ⟨hid, by simp [hid]⟩
    · exact Or.inl ⟨by simp [hid], fun h => absurd h hid⟩

theorem Consistent.step_revision (h : Consistent r first s) {e : Event γ ρ χ π}
    (hinst : (Publication.step r s e).installs ≠ s.installs) :
    (Publication.step r s e).snapshot.revision = s.snapshot.revision + 1 := by
  rcases step_installs r s e with ⟨hsame, -⟩ | hmore
  · exact absurd hsame hinst
  · have hchain := (h.step e).history.chain
    have hsnapshots : (Publication.step r s e).snapshots first =
        s.snapshots first ++ [(Publication.step r s e).snapshot] := by
      simp [Engine.snapshots, hmore]
    rw [hsnapshots] at hchain
    exact (List.isChain_append.1 hchain).2.2 _ h.history.current _ rfl

end Step

/-! ### Runs -/

section Runs

variable {r : Readings γ} {s : Engine γ ρ χ π} {first : Snapshot γ ρ χ π} {id : ℕ}

theorem installs_extend (s : Engine γ ρ χ π) (events : List (Event γ ρ χ π)) :
    s.installs <+: (events.foldl (step r) s).installs := by
  induction events generalizing s with
  | nil => exact List.prefix_rfl
  | cons e events ih =>
    refine List.IsPrefix.trans ?_ (ih (step r s e))
    rcases step_installs r s e with ⟨hsame, -⟩ | hmore
    · rw [hsame]
    · exact ⟨_, hmore.symm⟩

theorem installedBy_prefix (s : Engine γ ρ χ π) (id : ℕ) (events : List (Event γ ρ χ π)) :
    s.installedBy id <+: (events.foldl (step r) s).installedBy id :=
  ((installs_extend s events).filter _).map _

theorem Consistent.snapshot_mem (h : Consistent r first s) (events : List (Event γ ρ χ π)) :
    s.snapshot ∈ (events.foldl (Publication.step r) s).snapshots first := by
  have hprefix : s.snapshots first <+: (events.foldl (Publication.step r) s).snapshots first :=
    List.prefix_cons_inj _ |>.2 ((installs_extend s events).map _)
  exact hprefix.subset (List.mem_of_getLast? h.history.current)

theorem unchanged_of_installedBy_eq {events : List (Event γ ρ χ π)}
    (h : (events.foldl (step r) s).installedBy id = s.installedBy id) :
    ∀ v ∈ Machine.visited (step r) s events, v.2.id = id →
      (step r v.1 v.2).snapshot = v.1.snapshot := by
  induction events generalizing s with
  | nil => exact fun v hv => absurd hv List.not_mem_nil
  | cons e events ih =>
    have hrest := installedBy_prefix (r := r) (step r s e) id events
    rcases step_installedBy r s e id with ⟨hsame, hsnap⟩ | ⟨-, hmore⟩
    · intro v hv
      rcases List.mem_cons.1 hv with rfl | hv
      · exact hsnap
      · exact ih (h.trans hsame.symm) v hv
    · have hlength := hrest.length_le
      rw [hmore, ← List.foldl_cons, h, List.length_append, List.length_singleton] at hlength
      omega

variable {next : Snapshot γ ρ χ π}

/-- A call that installs one snapshot does so at one of its steps, and leaves the snapshot at the
others. -/
theorem once_of_installedBy {events : List (Event γ ρ χ π)} (hnone : s.installedBy id = [])
    (h : (events.foldl (step r) s).installedBy id = [next]) :
    ∃ before v after, Machine.visited (step r) s events = before ++ v :: after ∧ v.2.id = id ∧
      (step r v.1 v.2).snapshot = next ∧ (step r v.1 v.2).installs ≠ v.1.installs ∧
      ∀ w ∈ before ++ after, w.2.id = id → (step r w.1 w.2).snapshot = w.1.snapshot := by
  induction events generalizing s with
  | nil =>
    rw [List.foldl_nil, hnone] at h
    cases h
  | cons e events ih =>
    have hrest := installedBy_prefix (r := r) (step r s e) id events
    rcases step_installedBy r s e id with ⟨hsame, hsnap⟩ | ⟨hid, hmore⟩
    · obtain ⟨before, v, after, hvisited, hid, hnext, hinst, hother⟩ := ih (hsame.trans hnone) h
      refine ⟨(s, e) :: before, v, after, ?_, hid, hnext, hinst, ?_⟩
      · rw [Machine.visited, hvisited]
        rfl
      · intro w hw
        rcases List.mem_cons.1 hw with rfl | hw
        · exact hsnap
        · exact hother w hw
    · rw [hnone, List.nil_append] at hmore
      rw [hmore, ← List.foldl_cons, h] at hrest
      have hnext : (step r s e).snapshot = next := by
        simpa using hrest
      refine ⟨[], (s, e), Machine.visited (step r) (step r s e) events, rfl, hid, hnext, ?_, ?_⟩
      · intro hsame
        have : (step r s e).installedBy id = s.installedBy id := by
          unfold Engine.installedBy
          rw [hsame]
        rw [hmore, hnone] at this
        cases this
      · refine unchanged_of_installedBy_eq ?_
        rw [hmore, hnext]
        exact h

/-- An engine without calls, whose snapshot is stored if the store is required. -/
theorem Consistent.fresh (hcalls : ∀ id, s.calls id = none) (hinst : s.installs = [])
    (hstored : s.storeRequired = true → s.Stored r s.snapshot) : Consistent r s.snapshot s := by
  have hsnapshots : s.snapshots s.snapshot = [s.snapshot] := by
    simp [Engine.snapshots, hinst]
  refine ⟨⟨?_, ?_, ?_⟩, ?_, ?_⟩
  · rw [hsnapshots]
    exact List.isChain_singleton _
  · rw [hsnapshots]
    rfl
  · intro hreq snap hmem
    rw [hsnapshots] at hmem
    rw [List.mem_singleton.1 hmem]
    exact hstored hreq
  · intro id call stage hcall
    rw [hcalls] at hcall
    cases hcall
  · intro id _
    simp [Engine.installedBy, hinst]

theorem withStorePolicy_ok {engine : Engine γ ρ χ π} {store : HistoryStore} {required : Bool}
    {now : ℤ} {fault : Option String}
    (h : withStorePolicy r engine store required now fault = .ok s) :
    ∃ store', s = { engine with store := store' } ∧
      if required then
        persistChecked (some { store, required }) engine.snapshot.revision
          (r.configHash engine.snapshot.config) bootAudit now fault = .ok store'
      else store' = persistBestEffort (some { store, required }) engine.snapshot.revision
        (r.configHash engine.snapshot.config) bootAudit now fault := by
  unfold withStorePolicy at h
  split_ifs at h ⊢ with hrequired
  · split at h
    · cases h
    · rename_i store' hp
      cases h
      exact ⟨store', rfl, hp⟩
  · cases h
    exact ⟨_, rfl, rfl⟩

/-- A fresh engine with revision 1, and the store it was started with, if any. -/
theorem boot_ok {b : Boot γ ρ χ π} (h : boot r b = .ok s) :
    ∃ plugins, ∃ engine : Engine γ ρ χ π,
      engine = { snapshot := bootSnapshot r b.config b.registry b.resolver plugins } ∧
      match b.attachment with
      | none => s = engine
      | some a => withStorePolicy r engine a.store a.required a.now a.fault = .ok s := by
  unfold boot tryNew at h
  cases hplugins : b.compiler.plugins b.config with
  | error e =>
    rw [hplugins] at h
    cases h
  | ok plugins =>
    rw [hplugins] at h
    refine ⟨plugins, _, rfl, ?_⟩
    cases ha : b.attachment with
    | none =>
      rw [ha] at h
      exact (Except.ok.inj h).symm
    | some a =>
      rw [ha] at h
      exact h

theorem boot_consistent {b : Boot γ ρ χ π} (h : boot r b = .ok s) :
    Consistent r s.snapshot s ∧ (∀ id, s.calls id = none) ∧ s.snapshot.revision = 1 := by
  obtain ⟨plugins, engine, rfl, h⟩ := boot_ok h
  cases ha : b.attachment with
  | none =>
    rw [ha] at h
    subst h
    exact ⟨Consistent.fresh (fun _ => rfl) rfl fun hreq => (by cases hreq), fun _ => rfl, rfl⟩
  | some a =>
    rw [ha] at h
    obtain ⟨store', rfl, hstore⟩ := withStorePolicy_ok h
    refine ⟨Consistent.fresh (fun _ => rfl) rfl fun hreq => ?_, fun _ => rfl, rfl⟩
    set engine : Engine γ ρ χ π :=
      { snapshot := bootSnapshot r b.config b.registry b.resolver plugins
        store := some { store := a.store, required := a.required } }
    split_ifs at hstore with hrequired
    · exact stored_of_persistChecked (s := engine) hstore hrequired
    · subst hstore
      have hsame := required_persistBestEffort engine 1 (r.configHash b.config) bootAudit a.now
        a.fault
      exact absurd (hsame.symm.trans hreq) hrequired

theorem History.installs_revision_nodup (h : History r first s) :
    (s.installs.map fun p => p.2.revision).Nodup := by
  have hpair : (s.snapshots first).Pairwise fun a b => a.revision < b.revision :=
    List.isChain_iff_pairwise.1 (h.chain.imp fun a b hab => by omega)
  have hrest : (s.installs.map Prod.snd).Pairwise fun a b => a.revision < b.revision :=
    (List.pairwise_cons.1 hpair).2
  rw [List.pairwise_map] at hrest
  exact List.pairwise_map.2 (hrest.imp fun hab => Nat.ne_of_lt hab)

theorem mem_installs_of_installedBy (h : s.installedBy id = [next]) : (id, next) ∈ s.installs := by
  have hmem : next ∈ s.installedBy id := by rw [h]; exact List.mem_singleton_self _
  obtain ⟨p, hp, rfl⟩ := List.mem_map.1 hmem
  rw [List.mem_filter, decide_eq_true_iff] at hp
  obtain ⟨hp, rfl⟩ := hp
  exact hp

theorem Consistent.installer_unique (h : Consistent r first s) {id' : ℕ}
    {next' : Snapshot γ ρ χ π} (hid : s.installedBy id = [next])
    (hid' : s.installedBy id' = [next']) (hrevision : next.revision = next'.revision) :
    id = id' := by
  have hp := mem_installs_of_installedBy hid
  have hp' := mem_installs_of_installedBy hid'
  exact congrArg Prod.fst (List.inj_on_of_nodup_map h.history.installs_revision_nodup hp hp'
    hrevision)

end Runs

/-- A call turned `prev` into `next` at one step of a run, and left the snapshot at its others. -/
def TurnedOnce (r : Readings γ) (s₀ : Engine γ ρ χ π) (events : List (Event γ ρ χ π)) (id : ℕ)
    (prev next : Snapshot γ ρ χ π) : Prop :=
  ∃ before v after, Machine.visited (step r) s₀ events = before ++ v :: after ∧ v.2.id = id ∧
    v.1.snapshot = prev ∧ (step r v.1 v.2).snapshot = next ∧
    ∀ w ∈ before ++ after, w.2.id = id → (step r w.1 w.2).snapshot = w.1.snapshot

/-- What a run from `s₀` to `s` keeps. -/
structure Linear (r : Readings γ) (s₀ : Engine γ ρ χ π) (events : List (Event γ ρ χ π))
    (s : Engine γ ρ χ π) : Prop where
  /-- A call that succeeds installs the successor of the current snapshot and returns its
  revision; if it holds a revision, it is that of the current snapshot. -/
  succeeds : ∀ id call revision, s.calls id = some (call, .returned (.ok revision)) →
    ∃ prev next, TurnedOnce r s₀ events id prev next ∧ next.revision = prev.revision + 1 ∧
      revision = next.revision ∧
      ∀ expected, call.expected = some expected → prev.revision = expected
  /-- A call that fails leaves the snapshot at each of its steps. -/
  fails : ∀ id call error, s.calls id = some (call, .returned (.error error)) →
    ∀ v ∈ Machine.visited (step r) s₀ events, v.2.id = id →
      (step r v.1 v.2).snapshot = v.1.snapshot
  /-- Two calls that hold the same revision do not both succeed. -/
  oneWinner : ∀ id id' call call' revision revision' expected,
    s.calls id = some (call, .returned (.ok revision)) →
    s.calls id' = some (call', .returned (.ok revision')) →
    call.expected = some expected → call'.expected = some expected → id = id'
  /-- The revision starts at 1 and no step changes a snapshot but to its successor. -/
  consecutive : s₀.snapshot.revision = 1 ∧ ∀ v ∈ Machine.visited (step r) s₀ events,
    (step r v.1 v.2).snapshot = v.1.snapshot ∨
      (step r v.1 v.2).snapshot.revision = v.1.snapshot.revision + 1
  /-- Where the store is required, it holds the record of every snapshot there was. -/
  stored : s.storeRequired = true → s.Stored r s.snapshot ∧
    ∀ v ∈ Machine.visited (step r) s₀ events, s.Stored r v.1.snapshot

/-- **Publication is linear and atomic**, for every start and every interleaving of the calls, with
every outcome of validation, compilation and persistence. -/
theorem publication_linear (r : Readings γ) {b : Boot γ ρ χ π} {s₀ : Engine γ ρ χ π}
    (hboot : boot r b = .ok s₀) (events : List (Event γ ρ χ π)) :
    Linear r s₀ events (events.foldl (step r) s₀) := by
  obtain ⟨h₀, hcalls, hone⟩ := boot_consistent hboot
  have h := consistent_foldl h₀ events
  have hvisited : ∀ v ∈ Machine.visited (step r) s₀ events, Consistent r s₀.snapshot v.1 := by
    intro v hv
    obtain ⟨before, -, -, hstate⟩ := Machine.exists_split_of_mem_visited hv
    rw [hstate]
    exact consistent_foldl h₀ before
  have hnone (id : ℕ) : s₀.installedBy id = [] := h₀.known id (hcalls id)
  refine ⟨?_, ?_, ?_, ⟨hone, ?_⟩, ?_⟩
  · intro id call revision hcall
    obtain ⟨next, hnext, hrevision, hprecedes⟩ := h.sound id call _ hcall
    obtain ⟨before, v, after, hsplit, hid, hsnap, hinst, hother⟩ :=
      once_of_installedBy (hnone id) hnext
    have hstep := (hvisited v (by rw [hsplit]; simp)).step_revision hinst
    rw [hsnap] at hstep
    refine ⟨v.1.snapshot, next, ⟨before, v, after, hsplit, hid, rfl, hsnap, hother⟩, hstep,
      hrevision.symm, ?_⟩
    intro expected hexpected
    have hheld := hprecedes expected hexpected
    omega
  · intro id call error hcall
    have hempty := h.sound id call _ hcall
    exact unchanged_of_installedBy_eq (hempty.trans (hnone id).symm)
  · intro id id' call call' revision revision' expected hcall hcall' hexpected hexpected'
    obtain ⟨next, hnext, hrevision, hprecedes⟩ := h.sound id call _ hcall
    obtain ⟨next', hnext', hrevision', hprecedes'⟩ := h.sound id' call' _ hcall'
    refine h.installer_unique hnext hnext' ?_
    rw [hrevision, hrevision', hprecedes expected hexpected, hprecedes' expected hexpected']
  · intro v hv
    by_cases hinst : (step r v.1 v.2).installs = v.1.installs
    · rcases step_installs r v.1 v.2 with ⟨-, hsnap⟩ | hmore
      · exact Or.inl hsnap
      · rw [hinst] at hmore
        exact absurd hmore (by simp)
    · exact Or.inr ((hvisited v hv).step_revision hinst)
  · intro hreq
    refine ⟨h.history.stored hreq _ (List.mem_of_getLast? h.history.current), fun v hv => ?_⟩
    refine h.history.stored hreq _ ?_
    have hmem := (hvisited v hv).snapshot_mem
    obtain ⟨before, after, hevents, hstate⟩ := Machine.exists_split_of_mem_visited hv
    have hend : events.foldl (step r) s₀ = (v.2 :: after).foldl (step r) v.1 := by
      rw [hstate, ← List.foldl_append, ← hevents]
    rw [hend]
    exact hmem (v.2 :: after)

/-- A config is a name, and compiles. -/
def plainReadings : Readings String where
  configHash := id
  runtime _ := ⟨false, false, false, 0, none⟩
  knobsJson _ := "knobs"

def plainCompiler : Compiler String Unit Unit Unit where
  validateConfig _ := .ok ()
  registry _ := .ok ()
  resolver _ := .ok ()
  plugins _ := .ok ()

/-- A start on a store that is required and takes every write. -/
def plainBoot (store : HistoryStore) : Boot String Unit Unit Unit where
  compiler := plainCompiler
  config := "a"
  registry := ()
  resolver := ()
  attachment := some { store, required := true, now := 0, fault := none }

/-- Two publishers that both hold revision 1; the second enters once the first is done. -/
def racingPublishers : List (Event String Unit Unit Unit) :=
  [⟨0, .start (.publishWithAudit "b" { source := "cp", detail := "" } (some 1))⟩,
    ⟨1, .start (.publishWithAudit "c" { source := "cp", detail := "" } (some 1))⟩,
    ⟨0, .lock⟩, ⟨1, .lock⟩, ⟨0, .check⟩, ⟨0, .build plainCompiler⟩, ⟨1, .check⟩,
    ⟨0, .persist 1 none⟩, ⟨0, .swap⟩, ⟨1, .lock⟩, ⟨1, .check⟩]

theorem publication_linear_of_race :
    ∃ s₀, boot plainReadings (plainBoot {}) = .ok s₀ ∧
      Linear plainReadings s₀ racingPublishers (racingPublishers.foldl (step plainReadings) s₀) ∧
      ((racingPublishers.foldl (step plainReadings) s₀).calls 0).map Prod.snd =
        some (.returned (.ok 2)) ∧
      ((racingPublishers.foldl (step plainReadings) s₀).calls 1).map Prod.snd =
        some (.returned (.error (.conflict 1 2))) :=
  ⟨_, rfl, publication_linear (b := plainBoot {}) plainReadings rfl racingPublishers, rfl, rfl⟩

end Publication

end Switchback
