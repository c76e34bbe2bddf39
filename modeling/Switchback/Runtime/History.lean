import Switchback.Runtime.Publication

/-!
# The history of the config across restarts

Engines are started one after the other on one state store, and each numbers its revisions from 1.
-/

namespace Switchback

namespace Publication

open Lib

variable {γ ρ χ π : Type}

/-! ### Engines on one store -/

/-- What an engine is started from; the store is that of the world. -/
structure Start (γ ρ χ π : Type) where
  compiler : Compiler γ ρ χ π
  config : γ
  registry : ρ
  resolver : χ
  required : Bool
  now : ℤ
  fault : Option String

def Start.boot (start : Start γ ρ χ π) (store : HistoryStore) : Boot γ ρ χ π where
  compiler := start.compiler
  config := start.config
  registry := start.registry
  resolver := start.resolver
  attachment := some { store, required := start.required, now := start.now, fault := start.fault }

/-- The record a start writes. -/
def Start.record (r : Readings γ) (start : Start γ ρ χ π) : RevisionRecord :=
  revisionRecord 1 (r.configHash start.config) bootAudit start.now

inductive Deed (γ ρ χ π : Type) where
  | start (start : Start γ ρ χ π)
  | run (event : Event γ ρ χ π)

/-- The tables, and the engine that runs, if any. -/
structure World (γ ρ χ π : Type) where
  store : HistoryStore := {}
  engine : Option (Engine γ ρ χ π) := none

/-- The tables after what the engine did. -/
def Engine.tables (s : Engine γ ρ χ π) (store : HistoryStore) : HistoryStore :=
  match s.store with
  | some attached => attached.store
  | none => store

namespace World

/-- A start ends the engine before it, whether or not it succeeds. -/
def start (r : Readings γ) (w : World γ ρ χ π) (start : Start γ ρ χ π) : World γ ρ χ π :=
  match Publication.boot r (start.boot w.store) with
  | .ok s => { store := s.tables w.store, engine := some s }
  | .error _ => { w with engine := none }

def run (r : Readings γ) (w : World γ ρ χ π) (event : Event γ ρ χ π) : World γ ρ χ π :=
  match w.engine with
  | some s =>
      { store := (Publication.step r s event).tables w.store
        engine := some (Publication.step r s event) }
  | none => w

def step (r : Readings γ) (w : World γ ρ χ π) : Deed γ ρ χ π → World γ ρ χ π
  | .start start => w.start r start
  | .run event => w.run r event

end World

/-! ### Room above the table -/

namespace Engine

/-- The revisions of the table are below `bound`. -/
def RevisionsBelow (s : Engine γ ρ χ π) (bound : ℕ) : Prop :=
  ∀ attached, s.store = some attached → ∀ rec ∈ attached.store.revisions.rows, rec.revision < bound

theorem RevisionsBelow.mono {s : Engine γ ρ χ π} {a b : ℕ} (h : s.RevisionsBelow a)
    (hab : a ≤ b) : s.RevisionsBelow b :=
  fun attached hat rec hrec => Nat.lt_of_lt_of_le (h attached hat rec hrec) hab

end Engine

/-- What a call inside the lock knows of the table. -/
def Stage.Room (s : Engine γ ρ χ π) : Stage γ ρ χ π → Prop
  | .entered | .checked | .built _ => s.RevisionsBelow (s.snapshot.revision + 1)
  | .persisted p => s.RevisionsBelow (p.next.revision + 1)
  | .swapped p => s.RevisionsBelow p.next.revision ∧ p.next.revision = s.snapshot.revision
  | .waiting | .returned _ | .panicked => True

/-- No revision is written twice.  A panic may leave a record of the next revision behind, but then
no call enters again. -/
structure Roomy (s : Engine γ ρ χ π) : Prop where
  inside : ∀ id call stage, s.calls id = some (call, stage) → stage.Room s
  free : s.holder = none → s.poisoned = false → s.RevisionsBelow (s.snapshot.revision + 1)

theorem Stage.room_of_outside {s : Engine γ ρ χ π} {stage : Stage γ ρ χ π}
    (h : stage.inside = false) : stage.Room s := by
  cases stage with
  | waiting => trivial
  | returned result => trivial
  | panicked => trivial
  | entered => cases h
  | checked => cases h
  | built p => cases h
  | persisted p => cases h
  | swapped p => cases h

section Step

variable {r : Readings γ} {s s' : Engine γ ρ χ π} {first : Snapshot γ ρ χ π} {id : ℕ}
  {call : Call γ} {stage : Stage γ ρ χ π}

/-- A call moves while no other is inside the lock. -/
theorem Roomy.move (hc : Consistent r first s)
    (hcalls : s'.calls = Function.update s.calls id (some (call, stage)))
    (halone : s.holder = some id ∨ s.holder = none) (hown : stage.Room s')
    (hfree : s'.holder = none → s'.poisoned = false →
      s'.RevisionsBelow (s'.snapshot.revision + 1)) : Roomy s' := by
  refine ⟨?_, hfree⟩
  rw [hcalls]
  refine forall_calls_update hc.sound hown fun id' call' stage' hid hsound => ?_
  refine Stage.room_of_outside ?_
  by_contra hin
  have hholder := hsound.holder (by simpa using hin)
  rcases halone with halone | halone
  · rw [halone] at hholder
    exact hid (Option.some.inj hholder).symm
  · rw [halone] at hholder
    cases hholder

/-- A call moves and what the lock guards stays. -/
theorem Roomy.put (h : Roomy s) (hown : stage.Room s) : Roomy (s.put id call stage) :=
  ⟨forall_calls_update h.inside hown fun _ _ _ _ hstage => hstage, h.free⟩

/-- The holder of the lock leaves a table below the next revision. -/
theorem Roomy.leave (hc : Consistent r first s) (hholder : s.holder = some id)
    (hbelow : s.RevisionsBelow (s.snapshot.revision + 1)) (result : Except PublishError ℕ) :
    Roomy (s.leave id call result) :=
  Roomy.move hc rfl (Or.inl hholder) trivial fun _ _ => hbelow

theorem revisionsBelow_of_persistChecked {revision bound : ℕ} {hash : String}
    {audit : AuditContext} {now : ℤ} {fault : Option String} {store' : Option Attached}
    (hbelow : s.RevisionsBelow bound) (hrevision : revision < bound)
    (h : persistChecked s.store revision hash audit now fault = .ok store') :
    { s with store := store' }.RevisionsBelow bound := by
  intro attached' hat rec hrec
  rcases persistChecked_ok h with ⟨-, rfl⟩ | ⟨attached, hsome, -, rfl⟩
  · cases hat
  · cases hat
    rcases List.mem_append.1 hrec with hrec | hrec
    · exact hbelow attached hsome rec (List.mem_filter.1 hrec).1
    · rw [List.mem_singleton.1 hrec]
      exact hrevision

theorem Roomy.lock (hc : Consistent r first s) (h : Roomy s) : Roomy (s.lock id call) := by
  unfold Engine.lock
  split_ifs with hheld hpoisoned
  · exact h
  · exact h.put trivial
  · have hholder : s.holder = none := by simpa using hheld
    have hbelow := h.free hholder (by simpa using hpoisoned)
    exact Roomy.move hc rfl (Or.inr hholder) hbelow fun hnone => (by cases hnone)

theorem Roomy.check (hc : Consistent r first s) (h : Roomy s)
    (hcall : s.calls id = some (call, .entered)) : Roomy (s.check id call) := by
  have hbelow : s.RevisionsBelow (s.snapshot.revision + 1) := h.inside id call _ hcall
  have hholder : s.holder = some id := (hc.sound id call _ hcall).holder rfl
  unfold Engine.check
  split
  · exact h.put hbelow
  · split_ifs
    · exact Roomy.leave hc hholder hbelow _
    · exact h.put hbelow

theorem Roomy.build (hc : Consistent r first s) (h : Roomy s)
    (hcall : s.calls id = some (call, .checked)) (compiler : Compiler γ ρ χ π) :
    Roomy (s.build r id call compiler) := by
  have hbelow : s.RevisionsBelow (s.snapshot.revision + 1) := h.inside id call _ hcall
  have hholder : s.holder = some id := (hc.sound id call _ hcall).holder rfl
  unfold Engine.build
  split
  · exact Roomy.leave hc hholder hbelow _
  · exact h.put hbelow

variable {p : Prepared γ ρ χ π}

theorem Roomy.persistFirst (hc : Consistent r first s) (h : Roomy s)
    (hcall : s.calls id = some (call, .built p)) (now : ℤ) (fault : Option String) :
    Roomy (s.persistFirst id call p now fault) := by
  have hbelow : s.RevisionsBelow (s.snapshot.revision + 1) := h.inside id call _ hcall
  obtain ⟨hholder, -, -, hfollows⟩ := hc.sound id call _ hcall
  unfold Engine.persistFirst
  split_ifs
  · split
    · exact Roomy.leave hc hholder hbelow _
    · rename_i hp
      have hbelow' : s.RevisionsBelow (p.next.revision + 1) :=
        hbelow.mono (by rw [hfollows.revision]; omega)
      have hown := revisionsBelow_of_persistChecked hbelow' (Nat.lt_succ_self _) hp
      refine Roomy.move hc rfl (Or.inl hholder) hown fun hnone => ?_
      exact absurd (hholder.symm.trans hnone) (by simp)
  · exact h

theorem Roomy.swapFirst (hc : Consistent r first s) (h : Roomy s)
    (hcall : s.calls id = some (call, .built p)) : Roomy (s.swapFirst id call p) := by
  have hbelow : s.RevisionsBelow (s.snapshot.revision + 1) := h.inside id call _ hcall
  obtain ⟨hholder, -, -, hfollows⟩ := hc.sound id call _ hcall
  unfold Engine.swapFirst
  split_ifs
  · exact h
  · have hown : s.RevisionsBelow p.next.revision := hbelow.mono (by rw [hfollows.revision])
    refine Roomy.move hc rfl (Or.inl hholder) ⟨hown, rfl⟩ fun hnone => ?_
    exact absurd (hholder.symm.trans hnone) (by simp)

theorem Roomy.swapLast (hc : Consistent r first s) (h : Roomy s)
    (hcall : s.calls id = some (call, .persisted p)) : Roomy (s.swapLast id call p) := by
  have hbelow : s.RevisionsBelow (p.next.revision + 1) := h.inside id call _ hcall
  obtain ⟨hholder, -⟩ := hc.sound id call _ hcall
  exact Roomy.move hc rfl (Or.inl hholder) trivial fun _ _ => hbelow

theorem Roomy.persistLast (hc : Consistent r first s) (h : Roomy s)
    (hcall : s.calls id = some (call, .swapped p)) (now : ℤ) (fault : Option String) :
    Roomy (s.persistLast id call p now fault) := by
  obtain ⟨hbelow, hrevision⟩ : s.RevisionsBelow p.next.revision ∧
    p.next.revision = s.snapshot.revision := h.inside id call _ hcall
  obtain ⟨hholder, -⟩ := hc.sound id call _ hcall
  refine Roomy.move hc rfl (Or.inl hholder) trivial fun _ _ => ?_
  have hlt : p.next.revision < s.snapshot.revision + 1 := by omega
  have hbelow' : s.RevisionsBelow (s.snapshot.revision + 1) := hbelow.mono hlt.le
  unfold Engine.persistLast persistBestEffort
  cases hp : persistChecked s.store p.next.revision p.hash p.audit now fault with
  | error e => exact hbelow'
  | ok store' => exact revisionsBelow_of_persistChecked hbelow' hlt hp

theorem Roomy.panic (hc : Consistent r first s) (hholder : s.holder = some id) :
    Roomy (s.panic id call) :=
  Roomy.move hc rfl (Or.inl hholder) trivial fun _ hpoisoned => (by cases hpoisoned)

theorem Roomy.step (hc : Consistent r first s) (h : Roomy s) (e : Event γ ρ χ π) :
    Roomy (step r s e) := by
  unfold Publication.step
  split
  · exact h.put trivial
  · exact h
  · rename_i action call stage hcall
    have hpanic : Roomy (if stage.inside then s.panic e.id call else s) := by
      split_ifs with hin
      · exact Roomy.panic hc ((hc.sound e.id call stage hcall).holder hin)
      · exact h
    unfold Publication.advance
    split
    · exact Roomy.lock hc h
    · exact Roomy.check hc h hcall
    · exact Roomy.build hc h hcall _
    · exact Roomy.persistFirst hc h hcall _ _
    · exact Roomy.swapFirst hc h hcall
    · exact Roomy.swapLast hc h hcall
    · exact Roomy.persistLast hc h hcall _ _
    · exact hpanic
    · exact h

theorem Roomy.step_store (hc : Consistent r first s) (h : Roomy s) (e : Event γ ρ χ π) :
    (Publication.step r s e).store = s.store ∨
      ∃ revision hash audit now fault, s.RevisionsBelow revision ∧
        persistChecked s.store revision hash audit now fault =
          .ok (Publication.step r s e).store := by
  have hmove := step_move r s e
  generalize Publication.step r s e = s' at hmove ⊢
  cases hmove with
  | stay => exact Or.inl rfl
  | quiet hstage hcalls hsnap hinst hstore => exact Or.inl hstore
  | persistFirst hcall hp =>
    have hbelow : s.RevisionsBelow (s.snapshot.revision + 1) := h.inside e.id _ _ hcall
    obtain ⟨-, -, -, hfollows⟩ := hc.sound e.id _ _ hcall
    exact Or.inr ⟨_, _, _, _, _, hfollows.revision ▸ hbelow, hp⟩
  | swapFirst hcall => exact Or.inl rfl
  | swapLast hcall => exact Or.inl rfl
  | @persistLast call p now fault haction hcall =>
    obtain ⟨hbelow, -⟩ : s.RevisionsBelow p.next.revision ∧ _ := h.inside e.id call _ hcall
    unfold Engine.persistLast persistBestEffort
    cases hp : persistChecked s.store p.next.revision p.hash p.audit now fault with
    | error e => exact Or.inl rfl
    | ok store' => exact Or.inr ⟨_, _, _, _, _, hbelow, hp⟩

theorem step_calls_other (r : Readings γ) (s : Engine γ ρ χ π) (e : Event γ ρ χ π) {id : ℕ}
    (h : id ≠ e.id) : (Publication.step r s e).calls id = s.calls id := by
  have hmove := step_move r s e
  generalize Publication.step r s e = s' at hmove ⊢
  cases hmove with
  | stay => rfl
  | quiet hstage hcalls hsnap hinst hstore => rw [hcalls, Function.update_of_ne h]
  | persistFirst hcall hp => exact Function.update_of_ne h _ _
  | swapFirst hcall => exact Function.update_of_ne h _ _
  | swapLast hcall => exact Function.update_of_ne h _ _
  | persistLast haction hcall => exact Function.update_of_ne h _ _

/-- **What a call returns is stored**: when a call comes back with a revision, the record of the
snapshot it put in place is in the table, unless a write was refused that is not required. -/
theorem stored_of_returned (hc : Consistent r first s) {attached : Attached}
    (hstore : s.store = some attached) {e : Event γ ρ χ π}
    (haccepted : ∀ now fault, e.action = .persist now fault →
      s.storeRequired = true ∨ fault = none) {revision : ℕ}
    (hcalls : (Publication.step r s e).calls e.id = some (call, .returned (.ok revision))) :
    s.calls e.id = some (call, .returned (.ok revision)) ∨
      ∀ next ∈ (Publication.step r s e).installedBy e.id,
        (Publication.step r s e).Stored r next := by
  -- a call that has moved to another stage has not come back
  have hmoved {s' : Engine γ ρ χ π} {call' : Call γ} {stage' : Stage γ ρ χ π}
      (hstage : stage'.publishes = false)
      (h : s'.calls = Function.update s.calls e.id (some (call', stage')))
      (hcalls : s'.calls e.id = some (call, .returned (.ok revision))) : False := by
    rw [h, Function.update_self] at hcalls
    cases hcalls
    cases hstage
  have hmove := step_move r s e
  generalize Publication.step r s e = s' at hmove hcalls ⊢
  cases hmove with
  | stay => exact .inl hcalls
  | quiet hstage h hsnap hinst hstore => exact (hmoved hstage h hcalls).elim
  | persistFirst hcall hp => exact (hmoved rfl rfl hcalls).elim
  | swapFirst hcall => exact (hmoved rfl rfl hcalls).elim
  | @swapLast call' p hcall =>
    -- the write went before the swap
    right
    obtain ⟨-, hnone, -, -, hstored⟩ := hc.sound e.id _ _ hcall
    intro next hnext
    have hinst : next ∈ (s.install e.id p.next).installedBy e.id := hnext
    rw [installedBy_install, if_pos rfl, hnone, List.nil_append, List.mem_singleton] at hinst
    rw [hinst]
    exact hstored
  | @persistLast call' p now fault haction hcall =>
    -- and here behind it
    right
    obtain ⟨-, hinstalled, -, hreq, hhash⟩ := hc.sound e.id _ _ hcall
    obtain rfl : fault = none := by
      refine (haccepted now fault haction).resolve_left fun hrequired => ?_
      rw [hreq] at hrequired
      cases hrequired
    intro next hnext
    have hnext : next ∈ s.installedBy e.id := hnext
    rw [hinstalled, List.mem_singleton] at hnext
    have hwritten : persistBestEffort s.store p.next.revision p.hash p.audit now none =
        some { attached with
          store := attached.store.record (revisionRecord p.next.revision p.hash p.audit now)
            (auditEntry p.next.revision p.audit now) } := by
      rw [hstore]
      rfl
    rw [hnext]
    refine ⟨_, p.audit, now, hwritten, ?_, ?_⟩
    · rw [HistoryStore.getRevision_record, hhash]
      exact if_pos rfl
    · exact List.mem_append_right _ (List.mem_singleton_self _)

end Step

/-! ### Lives of the engine -/

/-- Every record of the one table is in the other. -/
def HistoryStore.Keeps (before after : HistoryStore) : Prop :=
  ∀ revision rec, before.getRevision revision = some rec → after.getRevision revision = some rec

theorem HistoryStore.Keeps.trans {a b c : HistoryStore} (hab : a.Keeps b) (hbc : b.Keeps c) :
    a.Keeps c :=
  fun revision rec h => hbc revision rec (hab revision rec h)

/-- A write keeps the other records exactly if it finds none of its revision, or its own. -/
theorem HistoryStore.keeps_record_iff (store : HistoryStore) (rec : RevisionRecord)
    (entry : AuditEntry) : store.Keeps (store.record rec entry) ↔
      store.getRevision rec.revision = none ∨ store.getRevision rec.revision = some rec := by
  constructor
  · intro h
    cases hrow : store.getRevision rec.revision with
    | none => exact Or.inl rfl
    | some old =>
      have hold := h rec.revision old hrow
      rw [getRevision_record, if_pos rfl] at hold
      exact Or.inr hold.symm
  · intro h revision old hold
    rw [getRevision_record]
    split_ifs with hrevision
    · subst hrevision
      rcases h with h | h
      · rw [h] at hold
        cases hold
      · exact h.symm.trans hold
    · exact hold

/-- The table holds the record of a snapshot. -/
def HistoryStore.Has (r : Readings γ) (store : HistoryStore) (snap : Snapshot γ ρ χ π) : Prop :=
  ∃ audit now, store.getRevision snap.revision =
    some (revisionRecord snap.revision (r.configHash snap.config) audit now)

theorem HistoryStore.Keeps.has {before after : HistoryStore} (h : before.Keeps after)
    {r : Readings γ} {snap : Snapshot γ ρ χ π} (hsnap : before.Has r snap) : after.Has r snap := by
  obtain ⟨audit, now, hrow⟩ := hsnap
  exact ⟨audit, now, h _ _ hrow⟩

namespace World

/-- The engine that runs keeps the invariants, on the tables of the world. -/
def Sound (r : Readings γ) (w : World γ ρ χ π) : Prop :=
  ∀ s, w.engine = some s → (∃ first, Consistent r first s) ∧ Roomy s ∧
    ∃ required, s.store = some { store := w.store, required }

variable {r : Readings γ} {w : World γ ρ χ π}

/-- The tables that a start leaves. -/
def started (r : Readings γ) (start : Start γ ρ χ π) (store : HistoryStore) : HistoryStore :=
  match start.fault with
  | none => store.record (start.record r) (auditEntry 1 bootAudit start.now)
  | some _ => store

theorem boot_start {start : Start γ ρ χ π} {store : HistoryStore} {s : Engine γ ρ χ π}
    (h : Publication.boot r (start.boot store) = .ok s) :
    s.store = some { store := started r start store, required := start.required } := by
  obtain ⟨plugins, engine, rfl, h⟩ := boot_ok h
  obtain ⟨store', rfl, hstore⟩ := withStorePolicy_ok h
  show store' = _
  unfold started
  cases hfault : start.fault with
  | none =>
    split_ifs at hstore with hrequired
    · rw [hfault] at hstore
      exact (Except.ok.inj hstore).symm
    · rw [hfault] at hstore
      exact hstore
  | some e =>
    split_ifs at hstore with hrequired
    · rw [hfault] at hstore
      cases hstore
    · rw [hfault] at hstore
      exact hstore

theorem tables_of_store {s : Engine γ ρ χ π} {attached : Attached} (h : s.store = some attached)
    (store : HistoryStore) : s.tables store = attached.store := by
  unfold Engine.tables
  rw [h]

theorem started_store {start : Start γ ρ χ π} {s : Engine γ ρ χ π}
    (hboot : Publication.boot r (start.boot w.store) = .ok s) :
    w.start r start = { store := started r start w.store, engine := some s } := by
  unfold World.start
  rw [hboot]
  exact congrArg (World.mk · (some s)) (tables_of_store (boot_start hboot) _)

/-- A start on a table without revisions. -/
theorem sound_start (start : Start γ ρ χ π) (hempty : w.store.revisions.rows = []) :
    (w.start r start).Sound r ∧ w.store.Keeps (w.start r start).store := by
  refine ⟨?_, ?_⟩
  · intro s hs
    cases hboot : Publication.boot r (start.boot w.store) with
    | error e =>
      unfold World.start at hs
      rw [hboot] at hs
      cases hs
    | ok s' =>
      have hstore := boot_start hboot
      obtain ⟨hc, hcalls, hone⟩ := boot_consistent hboot
      rw [started_store hboot] at hs ⊢
      cases hs
      refine ⟨⟨_, hc⟩, ⟨?_, ?_⟩, start.required, hstore⟩
      · intro id call stage hcall
        rw [hcalls] at hcall
        cases hcall
      · intro _ _ attached hat rec hrec
        rw [hstore] at hat
        cases hat
        rw [hone]
        unfold started at hrec
        cases hfault : start.fault with
        | some e =>
          simp only [hfault, hempty] at hrec
          cases hrec
        | none =>
          simp only [hfault] at hrec
          have hmem : rec ∈ w.store.revisions.rows.filter _ ++ [start.record r] := hrec
          rw [hempty, List.filter_nil, List.nil_append, List.mem_singleton] at hmem
          rw [hmem]
          exact Nat.lt_succ_self 1
  · intro revision rec h
    unfold HistoryStore.getRevision at h
    rw [hempty] at h
    cases h

theorem sound_run (h : w.Sound r) (event : Event γ ρ χ π) :
    (w.run r event).Sound r ∧ w.store.Keeps (w.run r event).store := by
  cases hengine : w.engine with
  | none =>
    have hrun : w.run r event = w := by
      unfold World.run
      rw [hengine]
    rw [hrun]
    exact ⟨h, fun _ _ h => h⟩
  | some s =>
    obtain ⟨⟨first, hc⟩, hroom, required, hstore⟩ := h s hengine
    have hnext : ∃ store', (Publication.step r s event).store = some { store := store', required } ∧
        w.store.Keeps store' := by
      rcases hroom.step_store hc event with hsame | ⟨revision, hash, audit, now, fault, hbelow, hp⟩
      · exact ⟨w.store, hsame.trans hstore, fun _ _ h => h⟩
      · rcases persistChecked_ok hp with ⟨hnone, -⟩ | ⟨attached, hsome, -, hwritten⟩
        · rw [hstore] at hnone
          cases hnone
        · rw [hstore] at hsome
          cases hsome
          refine ⟨_, hwritten, (HistoryStore.keeps_record_iff _ _ _).2 (Or.inl ?_)⟩
          refine firstWith_eq_none.2 fun hmem => ?_
          obtain ⟨rec, hrec, hrevision⟩ := List.mem_map.1 hmem
          exact absurd (hbelow _ hstore rec hrec) (by rw [hrevision]; exact Nat.lt_irrefl _)
    obtain ⟨store', hstore', hkeeps⟩ := hnext
    have hrun : w.run r event =
        { store := store', engine := some (Publication.step r s event) } := by
      unfold World.run
      rw [hengine]
      exact congrArg (World.mk · _) (tables_of_store hstore' _)
    rw [hrun]
    refine ⟨?_, hkeeps⟩
    intro s' hs'
    cases hs'
    exact ⟨⟨first, hc.step event⟩, hroom.step hc event, required, hstore'⟩

/-- The condition: no start finds a revision in the table. -/
def StartsFresh (r : Readings γ) (w : World γ ρ χ π) (deeds : List (Deed γ ρ χ π)) : Prop :=
  ∀ v ∈ Machine.visited (step r) w deeds, ∀ start, v.2 = .start start →
    v.1.store.revisions.rows = []

theorem keeps_foldl (h : w.Sound r) {deeds : List (Deed γ ρ χ π)}
    (hfresh : w.StartsFresh r deeds) :
    (deeds.foldl (step r) w).Sound r ∧ w.store.Keeps (deeds.foldl (step r) w).store := by
  induction deeds generalizing w with
  | nil => exact ⟨h, fun _ _ h => h⟩
  | cons deed deeds ih =>
    have hstep : (w.step r deed).Sound r ∧ w.store.Keeps (w.step r deed).store := by
      cases deed with
      | start start => exact sound_start start (hfresh _ List.mem_cons_self start rfl)
      | run event => exact sound_run h event
    obtain ⟨hsound, hkeeps⟩ := ih hstep.1 fun v hv => hfresh v (List.mem_cons_of_mem _ hv)
    exact ⟨hsound, hstep.2.trans hkeeps⟩

theorem keeps_of_split {store : HistoryStore} {before after : List (Deed γ ρ χ π)}
    (hfresh : StartsFresh r { store } (before ++ after)) :
    (before.foldl (step r) { store }).store.Keeps
      ((before ++ after).foldl (step r) { store }).store := by
  have hinit : Sound r ({ store } : World γ ρ χ π) := fun s hs => (by cases hs)
  unfold StartsFresh at hfresh
  rw [Machine.visited_append] at hfresh
  have hbefore : StartsFresh r { store } before :=
    fun v hv => hfresh v (List.mem_append_left _ hv)
  obtain ⟨hsound, -⟩ := keeps_foldl hinit hbefore
  rw [List.foldl_append]
  exact (keeps_foldl hsound fun v hv => hfresh v (List.mem_append_right _ hv)).2

/-! ### What was published -/

/-- A write is refused only where the store is required, so that the start or the call fails. -/
def Accepts (w : World γ ρ χ π) : Deed γ ρ χ π → Prop
  | .start start => start.required = true ∨ start.fault = none
  | .run event => ∀ s, w.engine = some s → ∀ now fault, event.action = .persist now fault →
      s.storeRequired = true ∨ fault = none

def WritesAccepted (r : Readings γ) (w : World γ ρ χ π) (deeds : List (Deed γ ρ χ π)) : Prop :=
  ∀ v ∈ Machine.visited (step r) w deeds, v.1.Accepts v.2

/-- What the calls of the engine that runs came back with is in the table. -/
def Recorded (r : Readings γ) (w : World γ ρ χ π) : Prop :=
  ∀ s, w.engine = some s → ∀ id call revision, s.calls id = some (call, .returned (.ok revision)) →
    ∀ next ∈ s.installedBy id, w.store.Has r next

theorem recorded_start (start : Start γ ρ χ π) : (w.start r start).Recorded r := by
  intro s hs id call revision hcall
  cases hboot : Publication.boot r (start.boot w.store) with
  | error e =>
    unfold World.start at hs
    rw [hboot] at hs
    cases hs
  | ok s' =>
    rw [started_store hboot] at hs
    cases hs
    rw [(boot_consistent hboot).2.1] at hcall
    cases hcall

theorem installedBy_of_returned {s : Engine γ ρ χ π} {first : Snapshot γ ρ χ π}
    (hc : Consistent r first s) {event : Event γ ρ χ π} {id : ℕ} {call call' : Call γ}
    {revision revision' : ℕ} (hcall : s.calls id = some (call, .returned (.ok revision)))
    (hcall' : (Publication.step r s event).calls id = some (call', .returned (.ok revision'))) :
    (Publication.step r s event).installedBy id = s.installedBy id := by
  rcases step_installedBy r s event id with ⟨hsame, -⟩ | ⟨-, hmore⟩
  · exact hsame
  · obtain ⟨next, hnext, -⟩ := hc.sound id call _ hcall
    obtain ⟨next', hnext', -⟩ := (hc.step event).sound id call' _ hcall'
    rw [hnext, hnext'] at hmore
    cases hmore

theorem recorded_run (h : w.Sound r) (hrecorded : w.Recorded r) {event : Event γ ρ χ π}
    (haccepts : w.Accepts (.run event)) : (w.run r event).Recorded r := by
  obtain ⟨hsound', hkeeps⟩ := sound_run h event
  cases hengine : w.engine with
  | none =>
    have hrun : w.run r event = w := by
      unfold World.run
      rw [hengine]
    rw [hrun]
    exact hrecorded
  | some s =>
    obtain ⟨⟨first, hc⟩, -, required, hstore⟩ := h s hengine
    have hrun : (w.run r event).engine = some (Publication.step r s event) := by
      unfold World.run
      rw [hengine]
    intro s' hs' id call revision hcall next hnext
    rw [hrun] at hs'
    cases hs'
    -- a call that had come back before the step has its record from then
    have hbefore (hold : s.calls id = some (call, .returned (.ok revision))) :
        (w.run r event).store.Has r next := by
      rw [installedBy_of_returned hc hold hcall] at hnext
      exact hkeeps.has (hrecorded s hengine id call revision hold next hnext)
    by_cases hid : id = event.id
    · subst hid
      rcases stored_of_returned hc hstore (haccepts s hengine) hcall with hold | hstored
      · exact hbefore hold
      · obtain ⟨attached, audit, now, hattached, hrow, -⟩ := hstored next hnext
        obtain ⟨-, -, required', htable⟩ := hsound' _ hrun
        rw [htable] at hattached
        cases hattached
        exact ⟨audit, now, hrow⟩
    · exact hbefore (step_calls_other r s event hid ▸ hcall)

theorem recorded_foldl (h : w.Sound r) (hrecorded : w.Recorded r) {deeds : List (Deed γ ρ χ π)}
    (hfresh : w.StartsFresh r deeds) (haccepted : w.WritesAccepted r deeds) :
    (deeds.foldl (step r) w).Recorded r := by
  induction deeds generalizing w with
  | nil => exact hrecorded
  | cons deed deeds ih =>
    have hstep : (w.step r deed).Sound r ∧ (w.step r deed).Recorded r := by
      cases deed with
      | start start =>
        have hempty := hfresh _ List.mem_cons_self start rfl
        exact ⟨(sound_start start hempty).1, recorded_start start⟩
      | run event =>
        exact ⟨(sound_run h event).1, recorded_run h hrecorded (haccepted _ List.mem_cons_self)⟩
    exact ih hstep.1 hstep.2 (fun v hv => hfresh v (List.mem_cons_of_mem _ hv))
      fun v hv => haccepted v (List.mem_cons_of_mem _ hv)

/-- Every revision that was published in a run is in the table at its end. -/
structure Complete (r : Readings γ) (w : World γ ρ χ π) (deeds : List (Deed γ ρ χ π)) : Prop where
  /-- That of each start that succeeds. -/
  starts : ∀ before start after s, deeds = before ++ .start start :: after →
    Publication.boot r (start.boot (before.foldl (step r) w).store) = .ok s →
    (deeds.foldl (step r) w).store.getRevision 1 = some (start.record r)
  /-- That of each call that comes back with a revision, at any moment. -/
  calls : ∀ before after s, deeds = before ++ after → (before.foldl (step r) w).engine = some s →
    ∀ id call revision, s.calls id = some (call, .returned (.ok revision)) →
      ∃ next, s.installedBy id = [next] ∧ next.revision = revision ∧
        (deeds.foldl (step r) w).store.Has r next

theorem getRevision_start {start : Start γ ρ χ π} {s : Engine γ ρ χ π}
    (hboot : Publication.boot r (start.boot w.store) = .ok s) (haccepts : w.Accepts (.start start)) :
    (w.start r start).store.getRevision 1 = some (start.record r) := by
  have hfault : start.fault = none := by
    refine haccepts.elim (fun hrequired => ?_) id
    obtain ⟨plugins, engine, rfl, hpolicy⟩ := boot_ok hboot
    obtain ⟨store', rfl, hstore⟩ := withStorePolicy_ok hpolicy
    rw [if_pos hrequired] at hstore
    rcases persistChecked_ok hstore with ⟨hnone, -⟩ | ⟨-, -, hfault, -⟩
    · cases hnone
    · exact hfault
  rw [started_store hboot]
  unfold started
  rw [hfault]
  exact (HistoryStore.getRevision_record _ _ _ _).trans (if_pos rfl)

theorem complete_of_accepted {store : HistoryStore} {deeds : List (Deed γ ρ χ π)}
    (hfresh : StartsFresh r { store } deeds) (haccepted : WritesAccepted r { store } deeds) :
    Complete r { store } deeds := by
  have hinit : Sound r ({ store } : World γ ρ χ π) := fun s hs => (by cases hs)
  refine ⟨?_, ?_⟩
  · intro before start after s hsplit hboot
    rw [List.append_cons] at hsplit
    have hmem : (before.foldl (step r) { store }, .start start) ∈
        Machine.visited (step r) { store } deeds := by
      rw [hsplit, Machine.visited_append, Machine.visited_append]
      simp [Machine.visited]
    have hrow := getRevision_start hboot (haccepted _ hmem)
    subst hsplit
    refine keeps_of_split hfresh 1 _ ?_
    rw [List.foldl_append]
    exact hrow
  · rintro before after s rfl hengine id call revision hcall
    have hkeeps := keeps_of_split hfresh
    unfold StartsFresh at hfresh
    unfold WritesAccepted at haccepted
    rw [Machine.visited_append] at hfresh haccepted
    have hbefore : StartsFresh r { store } before :=
      fun v hv => hfresh v (List.mem_append_left _ hv)
    have hrecorded := recorded_foldl hinit (fun s hs => (by cases hs)) hbefore
      fun v hv => haccepted v (List.mem_append_left _ hv)
    obtain ⟨⟨first, hc⟩, -⟩ := (keeps_foldl hinit hbefore).1 s hengine
    obtain ⟨next, hnext, hrevision, -⟩ := hc.sound id call _ hcall
    refine ⟨next, hnext, hrevision, hkeeps.has ?_⟩
    have hmem : next ∈ s.installedBy id := by rw [hnext]; exact List.mem_singleton_self _
    exact hrecorded s hengine id call revision hcall next hmem

end World

/-- **The history of the config.**  In a run of starts and calls on one store in which no start
finds a revision in the table, no record of the table is ever replaced by another; if moreover
no write is refused but where the store is required, every revision that was published is in the
table at the end.  A start that finds a table with revision 1 and whose write is accepted replaces
that record, unless it is the same. -/
theorem history_append_only (r : Readings γ) (store : HistoryStore)
    (deeds : List (Deed γ ρ χ π)) :
    (World.StartsFresh r { store } deeds →
      (∀ before after, deeds = before ++ after →
        (before.foldl (World.step r) { store }).store.Keeps
          (deeds.foldl (World.step r) { store }).store) ∧
      (World.WritesAccepted r { store } deeds → World.Complete r { store } deeds)) ∧
    ∀ (w : World γ ρ χ π) (start : Start γ ρ χ π) (s : Engine γ ρ χ π),
      boot r (start.boot w.store) = .ok s → start.fault = none →
      (w.store.Keeps (w.step r (.start start)).store ↔
        w.store.getRevision 1 = none ∨ w.store.getRevision 1 = some (start.record r)) := by
  refine ⟨?_, ?_⟩
  · intro hfresh
    refine ⟨?_, World.complete_of_accepted hfresh⟩
    rintro before after rfl
    exact World.keeps_of_split hfresh
  · intro w start s hboot hfault
    have hstarted : (w.step r (.start start)).store =
        w.store.record (start.record r) (auditEntry 1 bootAudit start.now) := by
      have hstart : w.step r (.start start) = _ := World.started_store hboot
      rw [hstart]
      unfold World.started
      rw [hfault]
    rw [hstarted]
    exact HistoryStore.keeps_record_iff w.store (start.record r) _

/-- A start at `now` on a store that is required and takes the write. -/
def plainStart (now : ℤ) : Deed String Unit Unit Unit :=
  .start { compiler := plainCompiler, config := "a", registry := (), resolver := (),
           required := true, now, fault := none }

/-- A publish of `config` at `now` that is carried through. -/
def plainPublish (config : String) (now : ℤ) : List (Deed String Unit Unit Unit) :=
  [.run ⟨0, .start (.publishWithAudit config { source := "cp", detail := "" } none)⟩,
    .run ⟨0, .lock⟩, .run ⟨0, .check⟩, .run ⟨0, .build plainCompiler⟩,
    .run ⟨0, .persist now none⟩, .run ⟨0, .swap⟩]

/-- One life: the record of the start is still there after the publish, and both are read back. -/
theorem history_append_only_of_life :
    World.StartsFresh plainReadings {} (plainStart 0 :: plainPublish "b" 1) ∧
      World.WritesAccepted plainReadings {} (plainStart 0 :: plainPublish "b" 1) ∧
      (([plainStart 0].foldl (World.step plainReadings) {}).store.Keeps
        ((plainStart 0 :: plainPublish "b" 1).foldl (World.step plainReadings) {}).store) ∧
      World.Complete plainReadings {} (plainStart 0 :: plainPublish "b" 1) ∧
      ((plainStart 0 :: plainPublish "b" 1).foldl (World.step plainReadings) {}).store.getRevision 2
        = some ⟨2, "b", "cp", 1⟩ := by
  have hmem {v : World String Unit Unit Unit × Deed String Unit Unit Unit}
      (hv : v ∈ Machine.visited (World.step plainReadings)
        (World.step plainReadings {} (plainStart 0)) (plainPublish "b" 1)) :
      v.2 ∈ plainPublish "b" 1 := by
    obtain ⟨before, after, hsplit, -⟩ := Machine.exists_split_of_mem_visited hv
    rw [hsplit]
    simp
  have hfresh : World.StartsFresh plainReadings {} (plainStart 0 :: plainPublish "b" 1) := by
    intro v hv start hstart
    rcases List.mem_cons.1 hv with rfl | hv
    · rfl
    · have hpublish := hmem hv
      rw [hstart] at hpublish
      simp [plainPublish] at hpublish
  have haccepted : World.WritesAccepted plainReadings {} (plainStart 0 :: plainPublish "b" 1) := by
    intro v hv
    rcases List.mem_cons.1 hv with rfl | hv
    · exact Or.inl rfl
    · have hpublish := hmem hv
      unfold World.Accepts
      split
      · rename_i start hstart
        rw [hstart] at hpublish
        simp [plainPublish] at hpublish
      · rename_i event hevent
        rw [hevent] at hpublish
        intro s _ now fault hpersist
        right
        simp only [plainPublish, List.mem_cons, Deed.run.injEq, List.not_mem_nil,
          or_false] at hpublish
        rcases hpublish with rfl | rfl | rfl | rfl | rfl | rfl <;> cases hpersist
        rfl
  obtain ⟨hkeeps, hcomplete⟩ := (history_append_only plainReadings {} _).1 hfresh
  exact ⟨hfresh, haccepted, hkeeps [plainStart 0] _ rfl, hcomplete haccepted, rfl⟩

/-- A restart: the publish of the second life takes the revision of the first one's. -/
theorem not_history_append_only_of_restart :
    ¬ ((plainStart 0 :: plainPublish "b" 1).foldl (World.step plainReadings) {}).store.Keeps
      (((plainStart 0 :: plainPublish "b" 1) ++ (plainStart 2 :: plainPublish "c" 3)).foldl
        (World.step plainReadings) {}).store := by
  intro h
  have hrow := h 2 ⟨2, "b", "cp", 1⟩ rfl
  have hnew : (((plainStart 0 :: plainPublish "b" 1) ++
      (plainStart 2 :: plainPublish "c" 3)).foldl
        (World.step plainReadings) {}).store.getRevision 2 = some ⟨2, "c", "cp", 3⟩ := rfl
  rw [hnew] at hrow
  exact absurd hrow (by decide)

end Publication

end Switchback
