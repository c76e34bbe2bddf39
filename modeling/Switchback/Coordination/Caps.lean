import Mathlib.Logic.Function.Basic
import Switchback.Coordination.Leases

/-!
# Concurrency caps

A tenant with a `max_concurrency`, and the gateway with a global limit, hand out guards.  A guard
is a slot of the store, or a permit of a registry in the process when the store call fails and the
store is not required.  Each of the two registries keeps to the cap by itself.
-/

namespace Switchback

open Lib

/-! ### The registries in the process -/

/-- Requests in flight per tenant. -/
structure Concurrency where
  counts : OrdMap String ℕ := OrdMap.empty

namespace Concurrency

def inFlight (c : Concurrency) (tenant : String) : ℕ := (c.counts.get tenant).getD 0

def reserve (c : Concurrency) (tenant : String) (max : ℕ) : Bool × Concurrency :=
  let count := c.inFlight tenant
  if count ≥ max then (false, ⟨c.counts.insert tenant count⟩)
  else (true, ⟨c.counts.insert tenant (count + 1)⟩)

def release (c : Concurrency) (tenant : String) : Concurrency :=
  match c.counts.get tenant with
  | none => c
  | some count => ⟨c.counts.insert tenant (count - 1)⟩

end Concurrency

/-- Permits that are free. -/
structure Semaphore where
  available : ℕ

namespace Semaphore

def acquire (s : Semaphore) : Bool × Semaphore :=
  if s.available = 0 then (false, s) else (true, ⟨s.available - 1⟩)

def release (s : Semaphore) : Semaphore := ⟨s.available + 1⟩

end Semaphore

/-! ### Guards -/

/-- What differs between the kinds of slots: the table, the identifiers, the caps, and the registry
in the process, with whether a request waits when that is full. -/
structure SlotKind (σ ρ : Type) where
  table : String
  idKind : String
  cap : σ → Option ℕ
  initial : ρ
  reserve : ρ → σ → ℕ → Bool × ρ
  release : ρ → σ → ρ
  waits : Bool

/-- The slots of tenants; without a `max_concurrency` there is nothing to reserve. -/
def tenancy (maxConcurrency : String → Option ℕ) : SlotKind String Concurrency where
  table := "tenant_slots"
  idKind := "slot"
  cap := maxConcurrency
  initial := {}
  reserve := Concurrency.reserve
  release := Concurrency.release
  waits := false

/-- The admission slots of the gateway. -/
def admission (limit : Option ℕ) : SlotKind Unit Semaphore where
  table := "admission_slots"
  idKind := "admit"
  cap _ := limit
  initial := ⟨limit.getD 0⟩
  reserve s _ _ := s.acquire
  release s _ := s.release
  waits := true

/-- A guard that a request holds: a slot of the store, or a permit of the process. -/
structure SlotGuard (σ : Type) where
  scope : σ
  durable : Option String

structure Guards (σ ρ : Type) where
  slots : LeaseTable String σ := LeaseTable.empty
  inProcess : ρ
  /-- The scopes of the requests whose store call failed. -/
  fallingBack : List σ := []
  held : List (SlotGuard σ) := []
  /-- The slot identifiers drawn so far. -/
  drawn : ℕ := 0

inductive GuardInput (σ : Type) where
  /-- A request asks the store; an admission that is refused asks again until it times out. -/
  | start (scope : σ) (ttlMs : ℕ)
  /-- The request with number `i` among those whose store call failed asks the process. -/
  | reserve (i : ℕ)
  /-- That request is shed while it waits. -/
  | shed (i : ℕ)
  | renew (slotId : String) (ttlMs : ℕ)
  /-- The request with number `i` among those that hold a guard ends. -/
  | dropGuard (i : ℕ)

/-- An input at a time; `fault` is the error of its store call. -/
structure GuardEvent (σ : Type) where
  now : ℕ
  input : GuardInput σ
  fault : Option StoreError := none

namespace Guards

variable {σ ρ : Type} [DecidableEq σ] (k : SlotKind σ ρ) (newId : String → ℕ → String)

def start (s : Guards σ ρ) (fault : Option StoreError) (scope : σ) (ttlMs now : ℕ) :
    Guards σ ρ :=
  match k.cap scope with
  | none => s
  | some max =>
      let slotId := newId k.idKind s.drawn
      let s := { s with drawn := s.drawn + 1 }
      match slotAcquire k.table s.slots fault scope slotId max ttlMs now with
      | (.ok true, slots) =>
          { s with slots := slots, held := s.held ++ [{ scope := scope, durable := some slotId }] }
      | (.ok false, slots) => { s with slots := slots }
      | (.error _, slots) => { s with slots := slots, fallingBack := s.fallingBack ++ [scope] }

def reserve (s : Guards σ ρ) (i : ℕ) : Guards σ ρ :=
  match s.fallingBack[i]? with
  | none => s
  | some scope =>
      match k.cap scope with
      | none => s
      | some max =>
          match k.reserve s.inProcess scope max with
          | (true, r) =>
              { s with
                inProcess := r
                fallingBack := s.fallingBack.eraseIdx i
                held := s.held ++ [{ scope := scope, durable := none }] }
          | (false, r) =>
              { s with
                inProcess := r
                fallingBack := if k.waits then s.fallingBack else s.fallingBack.eraseIdx i }

def dropGuard (s : Guards σ ρ) (fault : Option StoreError) (i : ℕ) : Guards σ ρ :=
  match s.held[i]? with
  | none => s
  | some guard =>
      let s := { s with held := s.held.eraseIdx i }
      match guard.durable with
      | none => { s with inProcess := k.release s.inProcess guard.scope }
      | some slotId => { s with slots := (slotRelease s.slots fault slotId).2 }

def step (s : Guards σ ρ) (e : GuardEvent σ) : Guards σ ρ :=
  match e.input with
  | .start scope ttlMs => s.start k newId e.fault scope ttlMs e.now
  | .reserve i => s.reserve k i
  | .shed i => { s with fallingBack := s.fallingBack.eraseIdx i }
  | .renew slotId ttlMs => { s with slots := (slotRenew s.slots e.fault slotId ttlMs e.now).2 }
  | .dropGuard i => s.dropGuard k e.fault i

/-- The guards of a scope, of either registry. -/
def guards (s : Guards σ ρ) (scope : σ) : ℕ := s.held.countP fun g => g.scope = scope

/-- The permits of the process among some guards, by scope. -/
def permitsOf (held : List (SlotGuard σ)) (scope : σ) : ℕ :=
  held.countP fun g => g.scope = scope && g.durable.isNone

/-- The permits that the process has given. -/
def permits (s : Guards σ ρ) : σ → ℕ := permitsOf s.held

/-- No scope has more guards than its cap. -/
def Capped (s : Guards σ ρ) : Prop := ∀ scope max, k.cap scope = some max → s.guards scope ≤ max

/-- A step does not take a slot or a permit of a scope while the guards of both registries are at
the cap: it finds the registry it asks full then. -/
def StepOk (s : Guards σ ρ) (e : GuardEvent σ) : Prop :=
  match e.input with
  | .start scope _ =>
      e.fault = none → ∀ max, k.cap scope = some max →
        slotsTaken s.slots scope e.now < max → s.guards scope < max
  | .reserve i =>
      ∀ scope, s.fallingBack[i]? = some scope → ∀ max, k.cap scope = some max →
        s.permits scope < max → s.guards scope < max
  | _ => True

end Guards

/-! ### Registries that count -/

/-- A registry counts its permits: `Rep r n` says that it has given `n scope` permits. -/
structure SlotKind.Counts {σ ρ : Type} [DecidableEq σ] (k : SlotKind σ ρ)
    (Rep : ρ → (σ → ℕ) → Prop) : Prop where
  initial : Rep k.initial fun _ => 0
  room : ∀ {r n scope max}, Rep r n → k.cap scope = some max → n scope < max →
    ∃ r', k.reserve r scope max = (true, r') ∧ Rep r' (Function.update n scope (n scope + 1))
  full : ∀ {r n scope max}, Rep r n → k.cap scope = some max → max ≤ n scope →
    ∃ r', k.reserve r scope max = (false, r') ∧ Rep r' n
  release : ∀ {r n scope}, Rep r n → 0 < n scope →
    Rep (k.release r scope) (Function.update n scope (n scope - 1))

/-- A count per tenant. -/
def Concurrency.Rep (c : Concurrency) (n : String → ℕ) : Prop :=
  ∀ tenant, c.inFlight tenant = n tenant

theorem Concurrency.inFlight_insert (c : Concurrency) (tenant tenant' : String) (count : ℕ) :
    (⟨c.counts.insert tenant count⟩ : Concurrency).inFlight tenant' =
      if tenant' = tenant then count else c.inFlight tenant' := by
  unfold inFlight
  rw [OrdMap.get_insert]
  split <;> rfl

theorem tenancy_counts (maxConcurrency : String → Option ℕ) :
    (tenancy maxConcurrency).Counts Concurrency.Rep where
  initial _ := rfl
  room {c n tenant max} h _ hlt := by
    have hcount : ¬ c.inFlight tenant ≥ max := by rw [h tenant]; omega
    refine ⟨_, if_neg hcount, fun tenant' => ?_⟩
    rw [Concurrency.inFlight_insert, Function.update_apply, h tenant, h tenant']
  full {c n tenant max} h _ hle := by
    have hcount : c.inFlight tenant ≥ max := by rw [h tenant]; exact hle
    refine ⟨_, if_pos hcount, fun tenant' => ?_⟩
    rw [Concurrency.inFlight_insert, h tenant']
    split
    · next heq => rw [heq, h tenant]
    · rfl
  release {c n tenant} h hpos := by
    intro tenant'
    show (c.release tenant).inFlight tenant' = _
    unfold Concurrency.release
    cases hget : c.counts.get tenant with
    | none =>
      have hzero : n tenant = 0 := by rw [← h tenant, Concurrency.inFlight, hget]; rfl
      exact absurd hpos (by omega)
    | some count =>
      have hn : n tenant = count := by rw [← h tenant, Concurrency.inFlight, hget]; rfl
      dsimp only
      rw [Concurrency.inFlight_insert, Function.update_apply, hn, h tenant']

/-- The permits that are free and those that are given. -/
def Semaphore.Rep (limit : Option ℕ) (s : Semaphore) (n : Unit → ℕ) : Prop :=
  s.available + n () = limit.getD 0

theorem admission_counts (limit : Option ℕ) :
    (admission limit).Counts (Semaphore.Rep limit) where
  initial := Nat.add_zero _
  room {s n scope max} h hcap hlt := by
    change n () < max at hlt
    have hlimit : limit = some max := hcap
    unfold Semaphore.Rep at h
    rw [hlimit] at h
    have hfree : s.available ≠ 0 := by
      intro hzero
      rw [hzero] at h
      simp only [Option.getD_some] at h
      omega
    refine ⟨_, if_neg hfree, ?_⟩
    show s.available - 1 + Function.update n () (n () + 1) () = _
    rw [hlimit, Function.update_self]
    simp only [Option.getD_some] at h ⊢
    omega
  full {s n scope max} h hcap hle := by
    change max ≤ n () at hle
    have hlimit : limit = some max := hcap
    have hzero : s.available = 0 := by
      unfold Semaphore.Rep at h
      rw [hlimit] at h
      simp only [Option.getD_some] at h
      omega
    exact ⟨s, if_pos hzero, h⟩
  release {s n scope} h hpos := by
    change 0 < n () at hpos
    unfold Semaphore.Rep at h
    show s.available + 1 + Function.update n () (n () - 1) () = _
    rw [Function.update_self]
    omega

namespace Guards

variable {σ ρ : Type} [DecidableEq σ] {k : SlotKind σ ρ} {newId : String → ℕ → String}
  {Rep : ρ → (σ → ℕ) → Prop} {s : Guards σ ρ}

/-- The registry counts the permits that are held, and slot identifiers were drawn. -/
structure Inv (k : SlotKind σ ρ) (newId : String → ℕ → String) (Rep : ρ → (σ → ℕ) → Prop)
    (s : Guards σ ρ) : Prop where
  permits : Rep s.inProcess s.permits
  drawn : ∀ l ∈ s.slots.rows, ∃ n < s.drawn, l.key = newId k.idKind n

/-- The three things a step can do. -/
inductive Moves (k : SlotKind σ ρ) (s : Guards σ ρ) (e : GuardEvent σ) (s' : Guards σ ρ) :
    Prop where
  /-- No guard is given or dropped. -/
  | quiet (hheld : s'.held = s.held) (hok : s.StepOk k e)
  | ended (i : ℕ) (guard : SlotGuard σ) (hguard : s.held[i]? = some guard)
      (hheld : s'.held = s.held.eraseIdx i) (hok : s.StepOk k e)
  | given (scope : σ) (max : ℕ) (hcap : k.cap scope = some max) (durable : Option String)
      (hheld : s'.held = s.held ++ [{ scope := scope, durable := durable }])
      (hok : s.StepOk k e ↔ s.guards scope < max)

/-! ### What a step can do -/

theorem permitsOf_append_durable (held : List (SlotGuard σ)) (scope : σ) (slotId : String) :
    permitsOf (held ++ [{ scope := scope, durable := some slotId }]) = permitsOf held := by
  funext scope'
  simp [permitsOf]

theorem permitsOf_append_local (held : List (SlotGuard σ)) (scope : σ) :
    permitsOf (held ++ [{ scope := scope, durable := none }]) =
      Function.update (permitsOf held) scope (permitsOf held scope + 1) := by
  funext scope'
  by_cases hs : scope' = scope
  · simp [permitsOf, hs]
  · simp [permitsOf, hs, Ne.symm hs]

theorem permitsOf_eraseIdx {held : List (SlotGuard σ)} {i : ℕ} {guard : SlotGuard σ}
    (h : held[i]? = some guard) (scope : σ) :
    permitsOf held scope = permitsOf (held.eraseIdx i) scope +
      if guard.scope = scope ∧ guard.durable = none then 1 else 0 := by
  obtain ⟨before, after, hsplit, herase⟩ := eraseIdx_split h
  rw [herase, hsplit]
  unfold permitsOf
  rw [List.countP_append, List.countP_append, List.countP_cons, Nat.add_assoc]
  simp

theorem start_moves (hnew : Function.Injective (newId k.idKind)) (h : s.Inv k newId Rep)
    (now : ℕ) (fault : Option StoreError) (scope : σ) (ttlMs : ℕ) :
    Moves k s { now := now, input := .start scope ttlMs, fault := fault }
        (s.start k newId fault scope ttlMs now) ∧
      (s.start k newId fault scope ttlMs now).Inv k newId Rep := by
  unfold start
  cases hcap : k.cap scope with
  | none =>
    refine ⟨.quiet rfl fun _ max hmax => ?_, h⟩
    rw [hcap] at hmax
    exact absurd hmax (by simp)
  | some max =>
    have hlater : ∀ l ∈ s.slots.rows, ∃ n < s.drawn + 1, l.key = newId k.idKind n := by
      intro l hl
      obtain ⟨n, hn, hkey⟩ := h.drawn l hl
      exact ⟨n, Nat.lt_succ_of_lt hn, hkey⟩
    have hpurged : ∀ l ∈ (s.slots.purge now).rows, ∃ n < s.drawn + 1, l.key = newId k.idKind n :=
      fun l hl => hlater l (List.mem_filter.mp hl).1
    dsimp only
    unfold slotAcquire
    cases fault with
    | some err => exact ⟨.quiet rfl fun hnone => absurd hnone (by simp), h.permits, hlater⟩
    | none =>
      dsimp only
      rw [countP_purge]
      by_cases hfull : slotsTaken s.slots scope now ≥ max
      · rw [if_pos hfull]
        refine ⟨.quiet rfl fun _ max' hmax' hlt => ?_, h.permits, hpurged⟩
        obtain rfl : max = max' := Option.some.inj (hcap.symm.trans hmax')
        exact absurd hlt (not_lt.mpr hfull)
      · rw [if_neg hfull]
        -- the identifier is a new one
        have hfresh : newId k.idKind s.drawn ∉ (s.slots.purge now).rows.map Lease.key := by
          intro hmem
          obtain ⟨l, hl, hkey⟩ := List.mem_map.mp hmem
          obtain ⟨n, hn, hn'⟩ := h.drawn l (List.mem_filter.mp hl).1
          exact absurd (hnew (hkey.symm.trans hn')) hn.ne'
        cases hinsert : (s.slots.purge now).insert
            { key := newId k.idKind s.drawn, info := scope, createdAt := now,
              expiresAt := expiry now ttlMs } with
        | none => exact absurd (LeaseTable.insert_eq_none.mp hinsert) hfresh
        | some t =>
          refine ⟨.given scope max hcap (some (newId k.idKind s.drawn)) rfl
            ⟨fun hok => hok rfl max hcap (not_le.mp hfull), fun hlt _ max' hmax' _ => ?_⟩, ?_, ?_⟩
          · obtain rfl : max = max' := Option.some.inj (hcap.symm.trans hmax')
            exact hlt
          · show Rep s.inProcess (permitsOf (s.held ++ [_]))
            rw [permitsOf_append_durable]
            exact h.permits
          · intro l hl
            rw [(LeaseTable.insert_eq_some hinsert).2] at hl
            rcases List.mem_append.mp hl with hl | hl
            · exact hpurged l hl
            · rw [List.mem_singleton.mp hl]
              exact ⟨s.drawn, Nat.lt_succ_self _, rfl⟩

theorem reserve_moves (hk : k.Counts Rep) (h : s.Inv k newId Rep) (now i : ℕ)
    (fault : Option StoreError) :
    Moves k s { now := now, input := .reserve i, fault := fault } (s.reserve k i) ∧
      (s.reserve k i).Inv k newId Rep := by
  unfold reserve
  cases hi : s.fallingBack[i]? with
  | none =>
    refine ⟨.quiet rfl fun scope hscope => ?_, h⟩
    rw [hi] at hscope
    exact absurd hscope (by simp)
  | some scope =>
    dsimp only
    cases hcap : k.cap scope with
    | none =>
      refine ⟨.quiet rfl fun scope' hscope' max hmax => ?_, h⟩
      obtain rfl : scope = scope' := Option.some.inj (hi.symm.trans hscope')
      rw [hcap] at hmax
      exact absurd hmax (by simp)
    | some max =>
      dsimp only
      by_cases hlt : s.permits scope < max
      · obtain ⟨r, hr, hrep⟩ := hk.room h.permits hcap hlt
        rw [hr]
        refine ⟨.given scope max hcap none rfl
          ⟨fun hok => hok scope hi max hcap hlt, fun hlt' scope' hscope' max' hmax' _ => ?_⟩,
          ?_, h.drawn⟩
        · obtain rfl : scope = scope' := Option.some.inj (hi.symm.trans hscope')
          obtain rfl : max = max' := Option.some.inj (hcap.symm.trans hmax')
          exact hlt'
        · show Rep r (permitsOf (s.held ++ [_]))
          rw [permitsOf_append_local]
          exact hrep
      · obtain ⟨r, hr, hrep⟩ := hk.full h.permits hcap (not_lt.mp hlt)
        rw [hr]
        refine ⟨.quiet rfl fun scope' hscope' max' hmax' hlt' => ?_, hrep, h.drawn⟩
        obtain rfl : scope = scope' := Option.some.inj (hi.symm.trans hscope')
        obtain rfl : max = max' := Option.some.inj (hcap.symm.trans hmax')
        exact absurd hlt' hlt

theorem dropGuard_moves (hk : k.Counts Rep) (h : s.Inv k newId Rep) (now i : ℕ)
    (fault : Option StoreError) :
    Moves k s { now := now, input := .dropGuard i, fault := fault } (s.dropGuard k fault i) ∧
      (s.dropGuard k fault i).Inv k newId Rep := by
  unfold dropGuard
  cases hi : s.held[i]? with
  | none => exact ⟨.quiet rfl trivial, h⟩
  | some guard =>
    have hpermits := permitsOf_eraseIdx hi
    dsimp only
    cases hd : guard.durable with
    | none =>
      refine ⟨.ended i guard hi rfl trivial, ?_, h.drawn⟩
      simp only [hd, and_true] at hpermits
      have hself := hpermits guard.scope
      rw [if_pos rfl] at hself
      have hrest : permitsOf (s.held.eraseIdx i) =
          Function.update s.permits guard.scope (s.permits guard.scope - 1) := by
        funext scope
        rw [Function.update_apply]
        split
        · next heq => rw [heq, show s.permits guard.scope = _ from hself, Nat.add_sub_cancel]
        · next hne =>
          rw [show s.permits scope = _ from hpermits scope, if_neg (Ne.symm hne), Nat.add_zero]
      show Rep (k.release s.inProcess guard.scope) (permitsOf (s.held.eraseIdx i))
      rw [hrest]
      refine hk.release h.permits ?_
      rw [show s.permits guard.scope = _ from hself]
      exact Nat.succ_pos _
    | some slotId =>
      refine ⟨.ended i guard hi rfl trivial, ?_, ?_⟩
      · have hrest : permitsOf (s.held.eraseIdx i) = s.permits := by
          funext scope
          rw [show s.permits scope = _ from hpermits scope, if_neg (by simp [hd]), Nat.add_zero]
        show Rep s.inProcess (permitsOf (s.held.eraseIdx i))
        rw [hrest]
        exact h.permits
      · cases fault with
        | some err => exact h.drawn
        | none => exact fun l hl => h.drawn l (List.mem_filter.mp hl).1

theorem renew_inv (h : s.Inv k newId Rep) (fault : Option StoreError) (slotId : String)
    (ttlMs now : ℕ) :
    ({ s with slots := (slotRenew s.slots fault slotId ttlMs now).2 } : Guards σ ρ).Inv k newId
      Rep := by
  refine ⟨h.permits, ?_⟩
  cases fault with
  | some err => exact h.drawn
  | none =>
    intro l hl
    obtain ⟨old, hold, rfl⟩ := List.mem_map.mp hl
    obtain ⟨n, hn, hkey⟩ := h.drawn old hold
    refine ⟨n, hn, ?_⟩
    rw [← hkey]
    exact congrArg Prod.fst (LeaseTable.holder_renewLease _ _ _ old)

theorem step_moves (hnew : Function.Injective (newId k.idKind)) (hk : k.Counts Rep)
    (h : s.Inv k newId Rep) (e : GuardEvent σ) :
    Moves k s e (s.step k newId e) ∧ (s.step k newId e).Inv k newId Rep := by
  obtain ⟨now, input, fault⟩ := e
  cases input with
  | start scope ttlMs => exact start_moves hnew h now fault scope ttlMs
  | reserve i => exact reserve_moves hk h now i fault
  | shed i => exact ⟨.quiet rfl trivial, h.permits, h.drawn⟩
  | renew slotId ttlMs => exact ⟨.quiet rfl trivial, renew_inv h fault slotId ttlMs now⟩
  | dropGuard i => exact dropGuard_moves hk h now i fault

theorem capped_step (hnew : Function.Injective (newId k.idKind)) (hk : k.Counts Rep)
    (h : s.Inv k newId Rep) (hsafe : s.Capped k) (e : GuardEvent σ) :
    (s.step k newId e).Capped k ↔ s.StepOk k e := by
  cases (step_moves hnew hk h e).1 with
  | quiet hheld hok =>
    refine iff_of_true (fun scope max hcap => ?_) hok
    unfold guards
    rw [hheld]
    exact hsafe scope max hcap
  | ended i guard hguard hheld hok =>
    refine iff_of_true (fun scope max hcap => ?_) hok
    unfold guards
    rw [hheld]
    exact (List.Sublist.countP_le (List.eraseIdx_sublist _ _)).trans (hsafe scope max hcap)
  | given scope max hcap durable hheld hok =>
    have hcount : ∀ scope', (s.step k newId e).guards scope' =
        s.guards scope' + if scope = scope' then 1 else 0 := by
      intro scope'
      unfold guards
      rw [hheld, List.countP_append, List.countP_singleton]
      simp
    rw [hok]
    constructor
    · intro hcapped
      have hle := hcapped scope max hcap
      rw [hcount, if_pos rfl] at hle
      exact hle
    · intro hlt scope' max' hcap'
      rw [hcount]
      by_cases hs : scope = scope'
      · subst hs
        obtain rfl : max = max' := Option.some.inj (hcap.symm.trans hcap')
        rw [if_pos rfl]
        exact hlt
      · rw [if_neg hs]
        exact hsafe scope' max' hcap'

end Guards

/-- Times of events do not decrease. -/
def GuardEvent.Timely {σ : Type} (events : List (GuardEvent σ)) : Prop :=
  Machine.Timely GuardEvent.now 0 events

/-- Every state of a run keeps the caps. -/
def SlotKind.CappedRun {σ ρ : Type} [DecidableEq σ] (k : SlotKind σ ρ)
    (newId : String → ℕ → String) (events : List (GuardEvent σ)) : Prop :=
  ∀ v ∈ Machine.visited (Guards.step k newId) { inProcess := k.initial } events,
    (v.1.step k newId v.2).Capped k

/-- Every step of a run is in order. -/
def SlotKind.RunOk {σ ρ : Type} [DecidableEq σ] (k : SlotKind σ ρ)
    (newId : String → ℕ → String) (events : List (GuardEvent σ)) : Prop :=
  ∀ v ∈ Machine.visited (Guards.step k newId) { inProcess := k.initial } events, v.1.StepOk k v.2

theorem SlotKind.Counts.cappedRun_iff {σ ρ : Type} [DecidableEq σ] {k : SlotKind σ ρ}
    {Rep : ρ → (σ → ℕ) → Prop} (hk : k.Counts Rep) {newId : String → ℕ → String}
    (hnew : Function.Injective (newId k.idKind)) {events : List (GuardEvent σ)}
    (htime : GuardEvent.Timely events) : k.CappedRun newId events ↔ k.RunOk newId events := by
  have hinv : ∀ (t : ℕ) (s : Guards σ ρ) (e : GuardEvent σ), t ≤ e.now → s.Inv k newId Rep →
      (s.step k newId e).Inv k newId Rep := fun _ _ e _ h => (Guards.step_moves hnew hk h e).2
  have hok : ∀ (t : ℕ) (s : Guards σ ρ) (e : GuardEvent σ), t ≤ e.now → s.Inv k newId Rep →
      s.Capped k → ((s.step k newId e).Capped k ↔ s.StepOk k e) :=
    fun _ _ e _ h hsafe => Guards.capped_step hnew hk h hsafe e
  have hstart : ({ inProcess := k.initial } : Guards σ ρ).Inv k newId Rep :=
    ⟨hk.initial, fun l hl => absurd hl List.not_mem_nil⟩
  have hsafe : ({ inProcess := k.initial } : Guards σ ρ).Capped k := fun _ _ _ => Nat.zero_le _
  exact Machine.safe_iff_timed hinv hok hstart hsafe htime

/-- **After every step of a run no tenant has more guards than its `max_concurrency`, and the
gateway no more than its limit, exactly when every step of the run is in order.** -/
theorem capped_iff {newId : String → ℕ → String} (hnew : ∀ kind, Function.Injective (newId kind)) :
    (∀ maxConcurrency events, GuardEvent.Timely events →
      ((tenancy maxConcurrency).CappedRun newId events ↔
        (tenancy maxConcurrency).RunOk newId events)) ∧
    (∀ limit events, GuardEvent.Timely events →
      ((admission limit).CappedRun newId events ↔ (admission limit).RunOk newId events)) :=
  ⟨fun maxConcurrency _ htime => (tenancy_counts maxConcurrency).cappedRun_iff (hnew _) htime,
    fun limit _ htime => (admission_counts limit).cappedRun_iff (hnew _) htime⟩

/-- Two requests of one tenant while the store answers. -/
def answeredStarts : List (GuardEvent String) :=
  [{ now := 0, input := .start "acme" 10 }, { now := 1, input := .start "acme" 10 }]

/-- The theorem for a tenant with one guard: the second request is refused. -/
theorem capped_answered :
    (tenancy fun _ => some 1).CappedRun sampleId answeredStarts ∧
      (answeredStarts.foldl (Guards.step (tenancy fun _ => some 1) sampleId)
        { inProcess := {} }).held.length = 1 := by
  refine ⟨((capped_iff sampleId_injective).1 (fun _ => some 1) answeredStarts ?_).mpr ?_,
    by decide +kernel⟩
  · unfold GuardEvent.Timely Machine.Timely answeredStarts
    decide
  · intro v hv
    simp only [Machine.visited, answeredStarts, List.mem_cons, List.not_mem_nil, or_false] at hv
    rcases hv with rfl | rfl
    · intro _ max hmax _
      obtain rfl : 1 = max := Option.some.inj hmax
      decide +kernel
    · intro _ max hmax hlt
      obtain rfl : 1 = max := Option.some.inj hmax
      exact absurd hlt (by decide +kernel)

/-- The second request starts while the store fails. -/
def failedStarts {σ : Type} (scope : σ) : List (GuardEvent σ) :=
  [{ now := 0, input := .start scope 10 },
    { now := 1, input := .start scope 10, fault := some ⟨"disk I/O error"⟩ },
    { now := 1, input := .reserve 0 }]

/-- A tenant with a cap of one holds two guards, and so does the gateway. -/
theorem fallback_exceeds_caps :
    GuardEvent.Timely (failedStarts "acme") ∧ GuardEvent.Timely (failedStarts ()) ∧
      ((failedStarts "acme").foldl (Guards.step (tenancy fun _ => some 1) sampleId)
        { inProcess := {} }).guards "acme" = 2 ∧
      ((failedStarts ()).foldl (Guards.step (admission (some 1)) sampleId)
        { inProcess := ⟨1⟩ }).guards () = 2 := by
  refine ⟨?_, ?_, by decide +kernel, by decide +kernel⟩
  all_goals
    unfold GuardEvent.Timely Machine.Timely failedStarts
    decide

end Switchback
