import Switchback.Ledger.Store
import Switchback.Lib.Lease
import Switchback.Lib.Machine

/-!
# Durable claims and slots

The tables of the state store that coordinate requests: stored responses and in-flight claims by
idempotency key, concurrency slots by tenant, and admission slots.  Claims and slots are leases.

Times are milliseconds.  A `fault` argument is the error of a connection or a statement that fails
at that moment; a transaction that fails is rolled back.
-/

namespace Switchback

open Lib

/-- A response stored under an idempotency key. -/
structure IdempotencyRecord where
  key : String
  fingerprint : String
  status : ℕ
  contentType : String
  body : String
  createdAtMs : ℤ

inductive IdempotencyBegin where
  | claimed
  | inProgress
  | mismatch
  | replay (rec : IdempotencyRecord)

/-- What an in-flight claim holds of its request. -/
structure InflightClaim where
  fingerprint : String
  leaseId : String
  deriving DecidableEq

/-- When a lease ends that is taken or renewed at `now`. -/
def expiry (now ttlMs : ℕ) : ℤ := Word.satAddI64 now (Word.toI64 ttlMs)

/-- The tables that coordinate requests. -/
structure LeaseStore where
  idempotency : KeyedLog IdempotencyRecord.key := KeyedLog.empty
  idempotencyInflight : LeaseTable String InflightClaim := LeaseTable.empty
  tenantSlots : LeaseTable String String := LeaseTable.empty
  admissionSlots : LeaseTable String Unit := LeaseTable.empty

/-! ### Slots -/

section Slots

variable {σ : Type} [DecidableEq σ]

/-- Take a slot of `scope` unless `max` of them are taken. -/
def slotAcquire (table : String) (t : LeaseTable String σ) (fault : Option StoreError) (scope : σ)
    (slotId : String) (max ttlMs now : ℕ) : Except StoreError Bool × LeaseTable String σ :=
  match fault with
  | some err => (.error err, t)
  | none =>
      let purged := t.purge now
      let active := purged.rows.countP fun l => l.info = scope
      if active ≥ max then (.ok false, purged)
      else
        match purged.insert
            { key := slotId, info := scope, createdAt := now, expiresAt := expiry now ttlMs } with
        | none => (.error ⟨s!"UNIQUE constraint failed: {table}.slot_id"⟩, t)
        | some t => (.ok true, t)

def slotRelease (t : LeaseTable String σ) (fault : Option StoreError) (slotId : String) :
    Except StoreError Unit × LeaseTable String σ :=
  match fault with
  | some err => (.error err, t)
  | none => (.ok (), t.delete fun l => l.key = slotId)

/-- Extend a slot that has not expired. -/
def slotRenew (t : LeaseTable String σ) (fault : Option StoreError) (slotId : String)
    (ttlMs now : ℕ) : Except StoreError Bool × LeaseTable String σ :=
  match fault with
  | some err => (.error err, t)
  | none =>
      (.ok (t.rows.any fun l => l.key = slotId && l.live now),
        t.renew (fun l => l.key = slotId) now (expiry now ttlMs))

end Slots

namespace LeaseStore

variable (s : LeaseStore) (fault : Option StoreError)

def tenantSlotAcquire (tenant slotId : String) (max ttlMs now : ℕ) :
    Except StoreError Bool × LeaseStore :=
  let (out, t) := slotAcquire "tenant_slots" s.tenantSlots fault tenant slotId max ttlMs now
  (out, { s with tenantSlots := t })

def tenantSlotRelease (slotId : String) : Except StoreError Unit × LeaseStore :=
  let (out, t) := slotRelease s.tenantSlots fault slotId
  (out, { s with tenantSlots := t })

def tenantSlotRenew (slotId : String) (ttlMs now : ℕ) : Except StoreError Bool × LeaseStore :=
  let (out, t) := slotRenew s.tenantSlots fault slotId ttlMs now
  (out, { s with tenantSlots := t })

def admissionSlotAcquire (slotId : String) (max ttlMs now : ℕ) :
    Except StoreError Bool × LeaseStore :=
  let (out, t) := slotAcquire "admission_slots" s.admissionSlots fault () slotId max ttlMs now
  (out, { s with admissionSlots := t })

def admissionSlotRelease (slotId : String) : Except StoreError Unit × LeaseStore :=
  let (out, t) := slotRelease s.admissionSlots fault slotId
  (out, { s with admissionSlots := t })

def admissionSlotRenew (slotId : String) (ttlMs now : ℕ) : Except StoreError Bool × LeaseStore :=
  let (out, t) := slotRenew s.admissionSlots fault slotId ttlMs now
  (out, { s with admissionSlots := t })

/-! ### Claims -/

/-- The claim of `leaseId` on `key`. -/
def ownedBy (key leaseId : String) (l : Lease String InflightClaim) : Bool :=
  l.key = key ∧ l.info.leaseId = leaseId

/-- Store a response; the first one of a key stays. -/
def idempotencyPut (rec : IdempotencyRecord) : Except StoreError Bool × LeaseStore :=
  match fault with
  | some err => (.error err, s)
  | none =>
      (.ok (rec.key ∉ s.idempotency.rows.map IdempotencyRecord.key),
        { s with idempotency := s.idempotency.insertOrIgnore rec })

/-- Claim a key, or say why not. -/
def idempotencyBegin (key fingerprint leaseId : String) (ttlMs now : ℕ) :
    Except StoreError IdempotencyBegin × LeaseStore :=
  match fault with
  | some err => (.error err, s)
  | none =>
      let purged := s.idempotencyInflight.purge now
      match firstWith IdempotencyRecord.key key s.idempotency.rows with
      | some rec =>
          (.ok (if rec.fingerprint = fingerprint then .replay rec else .mismatch),
            { s with idempotencyInflight := purged })
      | none =>
          match firstWith Lease.key key purged.rows with
          | some l =>
              (.ok (if l.info.fingerprint = fingerprint then .inProgress else .mismatch),
                { s with idempotencyInflight := purged })
          | none =>
              match purged.insert
                  { key := key, info := { fingerprint := fingerprint, leaseId := leaseId },
                    createdAt := now, expiresAt := expiry now ttlMs } with
              | none => (.error ⟨"UNIQUE constraint failed: idempotency_inflight.key"⟩, s)
              | some t => (.ok .claimed, { s with idempotencyInflight := t })

def idempotencyRelease (key leaseId : String) : Except StoreError Bool × LeaseStore :=
  match fault with
  | some err => (.error err, s)
  | none =>
      (.ok (s.idempotencyInflight.rows.any (ownedBy key leaseId)),
        { s with idempotencyInflight := s.idempotencyInflight.delete (ownedBy key leaseId) })

/-- Extend a claim that has not expired. -/
def idempotencyRenew (key leaseId : String) (ttlMs now : ℕ) :
    Except StoreError Bool × LeaseStore :=
  match fault with
  | some err => (.error err, s)
  | none =>
      (.ok (s.idempotencyInflight.rows.any fun l => ownedBy key leaseId l && l.live now),
        { s with
          idempotencyInflight :=
            s.idempotencyInflight.renew (ownedBy key leaseId) now (expiry now ttlMs) })

end LeaseStore

/-- A call on the store. -/
inductive LeaseCall where
  | begin (key fingerprint leaseId : String) (ttlMs : ℕ)
  | put (rec : IdempotencyRecord)
  | renew (key leaseId : String) (ttlMs : ℕ)
  | release (key leaseId : String)
  | tenantAcquire (tenant slotId : String) (max ttlMs : ℕ)
  | tenantRenew (slotId : String) (ttlMs : ℕ)
  | tenantRelease (slotId : String)
  | admissionAcquire (slotId : String) (max ttlMs : ℕ)
  | admissionRenew (slotId : String) (ttlMs : ℕ)
  | admissionRelease (slotId : String)

/-- A call at a time, which may fail. -/
structure LeaseEvent where
  now : ℕ
  call : LeaseCall
  fault : Option StoreError := none

namespace LeaseStore

def apply (s : LeaseStore) (e : LeaseEvent) : LeaseStore :=
  match e.call with
  | .begin key fingerprint leaseId ttlMs =>
      (s.idempotencyBegin e.fault key fingerprint leaseId ttlMs e.now).2
  | .put rec => (s.idempotencyPut e.fault rec).2
  | .renew key leaseId ttlMs => (s.idempotencyRenew e.fault key leaseId ttlMs e.now).2
  | .release key leaseId => (s.idempotencyRelease e.fault key leaseId).2
  | .tenantAcquire tenant slotId max ttlMs =>
      (s.tenantSlotAcquire e.fault tenant slotId max ttlMs e.now).2
  | .tenantRenew slotId ttlMs => (s.tenantSlotRenew e.fault slotId ttlMs e.now).2
  | .tenantRelease slotId => (s.tenantSlotRelease e.fault slotId).2
  | .admissionAcquire slotId max ttlMs =>
      (s.admissionSlotAcquire e.fault slotId max ttlMs e.now).2
  | .admissionRenew slotId ttlMs => (s.admissionSlotRenew e.fault slotId ttlMs e.now).2
  | .admissionRelease slotId => (s.admissionSlotRelease e.fault slotId).2

/-- The store after a sequence of calls. -/
def after (events : List LeaseEvent) : LeaseStore := events.foldl apply {}

end LeaseStore

/-! ### Slots -/

section Slots

variable {σ : Type} [DecidableEq σ]

/-- The slots of `scope` that are taken at `now`. -/
def slotsTaken (t : LeaseTable String σ) (scope : σ) (now : ℕ) : ℕ :=
  (t.holders now).countP fun h => h.2 = scope

theorem countP_purge (t : LeaseTable String σ) (scope : σ) (now : ℕ) :
    ((t.purge now).rows.countP fun l => l.info = scope) = slotsTaken t scope now := by
  unfold slotsTaken LeaseTable.holders LeaseTable.purge LeaseTable.keep
  rw [List.countP_map]
  rfl

theorem slotsTaken_le_of_sublist {t t' : LeaseTable String σ} {now now' : ℕ}
    (h : (t'.holders now').Sublist (t.holders now)) (scope : σ) :
    slotsTaken t' scope now' ≤ slotsTaken t scope now := h.countP_le

/-- Slots only expire as time passes. -/
theorem slotsTaken_mono (t : LeaseTable String σ) (scope : σ) {now now' : ℕ} (h : now ≤ now') :
    slotsTaken t scope now' ≤ slotsTaken t scope now :=
  slotsTaken_le_of_sublist (t.holders_mono h) scope

variable (t : LeaseTable String σ) (fault : Option StoreError) (slotId : String) (ttlMs : ℕ)
  {now now' : ℕ} (hle : now ≤ now')

include hle

omit [DecidableEq σ] in
theorem holders_slotRelease :
    ((slotRelease t fault slotId).2.holders now').Sublist (t.holders now) := by
  refine List.Sublist.trans ?_ (t.holders_mono hle)
  cases fault with
  | some err => exact List.Sublist.refl _
  | none => exact t.holders_delete_sublist _ now'

omit [DecidableEq σ] in
theorem holders_slotRenew :
    ((slotRenew t fault slotId ttlMs now).2.holders now').Sublist (t.holders now) := by
  cases fault with
  | some err => exact t.holders_mono hle
  | none => exact t.holders_renew _ hle _

theorem holders_slotAcquire (table : String) (scope : σ) (max : ℕ) :
    ((slotAcquire table t fault scope slotId max ttlMs now).2.holders now').Sublist
        (t.holders now) ∨
      slotsTaken t scope now < max ∧
        ((slotAcquire table t fault scope slotId max ttlMs now).2.holders now').Sublist
          (t.holders now ++ [(slotId, scope)]) := by
  unfold slotAcquire
  cases fault with
  | some err => exact Or.inl (t.holders_mono hle)
  | none =>
    dsimp only
    rw [countP_purge]
    by_cases hfull : slotsTaken t scope now ≥ max
    · rw [if_pos hfull]
      exact Or.inl ((t.holders_purge hle).symm ▸ t.holders_mono hle)
    · rw [if_neg hfull]
      split
      · exact Or.inl (t.holders_mono hle)
      · next t' hinsert =>
        refine Or.inr ⟨not_le.mp hfull, ?_⟩
        rw [LeaseTable.holders_insert hinsert, t.holders_purge hle]
        refine (t.holders_mono hle).append ?_
        split
        · exact List.Sublist.refl _
        · exact List.nil_sublist _

end Slots

/-- **A call keeps the slots of a scope within a maximum** that it also uses when it is about that
scope. -/
theorem slotsTaken_slotAcquire {σ : Type} [DecidableEq σ] {t : LeaseTable String σ} {scope : σ}
    {now bound : ℕ} (h : slotsTaken t scope now ≤ bound) (table : String)
    (fault : Option StoreError) (scope' : σ) (slotId : String) (max ttlMs : ℕ)
    (hmax : scope' = scope → max = bound) :
    slotsTaken (slotAcquire table t fault scope' slotId max ttlMs now).2 scope now ≤ bound := by
  rcases holders_slotAcquire t fault slotId ttlMs le_rfl table scope' max with hsub | ⟨hlt, hsub⟩
  · exact (slotsTaken_le_of_sublist hsub scope).trans h
  · have hcount := hsub.countP_le (p := fun h => decide (h.2 = scope))
    rw [List.countP_append] at hcount
    by_cases hs : scope' = scope
    · subst hs
      obtain rfl := hmax rfl
      have hone : List.countP (fun h : String × σ => decide (h.2 = scope'))
          [(slotId, scope')] = 1 := by simp
      rw [hone] at hcount
      unfold slotsTaken at *
      omega
    · have hzero : List.countP (fun h : String × σ => decide (h.2 = scope))
          [(slotId, scope')] = 0 := by simp [hs]
      rw [hzero] at hcount
      exact hcount.trans h

/-! ### Claims -/

namespace LeaseStore

variable (s : LeaseStore)

/-- A response is stored under `key`. -/
def Stored (key : String) : Prop := key ∈ s.idempotency.rows.map IdempotencyRecord.key

/-- An unexpired claim on `key` exists. -/
def Claimed (key : String) (now : ℕ) : Prop :=
  key ∈ (s.idempotencyInflight.holders now).map Prod.fst

/-- `leaseId` has an unexpired claim on `key`. -/
def Owns (key leaseId : String) (now : ℕ) : Prop :=
  ∃ claim, (key, claim) ∈ s.idempotencyInflight.holders now ∧ claim.leaseId = leaseId

instance (key : String) : Decidable (s.Stored key) :=
  inferInstanceAs (Decidable (key ∈ s.idempotency.rows.map IdempotencyRecord.key))

instance (key : String) (now : ℕ) : Decidable (s.Claimed key now) :=
  inferInstanceAs (Decidable (key ∈ (s.idempotencyInflight.holders now).map Prod.fst))

variable {s} {key fingerprint leaseId : String} {ttlMs now : ℕ}

theorem firstWith_stored :
    firstWith IdempotencyRecord.key key s.idempotency.rows = none ↔ ¬ s.Stored key :=
  firstWith_eq_none

theorem firstWith_purge :
    firstWith Lease.key key (s.idempotencyInflight.purge now).rows = none ↔
      ¬ s.Claimed key now := by
  rw [firstWith_eq_none]
  unfold Claimed LeaseTable.holders LeaseTable.purge LeaseTable.keep
  rw [List.map_map]
  rfl

theorem owns_iff : s.Owns key leaseId now ↔
    ∃ l ∈ s.idempotencyInflight.rows, l.live now = true ∧ ownedBy key leaseId l = true := by
  unfold Owns
  simp only [LeaseTable.mem_holders]
  constructor
  · rintro ⟨claim, ⟨l, hl, hlive, hh⟩, rfl⟩
    obtain ⟨rfl, rfl⟩ := Prod.ext_iff.mp hh
    exact ⟨l, hl, hlive, by simp [ownedBy, Lease.holder]⟩
  · rintro ⟨l, hl, hlive, ho⟩
    simp only [ownedBy, decide_eq_true_eq] at ho
    exact ⟨l.info, ⟨l, hl, hlive, by rw [Lease.holder, ho.1]⟩, ho.2⟩

/-- What beginning comes to when the store answers. -/
theorem begin_cases (s : LeaseStore) (key fingerprint leaseId : String) (ttlMs now : ℕ) :
    (∃ rec, firstWith IdempotencyRecord.key key s.idempotency.rows = some rec ∧
      s.idempotencyBegin none key fingerprint leaseId ttlMs now =
        (.ok (if rec.fingerprint = fingerprint then .replay rec else .mismatch),
          { s with idempotencyInflight := s.idempotencyInflight.purge now })) ∨
    (¬ s.Stored key ∧ s.Claimed key now ∧
      ∃ answer, (answer = .inProgress ∨ answer = .mismatch) ∧
        s.idempotencyBegin none key fingerprint leaseId ttlMs now =
          (.ok answer, { s with idempotencyInflight := s.idempotencyInflight.purge now })) ∨
    (¬ s.Stored key ∧ ¬ s.Claimed key now ∧
      ∃ t, (s.idempotencyInflight.purge now).insert
          { key := key, info := { fingerprint := fingerprint, leaseId := leaseId },
            createdAt := now, expiresAt := expiry now ttlMs } = some t ∧
        s.idempotencyBegin none key fingerprint leaseId ttlMs now =
          (.ok .claimed, { s with idempotencyInflight := t })) := by
  unfold idempotencyBegin
  dsimp only
  cases hrec : firstWith IdempotencyRecord.key key s.idempotency.rows with
  | some rec => exact Or.inl ⟨rec, rfl, rfl⟩
  | none =>
    have hstored := firstWith_stored.mp hrec
    cases hrow : firstWith Lease.key key (s.idempotencyInflight.purge now).rows with
    | some l =>
      have hclaimed : s.Claimed key now := by
        by_contra hnot
        rw [firstWith_purge.mpr hnot] at hrow
        exact absurd hrow (by simp)
      refine Or.inr (Or.inl ⟨hstored, hclaimed, _, ?_, rfl⟩)
      by_cases hfp : l.info.fingerprint = fingerprint
      · exact Or.inl (if_pos hfp)
      · exact Or.inr (if_neg hfp)
    | none =>
      have hfree := firstWith_purge.mp hrow
      have hinsert : (s.idempotencyInflight.purge now).insert
          { key := key, info := { fingerprint := fingerprint, leaseId := leaseId },
            createdAt := now, expiresAt := expiry now ttlMs } ≠ none := by
        rw [Ne, LeaseTable.insert_eq_none]
        exact firstWith_eq_none.mp hrow
      obtain ⟨t, ht⟩ := Option.ne_none_iff_exists'.mp hinsert
      refine Or.inr (Or.inr ⟨hstored, hfree, t, ht, ?_⟩)
      rw [ht]

theorem not_claimed_of_begin {fault : Option StoreError}
    (h : (s.idempotencyBegin fault key fingerprint leaseId ttlMs now).1 = .ok .claimed) :
    ¬ s.Stored key ∧ ¬ s.Claimed key now := by
  cases fault with
  | some err => exact absurd h (by simp [idempotencyBegin])
  | none =>
    rcases s.begin_cases key fingerprint leaseId ttlMs now with
      ⟨rec, -, hb⟩ | ⟨-, -, answer, ha, hb⟩ | ⟨hstored, hfree, -⟩
    · rw [hb] at h
      split at h <;> exact absurd h (by simp)
    · rw [hb] at h
      rcases ha with rfl | rfl <;> exact absurd h (by simp)
    · exact ⟨hstored, hfree⟩

theorem stored_of_replay {fault : Option StoreError} {rec : IdempotencyRecord}
    (h : (s.idempotencyBegin fault key fingerprint leaseId ttlMs now).1 = .ok (.replay rec)) :
    rec ∈ s.idempotency.rows ∧ rec.key = key ∧ rec.fingerprint = fingerprint := by
  cases fault with
  | some err => exact absurd h (by simp [idempotencyBegin])
  | none =>
    rcases s.begin_cases key fingerprint leaseId ttlMs now with
      ⟨found, hfound, hb⟩ | ⟨-, -, answer, ha, hb⟩ | ⟨-, -, t, -, hb⟩
    · rw [hb] at h
      split at h
      · next hfp =>
        obtain rfl : found = rec := by simpa using h
        have hkey := List.find?_some hfound
        exact ⟨List.mem_of_find?_eq_some hfound, by simpa using hkey, hfp⟩
      · exact absurd h (by simp)
    · rw [hb] at h
      rcases ha with rfl | rfl <;> exact absurd h (by simp)
    · rw [hb] at h
      exact absurd h (by simp)

/-! ### What calls do to who owns a claim -/

theorem Owns.mono {now' : ℕ} (h : s.Owns key leaseId now') (hle : now ≤ now') :
    s.Owns key leaseId now := by
  obtain ⟨claim, hmem, hid⟩ := h
  exact ⟨claim, (s.idempotencyInflight.holders_mono hle).subset hmem, hid⟩

theorem Owns.claimed (h : s.Owns key leaseId now) : s.Claimed key now := by
  obtain ⟨claim, hmem, -⟩ := h
  exact List.mem_map.mpr ⟨_, hmem, rfl⟩

variable {key' leaseId' : String}

theorem Owns.of_renew {fault : Option StoreError}
    (h : (s.idempotencyRenew fault key' leaseId' ttlMs now).2.Owns key leaseId now) :
    s.Owns key leaseId now := by
  cases fault with
  | some err => exact h
  | none =>
    obtain ⟨claim, hmem, hid⟩ := h
    exact ⟨claim, (s.idempotencyInflight.holders_renew _ le_rfl _).subset hmem, hid⟩

theorem Owns.of_release {fault : Option StoreError}
    (h : (s.idempotencyRelease fault key' leaseId').2.Owns key leaseId now) :
    s.Owns key leaseId now := by
  cases fault with
  | some err => exact h
  | none =>
    obtain ⟨claim, hmem, hid⟩ := h
    exact ⟨claim, (s.idempotencyInflight.holders_delete_sublist _ now).subset hmem, hid⟩

theorem Owns.of_put {fault : Option StoreError} {rec : IdempotencyRecord}
    (h : (s.idempotencyPut fault rec).2.Owns key leaseId now) : s.Owns key leaseId now := by
  cases fault <;> exact h

theorem Owns.of_purge
    (h : ({ s with idempotencyInflight := s.idempotencyInflight.purge now } : LeaseStore).Owns
      key leaseId now) : s.Owns key leaseId now := by
  unfold Owns at *
  rw [s.idempotencyInflight.holders_purge le_rfl] at h
  exact h

theorem Owns.of_begin {fault : Option StoreError}
    (h : (s.idempotencyBegin fault key' fingerprint leaseId' ttlMs now).2.Owns key leaseId now) :
    s.Owns key leaseId now ∨ leaseId = leaseId' := by
  cases fault with
  | some err => exact Or.inl h
  | none =>
    rcases s.begin_cases key' fingerprint leaseId' ttlMs now with
      ⟨rec, -, hb⟩ | ⟨-, -, answer, -, hb⟩ | ⟨-, -, t, ht, hb⟩
    · rw [hb] at h
      exact Or.inl h.of_purge
    · rw [hb] at h
      exact Or.inl h.of_purge
    · rw [hb] at h
      obtain ⟨claim, hmem, rfl⟩ := h
      rw [LeaseTable.holders_insert ht, s.idempotencyInflight.holders_purge le_rfl,
        List.mem_append] at hmem
      rcases hmem with hmem | hmem
      · exact Or.inl ⟨claim, hmem, rfl⟩
      · refine Or.inr ?_
        split at hmem
        · have hclaim : claim = { fingerprint := fingerprint, leaseId := leaseId' } :=
            congrArg Prod.snd (List.mem_singleton.mp hmem)
          rw [hclaim]
        · exact absurd hmem List.not_mem_nil

/-! ### Calls of those who hold nothing -/

/-- The two stores differ in expired rows only. -/
structure SameLeases (now : ℕ) (s s' : LeaseStore) : Prop where
  idempotency : s'.idempotency = s.idempotency
  claims : ∀ now' ≥ now,
    s'.idempotencyInflight.holders now' = s.idempotencyInflight.holders now'
  tenantSlots : ∀ now' ≥ now, s'.tenantSlots.holders now' = s.tenantSlots.holders now'
  admissionSlots : ∀ now' ≥ now, s'.admissionSlots.holders now' = s.admissionSlots.holders now'

theorem renew_of_not_owns (h : ¬ s.Owns key leaseId now) (fault : Option StoreError)
    (ttlMs : ℕ) : (s.idempotencyRenew fault key leaseId ttlMs now).2 = s := by
  cases fault with
  | some err => rfl
  | none =>
    have hnone : ∀ l ∈ s.idempotencyInflight.rows, l.live now = true →
        ownedBy key leaseId l = false := by
      intro l hl hlive
      by_contra ho
      exact h (owns_iff.mpr ⟨l, hl, hlive, by simpa using ho⟩)
    unfold idempotencyRenew
    dsimp only
    rw [LeaseTable.renew_of_forall hnone]

theorem release_of_not_owns (h : ¬ s.Owns key leaseId now) (fault : Option StoreError) :
    SameLeases now s (s.idempotencyRelease fault key leaseId).2 := by
  cases fault with
  | some err => exact ⟨rfl, fun _ _ => rfl, fun _ _ => rfl, fun _ _ => rfl⟩
  | none =>
    refine ⟨rfl, fun now' hle => ?_, fun _ _ => rfl, fun _ _ => rfl⟩
    refine LeaseTable.holders_delete_of_forall fun l hl hlive => ?_
    by_contra ho
    exact h (owns_iff.mpr ⟨l, hl, Lease.live_of_le hle hlive, by simpa using ho⟩)

theorem release_of_not_owner (fault : Option StoreError)
    (h : ∀ l ∈ s.idempotencyInflight.rows, ownedBy key leaseId l = false) :
    (s.idempotencyRelease fault key leaseId).2 = s := by
  cases fault with
  | some err => rfl
  | none =>
    unfold idempotencyRelease
    dsimp only
    rw [LeaseTable.delete_of_forall h]

end LeaseStore

section Slots

variable {σ : Type} {t : LeaseTable String σ} {slotId : String} {now : ℕ}

theorem key_ne_of_not_held (h : slotId ∉ (t.holders now).map Prod.fst) :
    ∀ l ∈ t.rows, l.live now = true → decide (l.key = slotId) = false := by
  intro l hl hlive
  refine decide_eq_false fun hkey => h (List.mem_map.mpr ⟨l.holder, ?_, hkey⟩)
  exact LeaseTable.mem_holders.mpr ⟨l, hl, hlive, rfl⟩

theorem slotRenew_of_not_held (h : slotId ∉ (t.holders now).map Prod.fst)
    (fault : Option StoreError) (ttlMs : ℕ) : (slotRenew t fault slotId ttlMs now).2 = t := by
  cases fault with
  | some err => rfl
  | none => exact LeaseTable.renew_of_forall (key_ne_of_not_held h) _

theorem slotRelease_of_not_held (h : slotId ∉ (t.holders now).map Prod.fst)
    (fault : Option StoreError) {now' : ℕ} (hle : now ≤ now') :
    (slotRelease t fault slotId).2.holders now' = t.holders now' := by
  cases fault with
  | some err => rfl
  | none =>
    exact LeaseTable.holders_delete_of_forall fun l hl hlive =>
      key_ne_of_not_held h l hl (Lease.live_of_le hle hlive)

theorem slotRelease_of_not_owner (h : slotId ∉ t.rows.map Lease.key)
    (fault : Option StoreError) : (slotRelease t fault slotId).2 = t := by
  cases fault with
  | some err => rfl
  | none =>
    refine LeaseTable.delete_of_forall fun l hl => ?_
    by_contra hkey
    exact h (List.mem_map.mpr ⟨l, hl, by simpa using hkey⟩)

end Slots

/-! ### Runs -/

namespace LeaseStore

/-- A stored response stays stored. -/
theorem Stored.apply {s : LeaseStore} {key : String} (h : s.Stored key) (e : LeaseEvent) :
    (s.apply e).Stored key := by
  unfold LeaseStore.apply
  cases e.call with
  | put rec =>
    dsimp only
    unfold idempotencyPut
    cases e.fault with
    | some err => exact h
    | none =>
      show key ∈ (s.idempotency.insertOrIgnore rec).rows.map IdempotencyRecord.key
      rw [KeyedLog.insertOrIgnore_rows]
      split
      · exact h
      · rw [List.map_append]
        exact List.mem_append_left _ h
  | begin key' fingerprint leaseId ttlMs =>
    dsimp only
    cases e.fault with
    | some err => exact h
    | none =>
      rcases s.begin_cases key' fingerprint leaseId ttlMs e.now with
        ⟨rec, -, hb⟩ | ⟨-, -, answer, -, hb⟩ | ⟨-, -, t, -, hb⟩
      all_goals
        rw [hb]
        exact h
  | renew key' leaseId ttlMs =>
    dsimp only
    unfold idempotencyRenew
    cases e.fault <;> exact h
  | release key' leaseId =>
    dsimp only
    unfold idempotencyRelease
    cases e.fault <;> exact h
  | _ => exact h

theorem Stored.foldl {s : LeaseStore} {key : String} (h : s.Stored key)
    (events : List LeaseEvent) : (events.foldl LeaseStore.apply s).Stored key := by
  induction events generalizing s with
  | nil => exact h
  | cons e events ih => exact ih (h.apply e)

end LeaseStore

/-- The calls about idempotency keys. -/
def LeaseCall.isClaim : LeaseCall → Bool
  | .begin .. | .put .. | .renew .. | .release .. => true
  | _ => false

/-- The maximum that a call uses for the slots of `tenant`. -/
def LeaseCall.tenantMax (tenant : String) : LeaseCall → Option ℕ
  | .tenantAcquire t _ max _ => if t = tenant then some max else none
  | _ => none

/-- The maximum that a call uses for the admission slots. -/
def LeaseCall.admissionMax : LeaseCall → Option ℕ
  | .admissionAcquire _ max _ => some max
  | _ => none

namespace LeaseStore

variable {e : LeaseEvent}

theorem slots_of_claimCall (s : LeaseStore) (h : e.call.isClaim = true) :
    (s.apply e).tenantSlots = s.tenantSlots ∧ (s.apply e).admissionSlots = s.admissionSlots := by
  unfold LeaseStore.apply
  cases hcall : e.call with
  | begin key fingerprint leaseId ttlMs =>
    dsimp only
    cases e.fault with
    | some err => exact ⟨rfl, rfl⟩
    | none =>
      rcases s.begin_cases key fingerprint leaseId ttlMs e.now with
        ⟨rec, -, hb⟩ | ⟨-, -, answer, -, hb⟩ | ⟨-, -, t, -, hb⟩
      all_goals
        rw [hb]
        exact ⟨rfl, rfl⟩
  | put rec =>
    dsimp only
    unfold idempotencyPut
    cases e.fault <;> exact ⟨rfl, rfl⟩
  | renew key leaseId ttlMs =>
    dsimp only
    unfold idempotencyRenew
    cases e.fault <;> exact ⟨rfl, rfl⟩
  | release key leaseId =>
    dsimp only
    unfold idempotencyRelease
    cases e.fault <;> exact ⟨rfl, rfl⟩
  | _ =>
    rw [hcall] at h
    exact absurd h (by simp [LeaseCall.isClaim])

theorem tenantSlots_apply {s : LeaseStore} {tenant : String} {now max : ℕ}
    (h : slotsTaken s.tenantSlots tenant now ≤ max) (hle : now ≤ e.now)
    (hmax : ∀ m, e.call.tenantMax tenant = some m → m = max) :
    slotsTaken (s.apply e).tenantSlots tenant e.now ≤ max := by
  have hnow := (slotsTaken_mono s.tenantSlots tenant hle).trans h
  cases hclaim : e.call.isClaim with
  | true =>
    rw [(s.slots_of_claimCall hclaim).1]
    exact hnow
  | false =>
    unfold LeaseStore.apply
    cases hcall : e.call with
    | tenantAcquire t slotId m ttlMs =>
      refine slotsTaken_slotAcquire hnow _ e.fault t slotId m ttlMs fun ht => hmax m ?_
      rw [hcall, LeaseCall.tenantMax, if_pos ht]
    | tenantRenew slotId ttlMs =>
      exact (slotsTaken_le_of_sublist
        (holders_slotRenew s.tenantSlots e.fault slotId ttlMs le_rfl) tenant).trans hnow
    | tenantRelease slotId =>
      exact (slotsTaken_le_of_sublist
        (holders_slotRelease s.tenantSlots e.fault slotId le_rfl) tenant).trans hnow
    | admissionAcquire | admissionRenew | admissionRelease => exact hnow
    | _ =>
      rw [hcall] at hclaim
      exact absurd hclaim (by simp [LeaseCall.isClaim])

theorem admissionSlots_apply {s : LeaseStore} {now max : ℕ}
    (h : slotsTaken s.admissionSlots () now ≤ max) (hle : now ≤ e.now)
    (hmax : ∀ m, e.call.admissionMax = some m → m = max) :
    slotsTaken (s.apply e).admissionSlots () e.now ≤ max := by
  have hnow := (slotsTaken_mono s.admissionSlots () hle).trans h
  cases hclaim : e.call.isClaim with
  | true =>
    rw [(s.slots_of_claimCall hclaim).2]
    exact hnow
  | false =>
    unfold LeaseStore.apply
    cases hcall : e.call with
    | admissionAcquire slotId m ttlMs =>
      refine slotsTaken_slotAcquire hnow _ e.fault () slotId m ttlMs fun _ => hmax m ?_
      rw [hcall, LeaseCall.admissionMax]
    | admissionRenew slotId ttlMs =>
      exact (slotsTaken_le_of_sublist
        (holders_slotRenew s.admissionSlots e.fault slotId ttlMs le_rfl) ()).trans hnow
    | admissionRelease slotId =>
      exact (slotsTaken_le_of_sublist
        (holders_slotRelease s.admissionSlots e.fault slotId le_rfl) ()).trans hnow
    | tenantAcquire | tenantRenew | tenantRelease => exact hnow
    | _ =>
      rw [hcall] at hclaim
      exact absurd hclaim (by simp [LeaseCall.isClaim])

end LeaseStore

/-- Times of calls do not decrease. -/
def LeaseEvent.Timely (events : List LeaseEvent) : Prop := Machine.Timely LeaseEvent.now 0 events

theorem LeaseStore.tenantSlots_after {events : List LeaseEvent} (htime : LeaseEvent.Timely events)
    {now : ℕ} (hnow : ∀ e ∈ events, e.now ≤ now) {tenant : String} {max : ℕ}
    (hmax : ∀ e ∈ events, ∀ m, e.call.tenantMax tenant = some m → m = max) :
    slotsTaken (LeaseStore.after events).tenantSlots tenant now ≤ max := by
  have hmono : ∀ (t t' : ℕ) (s : LeaseStore), t ≤ t' → slotsTaken s.tenantSlots tenant t ≤ max →
      slotsTaken s.tenantSlots tenant t' ≤ max :=
    fun _ _ s hle h => (slotsTaken_mono s.tenantSlots tenant hle).trans h
  have hstep : ∀ (t : ℕ) (s : LeaseStore) (e : LeaseEvent),
      (∀ m, e.call.tenantMax tenant = some m → m = max) → t ≤ e.now →
      slotsTaken s.tenantSlots tenant t ≤ max →
      slotsTaken (s.apply e).tenantSlots tenant e.now ≤ max :=
    fun _ _ _ hC hle h => tenantSlots_apply h hle hC
  have hstart : slotsTaken ({} : LeaseStore).tenantSlots tenant 0 ≤ max := Nat.zero_le max
  exact Machine.foldl_inv_timed hmono hstep hstart hmax htime (Nat.zero_le now) hnow

theorem LeaseStore.admissionSlots_after {events : List LeaseEvent}
    (htime : LeaseEvent.Timely events) {now : ℕ} (hnow : ∀ e ∈ events, e.now ≤ now) {max : ℕ}
    (hmax : ∀ e ∈ events, ∀ m, e.call.admissionMax = some m → m = max) :
    slotsTaken (LeaseStore.after events).admissionSlots () now ≤ max := by
  have hmono : ∀ (t t' : ℕ) (s : LeaseStore), t ≤ t' → slotsTaken s.admissionSlots () t ≤ max →
      slotsTaken s.admissionSlots () t' ≤ max :=
    fun _ _ s hle h => (slotsTaken_mono s.admissionSlots () hle).trans h
  have hstep : ∀ (t : ℕ) (s : LeaseStore) (e : LeaseEvent),
      (∀ m, e.call.admissionMax = some m → m = max) → t ≤ e.now →
      slotsTaken s.admissionSlots () t ≤ max →
      slotsTaken (s.apply e).admissionSlots () e.now ≤ max :=
    fun _ _ _ hC hle h => admissionSlots_apply h hle hC
  have hstart : slotsTaken ({} : LeaseStore).admissionSlots () 0 ≤ max := Nat.zero_le max
  exact Machine.foldl_inv_timed hmono hstep hstart hmax htime (Nat.zero_le now) hnow

/-- What holds of claims at `now`: a key has at most one unexpired claim, and one is given only
where there is none; renewing and releasing a claim that one does not hold changes nothing, expired
rows apart; what is replayed was stored with the same fingerprint. -/
structure LeaseStore.ClaimsSafe (s : LeaseStore) (now : ℕ) : Prop where
  one : ∀ key, (s.idempotencyInflight.holders now).countP (fun h => h.1 = key) ≤ 1
  free : ∀ fault key fingerprint leaseId ttlMs,
    (s.idempotencyBegin fault key fingerprint leaseId ttlMs now).1 = .ok .claimed →
      ¬ s.Claimed key now
  renew : ∀ fault key leaseId ttlMs, ¬ s.Owns key leaseId now →
    (s.idempotencyRenew fault key leaseId ttlMs now).2 = s
  release : ∀ fault key leaseId, ¬ s.Owns key leaseId now →
    LeaseStore.SameLeases now s (s.idempotencyRelease fault key leaseId).2
  releaseOther : ∀ fault key leaseId,
    (∀ l ∈ s.idempotencyInflight.rows, LeaseStore.ownedBy key leaseId l = false) →
      (s.idempotencyRelease fault key leaseId).2 = s
  replay : ∀ fault key fingerprint leaseId ttlMs rec,
    (s.idempotencyBegin fault key fingerprint leaseId ttlMs now).1 = .ok (.replay rec) →
      rec ∈ s.idempotency.rows ∧ rec.key = key ∧ rec.fingerprint = fingerprint

/-- What holds of the slots of table `t` at `now`: renewing and releasing a slot that is not held
changes nothing, expired rows apart. -/
structure LeaseStore.SlotsSafe {σ : Type} (s : LeaseStore) (now : ℕ) (t : LeaseTable String σ)
    (renewed : Option StoreError → String → ℕ → LeaseStore)
    (released : Option StoreError → String → LeaseStore) : Prop where
  renew : ∀ fault slotId ttlMs, slotId ∉ (t.holders now).map Prod.fst →
    renewed fault slotId ttlMs = s
  release : ∀ fault slotId, slotId ∉ (t.holders now).map Prod.fst →
    LeaseStore.SameLeases now s (released fault slotId)
  releaseOther : ∀ fault slotId, slotId ∉ t.rows.map Lease.key → released fault slotId = s

theorem LeaseStore.claimsSafe (s : LeaseStore) (now : ℕ) : s.ClaimsSafe now where
  one key := by
    have hcount := List.nodup_iff_count_le_one.mp (s.idempotencyInflight.nodup_holders now) key
    rw [List.count, List.countP_map] at hcount
    exact hcount
  free _ _ _ _ _ h := (not_claimed_of_begin h).2
  renew fault _ _ ttlMs h := renew_of_not_owns h fault ttlMs
  release fault _ _ h := release_of_not_owns h fault
  releaseOther fault _ _ h := release_of_not_owner fault h
  replay _ _ _ _ _ _ h := stored_of_replay h

theorem LeaseStore.tenantSlotsSafe (s : LeaseStore) (now : ℕ) :
    s.SlotsSafe now s.tenantSlots
      (fun fault slotId ttlMs => (s.tenantSlotRenew fault slotId ttlMs now).2)
      (fun fault slotId => (s.tenantSlotRelease fault slotId).2) where
  renew fault _ ttlMs h := by
    unfold tenantSlotRenew
    dsimp only
    rw [slotRenew_of_not_held h fault ttlMs]
  release fault _ h :=
    ⟨rfl, fun _ _ => rfl, fun _ hle => slotRelease_of_not_held h fault hle, fun _ _ => rfl⟩
  releaseOther fault _ h := by
    unfold tenantSlotRelease
    dsimp only
    rw [slotRelease_of_not_owner h fault]

theorem LeaseStore.admissionSlotsSafe (s : LeaseStore) (now : ℕ) :
    s.SlotsSafe now s.admissionSlots
      (fun fault slotId ttlMs => (s.admissionSlotRenew fault slotId ttlMs now).2)
      (fun fault slotId => (s.admissionSlotRelease fault slotId).2) where
  renew fault _ ttlMs h := by
    unfold admissionSlotRenew
    dsimp only
    rw [slotRenew_of_not_held h fault ttlMs]
  release fault _ h :=
    ⟨rfl, fun _ _ => rfl, fun _ _ => rfl, fun _ hle => slotRelease_of_not_held h fault hle⟩
  releaseOther fault _ h := by
    unfold admissionSlotRelease
    dsimp only
    rw [slotRelease_of_not_owner h fault]

/-- **Claims and slots are safe after every sequence of calls**, at any time from the last call on;
a key with a stored response is not claimed again; and with a fixed maximum the unexpired slots of
a scope do not exceed it. -/
theorem leases_safe (past future : List LeaseEvent) (htime : LeaseEvent.Timely (past ++ future))
    (now : ℕ) (hnow : ∀ e ∈ past ++ future, e.now ≤ now) :
    let s := LeaseStore.after (past ++ future)
    s.ClaimsSafe now ∧
    s.SlotsSafe now s.tenantSlots
      (fun fault slotId ttlMs => (s.tenantSlotRenew fault slotId ttlMs now).2)
      (fun fault slotId => (s.tenantSlotRelease fault slotId).2) ∧
    s.SlotsSafe now s.admissionSlots
      (fun fault slotId ttlMs => (s.admissionSlotRenew fault slotId ttlMs now).2)
      (fun fault slotId => (s.admissionSlotRelease fault slotId).2) ∧
    (∀ key, (LeaseStore.after past).Stored key → ∀ fault fingerprint leaseId ttlMs,
      (s.idempotencyBegin fault key fingerprint leaseId ttlMs now).1 ≠ .ok .claimed) ∧
    (∀ tenant max, (∀ e ∈ past ++ future, ∀ m, e.call.tenantMax tenant = some m → m = max) →
      slotsTaken s.tenantSlots tenant now ≤ max) ∧
    (∀ max, (∀ e ∈ past ++ future, ∀ m, e.call.admissionMax = some m → m = max) →
      slotsTaken s.admissionSlots () now ≤ max) := by
  refine ⟨LeaseStore.claimsSafe _ now, LeaseStore.tenantSlotsSafe _ now,
    LeaseStore.admissionSlotsSafe _ now, ?_, ?_, ?_⟩
  · intro key hstored fault fingerprint leaseId ttlMs hclaimed
    refine (LeaseStore.not_claimed_of_begin hclaimed).1 ?_
    unfold LeaseStore.after
    rw [List.foldl_append]
    exact hstored.foldl future
  · intro tenant max hmax
    exact LeaseStore.tenantSlots_after htime hnow hmax
  · intro max hmax
    exact LeaseStore.admissionSlots_after htime hnow hmax

/-- Distinct identifiers. -/
def sampleId (kind : String) (n : ℕ) : String := kind ++ "_" ++ String.ofList (List.replicate n '0')

theorem sampleId_injective (kind : String) : Function.Injective (sampleId kind) := by
  intro m n h
  have hlength := congrArg String.length h
  simpa [sampleId] using hlength

/-- Two calls, a stored response and a slot. -/
def sampleLeases : List LeaseEvent :=
  [{ now := 5, call := .begin "k" "f" "a" 10 },
    { now := 6, call := .tenantAcquire "acme" "slot" 1 10 },
    { now := 7,
      call := .put { key := "k", fingerprint := "f", status := 200,
                     contentType := "application/json", body := "ok", createdAtMs := 7 } }]

theorem timely_sampleLeases : LeaseEvent.Timely (sampleLeases ++ []) := by
  unfold LeaseEvent.Timely Machine.Timely sampleLeases
  decide

/-- The theorem at the sample. -/
theorem leases_safe_sample :
    (LeaseStore.after sampleLeases).Stored "k" ∧
      ((LeaseStore.after (sampleLeases ++ [])).idempotencyBegin none "k" "f" "b" 10 8).1 ≠
        .ok .claimed ∧
      slotsTaken (LeaseStore.after (sampleLeases ++ [])).tenantSlots "acme" 8 ≤ 1 := by
  have hstored : (LeaseStore.after sampleLeases).Stored "k" := by decide +kernel
  obtain ⟨-, -, -, hclaim, hslots, -⟩ :=
    leases_safe sampleLeases [] timely_sampleLeases 8 (by decide)
  exact ⟨hstored, hclaim "k" hstored none "f" "b" 10, hslots "acme" 1 (by decide)⟩

/-- A release after the expiry deletes the expired row. -/
theorem release_after_expiry_changes :
    let s := LeaseStore.after [{ now := 5, call := .begin "k" "f" "a" 1 }]
    ¬ s.Owns "k" "a" 8 ∧
      (s.idempotencyRelease none "k" "a").1.toOption = some true ∧
      (s.idempotencyRelease none "k" "a").2.idempotencyInflight.rows ≠
        s.idempotencyInflight.rows := by
  refine ⟨?_, by decide +kernel, by decide +kernel⟩
  rw [LeaseStore.owns_iff]
  decide +kernel

end Switchback
