import Mathlib.Algebra.Order.Ring.Int
import Mathlib.Data.List.Nodup

/-!
# Leases

A table of leases with a unique key, each with an expiry time.  A lease is unexpired at `now` when
`now` is before its expiry; expired rows may stay in the table until they are purged.
-/

namespace Lib

/-- One lease: its key, its payload, and when it ends. -/
structure Lease (κ α : Type*) where
  key : κ
  info : α
  createdAt : ℕ
  expiresAt : ℤ
  deriving DecidableEq

namespace Lease

variable {κ α : Type*}

/-- Not expired yet. -/
def live (now : ℕ) (l : Lease κ α) : Bool := (now : ℤ) < l.expiresAt

/-- Who holds it. -/
def holder (l : Lease κ α) : κ × α := (l.key, l.info)

theorem live_of_le {now now' : ℕ} (h : now ≤ now') {l : Lease κ α} (hl : l.live now' = true) :
    l.live now = true := by
  simp only [live, decide_eq_true_eq] at *
  omega

end Lease

/-- A table of leases; the key is unique. -/
structure LeaseTable (κ α : Type*) where
  rows : List (Lease κ α)
  unique : (rows.map Lease.key).Nodup

namespace LeaseTable

variable {κ α : Type*}

def empty : LeaseTable κ α := ⟨[], List.nodup_nil⟩

/-- The unexpired leases. -/
def holders (t : LeaseTable κ α) (now : ℕ) : List (κ × α) :=
  (t.rows.filter (Lease.live now)).map Lease.holder

/-- Keep the leases that satisfy `p`. -/
def keep (t : LeaseTable κ α) (p : Lease κ α → Bool) : LeaseTable κ α where
  rows := t.rows.filter p
  unique := t.unique.sublist (List.filter_sublist.map Lease.key)

/-- Drop what has expired. -/
def purge (t : LeaseTable κ α) (now : ℕ) : LeaseTable κ α := t.keep (Lease.live now)

/-- Drop the leases that satisfy `p`. -/
def delete (t : LeaseTable κ α) (p : Lease κ α → Bool) : LeaseTable κ α := t.keep fun l => !p l

/-- Move the expiry of a lease that satisfies `p` and has not expired. -/
def renewLease (p : Lease κ α → Bool) (now : ℕ) (expiresAt : ℤ) (l : Lease κ α) : Lease κ α :=
  if p l && l.live now then { l with expiresAt := expiresAt } else l

theorem holder_renewLease (p : Lease κ α → Bool) (now : ℕ) (expiresAt : ℤ) (l : Lease κ α) :
    (renewLease p now expiresAt l).holder = l.holder := by
  unfold renewLease
  split <;> rfl

def renew (t : LeaseTable κ α) (p : Lease κ α → Bool) (now : ℕ) (expiresAt : ℤ) :
    LeaseTable κ α where
  rows := t.rows.map (renewLease p now expiresAt)
  unique := by
    rw [List.map_map, show Lease.key ∘ renewLease p now expiresAt = Lease.key from ?_]
    · exact t.unique
    · funext l
      exact congrArg Prod.fst (holder_renewLease p now expiresAt l)

section Insert

variable [DecidableEq κ]

/-- Add a lease; nothing when its key is there already. -/
def insert (t : LeaseTable κ α) (l : Lease κ α) : Option (LeaseTable κ α) :=
  if h : l.key ∈ t.rows.map Lease.key then none
  else some ⟨t.rows ++ [l], by
    rw [List.map_append, List.nodup_append]
    refine ⟨t.unique, by simp, ?_⟩
    rintro x hx y hy rfl
    rw [List.map_singleton, List.mem_singleton] at hy
    exact h (hy ▸ hx)⟩

theorem insert_eq_some {t t' : LeaseTable κ α} {l : Lease κ α} (h : t.insert l = some t') :
    l.key ∉ t.rows.map Lease.key ∧ t'.rows = t.rows ++ [l] := by
  unfold insert at h
  split at h
  · exact absurd h (by simp)
  · next hkey =>
    obtain rfl := Option.some.inj h
    exact ⟨hkey, rfl⟩

theorem insert_eq_none {t : LeaseTable κ α} {l : Lease κ α} :
    t.insert l = none ↔ l.key ∈ t.rows.map Lease.key := by
  unfold insert
  split <;> simp_all

end Insert

/-! ### Holders -/

theorem mem_holders {t : LeaseTable κ α} {now : ℕ} {h : κ × α} :
    h ∈ t.holders now ↔ ∃ l ∈ t.rows, l.live now = true ∧ l.holder = h := by
  unfold holders
  simp [and_assoc]

theorem nodup_holders (t : LeaseTable κ α) (now : ℕ) : ((t.holders now).map Prod.fst).Nodup := by
  unfold holders
  rw [List.map_map]
  exact t.unique.sublist (List.filter_sublist.map Lease.key)

theorem holders_mono (t : LeaseTable κ α) {now now' : ℕ} (h : now ≤ now') :
    (t.holders now').Sublist (t.holders now) := by
  unfold holders
  refine List.Sublist.map _ ?_
  exact List.monotone_filter_right _ fun l hl => Lease.live_of_le h hl

theorem holders_keep_sublist (t : LeaseTable κ α) (p : Lease κ α → Bool) (now : ℕ) :
    ((t.keep p).holders now).Sublist (t.holders now) :=
  (List.filter_sublist.filter _).map _

theorem holders_delete_sublist (t : LeaseTable κ α) (p : Lease κ α → Bool) (now : ℕ) :
    ((t.delete p).holders now).Sublist (t.holders now) := t.holders_keep_sublist _ now

/-- Dropping expired rows is not seen. -/
theorem holders_purge (t : LeaseTable κ α) {now now' : ℕ} (h : now ≤ now') :
    (t.purge now).holders now' = t.holders now' := by
  unfold holders purge keep
  rw [List.filter_filter]
  congr 2
  funext l
  cases hl : l.live now' with
  | false => rfl
  | true => rw [Lease.live_of_le h hl, Bool.and_self]

theorem holders_delete_of_forall {t : LeaseTable κ α} {p : Lease κ α → Bool} {now : ℕ}
    (h : ∀ l ∈ t.rows, l.live now = true → p l = false) :
    (t.delete p).holders now = t.holders now := by
  unfold holders delete keep
  rw [List.filter_filter]
  congr 1
  refine List.filter_congr fun l hl => ?_
  cases hlive : l.live now with
  | false => rfl
  | true => rw [h l hl hlive]; rfl

theorem delete_of_forall {t : LeaseTable κ α} {p : Lease κ α → Bool}
    (h : ∀ l ∈ t.rows, p l = false) : t.delete p = t := by
  unfold delete keep
  congr 1
  rw [List.filter_eq_self]
  intro l hl
  rw [h l hl]
  rfl

theorem holders_renew (t : LeaseTable κ α) (p : Lease κ α → Bool) {now now' : ℕ} (h : now ≤ now')
    (expiresAt : ℤ) : ((t.renew p now expiresAt).holders now').Sublist (t.holders now) := by
  unfold holders renew
  rw [List.filter_map, List.map_map]
  have hholder : Lease.holder ∘ renewLease p now expiresAt = Lease.holder :=
    funext (holder_renewLease p now expiresAt)
  rw [hholder]
  refine List.Sublist.map _ (List.monotone_filter_right _ fun l hl => ?_)
  cases hlive : l.live now with
  | true => rfl
  | false =>
    have hsame : renewLease p now expiresAt l = l := by
      unfold renewLease
      rw [hlive, Bool.and_false]
      rfl
    rw [Function.comp_apply, hsame] at hl
    rw [← hlive]
    exact Lease.live_of_le h hl

theorem renew_of_forall {t : LeaseTable κ α} {p : Lease κ α → Bool} {now : ℕ}
    (h : ∀ l ∈ t.rows, l.live now = true → p l = false) (expiresAt : ℤ) :
    t.renew p now expiresAt = t := by
  have hrows : t.rows.map (renewLease p now expiresAt) = t.rows := by
    refine (List.map_congr_left fun l hl => ?_).trans (List.map_id _)
    unfold renewLease
    cases hlive : l.live now with
    | false => rw [Bool.and_false]; rfl
    | true => rw [h l hl hlive]; rfl
  unfold renew
  congr 1

theorem holders_insert [DecidableEq κ] {t t' : LeaseTable κ α} {l : Lease κ α}
    (h : t.insert l = some t') (now : ℕ) :
    t'.holders now = t.holders now ++ if l.live now then [l.holder] else [] := by
  unfold holders
  rw [(insert_eq_some h).2, List.filter_append, List.map_append]
  congr 1
  split <;> simp_all

end LeaseTable

theorem eraseIdx_split {α : Type*} {l : List α} {i : ℕ} {a : α} (h : l[i]? = some a) :
    ∃ before after, l = before ++ a :: after ∧ l.eraseIdx i = before ++ after := by
  obtain ⟨hi, ha⟩ := List.getElem?_eq_some_iff.mp h
  refine ⟨l.take i, l.drop (i + 1), ?_, List.eraseIdx_eq_take_drop_succ l i⟩
  rw [← ha, ← List.drop_eq_getElem_cons hi, List.take_append_drop]

end Lib
