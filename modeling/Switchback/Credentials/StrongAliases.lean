import Mathlib.Data.List.Perm.Basic
import Switchback.Credentials.Authority
import Switchback.Lib.Claims
import Switchback.Lib.Fallible
import Switchback.Lib.Machine

/-!
# Strong aliases

A strong alias should be bound to one account at most, in every snapshot that is stored.
-/

namespace Switchback

namespace Enrollment

open Lib Claims

/-! ### The accounts as a book -/

/-- An alias as one record of one source gives it. -/
abbrev Record := AliasKey × ImportSource × String

def recordKey (r : Record) : AliasKey := r.1

def Strong (key : AliasKey) : Prop := key.1.rank ≤ 3

instance : DecidablePred Strong := fun key => inferInstanceAs (Decidable (key.1.rank ≤ 3))

def AliasBinding.record (b : AliasBinding) : Record := (b.key, b.source, b.sourceRecordKey)

def AliasBinding.entry (b : AliasBinding) : Record × Bool := (b.record, b.bindingState = .bound)

def ProviderAccountEnrollment.entries (account : ProviderAccountEnrollment) : List (Record × Bool) :=
  account.aliases.map AliasBinding.entry

def book (accounts : List ProviderAccountEnrollment) : Book String Record := fun id =>
  ((accounts.find? fun a => a.id = id).map ProviderAccountEnrollment.entries).getD []

theorem holds_iff {account : ProviderAccountEnrollment} {key : AliasKey} :
    account.Holds key ↔ ∃ r, recordKey r = key ∧ (r, true) ∈ account.entries := by
  unfold ProviderAccountEnrollment.Holds ProviderAccountEnrollment.entries
  constructor
  · rintro ⟨b, hb, hkey, hstate⟩
    refine ⟨b.record, hkey, List.mem_map.2 ⟨b, hb, ?_⟩⟩
    simp [AliasBinding.entry, hstate]
  · rintro ⟨r, hkey, hr⟩
    obtain ⟨b, hb, hentry⟩ := List.mem_map.1 hr
    obtain ⟨rfl, hstate⟩ := Prod.mk.inj hentry
    exact ⟨b, hb, hkey, by simpa using hstate⟩

section Book

variable {accounts : List ProviderAccountEnrollment}

theorem find_of_mem (hids : (accounts.map ProviderAccountEnrollment.id).Nodup)
    {a : ProviderAccountEnrollment} (ha : a ∈ accounts) :
    (accounts.find? fun c => c.id = a.id) = some a := by
  induction accounts with
  | nil => cases ha
  | cons c accounts ih =>
    obtain ⟨hnew, hrest⟩ := List.nodup_cons.1 hids
    rcases List.mem_cons.1 ha with rfl | ha
    · simp
    · have hne : c.id ≠ a.id := fun heq => hnew (heq ▸ List.mem_map_of_mem ha)
      rw [List.find?_cons_of_neg (by simpa using hne)]
      exact ih hrest ha

theorem book_of_mem (hids : (accounts.map ProviderAccountEnrollment.id).Nodup)
    {a : ProviderAccountEnrollment} (ha : a ∈ accounts) : book accounts a.id = a.entries := by
  rw [book, find_of_mem hids ha]
  rfl

theorem mem_book {id : String} {e : Record × Bool} (h : e ∈ book accounts id) :
    ∃ a ∈ accounts, a.id = id ∧ e ∈ a.entries := by
  unfold book at h
  cases hfind : accounts.find? fun a => a.id = id with
  | none =>
    rw [hfind] at h
    cases h
  | some a =>
    rw [hfind] at h
    have hid : a.id = id := by simpa using List.find?_some hfind
    exact ⟨a, List.mem_of_find?_eq_some hfind, hid, h⟩

theorem book_holds_iff (hids : (accounts.map ProviderAccountEnrollment.id).Nodup) {id : String}
    {key : AliasKey} :
    Claims.Holds recordKey (book accounts) id key ↔ ∃ a ∈ accounts, a.id = id ∧ a.Holds key := by
  constructor
  · rintro ⟨r, hkey, hr⟩
    obtain ⟨a, ha, hid, hr⟩ := mem_book hr
    exact ⟨a, ha, hid, holds_iff.2 ⟨r, hkey, hr⟩⟩
  · rintro ⟨a, ha, rfl, hholds⟩
    obtain ⟨r, hkey, hr⟩ := holds_iff.1 hholds
    refine ⟨r, hkey, ?_⟩
    rwa [book_of_mem hids ha]

end Book

theorem find_perm {α : Type} {p : α → Bool} {l l' : List α} (hperm : l'.Perm l)
    (hone : ∀ a ∈ l, ∀ b ∈ l, p a = true → p b = true → a = b) : l'.find? p = l.find? p := by
  cases hfind : l.find? p with
  | none =>
    rw [List.find?_eq_none] at hfind ⊢
    exact fun a ha => hfind a (hperm.mem_iff.1 ha)
  | some a =>
    have ha := List.mem_of_find?_eq_some hfind
    have hpa := List.find?_some hfind
    cases hfind' : l'.find? p with
    | none =>
      rw [List.find?_eq_none] at hfind'
      exact absurd hpa (hfind' a (hperm.mem_iff.2 ha))
    | some b =>
      have hb := hperm.mem_iff.1 (List.mem_of_find?_eq_some hfind')
      rw [hone b hb a ha (List.find?_some hfind') hpa]

/-- A strong alias is bound to one account at most, and whoever else has it has it parked. -/
structure Sound (s : ProviderAccountSnapshot) : Prop where
  ids : (s.accounts.map ProviderAccountEnrollment.id).Nodup
  unique : ∀ a ∈ s.accounts, ∀ c ∈ s.accounts, ∀ key, Strong key → a.Holds key → c.Holds key → a = c
  parked : ∀ a ∈ s.accounts, ∀ c ∈ s.accounts, ∀ b ∈ c.aliases, Strong b.key → a.Holds b.key →
    a ≠ c → b.bindingState = .parkedConflict
  matched : ∀ accounts, accounts.Perm s.accounts → ∀ o,
    matchExisting o accounts = matchExisting o s.accounts
  resolved : ∀ accounts, accounts.Perm s.accounts → ∀ query normalized,
    query.aliasScheme.rank ≤ 3 →
      resolveAccount query normalized accounts = resolveAccount query normalized s.accounts

/-- No binding is superseded. -/
def Live (s : ProviderAccountSnapshot) : Prop :=
  ∀ a ∈ s.accounts, ∀ b ∈ a.aliases, b.bindingState ≠ .superseded

theorem sound_iff_exclusive {s : ProviderAccountSnapshot}
    (hids : (s.accounts.map ProviderAccountEnrollment.id).Nodup) (hlive : Live s) :
    Sound s ↔ Exclusive recordKey Strong (book s.accounts) := by
  have heq {a c : ProviderAccountEnrollment} (ha : a ∈ s.accounts) (hc : c ∈ s.accounts)
      (hid : a.id = c.id) : a = c := List.inj_on_of_nodup_map hids ha hc hid
  constructor
  · intro h i j key hs hi hj
    obtain ⟨a, ha, rfl, hholds⟩ := (book_holds_iff hids).1 hi
    obtain ⟨c, hc, rfl, hholds'⟩ := (book_holds_iff hids).1 hj
    rw [h.unique a ha c hc key hs hholds hholds']
  · intro h
    have hunique : ∀ a ∈ s.accounts, ∀ c ∈ s.accounts, ∀ key, Strong key → a.Holds key →
        c.Holds key → a = c := fun a ha c hc key hs hholds hholds' =>
      heq ha hc (h a.id c.id key hs ((book_holds_iff hids).2 ⟨a, ha, rfl, hholds⟩)
        ((book_holds_iff hids).2 ⟨c, hc, rfl, hholds'⟩))
    refine ⟨hids, hunique, fun a ha c hc b hb hs hholds hne => ?_, fun accounts hperm o => ?_,
      fun accounts hperm query normalized hs => ?_⟩
    · cases hstate : b.bindingState with
      | bound => exact absurd (hunique a ha c hc b.key hs hholds ⟨b, hb, rfl, hstate⟩) hne
      | parkedConflict => rfl
      | superseded => exact absurd hstate (hlive c hc b hb)
    · unfold matchExisting
      have hsame : ∀ n ∈ o.aliases.filter fun a => a.rank ≤ 3,
          ((accounts.find? fun account => account.Holds n.key).map ProviderAccountEnrollment.id) =
            (s.accounts.find? fun account => account.Holds n.key).map
              ProviderAccountEnrollment.id := by
        intro n hn
        have hs : Strong n.key := by
          have hrank : n.rank ≤ 3 := by simpa using (List.mem_filter.1 hn).2
          rwa [n.rank_eq] at hrank
        rw [find_perm hperm fun a ha c hc hpa hpc =>
          hunique a ha c hc n.key hs (by simpa using hpa) (by simpa using hpc)]
      revert hsame
      induction o.aliases.filter fun a => a.rank ≤ 3 with
      | nil => exact fun _ => rfl
      | cons n names ih =>
        intro hsame
        rw [List.findSome?_cons, List.findSome?_cons, hsame n List.mem_cons_self,
          ih fun m hm => hsame m (List.mem_cons_of_mem _ hm)]
    · unfold resolveAccount
      refine find_perm hperm fun a ha c hc hpa hpc => ?_
      simp only [decide_eq_true_eq] at hpa hpc
      obtain ⟨-, b, hb, hkey, hstate, -⟩ := hpa
      obtain ⟨-, b', hb', hkey', hstate', -⟩ := hpc
      exact hunique a ha c hc (query.aliasScheme, normalized) hs ⟨b, hb, hkey, hstate⟩
        ⟨b', hb', hkey', hstate'⟩

/-! ### What a run of imports does to the book -/

def mapBook (m : OrdMap String ProviderAccountEnrollment) : Book String Record := fun id =>
  ((m.get id).map ProviderAccountEnrollment.entries).getD []

/-- What an observation claims for its account. -/
def claimsOf (p : Observation × String) : List (String × Record) :=
  p.1.aliases.map fun a => (p.2, (a.key, p.1.source, p.1.recordKey))

section Enrolling

variable {revision : ℕ} {nowMs : ℤ}

theorem records_iff {account : ProviderAccountEnrollment} {o : Observation} {a : NormalizedAlias} :
    account.Records o a ↔
      ((a.key, o.source, o.recordKey) : Record) ∈ account.entries.map Prod.fst := by
  unfold ProviderAccountEnrollment.Records ProviderAccountEnrollment.entries
  rw [List.map_map, List.mem_map]
  constructor
  · rintro ⟨b, hb, hsource, hrecord, hkey⟩
    refine ⟨b, hb, ?_⟩
    show b.record = _
    rw [AliasBinding.record, hsource, hrecord, hkey]
  · rintro ⟨b, hb, hentry⟩
    have hrecord : b.record = (a.key, o.source, o.recordKey) := hentry
    obtain ⟨hkey, hrest⟩ := Prod.mk.inj hrecord
    obtain ⟨hsource, hrecord⟩ := Prod.mk.inj hrest
    exact ⟨b, hb, hsource, hrecord, hkey⟩

theorem claim_eq (owner : AliasKey → Option String) (id : String) (o : Observation)
    (a : NormalizedAlias) :
    (claim owner id a).2 = register recordKey Strong owner id (a.key, o.source, o.recordKey) ∧
      (decide ((claim owner id a).1 = .bound) =
        granted recordKey Strong owner id (a.key, o.source, o.recordKey)) := by
  have hstrong : Strong a.key ↔ a.rank ≤ 3 := by
    rw [a.rank_eq]
    rfl
  unfold claim register granted
  simp only [recordKey, hstrong]
  by_cases hrank : a.rank ≤ 3
  · simp only [hrank, if_true]
    cases howner : owner a.key with
    | none => simp
    | some j =>
      by_cases hj : j = id
      · simp [hj]
      · have hkeep : Function.update owner a.key (some j) = owner := by
          rw [← howner]
          exact Function.update_eq_self _ _
        simp [hj, hkeep]
  · simp [hrank]

theorem bindAlias_fst (o : Observation) (id : String)
    (s : ProviderAccountEnrollment × (AliasKey → Option String) × List String)
    (a : NormalizedAlias) :
    (bindAlias nowMs o id s a).1 =
      if s.1.Records o a then s.1
      else { s.1 with aliases := s.1.aliases ++ [newBinding nowMs o a (claim s.2.1 id a).1] } := by
  unfold bindAlias
  dsimp only
  by_cases hrecords : s.1.Records o a
  · rw [if_pos hrecords, if_pos hrecords]
  · rw [if_neg hrecords, if_neg hrecords]

theorem bindAlias_filed (m : Book String Record) (o : Observation) (id : String)
    (s : ProviderAccountEnrollment × (AliasKey → Option String) × List String)
    (a : NormalizedAlias) :
    file recordKey Strong (Function.update m id s.1.entries, s.2.1)
        (id, (a.key, o.source, o.recordKey)) =
      (Function.update m id (bindAlias nowMs o id s a).1.entries,
        (bindAlias nowMs o id s a).2.1) := by
  obtain ⟨howner, hgranted⟩ := claim_eq s.2.1 id o a
  rw [file_update, ← howner, ← hgranted]
  unfold bindAlias
  dsimp only
  by_cases hrecords : s.1.Records o a
  · rw [if_pos (records_iff.1 hrecords), if_pos hrecords]
  · rw [if_neg fun h => hrecords (records_iff.2 h), if_neg hrecords]
    congr 2
    unfold ProviderAccountEnrollment.entries
    rw [List.map_append]
    rfl

theorem foldl_bindAlias_filed (m : Book String Record) (o : Observation) (id : String)
    (s : ProviderAccountEnrollment × (AliasKey → Option String) × List String)
    (names : List NormalizedAlias) :
    (names.map fun a => (id, ((a.key, o.source, o.recordKey) : Record))).foldl
        (file recordKey Strong) (Function.update m id s.1.entries, s.2.1) =
      (Function.update m id (names.foldl (bindAlias nowMs o id) s).1.entries,
        (names.foldl (bindAlias nowMs o id) s).2.1) := by
  induction names generalizing s with
  | nil => rfl
  | cons a names ih =>
    rw [List.map_cons, List.foldl_cons, List.foldl_cons, bindAlias_filed, ih]

theorem mapBook_insert (m : OrdMap String ProviderAccountEnrollment) (id : String)
    (account : ProviderAccountEnrollment) :
    mapBook (m.insert id account) = Function.update (mapBook m) id account.entries := by
  funext id'
  unfold mapBook
  rw [OrdMap.get_insert]
  by_cases hid : id' = id
  · subst hid
    rw [if_pos rfl, Function.update_self]
    rfl
  · rw [if_neg hid, Function.update_of_ne hid]

theorem enroll_filed (s : Enrolling) (p : Observation × String) :
    (mapBook (enroll revision nowMs s p).accounts, (enroll revision nowMs s p).strongOwner) =
      (claimsOf p).foldl (file recordKey Strong) (mapBook s.accounts, s.strongOwner) := by
  have hstart : mapBook s.accounts = Function.update (mapBook s.accounts) p.2
      (touch revision nowMs p.1
        ((s.accounts.get p.2).getD (newEnrollment revision nowMs p.1 p.2))).entries := by
    funext id
    by_cases hid : id = p.2
    · subst hid
      rw [Function.update_self]
      unfold mapBook
      cases s.accounts.get p.2 <;> rfl
    · rw [Function.update_of_ne hid]
  have hfold := @foldl_bindAlias_filed nowMs (mapBook s.accounts) p.1 p.2
    (touch revision nowMs p.1 ((s.accounts.get p.2).getD (newEnrollment revision nowMs p.1 p.2)),
      s.strongOwner, s.conflicts) p.1.aliases
  rw [← hstart] at hfold
  unfold claimsOf enroll
  rw [hfold, mapBook_insert]

theorem foldl_enroll_filed (s : Enrolling) (assigned : List (Observation × String)) :
    (mapBook (assigned.foldl (enroll revision nowMs) s).accounts,
        (assigned.foldl (enroll revision nowMs) s).strongOwner) =
      (assigned.flatMap claimsOf).foldl (file recordKey Strong)
        (mapBook s.accounts, s.strongOwner) := by
  induction assigned generalizing s with
  | nil => rfl
  | cons p assigned ih =>
    rw [List.foldl_cons, List.flatMap_cons, List.foldl_append, ih, enroll_filed]

/-- Every account stands under its own id. -/
def WellKeyed (m : OrdMap String ProviderAccountEnrollment) : Prop :=
  ∀ id a, m.get id = some a → a.id = id

theorem foldl_bindAlias_id (o : Observation) (id : String)
    (s : ProviderAccountEnrollment × (AliasKey → Option String) × List String)
    (names : List NormalizedAlias) :
    (names.foldl (bindAlias nowMs o id) s).1.id = s.1.id := by
  induction names generalizing s with
  | nil => rfl
  | cons a names ih =>
    rw [List.foldl_cons, ih, bindAlias_fst]
    split_ifs <;> rfl

theorem WellKeyed.enroll {s : Enrolling} (h : WellKeyed s.accounts) (p : Observation × String) :
    WellKeyed (enroll revision nowMs s p).accounts := by
  intro id a ha
  unfold Enrollment.enroll at ha
  dsimp only at ha
  rw [OrdMap.get_insert] at ha
  split_ifs at ha with hid
  · subst hid
    obtain rfl := Option.some.inj ha
    rw [foldl_bindAlias_id]
    show ((s.accounts.get p.2).getD _).id = p.2
    cases hget : s.accounts.get p.2 with
    | none => rfl
    | some account => exact h _ _ hget
  · exact h id a ha

theorem WellKeyed.foldl_enroll {s : Enrolling} (h : WellKeyed s.accounts)
    (assigned : List (Observation × String)) :
    WellKeyed (assigned.foldl (Enrollment.enroll revision nowMs) s).accounts := by
  induction assigned generalizing s with
  | nil => exact h
  | cons p assigned ih => exact ih (h.enroll p)

end Enrolling

section AccountMap

variable {accounts : List ProviderAccountEnrollment}

theorem accountMap_get (hids : (accounts.map ProviderAccountEnrollment.id).Nodup) (id : String) :
    (accountMap accounts).get id = accounts.find? fun a => a.id = id := by
  unfold accountMap
  rw [OrdMap.get_ofList (by rwa [List.map_map]), OrdMap.getList_eq_find, List.find?_map,
    Option.map_map]
  have hsame : (fun a : ProviderAccountEnrollment => decide (a.id = id)) =
      (fun p : String × ProviderAccountEnrollment => decide (p.1 = id)) ∘ fun a => (a.id, a) := rfl
  rw [hsame]
  cases accounts.find? _ <;> rfl

theorem accountMap_wellKeyed (hids : (accounts.map ProviderAccountEnrollment.id).Nodup) :
    WellKeyed (accountMap accounts) := by
  intro id a ha
  rw [accountMap_get hids] at ha
  simpa using List.find?_some ha

theorem mapBook_accountMap (hids : (accounts.map ProviderAccountEnrollment.id).Nodup) :
    mapBook (accountMap accounts) = book accounts := by
  funext id
  rw [mapBook, accountMap_get hids]
  rfl

variable {m : OrdMap String ProviderAccountEnrollment}

theorem mem_accountsAfter {a : ProviderAccountEnrollment} :
    a ∈ accountsAfter m ↔ ∃ id a', m.get id = some a' ∧ a = sortAliases a' := by
  unfold accountsAfter values
  rw [(Runs.sortOn_perm _ _).mem_iff, List.map_map, List.mem_map]
  constructor
  · rintro ⟨⟨id, a'⟩, hmem, rfl⟩
    exact ⟨id, a', OrdMap.mem_entries_iff.1 hmem, rfl⟩
  · rintro ⟨id, a', hget, rfl⟩
    exact ⟨(id, a'), OrdMap.mem_entries_iff.2 hget, rfl⟩

theorem accountsAfter_ids (h : WellKeyed m) :
    ((accountsAfter m).map ProviderAccountEnrollment.id).Nodup := by
  unfold accountsAfter values
  rw [((Runs.sortOn_perm _ _).map _).nodup_iff, List.map_map, List.map_map]
  have hkeys : m.entries.map (ProviderAccountEnrollment.id ∘ sortAliases ∘ Prod.snd) = m.keys := by
    refine List.map_congr_left fun p hp => ?_
    exact h p.1 p.2 (OrdMap.mem_entries_iff.1 hp)
  have hnodup := m.nodup_keys
  rwa [← hkeys] at hnodup

theorem sortAliases_perm (a : ProviderAccountEnrollment) :
    (sortAliases a).aliases.Perm a.aliases := Runs.sortOn_perm _ _

theorem mem_book_accountsAfter (h : WellKeyed m)
    (id : String) (e : Record × Bool) : e ∈ book (accountsAfter m) id ↔ e ∈ mapBook m id := by
  have hentries (a : ProviderAccountEnrollment) : e ∈ (sortAliases a).entries ↔ e ∈ a.entries :=
    ((sortAliases_perm a).map _).mem_iff
  constructor
  · intro he
    obtain ⟨a, ha, rfl, hin⟩ := mem_book he
    obtain ⟨id, a', hget, rfl⟩ := mem_accountsAfter.1 ha
    have hid : (sortAliases a').id = id := h id a' hget
    rw [mapBook, hid, hget]
    exact (hentries a').1 hin
  · intro he
    unfold mapBook at he
    cases hget : m.get id with
    | none =>
      rw [hget] at he
      cases he
    | some a' =>
      rw [hget] at he
      have hid : (sortAliases a').id = id := h id a' hget
      rw [← hid, book_of_mem (accountsAfter_ids h) (mem_accountsAfter.2 ⟨id, a', hget, rfl⟩)]
      exact (hentries a').2 he

end AccountMap

/-! ### When a run of imports is sound -/

/-- The first account in a run that one of its observations claims the alias for. -/
def firstToClaim (assigned : List (Observation × String)) (key : AliasKey) : Option String :=
  (assigned.find? fun p => ∃ a ∈ p.1.aliases, a.key = key).map Prod.snd

/-- Whenever the first account to claim a strong alias records it anew, no other account holds
it. -/
def Undisputed (current : ProviderAccountSnapshot) (assigned : List (Observation × String)) : Prop :=
  ∀ p ∈ assigned, ∀ a ∈ p.1.aliases, Strong a.key → firstToClaim assigned a.key = some p.2 →
    (∀ account ∈ current.accounts, account.id = p.2 → ¬account.Records p.1 a) →
      ∀ account ∈ current.accounts, account.Holds a.key → account.id = p.2

theorem firstClaimant_claims (assigned : List (Observation × String)) (key : AliasKey) :
    firstClaimant recordKey (assigned.flatMap claimsOf) key = firstToClaim assigned key := by
  induction assigned with
  | nil => rfl
  | cons p assigned ih =>
    unfold firstClaimant firstToClaim at ih ⊢
    rw [List.flatMap_cons, List.find?_append]
    by_cases hp : ∃ a ∈ p.1.aliases, a.key = key
    · rw [List.find?_cons_of_pos (by simpa using hp)]
      have hsome : ((claimsOf p).find? fun c => recordKey c.2 = key).isSome := by
        obtain ⟨a, ha, hkey⟩ := hp
        rw [List.find?_isSome]
        exact ⟨_, List.mem_map_of_mem ha, decide_eq_true hkey⟩
      obtain ⟨c, hc⟩ := Option.isSome_iff_exists.1 hsome
      obtain ⟨a, -, rfl⟩ := List.mem_map.1 (List.mem_of_find?_eq_some hc)
      rw [hc]
      rfl
    · rw [List.find?_cons_of_neg (by simpa using hp)]
      have hnone : ((claimsOf p).find? fun c => recordKey c.2 = key) = none := by
        rw [List.find?_eq_none]
        intro c hc hkey
        obtain ⟨a, ha, rfl⟩ := List.mem_map.1 hc
        exact hp ⟨a, ha, of_decide_eq_true hkey⟩
      rw [hnone, Option.none_or, ih]

theorem has_book_iff {accounts : List ProviderAccountEnrollment}
    (hids : (accounts.map ProviderAccountEnrollment.id).Nodup) {id : String} {r : Record} :
    Has (book accounts) id r ↔
      ∃ account ∈ accounts, account.id = id ∧ r ∈ account.entries.map Prod.fst := by
  constructor
  · rintro ⟨g, hg⟩
    obtain ⟨account, hmem, hid, hin⟩ := mem_book hg
    exact ⟨account, hmem, hid, List.mem_map_of_mem hin⟩
  · rintro ⟨account, hmem, rfl, hr⟩
    obtain ⟨⟨r, g⟩, hin, rfl⟩ := List.mem_map.1 hr
    exact ⟨g, by rwa [book_of_mem hids hmem]⟩

section Compose

variable {env : Env} {current : ProviderAccountSnapshot} {batches : List ImportBatch}
  {revision : ℕ} {nowMs : ℤ}

theorem enrolled_wellKeyed (hids : (current.accounts.map ProviderAccountEnrollment.id).Nodup) :
    WellKeyed (enrolled env current batches revision nowMs).accounts := by
  unfold enrolled
  exact WellKeyed.foldl_enroll (s := { accounts := accountMap current.accounts })
    (accountMap_wellKeyed hids) _

theorem enrolled_filed (hids : (current.accounts.map ProviderAccountEnrollment.id).Nodup) :
    Filed recordKey Strong (book current.accounts)
      (mapBook (enrolled env current batches revision nowMs).accounts)
      ((assignments env current batches).flatMap claimsOf) := by
  have hfold := @foldl_enroll_filed revision nowMs { accounts := accountMap current.accounts }
    (assignments env current batches)
  have hbook := congrArg Prod.fst hfold
  dsimp only at hbook
  rw [mapBook_accountMap hids] at hbook
  unfold enrolled
  rw [hbook]
  exact foldl_file _ _

/-- **A run of imports** keeps strong aliases exclusive exactly when it is undisputed. -/
theorem compose_exclusive_iff (hids : (current.accounts.map ProviderAccountEnrollment.id).Nodup)
    (hb : Exclusive recordKey Strong (book current.accounts)) :
    Exclusive recordKey Strong (book (compose env current batches revision nowMs).accounts) ↔
      Undisputed current (assignments env current batches) := by
  have hcongr := @exclusive_congr _ _ _ recordKey Strong _ _
    (mem_book_accountsAfter (@enrolled_wellKeyed env current batches revision nowMs
      hids))
  show Exclusive recordKey Strong (book (accountsAfter _)) ↔ _
  rw [hcongr, (enrolled_filed hids).exclusive_iff hb]
  simp only [firstClaimant_claims, has_book_iff hids, book_holds_iff hids]
  constructor
  · intro h p hp a ha hs hfirst hnew account hmem hholds
    refine h (p.2, (a.key, p.1.source, p.1.recordKey))
      (List.mem_flatMap.2 ⟨p, hp, List.mem_map_of_mem ha⟩) hs hfirst ?_ account.id
      ⟨account, hmem, rfl, hholds⟩
    rintro ⟨account', hmem', hid, hin⟩
    exact hnew account' hmem' hid (records_iff.2 hin)
  · rintro h c hc hs hfirst hnew j ⟨account, hmem, rfl, hholds⟩
    obtain ⟨p, hp, hc⟩ := List.mem_flatMap.1 hc
    obtain ⟨a, ha, rfl⟩ := List.mem_map.1 hc
    refine h p hp a ha hs hfirst (fun account' hmem' hid hrecords => ?_) account hmem hholds
    exact hnew ⟨account', hmem', hid, records_iff.1 hrecords⟩

theorem foldl_bindAlias_live {o : Observation} {id : String}
    {s : ProviderAccountEnrollment × (AliasKey → Option String) × List String}
    (h : ∀ b ∈ s.1.aliases, b.bindingState ≠ .superseded) (names : List NormalizedAlias) :
    ∀ b ∈ (names.foldl (bindAlias nowMs o id) s).1.aliases, b.bindingState ≠ .superseded := by
  induction names generalizing s with
  | nil => exact h
  | cons a names ih =>
    refine ih (s := bindAlias nowMs o id s a) ?_
    have hclaim : (claim s.2.1 id a).1 ≠ .superseded := by
      unfold claim
      split_ifs
      · split
        · split_ifs <;> exact fun hstate => by cases hstate
        · exact fun hstate => by cases hstate
      · exact fun hstate => by cases hstate
    rw [bindAlias_fst]
    split_ifs
    · exact h
    · intro b hb
      rcases List.mem_append.1 hb with hb | hb
      · exact h b hb
      · obtain rfl := List.mem_singleton.1 hb
        exact hclaim

theorem compose_live (hids : (current.accounts.map ProviderAccountEnrollment.id).Nodup)
    (h : Live current) : Live (compose env current batches revision nowMs) := by
  have hfold (s : Enrolling) (assigned : List (Observation × String))
      (hs : ∀ id a, s.accounts.get id = some a → ∀ b ∈ a.aliases, b.bindingState ≠ .superseded) :
      ∀ id a, (assigned.foldl (enroll revision nowMs) s).accounts.get id = some a →
        ∀ b ∈ a.aliases, b.bindingState ≠ .superseded := by
    induction assigned generalizing s with
    | nil => exact hs
    | cons p assigned ih =>
      refine ih (enroll revision nowMs s p) fun id a ha => ?_
      unfold enroll at ha
      dsimp only at ha
      rw [OrdMap.get_insert] at ha
      split_ifs at ha with hid
      · obtain rfl := Option.some.inj ha
        apply foldl_bindAlias_live
        intro b hb
        cases hget : s.accounts.get p.2 with
        | none =>
          rw [hget] at hb
          cases hb
        | some account =>
          rw [hget] at hb
          exact hs _ _ hget b hb
      · exact hs id a ha
  intro a ha b hb
  obtain ⟨id, a', hget, rfl⟩ := mem_accountsAfter.1 ha
  refine hfold _ _ (fun id a ha => ?_) id a' hget b ((sortAliases_perm a').mem_iff.1 hb)
  rw [accountMap_get hids] at ha
  exact h a (List.mem_of_find?_eq_some ha)

end Compose

/-! ### When a decision is sound -/

section Decisions

theorem find_updateFirst {f : ProviderAccountEnrollment → ProviderAccountEnrollment}
    (hf : ∀ a, (f a).id = a.id) (accounts : List ProviderAccountEnrollment) (k id : String) :
    (updateFirst (fun a => a.id = k) f accounts).find? (fun a => a.id = id) =
      if id = k then (accounts.find? fun a => a.id = k).map f
      else accounts.find? fun a => a.id = id := by
  induction accounts with
  | nil => split_ifs <;> rfl
  | cons a accounts ih =>
    unfold updateFirst
    by_cases hk : a.id = k
    · rw [if_pos (by simpa using hk)]
      by_cases hid : id = k
      · subst hid
        rw [List.find?_cons_of_pos (by simpa [hf] using hk), if_pos rfl,
          List.find?_cons_of_pos (by simpa using hk)]
        rfl
      · have hne : a.id ≠ id := fun heq => hid (heq.symm.trans hk)
        rw [List.find?_cons_of_neg (by simpa [hf] using hne), if_neg hid,
          List.find?_cons_of_neg (by simpa using hne)]
    · rw [if_neg (by simpa using hk), List.find?_cons, List.find?_cons, List.find?_cons, ih]
      by_cases hid : id = k
      · subst hid
        simp [hk]
      · simp [hid]

theorem mem_updateFirst {α : Type} {p : α → Bool} {f : α → α} {l : List α} {a : α}
    (h : a ∈ updateFirst p f l) : a ∈ l ∨ ∃ b ∈ l, p b = true ∧ a = f b := by
  induction l with
  | nil => cases h
  | cons b l ih =>
    unfold updateFirst at h
    split_ifs at h with hb
    · rcases List.mem_cons.1 h with rfl | h
      · exact Or.inr ⟨b, List.mem_cons_self, hb, rfl⟩
      · exact Or.inl (List.mem_cons_of_mem _ h)
    · rcases List.mem_cons.1 h with rfl | h
      · exact Or.inl List.mem_cons_self
      · rcases ih h with h | ⟨c, hc, hpc, rfl⟩
        · exact Or.inl (List.mem_cons_of_mem _ h)
        · exact Or.inr ⟨c, List.mem_cons_of_mem _ hc, hpc, rfl⟩

theorem map_id_updateFirst {f : ProviderAccountEnrollment → ProviderAccountEnrollment}
    (hf : ∀ a, (f a).id = a.id) (p : ProviderAccountEnrollment → Bool)
    (accounts : List ProviderAccountEnrollment) :
    (updateFirst p f accounts).map ProviderAccountEnrollment.id =
      accounts.map ProviderAccountEnrollment.id := by
  induction accounts with
  | nil => rfl
  | cons a accounts ih =>
    unfold updateFirst
    split_ifs
    · rw [List.map_cons, List.map_cons, hf]
    · rw [List.map_cons, List.map_cons, ih]

variable {s decided : ProviderAccountSnapshot} {source into : String}

theorem merge_eq_ok (h : merge s source into = .ok decided) :
    source ≠ into ∧ ∃ absorbed survivor,
      (s.accounts.find? fun a => a.id = source) = some absorbed ∧
      (s.accounts.find? fun a => a.id = into) = some survivor ∧
      decided = { s with
        accounts := updateFirst (fun a => a.id = source)
          (fun a => a.retire (s.revision + 1) into)
          (updateFirst (fun a => a.id = into)
            (fun a => a.absorb (s.revision + 1) absorbed.aliases) s.accounts)
        credentials := s.credentials.map fun c =>
          if c.accountId = source then { c with accountId := into } else c
        capacity := s.capacity.map fun c =>
          if c.accountId = source then { c with accountId := into } else c } := by
  unfold merge at h
  by_cases hne : source = into
  · rw [if_pos hne] at h
    cases h
  rw [if_neg hne] at h
  refine ⟨hne, ?_⟩
  cases hsource : s.accounts.find? fun a => a.id = source with
  | none =>
    rw [hsource] at h
    cases h
  | some absorbed =>
    rw [hsource] at h
    dsimp only at h
    cases hinto : s.accounts.find? fun a => a.id = into with
    | none =>
      rw [hinto] at h
      cases h
    | some survivor =>
      rw [hinto] at h
      exact ⟨absorbed, survivor, rfl, rfl, (Except.ok.inj h).symm⟩

theorem merge_absorbed (h : merge s source into = .ok decided) :
    Absorbed (book s.accounts) (book decided.accounts) source into := by
  obtain ⟨hne, absorbed, survivor, hsource, hinto, rfl⟩ := merge_eq_ok h
  have hbook (id : String) : book (updateFirst (fun a => a.id = source)
      (fun a => a.retire (s.revision + 1) into) (updateFirst (fun a => a.id = into)
        (fun a => a.absorb (s.revision + 1) absorbed.aliases) s.accounts)) id =
      if id = into then survivor.entries ++ (absorbed.aliases.map AliasBinding.rebound).map
        AliasBinding.entry else book s.accounts id := by
    unfold book
    rw [@find_updateFirst (fun a => a.retire (s.revision + 1) into) (fun _ => rfl),
      @find_updateFirst (fun a => a.absorb (s.revision + 1) absorbed.aliases) (fun _ => rfl),
      @find_updateFirst (fun a => a.absorb (s.revision + 1) absorbed.aliases) (fun _ => rfl),
      if_neg hne, hinto, hsource]
    by_cases hid : id = source
    · subst hid
      rw [if_pos rfl, if_neg hne, hsource]
      rfl
    · rw [if_neg hid]
      split_ifs
      · show ((survivor.absorb _ _).entries) = _
        unfold ProviderAccountEnrollment.entries
        exact List.map_append
      · rfl
  have hintoBook : book s.accounts into = survivor.entries := by
    rw [book, hinto]
    rfl
  have hsourceBook : book s.accounts source = absorbed.entries := by
    rw [book, hsource]
    rfl
  constructor
  · intro e
    rw [hbook, if_pos rfl, hintoBook, hsourceBook, List.mem_append, List.map_map, List.mem_map]
    refine or_congr_right ⟨?_, ?_⟩
    · rintro ⟨b, hb, rfl⟩
      exact ⟨b.entry, List.mem_map_of_mem hb, rfl⟩
    · rintro ⟨e', he', rfl⟩
      obtain ⟨b, hb, rfl⟩ := List.mem_map.1 he'
      exact ⟨b, hb, rfl⟩
  · intro id hid e
    rw [hbook, if_neg hid]

/-- No account but the survivor holds a strong alias that the other account has. -/
def Absorbable (s : ProviderAccountSnapshot) (source into : String) : Prop :=
  ∀ account ∈ s.accounts, account.id = source → ∀ b ∈ account.aliases, Strong b.key →
    ∀ other ∈ s.accounts, other.Holds b.key → other.id = into

/-- **A merge** keeps strong aliases exclusive exactly when nobody but the survivor holds them. -/
theorem merge_exclusive_iff (hids : (s.accounts.map ProviderAccountEnrollment.id).Nodup)
    (hb : Exclusive recordKey Strong (book s.accounts)) (h : merge s source into = .ok decided) :
    Exclusive recordKey Strong (book decided.accounts) ↔ Absorbable s source into := by
  rw [(merge_absorbed h).exclusive_iff hb]
  simp only [has_book_iff hids, book_holds_iff hids]
  constructor
  · intro hok account ha hid b hbin hs other hother hholds
    refine hok b.record ⟨account, ha, hid, ?_⟩ hs other.id ⟨other, hother, rfl, hholds⟩
    exact List.mem_map_of_mem (List.mem_map_of_mem (f := AliasBinding.entry) hbin)
  · rintro hok r ⟨account, ha, hid, hr⟩ hs j ⟨other, hother, rfl, hholds⟩
    obtain ⟨e, he, rfl⟩ := List.mem_map.1 hr
    obtain ⟨b, hbin, rfl⟩ := List.mem_map.1 he
    exact hok account ha hid b hbin hs other hother hholds

variable {env : Env} {nowMs : ℤ} {account binding : String}

theorem split_eq_ok (h : split env nowMs s account binding = .ok decided) :
    ∃ whole selected, (s.accounts.find? fun a => a.id = account) = some whole ∧
      (whole.aliases.find? fun b => bindingId env b = binding) = some selected ∧
      decided.accounts = updateFirst (fun a => a.id = account)
        (fun a => a.without selected) s.accounts ++ [splitAccount env (s.revision + 1) nowMs selected
          (whole.aliases.filter fun b => b.OfRecord selected)] := by
  unfold split at h
  cases hwhole : s.accounts.find? fun a => a.id = account with
  | none =>
    rw [hwhole] at h
    cases h
  | some whole =>
    rw [hwhole] at h
    dsimp only at h
    cases hselected : whole.aliases.find? fun b => bindingId env b = binding with
    | none =>
      rw [hselected] at h
      cases h
    | some selected =>
      rw [hselected] at h
      obtain rfl := Except.ok.inj h
      exact ⟨whole, selected, rfl, hselected, rfl⟩

/-- The record that a split takes away does not share a strong alias with the rest. -/
def Separable (env : Env) (s : ProviderAccountSnapshot) (account binding : String) : Prop :=
  ∀ whole ∈ s.accounts, whole.id = account → ∀ selected,
    (whole.aliases.find? fun b => bindingId env b = binding) = some selected →
      ∀ b ∈ whole.aliases, ∀ c ∈ whole.aliases, Strong b.key → b.key = c.key →
        b.bindingState = .bound → c.bindingState = .bound → b.OfRecord selected →
          c.OfRecord selected

/-- **A split** keeps strong aliases exclusive exactly when the part shares none with the rest. -/
theorem split_exclusive_iff (hids : (s.accounts.map ProviderAccountEnrollment.id).Nodup)
    (hids' : (decided.accounts.map ProviderAccountEnrollment.id).Nodup)
    (hb : Exclusive recordKey Strong (book s.accounts))
    (h : split env nowMs s account binding = .ok decided) :
    Exclusive recordKey Strong (book decided.accounts) ↔ Separable env s account binding := by
  obtain ⟨whole, selected, hwhole, hselected, haccounts⟩ := split_eq_ok h
  have hmem := List.mem_of_find?_eq_some hwhole
  have hid : whole.id = account := by simpa using List.find?_some hwhole
  have hwholeBook : book s.accounts account = whole.entries := by rw [← hid, book_of_mem hids hmem]
  revert haccounts
  generalize hpart : splitAccount env (s.revision + 1) nowMs selected
    (whole.aliases.filter fun b => b.OfRecord selected) = part
  intro haccounts
  have hpartAliases : part.aliases = whole.aliases.filter fun b => b.OfRecord selected := by
    rw [← hpart]
    rfl
  have hfresh : part.id ∉ s.accounts.map ProviderAccountEnrollment.id := by
    rw [haccounts, List.map_append, @map_id_updateFirst (fun a => a.without selected) (fun _ => rfl),
      List.nodup_append] at hids'
    exact fun hin => hids'.2.2 _ hin part.id (by simp) rfl
  have hnone : (s.accounts.find? fun a => a.id = part.id) = none := by
    rw [List.find?_eq_none]
    intro a ha hsame
    exact hfresh (List.mem_map.2 ⟨a, ha, of_decide_eq_true hsame⟩)
  have hne : part.id ≠ account := by
    rintro heq
    exact hfresh (heq ▸ hid ▸ List.mem_map_of_mem hmem)
  have hbook (id : String) : book decided.accounts id =
      if id = account then (whole.aliases.filter fun b => ¬b.OfRecord selected).map
        AliasBinding.entry
      else if id = part.id then part.entries else book s.accounts id := by
    unfold book
    rw [haccounts, List.find?_append,
      @find_updateFirst (fun a => a.without selected) (fun _ => rfl)]
    by_cases haccount : id = account
    · rw [if_pos haccount, if_pos haccount, hwhole]
      rfl
    · rw [if_neg haccount, if_neg haccount]
      by_cases hpart : id = part.id
      · subst hpart
        rw [hnone, if_pos rfl]
        simp
      · rw [if_neg hpart]
        have hlast : ([part].find? fun a => a.id = id) = none := by
          simpa using fun heq => hpart heq.symm
        rw [hlast, Option.or_none]
  have hrecord (b : AliasBinding) : b.OfRecord selected ↔
      b.record.2 = (selected.source, selected.sourceRecordKey) := by
    unfold AliasBinding.OfRecord AliasBinding.record
    rw [Prod.mk.injEq]
  have hdetached : Detached (book s.accounts) (book decided.accounts)
      (fun r => r.2 = (selected.source, selected.sourceRecordKey)) account part.id := by
    refine ⟨⟨hne, by rw [book, hnone]; rfl⟩, fun e => ?_, fun e => ?_, fun i hi hi' e => ?_⟩
    · rw [hbook, if_pos rfl, hwholeBook, List.mem_map]
      constructor
      · rintro ⟨b, hbin, rfl⟩
        obtain ⟨hbin, hnot⟩ := List.mem_filter.1 hbin
        exact ⟨List.mem_map_of_mem hbin, fun heq => absurd ((hrecord b).2 heq) (by simpa using hnot)⟩
      · rintro ⟨hin, hnot⟩
        obtain ⟨b, hbin, rfl⟩ := List.mem_map.1 hin
        refine ⟨b, List.mem_filter.2 ⟨hbin, ?_⟩, rfl⟩
        simpa using fun hof => hnot ((hrecord b).1 hof)
    · rw [hbook, if_neg hne, if_pos rfl, hwholeBook, ProviderAccountEnrollment.entries,
        hpartAliases, List.mem_map]
      constructor
      · rintro ⟨b, hbin, rfl⟩
        obtain ⟨hbin, hof⟩ := List.mem_filter.1 hbin
        exact ⟨List.mem_map_of_mem hbin, (hrecord b).1 (by simpa using hof)⟩
      · rintro ⟨hin, heq⟩
        obtain ⟨b, hbin, rfl⟩ := List.mem_map.1 hin
        refine ⟨b, List.mem_filter.2 ⟨hbin, ?_⟩, rfl⟩
        simpa using (hrecord b).2 heq
    · rw [hbook, if_neg hi, if_neg hi']
  rw [hdetached.exclusive_iff hb, hwholeBook]
  constructor
  · intro hok whole' hmem' hid' selected' hselected' b hbin c hcin hs hkey hbound hbound' hof
    obtain rfl : whole' = whole := List.inj_on_of_nodup_map hids hmem' hmem (hid'.trans hid.symm)
    obtain rfl := Option.some.inj (hselected'.symm.trans hselected)
    refine (hrecord c).2 (hok b.record c.record hs hkey ?_ ?_ ((hrecord b).1 hof))
    · refine List.mem_map.2 ⟨b, hbin, ?_⟩
      simp [AliasBinding.entry, hbound]
    · refine List.mem_map.2 ⟨c, hcin, ?_⟩
      simp [AliasBinding.entry, hbound']
  · intro hok r r' hs hkey hr hr' hof
    obtain ⟨b, hbin, hentry⟩ := List.mem_map.1 hr
    obtain ⟨c, hcin, hentry'⟩ := List.mem_map.1 hr'
    obtain ⟨rfl, hbound⟩ := Prod.mk.inj hentry
    obtain ⟨rfl, hbound'⟩ := Prod.mk.inj hentry'
    exact (hrecord c).1 (hok whole hmem hid selected hselected b hbin c hcin hs hkey
      (by simpa using hbound) (by simpa using hbound') ((hrecord b).2 hof))

end Decisions

section Live

variable {s decided : ProviderAccountSnapshot} {env : Env} {nowMs : ℤ}

theorem merge_live {source into : String} (h : merge s source into = .ok decided) (hs : Live s) :
    Live decided := by
  obtain ⟨-, absorbed, survivor, hsource, -, rfl⟩ := merge_eq_ok h
  intro a ha b hb
  -- the survivor's own aliases, and those that are bound anew
  have hinner {c : ProviderAccountEnrollment} (hc : c ∈ updateFirst (fun a => a.id = into)
      (fun a => a.absorb (s.revision + 1) absorbed.aliases) s.accounts)
      {b : AliasBinding} (hb : b ∈ c.aliases) : b.bindingState ≠ .superseded := by
    rcases mem_updateFirst hc with hold | ⟨c, hold, -, rfl⟩
    · exact hs c hold b hb
    · rcases List.mem_append.1 hb with hb | hb
      · exact hs c hold b hb
      · obtain ⟨b, -, rfl⟩ := List.mem_map.1 hb
        exact fun hstate => by cases hstate
  rcases mem_updateFirst ha with ha | ⟨c, hc, -, rfl⟩
  · exact hinner ha hb
  · exact hinner hc hb

theorem split_live {account binding : String} (h : split env nowMs s account binding = .ok decided)
    (hs : Live s) : Live decided := by
  obtain ⟨whole, selected, hwhole, -, haccounts⟩ := split_eq_ok h
  intro a ha b hb
  rw [haccounts] at ha
  rcases List.mem_append.1 ha with ha | ha
  · rcases mem_updateFirst ha with ha | ⟨c, hc, -, rfl⟩
    · exact hs a ha b hb
    · exact hs c hc b (List.mem_of_mem_filter hb)
  · obtain rfl := List.mem_singleton.1 ha
    exact hs whole (List.mem_of_find?_eq_some hwhole) b (List.mem_of_mem_filter hb)

theorem stamp_book (revision : ℕ) :
    book (AuthorityStore.stamp nowMs s revision).accounts = book s.accounts := by
  have hstamp (a : ProviderAccountEnrollment) :
      (if a.updatedRevision = revision then { a with updatedAtMs := nowMs } else a).id = a.id ∧
        (if a.updatedRevision = revision then
          { a with updatedAtMs := nowMs } else a).entries = a.entries := by
    split_ifs <;> exact ⟨rfl, rfl⟩
  funext id
  show ((List.find? _ (s.accounts.map _)).map _).getD [] = _
  rw [List.find?_map, Option.map_map]
  unfold book
  congr 2
  · funext a
    exact (hstamp a).2
  · congr 1
    funext a
    exact decide_eq_decide.2 (iff_of_eq (congrArg (fun i => i = id) (hstamp a).1))

theorem stamp_live (hs : Live s) (revision : ℕ) : Live (AuthorityStore.stamp nowMs s revision) := by
  intro a ha b hb
  obtain ⟨c, hc, rfl⟩ := List.mem_map.1 ha
  split_ifs at hb
  · exact hs c hc b hb
  · exact hs c hc b hb

theorem storable_ids (h : storable s = true) :
    (s.accounts.map ProviderAccountEnrollment.id).Nodup := by
  unfold storable at h
  simp only [Bool.and_eq_true, decide_eq_true_eq] at h
  exact h.1.1.1

end Live

/-! ### Runs -/

section Runs

variable {env : Env} {store store' : AuthorityStore}

theorem apply_eq_ok {plan : ReconcilePlan} (h : store.apply plan = .ok store') :
    storable plan.snapshot = true ∧
      store' = { latest := some { inputDigest := plan.digest, snapshot := plan.snapshot } } := by
  unfold AuthorityStore.apply at h
  split_ifs at h with hrevision hstorable
  exact ⟨hstorable, (Except.ok.inj h).symm⟩

theorem reconcile_eq_ok {batches : List ImportBatch} {nowMs : ℤ} {dryRun : Bool}
    (h : store.reconcile env batches nowMs dryRun = .ok store') : store' = store ∨
      ∃ digest, storable (compose env store.current batches (store.current.revision + 1) nowMs) ∧
        store' = ⟨some ⟨digest,
          compose env store.current batches (store.current.revision + 1) nowMs⟩⟩ := by
  unfold AuthorityStore.reconcile at h
  dsimp only at h
  split_ifs at h with hskip
  · exact Or.inl (Except.ok.inj h).symm
  · refine Or.inr ⟨inputDigest env batches, ?_⟩
    have hchanged :
        (build env batches nowMs store.current store.currentRevision.2).changed = true := by
      simp only [Bool.or_eq_true, Bool.not_eq_true', not_or] at hskip
      simpa using hskip.2
    have happly := apply_eq_ok h
    unfold build at hchanged happly
    dsimp only at hchanged happly
    split_ifs at hchanged happly
    exact happly

theorem adjudicate_eq_ok {command : AdjudicationCommand} {nowMs : ℤ}
    (h : store.adjudicate env command nowMs = .ok store') : ∃ row decided, store.latest = some row ∧
      AuthorityStore.carryOut env nowMs row.snapshot command = .ok decided ∧
      storable (AuthorityStore.stamp nowMs decided (row.snapshot.revision + 1)) = true ∧
      ∃ digest, store' = ⟨some ⟨digest,
        AuthorityStore.stamp nowMs decided (row.snapshot.revision + 1)⟩⟩ := by
  unfold AuthorityStore.adjudicate AuthorityStore.snapshot at h
  cases hlatest : store.latest with
  | none =>
    rw [hlatest] at h
    cases h
  | some row =>
    rw [hlatest] at h
    obtain ⟨snapshot, hsnapshot, h⟩ := bind_eq_ok_iff.1 h
    obtain rfl := Except.ok.inj hsnapshot
    split_ifs at h with hexpected
    obtain ⟨decided, hdecided, h⟩ := bind_eq_ok_iff.1 h
    obtain ⟨hstorable, hstore⟩ := apply_eq_ok h
    exact ⟨row, decided, rfl, hdecided, hstorable, _, hstore⟩

/-- The latest snapshot is sound and live. -/
def Guarded (store : AuthorityStore) : Prop :=
  ∀ row, store.latest = some row → Sound row.snapshot ∧ Live row.snapshot

/-- What a step that stores a snapshot must meet. -/
def Agrees (env : Env) (store : AuthorityStore) : Action → Prop
  | .reconcile batches _ _ => Undisputed store.current (assignments env store.current batches)
  | .adjudicate (.merge source into _) _ => ∀ row, store.latest = some row →
      Absorbable row.snapshot source into
  | .adjudicate (.split account binding _) _ => ∀ row, store.latest = some row →
      Separable env row.snapshot account binding

theorem Guarded.current (h : Guarded store) : Sound store.current ∧ Live store.current := by
  have hempty : Sound {} ∧ Live {} := by
    have hlive : Live {} := fun a ha => by cases ha
    refine ⟨(@sound_iff_exclusive {} List.nodup_nil hlive).2 ?_, hlive⟩
    rintro i j key - ⟨r, -, hr⟩ -
    cases hr
  unfold AuthorityStore.current
  cases hlatest : store.latest with
  | none => exact hempty
  | some row =>
    dsimp only
    split_ifs
    · exact hempty
    · exact h row hlatest

/-- A step that stores a snapshot stores a sound one exactly when it agrees. -/
theorem Guarded.submit (h : Guarded store) {action : Action}
    (hok : Enrollment.submit env store action = .ok store') (hne : store' ≠ store) :
    ∃ row, store'.latest = some row ∧ Live row.snapshot ∧
      (Sound row.snapshot ↔ Agrees env store action) := by
  cases action with
  | reconcile batches nowMs dryRun =>
    rcases reconcile_eq_ok hok with rfl | ⟨digest, hstorable, rfl⟩
    · exact absurd rfl hne
    · obtain ⟨hsound, hlive⟩ := h.current
      have hlive' := @compose_live env _ batches (store.current.revision + 1) nowMs hsound.ids
        hlive
      refine ⟨_, rfl, hlive', ?_⟩
      rw [sound_iff_exclusive (storable_ids hstorable) hlive']
      exact compose_exclusive_iff hsound.ids ((sound_iff_exclusive hsound.ids hlive).1 hsound)
  | adjudicate command nowMs =>
    obtain ⟨row, decided, hlatest, hdecided, hstorable, digest, rfl⟩ := adjudicate_eq_ok hok
    obtain ⟨hsound, hlive⟩ := h row hlatest
    have hexclusive := (sound_iff_exclusive hsound.ids hlive).1 hsound
    have hids : (decided.accounts.map ProviderAccountEnrollment.id).Nodup := by
      have hstamped := storable_ids hstorable
      unfold AuthorityStore.stamp at hstamped
      rw [List.map_map] at hstamped
      convert hstamped using 1
      refine List.map_congr_left fun a _ => ?_
      rw [Function.comp_apply]
      split_ifs <;> rfl
    have hrow (P : ProviderAccountSnapshot → Prop) :
        (∀ row', store.latest = some row' → P row'.snapshot) ↔ P row.snapshot :=
      ⟨fun hall => hall row hlatest, fun hP row' hrow' => by
        obtain rfl := Option.some.inj (hlatest.symm.trans hrow')
        exact hP⟩
    cases command with
    | merge source into expected =>
      have hlive' := @stamp_live _ nowMs (merge_live hdecided hlive)
        (row.snapshot.revision + 1)
      refine ⟨_, rfl, hlive', ?_⟩
      rw [sound_iff_exclusive (storable_ids hstorable) hlive', stamp_book,
        merge_exclusive_iff hsound.ids hexclusive hdecided]
      exact (hrow fun s => Absorbable s source into).symm
    | split account binding expected =>
      have hlive' := @stamp_live _ nowMs (split_live hdecided hlive)
        (row.snapshot.revision + 1)
      refine ⟨_, rfl, hlive', ?_⟩
      rw [sound_iff_exclusive (storable_ids hstorable) hlive', stamp_book,
        split_exclusive_iff hsound.ids hids hexclusive hdecided]
      exact (hrow fun s => Separable env s account binding).symm

theorem Guarded.next (h : Guarded store) (action : Action) :
    ((∀ row, (next env store action).latest = some row → Sound row.snapshot) ↔
      (next env store action ≠ store → Agrees env store action)) ∧
    ∀ row, (next env store action).latest = some row → Live row.snapshot := by
  cases hok : Enrollment.submit env store action with
  | error e =>
    rw [next_of_error hok]
    exact ⟨⟨fun _ hne => absurd rfl hne, fun _ row hrow => (h row hrow).1⟩,
      fun row hrow => (h row hrow).2⟩
  | ok store' =>
    rw [next_of_ok hok]
    by_cases hne : store' = store
    · subst hne
      exact ⟨⟨fun _ hne => absurd rfl hne, fun _ row hrow => (h row hrow).1⟩,
        fun row hrow => (h row hrow).2⟩
    · obtain ⟨row, hlatest, hlive, hiff⟩ := h.submit hok hne
      have hrow {row' : Revision} (hrow' : store'.latest = some row') : row' = row :=
        (Option.some.inj (hlatest.symm.trans hrow')).symm
      refine ⟨⟨fun hall _ => hiff.1 (hall row hlatest), fun hagrees row' hrow' => ?_⟩,
        fun row' hrow' => ?_⟩
      · rw [hrow hrow']
        exact hiff.2 (hagrees hne)
      · rw [hrow hrow']
        exact hlive

end Runs

/-- **Strong aliases belong to one account** in every stored snapshot exactly when every step that
stores one agrees. -/
theorem strong_aliases_iff (env : Env) (actions : List Action) :
    (∀ v ∈ Machine.visited (next env) {} actions, ∀ row,
        (next env v.1 v.2).latest = some row → Sound row.snapshot) ↔
      ∀ v ∈ Machine.visited (next env) {} actions, next env v.1 v.2 ≠ v.1 → Agrees env v.1 v.2 :=
  Machine.safe_steps_iff (J := Guarded) (fun _ action h => (h.next action).1)
    (fun _ action h hagrees row hrow =>
      ⟨(h.next action).1.2 hagrees row hrow, (h.next action).2 row hrow⟩)
    (fun row hrow => by cases hrow) actions

/-! ### A merge of two identities -/

def unhex : List Char → List UInt8
  | a :: b :: rest =>
      UInt8.ofNat ((if a ≤ '9' then a.toNat - 48 else a.toNat - 87) * 16 +
        (if b ≤ '9' then b.toNat - 48 else b.toNat - 87)) :: unhex rest
  | _ => []

def uuidA : String := "01234567-89ab-cdef-8123-456789abcdef"

def uuidB : String := "fedcba98-7654-4321-8123-fedcba987654"

def idText (uuid : String) : List UInt8 :=
  utf8 ("switchback-provider-account\x00openai\x00provider-alias/v1\x00" ++ uuid)

/-- The checksums that the run below takes. -/
def digests (bytes : List UInt8) : List UInt8 :=
  if bytes = idText uuidA then
    unhex "cda53fca49edd301251c6351e514430e97cdca290b7e56961915719df74e4308".toList
  else if bytes = idText uuidB then
    unhex "98a52f5a050140ba3debc90eb9a6a1d5a1a741697e3eef3071e7aa1da1a1d2dc".toList
  else unhex "53d2636bf2c58cc9beadc11f8819a3b2c09b38b9ed58fd170592802b160cc6c0".toList

def plainEnv : Env where
  sha256 := digests
  nfc := id
  toLowercase := id
  quote := fun s => "\"" ++ s ++ "\""

/-- A registry slot that is logged in to an account. -/
def slotOf (slot uuid : String) : Observation where
  source := .switchbackCodexRegistry
  recordKey := slot
  fingerprint := "f1"
  aliases := [{ scheme := .openAiAccountUuid, value := uuid, display := uuidDisplay uuid },
    { scheme := .label, value := slot, display := slot }]
  credential := some
    { accountId := ""
      pointer := .switchbackCodexRegistry slot
      credentialKind := .oAuth
      accessPresent := true
      refreshPresent := true
      idTokenPresent := true
      expiresAtMs := none
      sourceRevision := "f1"
      observedAtMs := 0
      readiness := .ready }
  capacity := []
  active := false
  runs := []

def registry : ImportBatch where
  source := .switchbackCodexRegistry
  fingerprint := some "f1"
  status := .ok
  detail := none
  observations := [slotOf "default" uuidA, slotOf "work" uuidB]

def idA : String := "pa_zwst7ssj5xjqcji4mni6kfcdb2"

def idB : String := "pa_tcss6wqfafalupplzehltjvb2w"

/-- After a merge both accounts hold the identity of the first. -/
theorem merge_shares_alias :
    ¬ ∀ (env : Env) (actions : List Action), ∀ v ∈ Machine.visited (next env) {} actions, ∀ row,
      (next env v.1 v.2).latest = some row → Sound row.snapshot := by
  intro h
  have hmerged := h plainEnv [.reconcile [registry] 0 false, .adjudicate (.merge idA idB 1) 0]
    (next plainEnv {} (.reconcile [registry] 0 false), .adjudicate (.merge idA idB 1) 0)
    (List.mem_cons_of_mem _ List.mem_cons_self)
  dsimp only at hmerged
  have hshared : ∃ row, (next plainEnv (next plainEnv {} (.reconcile [registry] 0 false))
      (.adjudicate (.merge idA idB 1) 0)).latest = some row ∧ ∃ a ∈ row.snapshot.accounts,
        ∃ c ∈ row.snapshot.accounts, a.Holds (.openAiAccountUuid, uuidA) ∧
          c.Holds (.openAiAccountUuid, uuidA) ∧ a ≠ c := by
    decide +kernel
  obtain ⟨row, hrow, a, ha, c, hc, hholds, hholds', hne⟩ := hshared
  exact hne ((hmerged row hrow).unique a ha c hc _ (by decide) hholds hholds')

end Enrollment

end Switchback
