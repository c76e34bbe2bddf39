import Switchback.Credentials.StrongAliases

/-!
# The survivor of a merge

A merge should hold: later runs of imports leave the retired account alone, and what identified it
goes to the survivor.
-/

namespace Switchback

namespace Enrollment

open Lib Claims

/-! ### Which account an alias picks -/

def IsIdentity (key : AliasKey) : Prop := key.1.strongIdentityProvider.isSome

theorem uuidAlias_identity {o : Observation} {uuid : NormalizedAlias}
    (h : uuidAlias o = some uuid) : IsIdentity uuid.key := by
  have hidentity : uuid.scheme.strongIdentityProvider.isSome := by simpa using List.find?_some h
  exact hidentity

section Owners

variable {accounts : List ProviderAccountEnrollment} {key : AliasKey}

/-- The accounts in the order of their ids. -/
def Ascending (accounts : List ProviderAccountEnrollment) : Prop :=
  accounts.Pairwise fun a c => a.id < c.id

theorem foldl_identity (hkey : IsIdentity key) (id : String) (aliases : List AliasBinding)
    (owners : AliasKey → Option String) :
    aliases.foldl (fun (owners : AliasKey → Option String) b =>
      if b.scheme.strongIdentityProvider.isSome && b.bindingState = .bound then
        Function.update owners b.key (some id) else owners) owners key =
      if ∃ b ∈ aliases, b.key = key ∧ b.bindingState = .bound then some id else owners key := by
  induction aliases generalizing owners with
  | nil => simp
  | cons b aliases ih =>
    rw [List.foldl_cons, ih]
    by_cases hrest : ∃ c ∈ aliases, c.key = key ∧ c.bindingState = .bound
    · obtain ⟨c, hc, hin⟩ := hrest
      rw [if_pos ⟨c, hc, hin⟩, if_pos ⟨c, List.mem_cons_of_mem _ hc, hin⟩]
    · rw [if_neg hrest]
      by_cases hb : b.key = key ∧ b.bindingState = .bound
      · obtain ⟨rfl, hbound⟩ := hb
        have hidentity : b.scheme.strongIdentityProvider.isSome := hkey
        have hin : ∃ c ∈ b :: aliases, c.key = b.key ∧ c.bindingState = .bound :=
          ⟨b, List.mem_cons_self, rfl, hbound⟩
        rw [if_pos hin, if_pos (by simp [hidentity, hbound]), Function.update_self]
      · have hnone : ¬∃ c ∈ b :: aliases, c.key = key ∧ c.bindingState = .bound := by
          rintro ⟨c, hc, hin⟩
          rcases List.mem_cons.1 hc with rfl | hc
          · exact hb hin
          · exact hrest ⟨c, hc, hin⟩
        rw [if_neg hnone]
        split_ifs with hbind
        · have hne : key ≠ b.key := by
            rintro rfl
            simp only [Bool.and_eq_true, decide_eq_true_eq] at hbind
            exact hb ⟨rfl, hbind.2⟩
          exact Function.update_of_ne hne _ _
        · rfl

theorem identityOwners_concat (hkey : IsIdentity key) (accounts : List ProviderAccountEnrollment)
    (c : ProviderAccountEnrollment) : identityOwners (accounts ++ [c]) key =
      if c.Holds key then some c.id else identityOwners accounts key := by
  unfold identityOwners
  rw [List.foldl_concat, foldl_identity hkey]
  rfl

theorem identityOwners_eq_some_iff (hkey : IsIdentity key) (hsorted : Ascending accounts)
    {id : String} : identityOwners accounts key = some id ↔
      (∃ a ∈ accounts, a.id = id ∧ a.Holds key) ∧ ∀ a ∈ accounts, a.Holds key → a.id ≤ id := by
  induction accounts using List.reverseRecOn with
  | nil =>
    constructor
    · exact fun h => by cases h
    · rintro ⟨⟨a, ha, -⟩, -⟩
      cases ha
  | append_singleton accounts c ih =>
    obtain ⟨hfront, -, hlast⟩ := List.pairwise_append.1 hsorted
    have hlt (a : ProviderAccountEnrollment) (ha : a ∈ accounts) : a.id < c.id :=
      hlast a ha c (List.mem_singleton_self c)
    rw [identityOwners_concat hkey]
    by_cases hc : c.Holds key
    · rw [if_pos hc, Option.some.injEq]
      constructor
      · rintro rfl
        refine ⟨⟨c, List.mem_append_right _ (List.mem_singleton_self c), rfl, hc⟩, fun a ha _ => ?_⟩
        rcases List.mem_append.1 ha with ha | ha
        · exact (hlt a ha).le
        · rw [List.mem_singleton.1 ha]
      · rintro ⟨⟨a, ha, rfl, -⟩, hall⟩
        rcases List.mem_append.1 ha with ha | ha
        · have hle := hall c (List.mem_append_right _ (List.mem_singleton_self c)) hc
          exact absurd (hlt a ha) (not_lt.2 hle)
        · rw [List.mem_singleton.1 ha]
    · rw [if_neg hc, ih hfront]
      have hmem {a : ProviderAccountEnrollment} (ha : a ∈ accounts ++ [c]) (hholds : a.Holds key) :
          a ∈ accounts := by
        rcases List.mem_append.1 ha with ha | ha
        · exact ha
        · obtain rfl := List.mem_singleton.1 ha
          exact absurd hholds hc
      constructor
      · rintro ⟨⟨a, ha, hid, hholds⟩, hall⟩
        exact ⟨⟨a, List.mem_append_left _ ha, hid, hholds⟩,
          fun a ha hholds => hall a (hmem ha hholds) hholds⟩
      · rintro ⟨⟨a, ha, hid, hholds⟩, hall⟩
        exact ⟨⟨a, hmem ha hholds, hid, hholds⟩,
          fun a ha hholds => hall a (List.mem_append_left _ ha) hholds⟩

theorem identityOwners_eq_none_iff (hkey : IsIdentity key) :
    identityOwners accounts key = none ↔ ∀ a ∈ accounts, ¬a.Holds key := by
  induction accounts using List.reverseRecOn with
  | nil => simp [identityOwners]
  | append_singleton accounts c ih =>
    rw [identityOwners_concat hkey]
    by_cases hc : c.Holds key
    · rw [if_pos hc]
      constructor
      · exact fun h => by cases h
      · exact fun hall => absurd hc (hall c (List.mem_append_right _ (List.mem_singleton_self c)))
    · rw [if_neg hc, ih, List.forall_mem_append]
      simp [hc]

theorem identityOwnersWith_eq (env : Env) (observations : List Observation)
    (owners : AliasKey → Option String) (key : AliasKey) :
    identityOwnersWith env observations owners key = (owners key).or
      ((observations.find? fun o => (uuidAlias o).map NormalizedAlias.key = some key).map fun o =>
        deterministicId env (observationProvider o) key.2) := by
  induction observations generalizing owners with
  | nil => simp [identityOwnersWith]
  | cons o observations ih =>
    unfold identityOwnersWith at ih ⊢
    rw [List.foldl_cons, ih]
    cases huuid : uuidAlias o with
    | none => rw [List.find?_cons_of_neg (by simp [huuid])]
    | some uuid =>
      dsimp only
      by_cases hkey : uuid.key = key
      · subst hkey
        rw [List.find?_cons_of_pos (by simp [huuid])]
        cases howner : owners uuid.key with
        | none => simp [NormalizedAlias.key]
        | some id => simp [howner]
      · rw [List.find?_cons_of_neg (by simp [huuid, hkey])]
        cases howner : owners uuid.key with
        | none =>
          dsimp only
          rw [Function.update_of_ne (Ne.symm hkey)]
        | some id => rfl

theorem findHolder_eq_some_iff (hsorted : Ascending accounts) {a : ProviderAccountEnrollment} :
    (accounts.find? fun a => a.Holds key) = some a ↔
      a ∈ accounts ∧ a.Holds key ∧ ∀ c ∈ accounts, c.Holds key → a.id ≤ c.id := by
  induction accounts with
  | nil => simp
  | cons c accounts ih =>
    obtain ⟨hlt, hrest⟩ := List.pairwise_cons.1 hsorted
    by_cases hc : c.Holds key
    · rw [List.find?_cons_of_pos (by simpa using hc), Option.some.injEq]
      constructor
      · rintro rfl
        refine ⟨List.mem_cons_self, hc, fun d hd _ => ?_⟩
        rcases List.mem_cons.1 hd with rfl | hd
        · exact le_rfl
        · exact (hlt d hd).le
      · rintro ⟨ha, -, hall⟩
        rcases List.mem_cons.1 ha with rfl | ha
        · rfl
        · exact absurd (hlt a ha) (not_lt.2 (hall c List.mem_cons_self hc))
    · rw [List.find?_cons_of_neg (by simpa using hc), ih hrest]
      constructor
      · rintro ⟨ha, hholds, hall⟩
        refine ⟨List.mem_cons_of_mem _ ha, hholds, fun d hd hdholds => ?_⟩
        rcases List.mem_cons.1 hd with rfl | hd
        · exact absurd hdholds hc
        · exact hall d hd hdholds
      · rintro ⟨ha, hholds, hall⟩
        rcases List.mem_cons.1 ha with rfl | ha
        · exact absurd hholds hc
        · exact ⟨ha, hholds, fun d hd => hall d (List.mem_cons_of_mem _ hd)⟩

end Owners

section Values

variable {accounts : List ProviderAccountEnrollment}

theorem mem_values (hids : (accounts.map ProviderAccountEnrollment.id).Nodup)
    {a : ProviderAccountEnrollment} : a ∈ values (accountMap accounts) ↔ a ∈ accounts := by
  unfold values
  rw [List.mem_map]
  constructor
  · rintro ⟨⟨id, a⟩, hmem, rfl⟩
    have hget := OrdMap.mem_entries_iff.1 hmem
    rw [accountMap_get hids] at hget
    exact List.mem_of_find?_eq_some hget
  · intro ha
    refine ⟨(a.id, a), OrdMap.mem_entries_iff.2 ?_, rfl⟩
    rw [accountMap_get hids, find_of_mem hids ha]

theorem values_ascending (hids : (accounts.map ProviderAccountEnrollment.id).Nodup) :
    Ascending (values (accountMap accounts)) := by
  have hkeyed (p : String × ProviderAccountEnrollment) (hp : p ∈ (accountMap accounts).entries) :
      p.2.id = p.1 := accountMap_wellKeyed hids p.1 p.2 (OrdMap.mem_entries_iff.1 hp)
  unfold Ascending values
  rw [List.pairwise_map]
  refine (accountMap accounts).sorted.imp_of_mem fun hp hq hlt => ?_
  rwa [hkeyed _ hp, hkeyed _ hq]

end Values

/-! ### Where observations go -/

/-- The first of the strong aliases that an account holds. -/
def firstHeld (accounts : List ProviderAccountEnrollment) (o : Observation) :
    Option NormalizedAlias :=
  (o.aliases.filter fun a => a.rank ≤ 3).find? fun n => ∃ a ∈ accounts, a.Holds n.key

theorem matchExisting_eq (o : Observation) (accounts : List ProviderAccountEnrollment) :
    matchExisting o accounts = (firstHeld accounts o).bind fun n =>
      (accounts.find? fun a => a.Holds n.key).map ProviderAccountEnrollment.id := by
  unfold matchExisting firstHeld
  induction o.aliases.filter fun a => a.rank ≤ 3 with
  | nil => rfl
  | cons n names ih =>
    rw [List.findSome?_cons, ih]
    by_cases hn : ∃ a ∈ accounts, a.Holds n.key
    · rw [List.find?_cons_of_pos (by simpa using hn)]
      have hsome : (accounts.find? fun a => a.Holds n.key).isSome := by
        rw [List.find?_isSome]
        obtain ⟨a, ha, hholds⟩ := hn
        exact ⟨a, ha, by simpa using hholds⟩
      obtain ⟨a, ha⟩ := Option.isSome_iff_exists.1 hsome
      rw [ha]
      simp [ha]
    · rw [List.find?_cons_of_neg (by simpa using hn)]
      have hnone : (accounts.find? fun a => a.Holds n.key) = none := by
        rw [List.find?_eq_none]
        intro a ha hholds
        exact hn ⟨a, ha, by simpa using hholds⟩
      rw [hnone]
      rfl

theorem firstHeld_held {accounts : List ProviderAccountEnrollment} {o : Observation}
    {n : NormalizedAlias} (h : firstHeld accounts o = some n) : ∃ a ∈ accounts, a.Holds n.key := by
  simpa using List.find?_some h

theorem firstHeld_congr {accounts accounts' : List ProviderAccountEnrollment}
    (h : ∀ a, a ∈ accounts ↔ a ∈ accounts') (o : Observation) :
    firstHeld accounts o = firstHeld accounts' o := by
  unfold firstHeld
  simp only [h]

def HeldBy (s : ProviderAccountSnapshot) (id : String) (key : AliasKey) : Prop :=
  ∃ a ∈ s.accounts, a.id = id ∧ a.Holds key

section Routes

variable {env : Env} {current : ProviderAccountSnapshot} {batches : List ImportBatch}

/-- The first observation of a run with this identity. -/
def firstWithIdentity (batches : List ImportBatch) (key : AliasKey) : Option Observation :=
  (observed batches).find? fun o => (uuidAlias o).map NormalizedAlias.key = some key

def route (env : Env) (current : ProviderAccountSnapshot) (batches : List ImportBatch)
    (o : Observation) : String :=
  assign env (values (accountMap current.accounts))
    (identityOwnersWith env (observed batches)
      (identityOwners (values (accountMap current.accounts)))) o

theorem mem_assignments {p : Observation × String} :
    p ∈ assignments env current batches ↔
      p.1 ∈ observed batches ∧ p.2 = route env current batches p.1 := by
  unfold assignments
  rw [List.mem_map]
  constructor
  · rintro ⟨o, ho, rfl⟩
    exact ⟨ho, rfl⟩
  · rintro ⟨ho, hroute⟩
    exact ⟨p.1, ho, Prod.ext rfl hroute.symm⟩

variable (hids : (current.accounts.map ProviderAccountEnrollment.id).Nodup)

variable {o : Observation}

include hids in
/-- An identity that is held goes to the greatest id that holds it. -/
theorem route_held {uuid : NormalizedAlias} (huuid : uuidAlias o = some uuid)
    (hheld : ∃ a ∈ current.accounts, a.Holds uuid.key) (id : String) :
    route env current batches o = id ↔ HeldBy current id uuid.key ∧
      ∀ a ∈ current.accounts, a.Holds uuid.key → a.id ≤ id := by
  have hkey := uuidAlias_identity huuid
  have hsome : (identityOwners (values (accountMap current.accounts)) uuid.key).isSome := by
    rw [← Option.ne_none_iff_isSome, Ne, identityOwners_eq_none_iff hkey]
    obtain ⟨a, ha, hholds⟩ := hheld
    exact fun hnone => hnone a ((mem_values hids).2 ha) hholds
  obtain ⟨owner, howner⟩ := Option.isSome_iff_exists.1 hsome
  have hroute : route env current batches o = owner := by
    unfold route assign
    simp only [huuid]
    rw [identityOwnersWith_eq, howner]
    rfl
  rw [hroute, ← Option.some.injEq, ← howner,
    identityOwners_eq_some_iff hkey (values_ascending hids)]
  unfold HeldBy
  simp only [mem_values hids]

include hids in
theorem route_minted {uuid : NormalizedAlias} (ho : o ∈ observed batches)
    (huuid : uuidAlias o = some uuid) (hheld : ∀ a ∈ current.accounts, ¬a.Holds uuid.key) :
    ∃ first, firstWithIdentity batches uuid.key = some first ∧
      route env current batches o =
        deterministicId env (observationProvider first) uuid.value := by
  have hsome : (firstWithIdentity batches uuid.key).isSome := by
    unfold firstWithIdentity
    rw [List.find?_isSome]
    exact ⟨o, ho, by simp [huuid]⟩
  obtain ⟨first, hfirst⟩ := Option.isSome_iff_exists.1 hsome
  refine ⟨first, hfirst, ?_⟩
  have hnone : identityOwners (values (accountMap current.accounts)) uuid.key = none := by
    rw [identityOwners_eq_none_iff (uuidAlias_identity huuid)]
    exact fun a ha => hheld a ((mem_values hids).1 ha)
  unfold firstWithIdentity at hfirst
  unfold route assign
  simp only [huuid]
  rw [identityOwnersWith_eq, hnone, hfirst]
  rfl

include hids in
theorem route_matched {n : NormalizedAlias} (huuid : uuidAlias o = none)
    (hn : firstHeld current.accounts o = some n) (id : String) :
    route env current batches o = id ↔ HeldBy current id n.key ∧
      ∀ a ∈ current.accounts, a.Holds n.key → id ≤ a.id := by
  have hsorted := values_ascending hids
  have hfirst : firstHeld (values (accountMap current.accounts)) o = some n := by
    rw [firstHeld_congr fun a => mem_values hids, hn]
  obtain ⟨a₀, ha₀, hholds₀⟩ := firstHeld_held hfirst
  have hsome : ((values (accountMap current.accounts)).find? fun a => a.Holds n.key).isSome := by
    rw [List.find?_isSome]
    exact ⟨a₀, ha₀, by simpa using hholds₀⟩
  obtain ⟨a, ha⟩ := Option.isSome_iff_exists.1 hsome
  have hroute : route env current batches o = a.id := by
    unfold route assign
    simp only [huuid]
    rw [matchExisting_eq, hfirst, Option.bind_some, ha]
    rfl
  obtain ⟨hmem, hholds, hleast⟩ := (findHolder_eq_some_iff hsorted).1 ha
  rw [hroute]
  constructor
  · rintro rfl
    exact ⟨⟨a, (mem_values hids).1 hmem, rfl, hholds⟩,
      fun c hc hcholds => hleast c ((mem_values hids).2 hc) hcholds⟩
  · rintro ⟨⟨c, hc, rfl, hcholds⟩, hall⟩
    exact le_antisymm (hleast c ((mem_values hids).2 hc) hcholds)
      (hall a ((mem_values hids).1 hmem) hholds)

include hids in
theorem route_anchored (huuid : uuidAlias o = none) (hn : firstHeld current.accounts o = none) :
    route env current batches o = deterministicId env (observationProvider o) (anchorOf o) := by
  have hfirst : firstHeld (values (accountMap current.accounts)) o = none := by
    rw [firstHeld_congr fun a => mem_values hids, hn]
  unfold route assign
  simp only [huuid]
  rw [matchExisting_eq, hfirst]
  rfl

end Routes

/-! ### What a run of imports does to credentials and capacity -/

section Assigned

theorem mem_foldl_putCredential {accounts : OrdMap String ProviderAccountEnrollment}
    {assigned : List (Observation × String)} {credentials : List CredentialMetadata}
    {c : CredentialMetadata} (h : c ∈ assigned.foldl (putCredential accounts) credentials) :
    c ∈ credentials ∨ ∃ p ∈ assigned, p.1.credential.isSome ∧ c.accountId = p.2 := by
  induction assigned generalizing credentials with
  | nil => exact Or.inl h
  | cons p assigned ih =>
    rcases ih h with h | ⟨q, hq, hin⟩
    · unfold putCredential at h
      cases hcredential : p.1.credential with
      | none =>
        rw [hcredential] at h
        exact Or.inl h
      | some credential =>
        rw [hcredential] at h
        rcases List.mem_append.1 h with h | h
        · exact Or.inl (List.mem_of_mem_filter h)
        · obtain rfl := List.mem_singleton.1 h
          exact Or.inr ⟨p, List.mem_cons_self, by rw [hcredential]; rfl, rfl⟩
    · exact Or.inr ⟨q, List.mem_cons_of_mem _ hq, hin⟩

variable {c : AccountCapacityHealth}

theorem mem_foldl_putCapacity {assigned : List (Observation × String)}
    {capacity : List AccountCapacityHealth}
    (h : c ∈ assigned.foldl putCapacity capacity) :
    c ∈ capacity ∨ ∃ p ∈ assigned, p.1.capacity ≠ [] ∧ c.accountId = p.2 := by
  induction assigned generalizing capacity with
  | nil => exact Or.inl h
  | cons p assigned ih =>
    rcases ih h with h | ⟨q, hq, hin⟩
    · rcases List.mem_append.1 h with h | h
      · exact Or.inl h
      · obtain ⟨health, hhealth, rfl⟩ := List.mem_map.1 h
        exact Or.inr ⟨p, List.mem_cons_self, List.ne_nil_of_mem hhealth, rfl⟩
    · exact Or.inr ⟨q, List.mem_cons_of_mem _ hq, hin⟩

theorem mem_flatten {capacity : List AccountCapacityHealth}
    (h : c ∈ flatten capacity) : ∃ health ∈ capacity, c.accountId = health.accountId := by
  obtain ⟨health, hhealth, hc⟩ := List.mem_flatMap.1 h
  obtain ⟨window, -, rfl⟩ := List.mem_map.1 hc
  exact ⟨health, hhealth, rfl⟩

theorem mem_retainEight {samples : List AccountCapacityHealth}
    (h : c ∈ retainEight samples) : c ∈ samples := by
  have hfold (s : List AccountCapacityHealth × (SampleKey → ℕ))
      (samples : List AccountCapacityHealth) (hc : c ∈ (samples.foldl (fun (s : List AccountCapacityHealth × (SampleKey → ℕ)) sample =>
        if 8 ≤ s.2 (sampleKey sample) then s
        else (s.1 ++ [sample],
          Function.update s.2 (sampleKey sample) (s.2 (sampleKey sample) + 1))) s).1) :
      c ∈ s.1 ∨ c ∈ samples := by
    induction samples generalizing s with
    | nil => exact Or.inl hc
    | cons sample samples ih =>
      rcases ih _ hc with hc | hc
      · dsimp only at hc
        split_ifs at hc
        · exact Or.inl hc
        · rcases List.mem_append.1 hc with hc | hc
          · exact Or.inl hc
          · exact Or.inr (List.mem_singleton.1 hc ▸ List.mem_cons_self)
      · exact Or.inr (List.mem_cons_of_mem _ hc)
  rcases hfold _ _ h with hc | hc
  · cases hc
  · exact hc

theorem mem_dedupBy {α : Type} {same : α → α → Bool} {l : List α} {a : α}
    (h : a ∈ dedupBy same l) : a ∈ l := by
  have hgo (last : α) (l : List α) (ha : a ∈ dedupBy.go same last l) : a ∈ l := by
    induction l generalizing last with
    | nil => cases ha
    | cons b l ih =>
      unfold dedupBy.go at ha
      split_ifs at ha
      · exact List.mem_cons_of_mem _ (ih last ha)
      · rcases List.mem_cons.1 ha with rfl | ha
        · exact List.mem_cons_self
        · exact List.mem_cons_of_mem _ (ih b ha)
  cases l with
  | nil => cases h
  | cons b l =>
    rcases List.mem_cons.1 h with rfl | h
    · exact List.mem_cons_self
    · exact List.mem_cons_of_mem _ (hgo b l h)

variable {env : Env} {current : ProviderAccountSnapshot} {batches : List ImportBatch}
  {revision : ℕ} {nowMs : ℤ}

/-- Does the observation bring a credential or a capacity sample? -/
def Carries (o : Observation) : Prop := o.credential.isSome ∨ o.capacity ≠ []

theorem mem_credentialsAfter {accounts : OrdMap String ProviderAccountEnrollment}
    {c : CredentialMetadata} (h : c ∈ credentialsAfter env current batches accounts) :
    c ∈ current.credentials ∨
      ∃ p ∈ assignments env current batches, Carries p.1 ∧ c.accountId = p.2 := by
  unfold credentialsAfter at h
  rcases mem_foldl_putCredential ((Runs.sortOn_perm _ _).mem_iff.1 h) with h | ⟨p, hp, hin, hid⟩
  · exact Or.inl (List.mem_of_mem_filter h)
  · exact Or.inr ⟨p, hp, Or.inl hin, hid⟩

theorem mem_capacityAfter (h : c ∈ capacityAfter env current batches) :
    (∃ health ∈ current.capacity, c.accountId = health.accountId) ∨
      ∃ p ∈ assignments env current batches, Carries p.1 ∧ c.accountId = p.2 := by
  unfold capacityAfter at h
  have hsample := mem_retainEight ((Runs.sortOn_perm _ _).mem_iff.1 (mem_dedupBy h))
  obtain ⟨health, hhealth, hid⟩ := mem_flatten ((Runs.sortOn_perm _ _).mem_iff.1 hsample)
  rcases mem_foldl_putCapacity hhealth with hhealth | ⟨p, hp, hin, hid'⟩
  · exact Or.inl ⟨health, hhealth, hid⟩
  · exact Or.inr ⟨p, hp, Or.inr hin, hid.trans hid'⟩

theorem foldl_bindAlias_state (o : Observation) (id : String)
    (s : ProviderAccountEnrollment × (AliasKey → Option String) × List String)
    (names : List NormalizedAlias) :
    (names.foldl (bindAlias nowMs o id) s).1.state = s.1.state := by
  induction names generalizing s with
  | nil => rfl
  | cons a names ih =>
    rw [List.foldl_cons, ih, bindAlias_fst]
    split_ifs <;> rfl

theorem compose_retired (hids : (current.accounts.map ProviderAccountEnrollment.id).Nodup)
    {id : String} (h : ∃ a ∈ current.accounts, a.id = id ∧ a.state = .retired) :
    ∃ a ∈ (compose env current batches revision nowMs).accounts,
      a.id = id ∧ a.state = .retired := by
  have hfold (s : Enrolling) (assigned : List (Observation × String))
      (hs : ∃ a, s.accounts.get id = some a ∧ a.state = .retired) :
      ∃ a, (assigned.foldl (enroll revision nowMs) s).accounts.get id = some a ∧
        a.state = .retired := by
    induction assigned generalizing s with
    | nil => exact hs
    | cons p assigned ih =>
      refine ih (enroll revision nowMs s p) ?_
      obtain ⟨a, ha, hstate⟩ := hs
      unfold enroll
      dsimp only
      rw [OrdMap.get_insert]
      split_ifs with hid
      · refine ⟨_, rfl, ?_⟩
        rw [foldl_bindAlias_state]
        subst hid
        rw [ha]
        unfold touch
        simp [hstate]
      · exact ⟨a, ha, hstate⟩
  obtain ⟨a, ha, rfl, hstate⟩ := h
  have hget : (accountMap current.accounts).get a.id = some a := by
    rw [accountMap_get hids, find_of_mem hids ha]
  obtain ⟨a', hget', hstate'⟩ := hfold { accounts := accountMap current.accounts }
    (assignments env current batches) ⟨a, hget, hstate⟩
  refine ⟨sortAliases a', mem_accountsAfter.2 ⟨a.id, a', hget', rfl⟩, ?_, hstate'⟩
  exact @enrolled_wellKeyed env current batches revision nowMs hids a.id a' hget'

theorem compose_holds (hids : (current.accounts.map ProviderAccountEnrollment.id).Nodup)
    {id : String} {key : AliasKey} (h : HeldBy current id key) :
    HeldBy (compose env current batches revision nowMs) id key := by
  have hkeyed := @enrolled_wellKeyed env current batches revision nowMs hids
  have hheld := (book_holds_iff hids).2 h
  have hfiled := hheld.mono ((@enrolled_filed env current batches revision nowMs hids).kept id)
  have hafter := hfiled.mono fun e he => (mem_book_accountsAfter hkeyed id e).2 he
  exact (book_holds_iff (accountsAfter_ids hkeyed)).1 hafter

end Assigned

/-! ### Runs of imports after a merge -/

structure ReconcileRun where
  batches : List ImportBatch
  nowMs : ℤ
  dryRun : Bool

def ReconcileRun.next (env : Env) (store : AuthorityStore) (run : ReconcileRun) : AuthorityStore :=
  Enrollment.next env store (.reconcile run.batches run.nowMs run.dryRun)

section Merged

variable (env : Env) (before : ProviderAccountSnapshot) (source into : String)

/-- A run of imports keeps to a merge. -/
structure Survives (store : AuthorityStore) (run : ReconcileRun) : Prop where
  retired : ∀ row, (run.next env store).latest = some row →
    ∃ a ∈ row.snapshot.accounts, a.id = source ∧ a.state = .retired
  credentials : ∀ row, (run.next env store).latest = some row →
    ∀ c ∈ row.snapshot.credentials, c.accountId ≠ source
  capacity : ∀ row, (run.next env store).latest = some row →
    ∀ c ∈ row.snapshot.capacity, c.accountId ≠ source
  unassigned : run.next env store ≠ store →
    ∀ p ∈ assignments env store.current run.batches, Carries p.1 → p.2 ≠ source
  moved : run.next env store ≠ store →
    ∀ p ∈ assignments env store.current run.batches, ∀ uuid, uuidAlias p.1 = some uuid →
      HeldBy before source uuid.key → p.2 = into
  unselected : ∀ query r, (run.next env store).resolve env query = .ok r → r.accountId ≠ source

/-- What a run of imports must meet to keep to a merge: ids are compared as texts. -/
structure Yields (current : ProviderAccountSnapshot) (batches : List ImportBatch) : Prop where
  identity : ∀ o ∈ observed batches, ∀ uuid, uuidAlias o = some uuid →
    HeldBy before source uuid.key → ∀ a ∈ current.accounts, a.Holds uuid.key → a.id ≤ into
  outranked : ∀ o ∈ observed batches, Carries o → ∀ uuid, uuidAlias o = some uuid →
    HeldBy current source uuid.key → ∃ a ∈ current.accounts, a.Holds uuid.key ∧ source < a.id
  minted : ∀ o ∈ observed batches, Carries o → ∀ uuid, uuidAlias o = some uuid →
    (∀ a ∈ current.accounts, ¬a.Holds uuid.key) → ∀ first,
      firstWithIdentity batches uuid.key = some first →
        deterministicId env (observationProvider first) uuid.value ≠ source
  matched : ∀ o ∈ observed batches, Carries o → uuidAlias o = none → ∀ n,
    firstHeld current.accounts o = some n → HeldBy current source n.key →
      ∃ a ∈ current.accounts, a.Holds n.key ∧ a.id < source
  anchored : ∀ o ∈ observed batches, Carries o → uuidAlias o = none →
    firstHeld current.accounts o = none →
      deterministicId env (observationProvider o) (anchorOf o) ≠ source

/-- What holds from a merge on. -/
structure Merged (s : ProviderAccountSnapshot) : Prop where
  ids : (s.accounts.map ProviderAccountEnrollment.id).Nodup
  revision : 0 < s.revision
  retired : ∃ a ∈ s.accounts, a.id = source ∧ a.state = .retired
  credentials : ∀ c ∈ s.credentials, c.accountId ≠ source
  capacity : ∀ c ∈ s.capacity, c.accountId ≠ source
  survivor : ∀ key, HeldBy before source key → HeldBy s into key

variable {env before source into}

theorem routes_iff {current : ProviderAccountSnapshot} {batches : List ImportBatch}
    (h : Merged before source into current) :
    ((∀ p ∈ assignments env current batches, Carries p.1 → p.2 ≠ source) ∧
      ∀ p ∈ assignments env current batches, ∀ uuid, uuidAlias p.1 = some uuid →
        HeldBy before source uuid.key → p.2 = into) ↔
      Yields env before source into current batches := by
  have hassigned {o : Observation} (ho : o ∈ observed batches) :
      (o, route env current batches o) ∈ assignments env current batches :=
    mem_assignments.2 ⟨ho, rfl⟩
  constructor
  · rintro ⟨hunassigned, hmoved⟩
    refine ⟨fun o ho uuid huuid hheld => ?_, fun o ho hcarries uuid huuid hheld => ?_,
      fun o ho hcarries uuid huuid hnone first hfirst => ?_,
      fun o ho hcarries huuid n hn hheld => ?_, fun o ho hcarries huuid hn => ?_⟩
    · obtain ⟨a, ha, -, hholds⟩ := h.survivor _ hheld
      exact ((route_held h.ids huuid ⟨a, ha, hholds⟩ into).1
        (hmoved _ (hassigned ho) uuid huuid hheld)).2
    · obtain ⟨a, ha, hid, hholds⟩ := hheld
      by_contra hnone
      refine hunassigned _ (hassigned ho) hcarries ((route_held h.ids huuid ⟨a, ha, hholds⟩
        source).2 ⟨⟨a, ha, hid, hholds⟩, fun c hc hcholds => ?_⟩)
      exact not_lt.1 fun hlt => hnone ⟨c, hc, hcholds, hlt⟩
    · obtain ⟨first', hfirst', hroute⟩ := @route_minted env _ _ h.ids _ _ ho huuid hnone
      obtain rfl := Option.some.inj (hfirst.symm.trans hfirst')
      rw [← hroute]
      exact hunassigned _ (hassigned ho) hcarries
    · by_contra hnone
      refine hunassigned _ (hassigned ho) hcarries ((route_matched h.ids huuid hn source).2
        ⟨hheld, fun c hc hcholds => ?_⟩)
      exact not_lt.1 fun hlt => hnone ⟨c, hc, hcholds, hlt⟩
    · rw [← route_anchored h.ids huuid hn]
      exact hunassigned _ (hassigned ho) hcarries
  · intro hyields
    constructor
    · rintro ⟨o, id⟩ hp hcarries rfl
      obtain ⟨ho, hroute⟩ := mem_assignments.1 hp
      dsimp only at ho hroute hcarries
      cases huuid : uuidAlias o with
      | some uuid =>
        by_cases hheld : ∃ a ∈ current.accounts, a.Holds uuid.key
        · obtain ⟨hsource, hall⟩ := (route_held h.ids huuid hheld _).1 hroute.symm
          obtain ⟨a, ha, hholds, hlt⟩ := hyields.outranked o ho hcarries uuid huuid hsource
          exact absurd hlt (not_lt.2 (hall a ha hholds))
        · have hnone : ∀ a ∈ current.accounts, ¬a.Holds uuid.key :=
            fun a ha hholds => hheld ⟨a, ha, hholds⟩
          obtain ⟨first, hfirst, hroute'⟩ := @route_minted env _ _ h.ids _ _ ho huuid hnone
          exact hyields.minted o ho hcarries uuid huuid hnone first hfirst
            (hroute'.symm.trans hroute.symm)
      | none =>
        cases hn : firstHeld current.accounts o with
        | some n =>
          obtain ⟨hsource, hall⟩ := (route_matched h.ids huuid hn _).1 hroute.symm
          obtain ⟨a, ha, hholds, hlt⟩ := hyields.matched o ho hcarries huuid n hn hsource
          exact absurd hlt (not_lt.2 (hall a ha hholds))
        | none =>
          exact hyields.anchored o ho hcarries huuid hn
            ((route_anchored h.ids huuid hn).symm.trans hroute.symm)
    · rintro ⟨o, id⟩ hp uuid huuid hheld
      obtain ⟨ho, hroute⟩ := mem_assignments.1 hp
      dsimp only at ho hroute huuid ⊢
      rw [hroute]
      obtain ⟨a, ha, hid, hholds⟩ := h.survivor _ hheld
      exact (route_held h.ids huuid ⟨a, ha, hholds⟩ into).2
        ⟨⟨a, ha, hid, hholds⟩, hyields.identity o ho uuid huuid hheld⟩

/-- A run that meets the condition leaves what holds from the merge on. -/
theorem Merged.compose {current : ProviderAccountSnapshot} {batches : List ImportBatch}
    {revision : ℕ} {nowMs : ℤ} (h : Merged before source into current) (hrevision : 0 < revision)
    (hunassigned : ∀ p ∈ assignments env current batches, Carries p.1 → p.2 ≠ source) :
    Merged before source into (Enrollment.compose env current batches revision nowMs) := by
  refine ⟨accountsAfter_ids (enrolled_wellKeyed h.ids), hrevision, compose_retired h.ids h.retired,
    fun c hc => ?_, fun c hc => ?_, fun key hkey => compose_holds h.ids (h.survivor key hkey)⟩
  · rcases mem_credentialsAfter hc with hc | ⟨p, hp, hcarries, hid⟩
    · exact h.credentials c hc
    · rw [hid]
      exact hunassigned p hp hcarries
  · rcases mem_capacityAfter hc with ⟨health, hhealth, hid⟩ | ⟨p, hp, hcarries, hid⟩
    · rw [hid]
      exact h.capacity health hhealth
    · rw [hid]
      exact hunassigned p hp hcarries

theorem Merged.unselected {s : ProviderAccountSnapshot} (h : Merged before source into s)
    {query : AccountResolutionQuery} {normalized : String} {r : AccountResolution}
    (hr : resolveIn query normalized s = .ok r) : r.accountId ≠ source := by
  unfold resolveIn at hr
  cases haccount : resolveAccount query normalized s.accounts with
  | none =>
    rw [haccount] at hr
    cases hr
  | some account =>
    rw [haccount] at hr
    dsimp only at hr
    split_ifs at hr with hstate hparked
    cases hcredential : resolveCredential query account.id s.credentials with
    | none =>
      rw [hcredential] at hr
      cases hr
    | some credential =>
      rw [hcredential] at hr
      obtain rfl := Except.ok.inj hr
      rintro hid
      obtain ⟨a, ha, haid, hretired⟩ := h.retired
      have hmem : account ∈ s.accounts := List.mem_of_find?_eq_some haccount
      obtain rfl := List.inj_on_of_nodup_map h.ids ha hmem (haid.trans hid.symm)
      rw [hretired] at hstate
      exact absurd hstate (by decide)

variable {store : AuthorityStore}

/-- What an accepted merge makes. -/
theorem Merged.start {merged : AuthorityStore} {row : Revision} {expected : ℕ} {nowMs : ℤ}
    (hlatest : store.latest = some row)
    (hids : (row.snapshot.accounts.map ProviderAccountEnrollment.id).Nodup)
    (h : submit env store (.adjudicate (.merge source into expected) nowMs) = .ok merged) :
    ∃ row', merged.latest = some row' ∧ Merged row.snapshot source into row'.snapshot := by
  obtain ⟨row₀, decided, hlatest₀, hdecided, hstorable, digest, rfl⟩ := adjudicate_eq_ok h
  obtain rfl := Option.some.inj (hlatest.symm.trans hlatest₀)
  have hmerge : merge row.snapshot source into = .ok decided := hdecided
  have habsorbed := merge_absorbed hmerge
  obtain ⟨hne, absorbed, survivor, hsource, hinto, rfl⟩ := merge_eq_ok hmerge
  refine ⟨_, rfl, storable_ids hstorable, Nat.succ_pos _, ?_, fun c hc => ?_, fun c hc => ?_,
    fun key hkey => ?_⟩
  · have hfind := @find_updateFirst (fun a => a.retire (row.snapshot.revision + 1) into)
      (fun _ => rfl) (updateFirst (fun a => a.id = into)
        (fun a => a.absorb (row.snapshot.revision + 1) absorbed.aliases) row.snapshot.accounts)
      source source
    rw [if_pos rfl, @find_updateFirst (fun a => a.absorb (row.snapshot.revision + 1)
      absorbed.aliases) (fun _ => rfl), if_neg hne, hsource] at hfind
    have hid : absorbed.id = source := by simpa using List.find?_some hsource
    refine ⟨_, List.mem_map_of_mem (List.mem_of_find?_eq_some hfind), ?_, ?_⟩
    · split_ifs <;> exact hid
    · split_ifs <;> rfl
  · obtain ⟨c, -, rfl⟩ := List.mem_map.1 hc
    split_ifs with hid
    · exact hne.symm
    · exact hid
  · obtain ⟨c, -, rfl⟩ := List.mem_map.1 hc
    split_ifs with hid
    · exact hne.symm
    · exact hid
  · obtain ⟨r, hr, hmem⟩ := (book_holds_iff hids).2 hkey
    refine (book_holds_iff (storable_ids hstorable)).1 ⟨r, hr, ?_⟩
    rw [stamp_book]
    exact (habsorbed.mem_into _).2 (Or.inr ⟨_, hmem, rfl⟩)

theorem resolve_eq_ok {query : AccountResolutionQuery}
    {r : AccountResolution} (h : store.resolve env query = .ok r) :
    ∃ row normalized, store.latest = some row ∧ resolveIn query normalized row.snapshot = .ok r := by
  unfold AuthorityStore.resolve AuthorityStore.snapshot at h
  cases hlatest : store.latest with
  | none =>
    rw [hlatest] at h
    cases h
  | some row =>
    rw [hlatest] at h
    obtain ⟨snapshot, hsnapshot, h⟩ := bind_eq_ok_iff.1 h
    obtain rfl := Except.ok.inj hsnapshot
    split_ifs at h with hexpected hprovider
    obtain ⟨normalized, -, h⟩ := bind_eq_ok_iff.1 h
    exact ⟨row, normalized.value, rfl, h⟩

/-- The latest snapshot is one from the merge on. -/
def After (before : ProviderAccountSnapshot) (source into : String) (store : AuthorityStore) : Prop :=
  ∃ row, store.latest = some row ∧ Merged before source into row.snapshot

theorem After.current (h : After before source into store) :
    Merged before source into store.current := by
  obtain ⟨row, hlatest, hmerged⟩ := h
  unfold AuthorityStore.current
  rw [hlatest]
  dsimp only
  rwa [if_neg hmerged.revision.ne']

/-- A run that stores nothing leaves the store; another one composes the next snapshot. -/
theorem ReconcileRun.next_cases (run : ReconcileRun) (store : AuthorityStore) :
    run.next env store = store ∨ ∃ digest, run.next env store = ⟨some ⟨digest,
      Enrollment.compose env store.current run.batches (store.current.revision + 1) run.nowMs⟩⟩ := by
  unfold ReconcileRun.next
  cases hok : submit env store (.reconcile run.batches run.nowMs run.dryRun) with
  | error e => exact Or.inl (next_of_error hok)
  | ok store' =>
    rw [next_of_ok hok]
    rcases reconcile_eq_ok hok with hsame | ⟨digest, -, hstore⟩
    · exact Or.inl hsame
    · exact Or.inr ⟨digest, hstore⟩

theorem After.survives {run : ReconcileRun} (h : After before source into (run.next env store))
    (hunassigned : run.next env store ≠ store →
      ∀ p ∈ assignments env store.current run.batches, Carries p.1 → p.2 ≠ source)
    (hmoved : run.next env store ≠ store →
      ∀ p ∈ assignments env store.current run.batches, ∀ uuid, uuidAlias p.1 = some uuid →
        HeldBy before source uuid.key → p.2 = into) :
    Survives env before source into store run := by
  obtain ⟨row, hlatest, hmerged⟩ := h
  have hrow {row' : Revision} (hrow' : (run.next env store).latest = some row') : row' = row :=
    (Option.some.inj (hlatest.symm.trans hrow')).symm
  refine ⟨fun row' hrow' => ?_, fun row' hrow' => ?_, fun row' hrow' => ?_, hunassigned, hmoved,
    fun query r hr => ?_⟩
  · rw [hrow hrow']
    exact hmerged.retired
  · rw [hrow hrow']
    exact hmerged.credentials
  · rw [hrow hrow']
    exact hmerged.capacity
  · obtain ⟨row', normalized, hrow', hresolve⟩ := resolve_eq_ok hr
    rw [hrow hrow'] at hresolve
    exact hmerged.unselected hresolve

/-- A run keeps to a merge exactly when it yields. -/
theorem After.next (h : After before source into store) (run : ReconcileRun) :
    (Survives env before source into store run ↔ (run.next env store ≠ store →
      Yields env before source into store.current run.batches)) ∧
    ((run.next env store ≠ store → Yields env before source into store.current run.batches) →
      After before source into (run.next env store)) := by
  have hroutes := @routes_iff env _ _ _ _ run.batches h.current
  have hafter (hyields : run.next env store ≠ store →
      Yields env before source into store.current run.batches) :
      After before source into (run.next env store) := by
    rcases run.next_cases store with hsame | ⟨digest, hnext⟩
    · rwa [hsame]
    · by_cases hne : run.next env store = store
      · rwa [hne]
      · rw [hnext]
        exact ⟨_, rfl, h.current.compose (Nat.succ_pos _) (hroutes.2 (hyields hne)).1⟩
  refine ⟨⟨fun hsurvives hne => hroutes.1 ⟨hsurvives.unassigned hne, hsurvives.moved hne⟩,
    fun hyields => (hafter hyields).survives (fun hne => (hroutes.2 (hyields hne)).1)
      fun hne => (hroutes.2 (hyields hne)).2⟩, hafter⟩

end Merged

theorem foldl_next_ids (env : Env) (actions : List Action) {row : Revision}
    (h : (actions.foldl (next env) {}).latest = some row) :
    (row.snapshot.accounts.map ProviderAccountEnrollment.id).Nodup := by
  induction actions using List.reverseRecOn generalizing row with
  | nil => cases h
  | append_singleton actions action ih =>
    rw [List.foldl_concat] at h
    cases hok : submit env (actions.foldl (next env) {}) action with
    | error e =>
      rw [next_of_error hok] at h
      exact ih h
    | ok store =>
      rw [next_of_ok hok] at h
      cases action with
      | reconcile batches nowMs dryRun =>
        rcases reconcile_eq_ok hok with rfl | ⟨digest, hstorable, rfl⟩
        · exact ih h
        · obtain rfl := Option.some.inj h
          exact storable_ids hstorable
      | adjudicate command nowMs =>
        obtain ⟨row₀, decided, -, -, hstorable, digest, rfl⟩ := adjudicate_eq_ok hok
        obtain rfl := Option.some.inj h
        exact storable_ids hstorable

/-- **A merge survives reconciliation** exactly when every run of imports that stores a snapshot
yields to it. -/
theorem merge_survives_iff (env : Env) (actions : List Action) (source into : String)
    (expected : ℕ) (nowMs : ℤ) (runs : List ReconcileRun) (row : Revision)
    (merged : AuthorityStore) (hlatest : (actions.foldl (next env) {}).latest = some row)
    (haccepted : submit env (actions.foldl (next env) {})
      (.adjudicate (.merge source into expected) nowMs) = .ok merged) :
    (∀ v ∈ Machine.visited (ReconcileRun.next env) merged runs,
        Survives env row.snapshot source into v.1 v.2) ↔
      ∀ v ∈ Machine.visited (ReconcileRun.next env) merged runs,
        v.2.next env v.1 ≠ v.1 → Yields env row.snapshot source into v.1.current v.2.batches :=
  Machine.safe_steps_iff (J := After row.snapshot source into) (fun _ run h => (h.next run).1)
    (fun _ run h hyields => (h.next run).2 hyields)
    (Merged.start hlatest (foldl_next_ids env actions hlatest) haccepted) runs

/-- Two accounts of the registry, before and after a merge. -/
def registryStore : AuthorityStore := next plainEnv {} (.reconcile [registry] 0 false)

def mergedStore : AuthorityStore := next plainEnv registryStore (.adjudicate (.merge idA idB 1) 0)

theorem foldl_registryStore :
    [Action.reconcile [registry] 0 false].foldl (next plainEnv) {} = registryStore := by
  rw [List.foldl_cons, List.foldl_nil, registryStore]

theorem registryStore_merged : registryStore.latest.isSome ∧
    submit plainEnv registryStore (.adjudicate (.merge idA idB 1) 0) = .ok mergedStore ∧
    ReconcileRun.next plainEnv mergedStore ⟨[registry], 1, false⟩ ≠ mergedStore ∧
    (slotOf "default" uuidA, idA) ∈ assignments plainEnv mergedStore.current [registry] := by
  decide +kernel

theorem merge_survives_registry : ∃ row, registryStore.latest = some row ∧
    ((∀ v ∈ Machine.visited (ReconcileRun.next plainEnv) mergedStore
        [⟨[registry], 1, false⟩], Survives plainEnv row.snapshot idA idB v.1 v.2) ↔
      ∀ v ∈ Machine.visited (ReconcileRun.next plainEnv) mergedStore
        [⟨[registry], 1, false⟩], v.2.next plainEnv v.1 ≠ v.1 →
          Yields plainEnv row.snapshot idA idB v.1.current v.2.batches) := by
  obtain ⟨hsome, hmerged, -⟩ := registryStore_merged
  obtain ⟨row, hrow⟩ := Option.isSome_iff_exists.1 hsome
  exact ⟨row, hrow, merge_survives_iff plainEnv [.reconcile [registry] 0 false] idA idB 1 0
    [⟨[registry], 1, false⟩] row mergedStore (by rw [foldl_registryStore, hrow])
    (by rw [foldl_registryStore, hmerged])⟩

/-- The retired account has the greater id, so the next run gives it its identity back. -/
theorem merge_undone :
    ¬ ∀ (env : Env) (actions : List Action) (source into : String) (expected : ℕ) (nowMs : ℤ)
      (runs : List ReconcileRun) (row : Revision) (merged : AuthorityStore),
      (actions.foldl (next env) {}).latest = some row →
      submit env (actions.foldl (next env) {}) (.adjudicate (.merge source into expected) nowMs) =
        .ok merged →
      ∀ v ∈ Machine.visited (ReconcileRun.next env) merged runs,
        Survives env row.snapshot source into v.1 v.2 := by
  intro h
  obtain ⟨hsome, hmerged, hstored, hassigned⟩ := registryStore_merged
  obtain ⟨row, hrow⟩ := Option.isSome_iff_exists.1 hsome
  have hsurvives := h plainEnv [.reconcile [registry] 0 false] idA idB 1 0
    [⟨[registry], 1, false⟩] row mergedStore (by rw [foldl_registryStore, hrow])
    (by rw [foldl_registryStore, hmerged]) (mergedStore, ⟨[registry], 1, false⟩)
    List.mem_cons_self
  dsimp only at hsurvives
  have hcarries : Carries (slotOf "default" uuidA) := Or.inl rfl
  exact hsurvives.unassigned hstored (slotOf "default" uuidA, idA) hassigned hcarries rfl

end Enrollment

end Switchback
