import Mathlib.Algebra.Order.Ring.Int
import Mathlib.Data.List.Basic
import Mathlib.Tactic.SplitIfs
import Mathlib.Tactic.Tauto

/-!
# Finite maps iterated in key order

A finite map as the list of its entries in strictly increasing key order.  The order is a field
of the structure, so two maps with the same entries are the same value and iteration needs no
further argument.
-/

namespace Lib

/-- A finite map: entries in strictly increasing key order. -/
structure OrdMap (κ ν : Type*) [LT κ] where
  entries : List (κ × ν)
  sorted : entries.Pairwise (fun a b => a.1 < b.1)

namespace OrdMap

section Basic

variable {κ ν : Type*} [LinearOrder κ]

instance [DecidableEq ν] : DecidableEq (OrdMap κ ν) := fun a b =>
  decidable_of_iff (a.entries = b.entries)
    ⟨fun h => by cases a; cases b; cases h; rfl, fun h => h ▸ rfl⟩

/-- The empty map. -/
def empty : OrdMap κ ν := ⟨[], List.Pairwise.nil⟩

instance : Inhabited (OrdMap κ ν) := ⟨empty⟩

/-- Lookup in an entry list. -/
def getList (k : κ) : List (κ × ν) → Option ν
  | [] => none
  | (k', v) :: l => if k = k' then some v else getList k l

/-- Sorted insertion; an existing key is overwritten. -/
def insertList (k : κ) (v : ν) : List (κ × ν) → List (κ × ν)
  | [] => [(k, v)]
  | (k', v') :: l =>
      if k < k' then (k, v) :: (k', v') :: l
      else if k = k' then (k, v) :: l
      else (k', v') :: insertList k v l

theorem mem_insertList {k : κ} {v : ν} {l : List (κ × ν)} {p : κ × ν}
    (h : p ∈ insertList k v l) : p = (k, v) ∨ p ∈ l := by
  induction l with
  | nil => simpa [insertList] using h
  | cons q l ih =>
    obtain ⟨k', v'⟩ := q
    simp only [insertList] at h
    split_ifs at h with h1 h2
    · simpa using h
    · rcases List.mem_cons.1 h with h | h
      · exact Or.inl h
      · exact Or.inr (List.mem_cons_of_mem _ h)
    · rcases List.mem_cons.1 h with h | h
      · exact Or.inr (by simp [h])
      · rcases ih h with h | h
        · exact Or.inl h
        · exact Or.inr (List.mem_cons_of_mem _ h)

theorem insertList_sorted (k : κ) (v : ν) {l : List (κ × ν)}
    (h : l.Pairwise (fun a b => a.1 < b.1)) :
    (insertList k v l).Pairwise (fun a b => a.1 < b.1) := by
  induction l with
  | nil => simp [insertList]
  | cons q l ih =>
    obtain ⟨k', v'⟩ := q
    obtain ⟨hq, hl⟩ := List.pairwise_cons.1 h
    simp only [insertList]
    split_ifs with h1 h2
    · refine List.pairwise_cons.2 ⟨fun p hp => ?_, h⟩
      rcases List.mem_cons.1 hp with rfl | hp
      · exact h1
      · exact lt_trans h1 (hq p hp)
    · subst h2
      exact List.pairwise_cons.2 ⟨hq, hl⟩
    · refine List.pairwise_cons.2 ⟨fun p hp => ?_, ih hl⟩
      rcases mem_insertList hp with rfl | hp
      · exact lt_of_le_of_ne (not_lt.1 h1) (Ne.symm h2)
      · exact hq p hp

/-- Lookup. -/
def get (m : OrdMap κ ν) (k : κ) : Option ν := getList k m.entries

/-- Insertion; an existing key is overwritten. -/
def insert (m : OrdMap κ ν) (k : κ) (v : ν) : OrdMap κ ν :=
  ⟨insertList k v m.entries, insertList_sorted k v m.sorted⟩

/-- The keys, in increasing order. -/
def keys (m : OrdMap κ ν) : List κ := m.entries.map Prod.fst

/-- Change the value of a key that is present. -/
def modify (m : OrdMap κ ν) (k : κ) (f : ν → ν) : OrdMap κ ν where
  entries := m.entries.map (fun p => if p.1 = k then (p.1, f p.2) else p)
  sorted := by
    refine List.pairwise_map.2 (m.sorted.imp fun {a b} hab => ?_)
    split_ifs <;> exact hab

/-- Change the value of a key, starting from `d` when the key is absent. -/
def update (m : OrdMap κ ν) (k : κ) (d : ν) (f : ν → ν) : OrdMap κ ν :=
  m.insert k (f ((m.get k).getD d))

/-- The map without a key. -/
def erase (m : OrdMap κ ν) (k : κ) : OrdMap κ ν where
  entries := m.entries.filter fun p => p.1 ≠ k
  sorted := m.sorted.filter _

/-- Collect a list of pairs; a later pair overwrites an earlier one. -/
def ofList (l : List (κ × ν)) : OrdMap κ ν := l.foldl (fun m p => m.insert p.1 p.2) empty

@[simp] theorem get_empty (k : κ) : (empty : OrdMap κ ν).get k = none := rfl

theorem getList_insertList (k k' : κ) (v : ν) (l : List (κ × ν)) :
    getList k' (insertList k v l) = if k' = k then some v else getList k' l := by
  induction l with
  | nil => rfl
  | cons q l ih =>
    obtain ⟨k₀, v₀⟩ := q
    simp only [insertList]
    split_ifs with h1 h2 h3 h4
    · simp [getList, h2]
    · simp [getList, h2]
    · subst h3 h4; simp [getList]
    · subst h3; simp [getList, h4]
    · rename_i hk
      subst hk
      simp [getList, ih, h3]
    · rename_i hk
      simp [getList, ih, hk]

@[simp] theorem get_insert (m : OrdMap κ ν) (k k' : κ) (v : ν) :
    (m.insert k v).get k' = if k' = k then some v else m.get k' :=
  getList_insertList k k' v m.entries

theorem get_update (m : OrdMap κ ν) (k k' : κ) (d : ν) (f : ν → ν) :
    (m.update k d f).get k' = if k' = k then some (f ((m.get k).getD d)) else m.get k' :=
  get_insert m k k' _

@[simp] theorem getD_update_self (m : OrdMap κ ν) (k : κ) (d : ν) (f : ν → ν) :
    ((m.update k d f).get k).getD d = f ((m.get k).getD d) := by
  simp [get_update]

theorem getD_update_of_ne (m : OrdMap κ ν) {k k' : κ} (h : k' ≠ k) (d : ν) (f : ν → ν) :
    ((m.update k d f).get k').getD d = (m.get k').getD d := by
  simp [get_update, h]

theorem getList_eq_none {k : κ} {l : List (κ × ν)} (h : k ∉ l.map Prod.fst) :
    getList k l = none := by
  induction l with
  | nil => rfl
  | cons q l ih =>
    rw [List.map_cons, List.mem_cons, not_or] at h
    rw [getList, if_neg h.1, ih h.2]

theorem getList_eq_find (k : κ) (l : List (κ × ν)) :
    getList k l = (l.find? fun p => p.1 = k).map Prod.snd := by
  induction l with
  | nil => rfl
  | cons q l ih =>
    by_cases h : k = q.1
    · simp [getList, h]
    · simp [getList, h, Ne.symm h, ih]

theorem get_foldl_insert (l : List (κ × ν)) (hl : (l.map Prod.fst).Nodup) (m : OrdMap κ ν)
    (k : κ) :
    (l.foldl (fun m p => m.insert p.1 p.2) m).get k = (getList k l).or (m.get k) := by
  induction l generalizing m with
  | nil => rfl
  | cons q l ih =>
    obtain ⟨hq, hl⟩ := List.nodup_cons.1 hl
    rw [List.foldl_cons, ih hl, get_insert]
    by_cases h : k = q.1
    · rw [h, getList_eq_none hq]
      simp [getList]
    · simp [getList, h]

theorem get_ofList {l : List (κ × ν)} (hl : (l.map Prod.fst).Nodup) (k : κ) :
    (ofList l).get k = getList k l := by
  simp [ofList, get_foldl_insert l hl]

theorem nodup_keys (m : OrdMap κ ν) : m.keys.Nodup :=
  List.pairwise_map.2 (m.sorted.imp fun h => ne_of_lt h)

theorem mem_keys_iff {m : OrdMap κ ν} {k : κ} : k ∈ m.keys ↔ (m.get k).isSome := by
  unfold keys get
  generalize m.entries = l
  induction l with
  | nil => simp [getList]
  | cons p l ih =>
    rw [List.map_cons, List.mem_cons, getList, ih]
    by_cases hk : k = p.1
    · simp [hk]
    · simp [hk]

theorem mem_keys_insert {m : OrdMap κ ν} {k k' : κ} {v : ν} :
    k' ∈ (m.insert k v).keys ↔ k' = k ∨ k' ∈ m.keys := by
  have key_iff (m : OrdMap κ ν) (k : κ) : k ∈ m.keys ↔ (m.get k).isSome := by
    constructor
    · intro h
      by_contra hn
      rw [get, getList_eq_find, Option.isSome_map, List.find?_isSome] at hn
      obtain ⟨p, hp, rfl⟩ := List.mem_map.1 h
      exact hn ⟨p, hp, by simp⟩
    · intro h
      by_contra hn
      rw [get, getList_eq_none hn] at h
      simp at h
  rw [key_iff, key_iff, get_insert]
  split_ifs with h <;> simp [h]

theorem mem_keys_ofList {l : List (κ × ν)} {k : κ} :
    k ∈ (ofList l).keys ↔ k ∈ l.map Prod.fst := by
  have h : ∀ (l : List (κ × ν)) (m : OrdMap κ ν),
      k ∈ (l.foldl (fun m p => m.insert p.1 p.2) m).keys ↔ k ∈ l.map Prod.fst ∨ k ∈ m.keys := by
    intro l
    induction l with
    | nil => simp
    | cons q l ih =>
      intro m
      rw [List.foldl_cons, ih, mem_keys_insert, List.map_cons, List.mem_cons]
      tauto
  rw [ofList, h]
  simp [keys, empty]

theorem getList_map_snd (k k' : κ) (f : ν → ν) (l : List (κ × ν)) :
    getList k' (l.map fun p => if p.1 = k then (p.1, f p.2) else p) =
      if k' = k then (getList k' l).map f else getList k' l := by
  induction l with
  | nil => simp [getList]
  | cons q l ih =>
    rw [List.map_cons]
    by_cases hq : q.1 = k
    · rw [if_pos hq, getList, getList, ih]
      by_cases hk : k' = q.1
      · rw [if_pos hk, if_pos hk, if_pos (hk.trans hq)]
        rfl
      · rw [if_neg hk, if_neg hk]
    · rw [if_neg hq, getList, getList, ih]
      by_cases hk : k' = q.1
      · rw [if_pos hk, if_pos hk, if_neg fun h => hq (hk.symm.trans h)]
      · rw [if_neg hk, if_neg hk]

@[simp] theorem get_modify (m : OrdMap κ ν) (k k' : κ) (f : ν → ν) :
    (m.modify k f).get k' = if k' = k then (m.get k').map f else m.get k' :=
  getList_map_snd k k' f m.entries

theorem getList_eq_none_of_lt {k : κ} {l : List (κ × ν)} (h : ∀ p ∈ l, k < p.1) :
    getList k l = none := by
  refine getList_eq_none fun hk => ?_
  obtain ⟨p, hp, hpk⟩ := List.mem_map.1 hk
  exact absurd (h p hp) (by rw [hpk]; exact lt_irrefl k)

theorem entries_eq_of_getList {l l' : List (κ × ν)} (hl : l.Pairwise (fun a b => a.1 < b.1))
    (hl' : l'.Pairwise (fun a b => a.1 < b.1)) (h : ∀ k, getList k l = getList k l') :
    l = l' := by
  induction l generalizing l' with
  | nil =>
    cases l' with
    | nil => rfl
    | cons q l' => exact absurd (h q.1) (by simp [getList])
  | cons p l ih =>
    cases l' with
    | nil => exact absurd (h p.1) (by simp [getList])
    | cons q l' =>
      obtain ⟨hp, hl⟩ := List.pairwise_cons.1 hl
      obtain ⟨hq, hl'⟩ := List.pairwise_cons.1 hl'
      -- the smaller of the two first keys is looked up on both sides
      have hkey : p.1 = q.1 := by
        rcases lt_trichotomy p.1 q.1 with hlt | heq | hgt
        · have hnone : getList p.1 (q :: l') = none := by
            refine getList_eq_none_of_lt fun r hr => ?_
            rcases List.mem_cons.1 hr with rfl | hr
            · exact hlt
            · exact lt_trans hlt (hq r hr)
          exact absurd (h p.1) (by rw [hnone, getList, if_pos rfl]; simp)
        · exact heq
        · have hnone : getList q.1 (p :: l) = none := by
            refine getList_eq_none_of_lt fun r hr => ?_
            rcases List.mem_cons.1 hr with rfl | hr
            · exact hgt
            · exact lt_trans hgt (hp r hr)
          exact absurd (h q.1) (by rw [hnone, getList, if_pos rfl]; simp)
      have hval : p.2 = q.2 := by
        have := h p.1
        rw [getList, if_pos rfl, getList, if_pos hkey] at this
        exact Option.some.inj this
      have htail : l = l' := by
        refine ih hl hl' fun k => ?_
        by_cases hk : k = p.1
        · rw [hk, getList_eq_none_of_lt hp, hkey, getList_eq_none_of_lt hq]
        · have := h k
          rwa [getList, if_neg hk, getList, if_neg (hkey ▸ hk)] at this
      rw [htail, Prod.ext hkey hval]

/-- A map is determined by its lookups. -/
theorem ext_get {m m' : OrdMap κ ν} (h : ∀ k, m.get k = m'.get k) : m = m' := by
  have hentries := entries_eq_of_getList m.sorted m'.sorted h
  cases m
  cases m'
  cases hentries
  rfl

theorem modify_insert_self (m : OrdMap κ ν) (k : κ) (v : ν) (f : ν → ν) :
    (m.insert k v).modify k f = m.insert k (f v) := by
  refine ext_get fun k' => ?_
  rw [get_modify, get_insert, get_insert]
  by_cases hk : k' = k
  · rw [if_pos hk, if_pos hk, if_pos hk]
    rfl
  · rw [if_neg hk, if_neg hk, if_neg hk]

theorem insertList_of_lt {k : κ} {l : List (κ × ν)} (h : ∀ p ∈ l, p.1 < k) (v : ν) :
    insertList k v l = l ++ [(k, v)] := by
  induction l with
  | nil => rfl
  | cons q l ih =>
    have hq := h q List.mem_cons_self
    rw [insertList, if_neg (not_lt.2 hq.le), if_neg (ne_of_gt hq),
      ih fun p hp => h p (List.mem_cons_of_mem q hp), List.cons_append]

theorem getList_filter (p : κ → Bool) (k : κ) (l : List (κ × ν)) :
    getList k (l.filter fun e => p e.1) = if p k then getList k l else none := by
  induction l with
  | nil => simp [getList]
  | cons q l ih =>
    obtain ⟨k', v⟩ := q
    by_cases hq : p k' = true
    · have hcons : ((k', v) :: l).filter (fun e => p e.1) =
          (k', v) :: l.filter fun e => p e.1 := List.filter_cons_of_pos hq
      rw [hcons, getList, getList, ih]
      by_cases hk : k = k'
      · simp [hk, hq]
      · simp [hk]
    · have hcons : ((k', v) :: l).filter (fun e => p e.1) = l.filter fun e => p e.1 :=
        List.filter_cons_of_neg hq
      rw [hcons, getList, ih]
      by_cases hk : k = k'
      · simp [hk, hq]
      · simp [hk]

theorem get_of_get_erase {m : OrdMap κ ν} {k k' : κ} {v : ν} (h : (m.erase k).get k' = some v) :
    m.get k' = some v := by
  have hfilter := getList_filter (fun q => decide (q ≠ k)) k' m.entries
  rw [get, erase, hfilter] at h
  split_ifs at h
  exact h

/-- Writing back the value a key has changes nothing. -/
theorem insert_eq_self {m : OrdMap κ ν} {k : κ} {v : ν} (h : m.get k = some v) :
    m.insert k v = m := by
  refine ext_get fun k' => ?_
  rw [get_insert]
  by_cases hk : k' = k
  · rw [if_pos hk, hk, h]
  · rw [if_neg hk]

theorem mem_entries_iff {m : OrdMap κ ν} {k : κ} {v : ν} :
    (k, v) ∈ m.entries ↔ m.get k = some v := by
  unfold get
  have hsorted := m.sorted
  generalize m.entries = l at hsorted
  induction l with
  | nil => simp [getList]
  | cons p l ih =>
    obtain ⟨hlt, hl⟩ := List.pairwise_cons.1 hsorted
    rw [List.mem_cons, getList]
    split_ifs with hk
    · -- no later entry has the key
      constructor
      · rintro (rfl | hmem)
        · rfl
        · exact absurd (hlt _ hmem) (by simp [hk])
      · intro h
        obtain rfl := Option.some.inj h
        exact Or.inl (by rw [hk])
    · have hrest := ih hl
      constructor
      · rintro (rfl | hmem)
        · exact absurd rfl hk
        · exact hrest.1 hmem
      · exact fun h => Or.inr (hrest.2 h)

end Basic

end OrdMap

end Lib
