import Mathlib.Algebra.BigOperators.Group.Finset.Basic
import Mathlib.Algebra.Order.Ring.Int
import Mathlib.Data.Finset.Card
import Mathlib.Data.List.Find
import Mathlib.Data.List.Nodup

/-!
# Logs with unique keys

A log that ignores an entry whose key it already has, and what remains of "every key once" when
some entries go to a second log that has no keys.
-/

namespace Lib

/-- A list of entries with pairwise distinct keys. -/
structure KeyedLog {α κ : Type*} (key : α → κ) where
  rows : List α
  unique : (rows.map key).Nodup

namespace KeyedLog

variable {α κ : Type*} [DecidableEq κ] {key : α → κ}

/-- The empty log. -/
def empty : KeyedLog key := ⟨[], List.nodup_nil⟩

/-- Append an entry unless its key is present. -/
def insertOrIgnore (t : KeyedLog key) (a : α) : KeyedLog key :=
  if h : key a ∈ t.rows.map key then t
  else ⟨t.rows ++ [a], by
    rw [List.map_append, List.nodup_append]
    refine ⟨t.unique, by simp, ?_⟩
    rintro x hx y hy rfl
    rw [List.map_singleton, List.mem_singleton] at hy
    exact h (hy ▸ hx)⟩

theorem insertOrIgnore_rows (t : KeyedLog key) (a : α) :
    (t.insertOrIgnore a).rows = if key a ∈ t.rows.map key then t.rows else t.rows ++ [a] := by
  unfold insertOrIgnore
  split_ifs <;> rfl

theorem mem_foldl_insertOrIgnore {l : List α} {t : KeyedLog key} {a : α}
    (h : a ∈ (l.foldl insertOrIgnore t).rows) : a ∈ l ∨ a ∈ t.rows := by
  induction l generalizing t with
  | nil => exact Or.inr h
  | cons b l ih =>
    rcases ih h with h | h
    · exact Or.inl (List.mem_cons_of_mem _ h)
    · rw [insertOrIgnore_rows] at h
      split_ifs at h with hin
      · exact Or.inr h
      · rcases List.mem_append.1 h with h | h
        · exact Or.inr h
        · exact Or.inl (by simp [List.mem_singleton.1 h])

/-- Append an entry in place of the one with its key. -/
def insertOrReplace (t : KeyedLog key) (a : α) : KeyedLog key where
  rows := t.rows.filter (fun b => key b ≠ key a) ++ [a]
  unique := by
    rw [List.map_append, List.nodup_append]
    refine ⟨t.unique.sublist (List.filter_sublist.map key), by simp, ?_⟩
    rintro x hx y hy rfl
    rw [List.map_singleton, List.mem_singleton] at hy
    obtain ⟨b, hb, rfl⟩ := List.mem_map.1 hx
    simpa [hy] using (List.mem_filter.1 hb).2

end KeyedLog

section Keys

variable {α κ : Type*} [DecidableEq κ] (key : α → κ)

/-- The keys of a list. -/
def keys (l : List α) : Finset κ := (l.map key).toFinset

/-- The first entry with key `k`. -/
def firstWith (k : κ) (l : List α) : Option α := l.find? fun a => key a = k

variable {key}

theorem mem_keys {l : List α} {k : κ} : k ∈ keys key l ↔ ∃ a ∈ l, key a = k := by
  simp [keys]

theorem card_keys_le (l : List α) : (keys key l).card ≤ l.length := by
  simpa [keys] using List.toFinset_card_le (l.map key)

theorem card_keys_of_nodup {l : List α} (h : (l.map key).Nodup) :
    (keys key l).card = l.length := by
  rw [keys, List.toFinset_card_of_nodup h, List.length_map]

theorem nodup_of_card_keys {l : List α} (h : (keys key l).card = l.length) :
    (l.map key).Nodup := by
  rw [keys, List.card_toFinset] at h
  have hsub : (l.map key).dedup.Sublist (l.map key) := List.dedup_sublist _
  have heq := hsub.eq_of_length (by rw [h, List.length_map])
  rw [← heq]
  exact List.nodup_dedup _

theorem keys_filter_union (p : α → Bool) (l : List α) :
    keys key l = keys key (l.filter p) ∪ keys key (l.filter (fun a => !p a)) := by
  ext k
  simp only [mem_keys, Finset.mem_union, List.mem_filter]
  constructor
  · rintro ⟨a, ha, rfl⟩
    cases hp : p a with
    | true => exact Or.inl ⟨a, ⟨ha, hp⟩, rfl⟩
    | false => exact Or.inr ⟨a, ⟨ha, by simp [hp]⟩, rfl⟩
  · rintro (⟨a, ha, rfl⟩ | ⟨a, ha, rfl⟩) <;> exact ⟨a, ha.1, rfl⟩

/-- A list split in two parts, of which the first is counted by keys and the second by entries,
is counted by keys as a whole iff the second part repeats no key. -/
theorem card_keys_eq_iff (key : α → κ) (p : α → Bool) (l : List α) :
    (keys key (l.filter (fun a => !p a))).card + (l.filter p).length = (keys key l).card ↔
      ((l.filter p).map key).Nodup ∧
        ∀ a ∈ l, ∀ b ∈ l, p a = true → p b = false → key a ≠ key b := by
  have hunion : keys key l = _ := keys_filter_union p l
  have hcard := Finset.card_union_add_card_inter (keys key (l.filter p))
    (keys key (l.filter (fun a => !p a)))
  rw [← hunion] at hcard
  have hle : (keys key (l.filter p)).card ≤ _ := card_keys_le (l.filter p)
  have hdisj : (keys key (l.filter p) ∩ keys key (l.filter (fun a => !p a))).card = 0 ↔
      ∀ a ∈ l, ∀ b ∈ l, p a = true → p b = false → key a ≠ key b := by
    rw [Finset.card_eq_zero, Finset.eq_empty_iff_forall_notMem]
    simp only [Finset.mem_inter, mem_keys, List.mem_filter, not_and]
    constructor
    · intro h a ha b hb hpa hpb hab
      exact h (key a) ⟨a, ⟨ha, hpa⟩, rfl⟩ ⟨b, ⟨hb, by simp [hpb]⟩, hab.symm⟩
    · rintro h k ⟨a, ⟨ha, hpa⟩, rfl⟩ ⟨b, ⟨hb, hpb⟩, hab⟩
      exact h a ha b hb hpa (by simpa using hpb) hab.symm
  rw [← hdisj]
  constructor
  · intro h
    exact ⟨nodup_of_card_keys (by omega), by omega⟩
  · rintro ⟨hnodup, hzero⟩
    have := card_keys_of_nodup hnodup
    omega

theorem firstWith_isSome {k : κ} {l : List α} : (firstWith key k l).isSome ↔ k ∈ keys key l := by
  simp [firstWith, mem_keys]

theorem firstWith_eq_none {k : κ} {l : List α} : firstWith key k l = none ↔ k ∉ l.map key := by
  simp [firstWith]

theorem firstWith_eq_some {k : κ} {l : List α} {a : α} (h : firstWith key k l = some a) :
    a ∈ l ∧ key a = k :=
  ⟨List.mem_of_find?_eq_some h, by simpa using List.find?_some h⟩

theorem firstWith_of_mem {l : List α} (hl : (l.map key).Nodup) {a : α} (ha : a ∈ l) :
    firstWith key (key a) l = some a := by
  cases h : firstWith key (key a) l with
  | none => exact absurd (List.mem_map_of_mem ha) (firstWith_eq_none.1 h)
  | some b =>
    obtain ⟨hb, hkey⟩ := firstWith_eq_some h
    rw [List.inj_on_of_nodup_map hl hb ha hkey]

theorem firstWith_append (k : κ) (l m : List α) :
    firstWith key k (l ++ m) = (firstWith key k l).or (firstWith key k m) :=
  List.find?_append

theorem KeyedLog.firstWith_foldl (l : List α) (t : KeyedLog key) (k : κ) :
    firstWith key k (l.foldl KeyedLog.insertOrIgnore t).rows =
      (firstWith key k t.rows).or (firstWith key k l) := by
  induction l generalizing t with
  | nil => simp [firstWith]
  | cons a l ih =>
    rw [List.foldl_cons, ih, KeyedLog.insertOrIgnore_rows]
    split_ifs with h
    · have hsome : key a = k → (firstWith key k t.rows).isSome := by
        rintro rfl
        rw [firstWith_isSome]
        exact List.mem_toFinset.2 h
      by_cases hk : key a = k
      · obtain ⟨b, hb⟩ := Option.isSome_iff_exists.1 (hsome hk)
        simp [hb]
      · simp [firstWith, hk]
    · rw [firstWith_append, Option.or_assoc, ← firstWith_append, List.singleton_append]

theorem KeyedLog.firstWith_insertOrReplace (t : KeyedLog key) (a : α) (k : κ) :
    firstWith key k (t.insertOrReplace a).rows =
      if key a = k then some a else firstWith key k t.rows := by
  have hrows : (t.insertOrReplace a).rows = t.rows.filter (fun b => key b ≠ key a) ++ [a] := rfl
  have hold : firstWith key k (t.rows.filter fun b => key b ≠ key a) =
      if key a = k then none else firstWith key k t.rows := by
    split_ifs with hk
    · rw [firstWith_eq_none, ← hk]
      simp
    · rw [firstWith, firstWith, List.find?_filter]
      refine List.find?_congr fun b _ => ?_
      by_cases hb : key b = k
      · simp [hb, Ne.symm hk]
      · simp [hb]
  rw [hrows, firstWith_append, hold]
  split_ifs with hk <;> simp [firstWith, hk]

theorem KeyedLog.firstWith_foldl_insertOrReplace {l : List α} (hl : (l.map key).Nodup)
    (t : KeyedLog key) (k : κ) :
    firstWith key k (l.foldl KeyedLog.insertOrReplace t).rows =
      (firstWith key k l).or (firstWith key k t.rows) := by
  induction l generalizing t with
  | nil => rfl
  | cons a l ih =>
    rw [List.map_cons, List.nodup_cons] at hl
    rw [List.foldl_cons, ih hl.2, firstWith_insertOrReplace, ← List.singleton_append,
      firstWith_append]
    by_cases hk : key a = k
    · have hnone : firstWith key k l = none := firstWith_eq_none.2 (hk ▸ hl.1)
      rw [hnone, if_pos hk]
      simp [firstWith, hk]
    · simp [firstWith, hk]

/-! ### A row for each of some keys -/

section Rows

variable {f : κ → Option α} (hf : ∀ k a, f k = some a → key a = k)

include hf

omit [DecidableEq κ] in
theorem map_filterMap_sublist (l : List κ) : ((l.filterMap f).map key).Sublist l := by
  induction l with
  | nil => exact List.Sublist.refl _
  | cons k l ih =>
    cases hk : f k with
    | none =>
      rw [List.filterMap_cons_none hk]
      exact ih.cons k
    | some a =>
      rw [List.filterMap_cons_some hk, List.map_cons, hf k a hk]
      exact ih.cons_cons k

theorem firstWith_filterMap {l : List κ} (hl : l.Nodup) {k : κ} (hk : k ∈ l) :
    firstWith key k (l.filterMap f) = f k := by
  induction l with
  | nil => cases hk
  | cons k' l ih =>
    obtain ⟨hk', hl⟩ := List.nodup_cons.1 hl
    have hrest (h : k ∉ l) : firstWith key k (l.filterMap f) = none :=
      firstWith_eq_none.2 fun hmem => h ((map_filterMap_sublist hf l).subset hmem)
    rcases List.mem_cons.1 hk with rfl | hk
    · cases ha : f k with
      | none => rw [List.filterMap_cons_none ha, hrest hk']
      | some a =>
        rw [List.filterMap_cons_some ha]
        simp [firstWith, hf k a ha]
    · have hne : k' ≠ k := fun h => hk' (h ▸ hk)
      cases ha : f k' with
      | none => rw [List.filterMap_cons_none ha, ih hl hk]
      | some a =>
        rw [List.filterMap_cons_some ha, ← ih hl hk]
        simp [firstWith, hf k' a ha, hne]

end Rows

theorem sum_keys_of_nodup {l : List α} (h : (l.map key).Nodup) (w : α → ℕ) :
    ∑ k ∈ keys key l, ((firstWith key k l).map w).getD 0 = (l.map w).sum := by
  induction l with
  | nil => simp [keys]
  | cons a l ih =>
    obtain ⟨hnot, hl⟩ := List.nodup_cons.1 h
    have hk : keys key (a :: l) = insert (key a) (keys key l) := by simp [keys]
    rw [hk, Finset.sum_insert (by simpa [keys] using hnot), List.map_cons, List.sum_cons, ← ih hl]
    congr 1
    · simp [firstWith]
    · refine Finset.sum_congr rfl fun k hmem => ?_
      have : key a ≠ k := by
        rintro rfl
        obtain ⟨b, hb, hab⟩ := mem_keys.1 hmem
        exact hnot (List.mem_map.2 ⟨b, hb, hab⟩)
      simp [firstWith, this]

/-- When the second part repeats no key, a sum over the keys of the whole is the sum over the
keys of the first part and the entries of the second. -/
theorem sum_keys_eq (p : α → Bool) {l : List α} (w : α → ℕ)
    (hnodup : ((l.filter p).map key).Nodup)
    (hsep : ∀ a ∈ l, ∀ b ∈ l, p a = true → p b = false → key a ≠ key b) :
    ∑ k ∈ keys key l, ((firstWith key k l).map w).getD 0 =
      ∑ k ∈ keys key (l.filter (fun a => !p a)),
          ((firstWith key k (l.filter (fun a => !p a))).map w).getD 0 +
        ((l.filter p).map w).sum := by
  -- on either side of the split, the first entry of a key is on that side
  have first_eq (q : α → Bool) (k : κ) (h : ∀ a ∈ l, key a = k → q a = true) :
      firstWith key k l = firstWith key k (l.filter q) := by
    simp only [firstWith, List.find?_filter]
    refine List.find?_congr fun a ha => ?_
    by_cases hk : key a = k
    · simp [hk, h a ha hk]
    · simp [hk]
  have hdisj : Disjoint (keys key (l.filter (fun a => !p a))) (keys key (l.filter p)) := by
    refine Finset.disjoint_left.2 fun k hkb hka => ?_
    obtain ⟨a, ha, rfl⟩ := mem_keys.1 hka
    obtain ⟨b, hb, hab⟩ := mem_keys.1 hkb
    rw [List.mem_filter] at ha hb
    exact hsep a ha.1 b hb.1 ha.2 (by simpa using hb.2) hab.symm
  rw [keys_filter_union p l, Finset.union_comm, Finset.sum_union hdisj,
    ← sum_keys_of_nodup hnodup w]
  congr 1
  · refine Finset.sum_congr rfl fun k hk => ?_
    obtain ⟨b, hb, rfl⟩ := mem_keys.1 hk
    rw [List.mem_filter] at hb
    rw [first_eq (fun a => !p a) _ fun a ha hab => ?_]
    cases hp : p a with
    | false => rfl
    | true => exact absurd hab (hsep a ha b hb.1 hp (by simpa using hb.2))
  · refine Finset.sum_congr rfl fun k hk => ?_
    obtain ⟨a, ha, rfl⟩ := mem_keys.1 hk
    rw [List.mem_filter] at ha
    rw [first_eq p _ fun b hb hab => ?_]
    cases hp : p b with
    | true => rfl
    | false => exact absurd hab.symm (hsep a ha.1 b hb ha.2 hp)

end Keys

end Lib
