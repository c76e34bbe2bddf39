import Switchback.Lib.Keyed

/-!
# Tables with a primary key

A `KeyedLog` read as a table: the key is the primary key, so it is unique in every table that can
be built, and the statements below are the ones that a database runs on it.

What a statement does is said once, as what `find` returns afterwards.
-/

namespace Lib

namespace KeyedLog

variable {α κ : Type*} {key : α → κ}

theorem ext_rows {t u : KeyedLog key} (h : t.rows = u.rows) : t = u := by
  cases t; cases u; cases h; rfl

/-- `DELETE FROM t WHERE p`. -/
def deleteWhere (t : KeyedLog key) (p : α → Bool) : KeyedLog key where
  rows := t.rows.filter fun a => !p a
  unique := t.unique.sublist (List.filter_sublist.map key)

@[simp] theorem mem_deleteWhere {t : KeyedLog key} {p : α → Bool} {a : α} :
    a ∈ (t.deleteWhere p).rows ↔ a ∈ t.rows ∧ p a = false := by
  simp [deleteWhere]

theorem deleteWhere_deleteWhere (t : KeyedLog key) (p q : α → Bool) :
    (t.deleteWhere p).deleteWhere q = t.deleteWhere fun a => p a || q a := by
  refine ext_rows ?_
  simp [deleteWhere, List.filter_filter, Bool.and_comm]

theorem deleteWhere_congr {t : KeyedLog key} {p q : α → Bool} (h : ∀ a ∈ t.rows, p a = q a) :
    t.deleteWhere p = t.deleteWhere q :=
  ext_rows (List.filter_congr fun a ha => by rw [h a ha])

@[simp] theorem deleteWhere_false (t : KeyedLog key) : t.deleteWhere (fun _ => false) = t :=
  ext_rows (by simp [deleteWhere])

/-- `UPDATE t SET … WHERE p`, with the primary key kept. -/
def updateWhere (t : KeyedLog key) (p : α → Bool) (f : α → α) (hf : ∀ a, key (f a) = key a) :
    KeyedLog key where
  rows := t.rows.map fun a => if p a then f a else a
  unique := by
    have hkey : key ∘ (fun a => if p a then f a else a) = key := by
      funext a
      by_cases h : p a <;> simp [h, hf]
    rw [List.map_map, hkey]
    exact t.unique

section Update

variable {p : α → Bool} {f : α → α} {hf : ∀ a, key (f a) = key a}

@[simp] theorem mem_updateWhere {t : KeyedLog key} {b : α} :
    b ∈ (t.updateWhere p f hf).rows ↔ ∃ a ∈ t.rows, (if p a then f a else a) = b := by
  simp [updateWhere]

@[simp] theorem map_key_updateWhere (t : KeyedLog key) (p : α → Bool) (f : α → α)
    (hf : ∀ a, key (f a) = key a) :
    (t.updateWhere p f hf).rows.map key = t.rows.map key := by
  have hkey : key ∘ (fun a => if p a then f a else a) = key := by
    funext a
    by_cases h : p a <;> simp [h, hf]
  rw [updateWhere, List.map_map, hkey]

theorem updateWhere_eq_self {t : KeyedLog key} (h : ∀ a ∈ t.rows, p a = true → f a = a) :
    t.updateWhere p f hf = t := by
  refine ext_rows ?_
  rw [updateWhere]
  nth_rewrite 2 [← List.map_id t.rows]
  refine List.map_congr_left ?_
  intro a ha
  by_cases hp : p a = true
  · simp [hp, h a ha hp]
  · simp [hp]

end Update

section Find

variable [DecidableEq κ]

/-- The row with a key. -/
def find (t : KeyedLog key) (k : κ) : Option α := firstWith key k t.rows

theorem find_eq_some {t : KeyedLog key} {k : κ} {a : α} :
    t.find k = some a ↔ a ∈ t.rows ∧ key a = k := by
  constructor
  · exact fun h => firstWith_eq_some h
  · rintro ⟨ha, rfl⟩
    exact firstWith_of_mem t.unique ha

theorem find_eq_none {t : KeyedLog key} {k : κ} : t.find k = none ↔ k ∉ t.rows.map key :=
  firstWith_eq_none

theorem find_isSome {t : KeyedLog key} {k : κ} : (t.find k).isSome ↔ k ∈ t.rows.map key := by
  rw [← not_iff_not, Bool.not_eq_true, Option.isSome_eq_false_iff, Option.isNone_iff_eq_none,
    find_eq_none]

theorem mem_iff_find {t : KeyedLog key} {a : α} : a ∈ t.rows ↔ t.find (key a) = some a := by
  rw [find_eq_some]
  exact ⟨fun h => ⟨h, rfl⟩, fun h => h.1⟩

theorem filter_key (t : KeyedLog key) (k : κ) :
    (t.rows.filter fun a => key a = k) = (t.find k).toList := by
  have hlist (l : List α) (hl : (l.map key).Nodup) :
      (l.filter fun a => key a = k) = (firstWith key k l).toList := by
    induction l with
    | nil => rfl
    | cons a l ih =>
      rw [List.map_cons, List.nodup_cons] at hl
      rw [firstWith, List.filter_cons, List.find?_cons]
      by_cases ha : key a = k
      · have hrest : (l.filter fun b => key b = k) = [] := by
          rw [List.filter_eq_nil_iff]
          intro b hb hk
          rw [decide_eq_true_eq] at hk
          exact hl.1 (by rw [ha, ← hk]; exact List.mem_map_of_mem hb)
        simp [ha, hrest]
      · have hih := ih hl.2
        rw [firstWith] at hih
        simp [ha, hih]
  exact hlist t.rows t.unique

theorem eq_of_mem {t : KeyedLog key} {a b : α} (ha : a ∈ t.rows) (hb : b ∈ t.rows)
    (h : key a = key b) : a = b := by
  have hfind := mem_iff_find.1 ha
  rw [h, mem_iff_find.1 hb] at hfind
  exact (Option.some.inj hfind).symm

theorem find_updateWhere {p : α → Bool} {f : α → α} {hf : ∀ a, key (f a) = key a}
    (t : KeyedLog key) (k : κ) :
    (t.updateWhere p f hf).find k = (t.find k).map fun a => if p a then f a else a := by
  ext b
  rw [find_eq_some, mem_updateWhere, Option.map_eq_some_iff]
  constructor
  · rintro ⟨⟨a, ha, rfl⟩, rfl⟩
    refine ⟨a, ?_, rfl⟩
    rw [find_eq_some]
    refine ⟨ha, ?_⟩
    by_cases h : p a <;> simp [h, hf]
  · rintro ⟨a, ha, rfl⟩
    rw [find_eq_some] at ha
    refine ⟨⟨a, ha.1, rfl⟩, ?_⟩
    by_cases h : p a <;> simp [h, hf, ha.2]


/-! ### Insertions -/

/-- `INSERT INTO t`, refused where the key is taken. -/
def insertNew (t : KeyedLog key) (a : α) : Option (KeyedLog key) :=
  if key a ∈ t.rows.map key then none else some (t.insertOrIgnore a)

theorem find_insertOrIgnore (t : KeyedLog key) (a : α) (k : κ) :
    (t.insertOrIgnore a).find k = (t.find k).or (if k = key a then some a else none) := by
  rw [find, insertOrIgnore_rows]
  split_ifs with hin hk hk
  · subst hk
    obtain ⟨b, hb⟩ := Option.isSome_iff_exists.1 (find_isSome.2 hin)
    rw [hb]
    exact hb
  · simp [find]
  · rw [firstWith_append]
    simp [find, firstWith, hk]
  · rw [firstWith_append]
    simp [find, firstWith, Ne.symm hk]

theorem insertNew_eq_some {t u : KeyedLog key} {a : α} :
    t.insertNew a = some u ↔ t.find (key a) = none ∧ u = t.insertOrIgnore a := by
  rw [find_eq_none, insertNew]
  split_ifs with h
  · simp [h]
  · simp [h, eq_comm]

/-- `INSERT INTO t … ON CONFLICT DO UPDATE`: `merge` is applied to the row that has the key. -/
def upsert (t : KeyedLog key) (a : α) (merge : α → α) (hm : ∀ b, key (merge b) = key b) :
    KeyedLog key :=
  if key a ∈ t.rows.map key then t.updateWhere (fun b => key b = key a) merge hm
  else t.insertOrIgnore a

theorem find_upsert (t : KeyedLog key) (a : α) (merge : α → α) (hm : ∀ b, key (merge b) = key b)
    (k : κ) :
    (t.upsert a merge hm).find k =
      if k = key a then some ((t.find k).elim a merge) else t.find k := by
  rw [upsert]
  split_ifs with hin hk hk
  · subst hk
    obtain ⟨b, hb⟩ := Option.isSome_iff_exists.1 (find_isSome.2 hin)
    rw [find_updateWhere, hb]
    simp [(find_eq_some.1 hb).2]
  · rw [find_updateWhere]
    cases hb : t.find k with
    | none => rfl
    | some b =>
      have hkey : key b ≠ key a := (find_eq_some.1 hb).2 ▸ hk
      simp [hkey]
  · subst hk
    rw [find_insertOrIgnore, find_eq_none.2 hin]
    simp
  · rw [find_insertOrIgnore]
    simp [hk]

theorem upsert_upsert_self {t : KeyedLog key} {a : α} {merge : α → α}
    {hm : ∀ b, key (merge b) = key b} (hself : merge a = a) (hagain : ∀ b, merge (merge b) = merge b) :
    (t.upsert a merge hm).upsert a merge hm = t.upsert a merge hm := by
  have hin : key a ∈ (t.upsert a merge hm).rows.map key := by
    rw [← find_isSome, find_upsert, if_pos rfl]
    rfl
  rw [upsert, if_pos hin]
  refine updateWhere_eq_self ?_
  intro b hb hkey
  rw [decide_eq_true_eq] at hkey
  have hfind := mem_iff_find.1 hb
  rw [find_upsert, if_pos hkey, Option.some_inj] at hfind
  rw [← hfind]
  cases t.find (key b) with
  | none => exact hself
  | some old => exact hagain old

/-- `UPDATE t SET key = …` on the row with key `k`, refused where another row has the new key. -/
def moveKey (t : KeyedLog key) (k : κ) (f : α → α) : Option (KeyedLog key) :=
  match t.find k with
  | none => some t
  | some a =>
    if key (f a) = k then
      some ((t.deleteWhere fun b => key b = k).insertOrIgnore (f a))
    else if key (f a) ∈ t.rows.map key then none
    else some ((t.deleteWhere fun b => key b = k).insertOrIgnore (f a))

end Find

end KeyedLog

end Lib
