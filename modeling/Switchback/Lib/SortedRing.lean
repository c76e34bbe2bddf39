import Switchback.Lib.Runs

/-!
# Bounded sorted rings

A ring holds one entry for each name, sorted by a key, and gives up the least ones when it is full.
Two rings are compared that agree on the entries in `q` only.
-/

namespace Lib

namespace SortedRing

variable {α ν κ : Type*} [DecidableEq ν] [LinearOrder κ] {name : α → ν} {key : α → κ}

/-- Replace the first entry of the same name, or append. -/
def put (name : α → ν) (a : α) : List α → List α
  | [] => [a]
  | x :: l => if name x = name a then a :: l else x :: put name a l

/-- Pop from the front down to `cap` entries, and at least one. -/
def newest (cap : ℕ) (l : List α) : List α := l.drop (l.length - max cap 1)

def push (name : α → ν) (key : α → κ) (cap : ℕ) (l : List α) (a : α) : List α :=
  newest cap (Runs.sortOn key (put name a l))

/-! ### Names -/

/-- The entries of other names. -/
def others (name : α → ν) (a : α) (l : List α) : List α := l.filter fun x => name x ≠ name a

theorem others_eq_self {a : α} {l : List α} (h : name a ∉ l.map name) : others name a l = l := by
  refine List.filter_eq_self.2 fun x hx => ?_
  have hne : name x ≠ name a := fun heq => h (heq ▸ List.mem_map_of_mem hx)
  simpa using hne

theorem put_perm {l : List α} (h : (l.map name).Nodup) (a : α) :
    (put name a l).Perm (a :: others name a l) := by
  induction l with
  | nil => exact List.Perm.refl _
  | cons x l ih =>
    rw [List.map_cons, List.nodup_cons] at h
    unfold put
    by_cases hx : name x = name a
    · have hrest : others name a (x :: l) = l := by
        rw [others, List.filter_cons_of_neg (by simpa using hx)]
        exact others_eq_self (hx ▸ h.1)
      rw [if_pos hx, hrest]
    · have hrest : others name a (x :: l) = x :: others name a l :=
        List.filter_cons_of_pos (by simpa using hx)
      rw [if_neg hx, hrest]
      exact ((ih h.2).cons x).trans (List.Perm.swap a x _)

theorem put_nodup {l : List α} (h : (l.map name).Nodup) (a : α) :
    ((put name a l).map name).Nodup := by
  rw [((put_perm h a).map name).nodup_iff, List.map_cons, List.nodup_cons]
  refine ⟨fun hmem => ?_, (List.filter_sublist.map name).nodup h⟩
  obtain ⟨x, hx, heq⟩ := List.mem_map.1 hmem
  exact absurd heq (by simpa [others] using (List.mem_filter.1 hx).2)

theorem push_nodup {l : List α} (h : (l.map name).Nodup) (cap : ℕ) (a : α) :
    ((push name key cap l a).map name).Nodup := by
  have hsorted : ((Runs.sortOn key (put name a l)).map name).Nodup :=
    ((Runs.sortOn_perm key _).map name).nodup_iff.2 (put_nodup h a)
  exact ((List.drop_sublist _ _).map name).nodup hsorted

omit [DecidableEq ν] in
theorem filter_nodup {l : List α} (h : (l.map name).Nodup) (q : α → Bool) :
    ((l.filter q).map name).Nodup :=
  (List.filter_sublist.map name).nodup h

/-! ### The order -/

omit [DecidableEq ν] in
/-- Lists of different names with the same entries have the same sort. -/
theorem sortOn_congr (hkey : ∀ x y, key x = key y → name x = name y) {l l' : List α}
    (h : (l.map name).Nodup) (hperm : l.Perm l') : Runs.sortOn key l = Runs.sortOn key l' := by
  have hsame := ((Runs.sortOn_perm key l).trans hperm).trans (Runs.sortOn_perm key l').symm
  refine List.Perm.eq_of_pairwise ?_ (Runs.sortOn_sorted key l) (Runs.sortOn_sorted key l') hsame
  intro x y hx hy hxy hyx
  have hx' : x ∈ l := (Runs.sortOn_perm key l).mem_iff.1 hx
  have hy' : y ∈ l := hperm.mem_iff.2 ((Runs.sortOn_perm key l').mem_iff.1 hy)
  exact List.inj_on_of_nodup_map h hx' hy' (hkey x y (le_antisymm hxy hyx))

omit [DecidableEq ν] in
theorem filter_sortOn_comm (hkey : ∀ x y, key x = key y → name x = name y) {l : List α}
    (h : (l.map name).Nodup) (q : α → Bool) :
    (Runs.sortOn key l).filter q = Runs.sortOn key (l.filter q) := by
  have hperm : ((Runs.sortOn key l).filter q).Perm (l.filter q) :=
    (Runs.sortOn_perm key l).filter q
  have hnames : (((Runs.sortOn key l).filter q).map name).Nodup :=
    (hperm.map name).nodup_iff.2 (filter_nodup h q)
  rw [← sortOn_congr hkey hnames hperm]
  exact (Runs.sortOn_of_sorted ((Runs.sortOn_sorted key l).sublist List.filter_sublist)).symm

/-! ### Room -/

/-- What a list gives up is outside `q`, unless all that it keeps is in `q`. -/
def GivesUpFirst (q : α → Bool) (cap : ℕ) (l : List α) : Prop :=
  (∀ x ∈ l.take (l.length - max cap 1), q x = false) ∨ ∀ x ∈ newest cap l, q x = true

theorem length_newest_le (cap : ℕ) (l : List α) : (newest cap l).length ≤ max cap 1 := by
  rw [newest, List.length_drop]
  omega

theorem newest_of_length_le {cap : ℕ} {l : List α} (h : l.length ≤ max cap 1) :
    newest cap l = l := by
  rw [newest, Nat.sub_eq_zero_of_le h, List.drop_zero]

theorem filter_newest {q : α → Bool} {cap : ℕ} {l : List α} (h : GivesUpFirst q cap l) :
    (newest cap l).filter q = newest cap (l.filter q) := by
  have hsplit : (l.take (l.length - max cap 1)).filter q ++ (newest cap l).filter q =
      l.filter q := by
    rw [newest, ← List.filter_append, List.take_append_drop]
  rcases h with hout | hin
  · -- nothing in `q` is given up
    rw [List.filter_eq_nil_iff.2 fun x hx => by simp [hout x hx], List.nil_append] at hsplit
    rw [hsplit, newest_of_length_le]
    rw [← hsplit]
    exact (List.length_filter_le q _).trans (length_newest_le cap l)
  · rw [List.filter_eq_self.2 hin] at hsplit ⊢
    by_cases hroom : l.length ≤ max cap 1
    · rw [newest_of_length_le hroom] at hin ⊢
      rw [List.filter_eq_self.2 hin, newest_of_length_le hroom]
    · -- a full list keeps `cap` entries, and these are the last in `q`
      have hlen : (newest cap l).length = max cap 1 := by
        rw [newest, List.length_drop]
        omega
      conv_rhs => rw [← hsplit]
      rw [newest.eq_def cap (_ ++ _), List.length_append, hlen, Nat.add_sub_cancel]
      exact List.drop_left.symm

/-! ### One push -/

section Push

variable (hkey : ∀ x y, key x = key y → name x = name y) {q : α → Bool} {cap : ℕ} {a : α}

/-- Does a push give up what is outside `q` first? -/
def PushGivesUpFirst (name : α → ν) (key : α → κ) (q : α → Bool) (cap : ℕ) (l : List α) (a : α) :
    Prop :=
  GivesUpFirst q cap (Runs.sortOn key (put name a l))

include hkey

theorem filter_push {l : List α} (h : (l.map name).Nodup) (ha : q a = true)
    (hfirst : PushGivesUpFirst name key q cap l a) :
    (push name key cap l a).filter q =
      newest cap (Runs.sortOn key (a :: others name a (l.filter q))) := by
  rw [push, filter_newest hfirst, filter_sortOn_comm hkey (put_nodup h a)]
  have hperm := (put_perm h a).filter q
  rw [List.filter_cons_of_pos ha, others, List.filter_comm, ← others] at hperm
  rw [sortOn_congr hkey (filter_nodup (put_nodup h a) q) hperm]

/-- **Two rings that agree on `q` agree after the same push**, if both give up first what is
outside `q`. -/
theorem filter_push_eq {l l' : List α} (h : (l.map name).Nodup) (h' : (l'.map name).Nodup)
    (heq : l.filter q = l'.filter q) (ha : q a = true)
    (hfirst : PushGivesUpFirst name key q cap l a)
    (hfirst' : PushGivesUpFirst name key q cap l' a) :
    (push name key cap l a).filter q = (push name key cap l' a).filter q := by
  rw [filter_push hkey h ha hfirst, filter_push hkey h' ha hfirst', heq]

end Push

/-! ### A run of pushes -/

section Run

theorem put_of_new {l : List α} {a : α} (h : name a ∉ l.map name) : put name a l = l ++ [a] := by
  induction l with
  | nil => rfl
  | cons x l ih =>
    rw [List.map_cons, List.mem_cons, not_or] at h
    rw [put, if_neg (Ne.symm h.1), ih h.2, List.cons_append]

theorem newest_cons {cap : ℕ} {l : List α} (h : max cap 1 ≤ l.length) (x : α) :
    newest cap (x :: l) = newest cap l := by
  have hlen : (x :: l).length - max cap 1 = l.length - max cap 1 + 1 := by
    rw [List.length_cons]
    omega
  rw [newest, hlen, List.drop_succ_cons, newest]

theorem newest_orderedInsert_append {cap : ℕ} {old kept : List α}
    (hs : (old ++ kept).Pairwise fun a b => key a ≤ key b) (hlen : kept.length = max cap 1) (a : α) :
    newest cap ((old ++ kept).orderedInsert (fun a b => key a ≤ key b) a) =
      newest cap (kept.orderedInsert (fun a b => key a ≤ key b) a) := by
  induction old with
  | nil => rfl
  | cons x old ih =>
    rw [List.cons_append] at hs ⊢
    obtain ⟨hhead, htail⟩ := List.pairwise_cons.1 hs
    have hroom : max cap 1 ≤ (old ++ kept).length := by
      rw [List.length_append]
      omega
    by_cases ha : key a ≤ key x
    · -- the new entry precedes all that is kept
      have hkept : kept.orderedInsert (fun a b => key a ≤ key b) a = a :: kept := by
        cases kept with
        | nil => rfl
        | cons y kept =>
          have hy : key x ≤ key y := hhead y (List.mem_append_right _ List.mem_cons_self)
          rw [List.orderedInsert_cons, if_pos (ha.trans hy)]
      rw [List.orderedInsert_cons, if_pos ha, hkept,
        newest_cons (hroom.trans (Nat.le_succ _)), newest_cons hroom, newest_cons hlen.ge]
      rw [newest, newest, List.length_append, hlen, Nat.add_sub_cancel, Nat.sub_self,
        List.drop_zero, List.drop_left]
    · rw [List.orderedInsert_cons, if_neg ha, newest_cons, ih htail]
      rw [List.orderedInsert_length]
      exact hroom.trans (Nat.le_succ _)

theorem newest_orderedInsert {cap : ℕ} {l : List α}
    (hs : l.Pairwise fun a b => key a ≤ key b) (a : α) :
    newest cap ((newest cap l).orderedInsert (fun a b => key a ≤ key b) a) =
      newest cap (l.orderedInsert (fun a b => key a ≤ key b) a) := by
  by_cases hroom : l.length ≤ max cap 1
  · rw [newest_of_length_le hroom]
  · have hsplit : l.take (l.length - max cap 1) ++ newest cap l = l := List.take_append_drop _ _
    have hlen : (newest cap l).length = max cap 1 := by
      rw [newest, List.length_drop]
      omega
    rw [← hsplit] at hs
    rw [← newest_orderedInsert_append hs hlen a, hsplit]

variable (hkey : ∀ x y, key x = key y → name x = name y) {cap : ℕ}

include hkey

omit [DecidableEq ν] in
theorem newest_congr {l l' : List α} (h : (l.map name).Nodup) (hperm : l.Perm l') :
    newest cap (Runs.sortOn key l) = newest cap (Runs.sortOn key l') := by
  rw [sortOn_congr hkey h hperm]

theorem push_newest {l : List α} {a : α} (h : ((l ++ [a]).map name).Nodup) :
    push name key cap (newest cap (Runs.sortOn key l)) a =
      newest cap (Runs.sortOn key (l ++ [a])) := by
  have hsorted := Runs.sortOn_sorted key l
  have hkept : (newest cap (Runs.sortOn key l)).Pairwise fun a b => key a ≤ key b :=
    hsorted.sublist (List.drop_sublist _ _)
  have hswap {l : List α} : (l ++ [a]).Perm (a :: l) := List.perm_append_comm
  have hinsert {l : List α} : Runs.sortOn key (a :: l) =
      (Runs.sortOn key l).orderedInsert (fun a b => key a ≤ key b) a := rfl
  have hsub : ((newest cap (Runs.sortOn key l) ++ [a]).map name).Nodup := by
    have hperm : ((Runs.sortOn key l ++ [a]).map name).Perm ((l ++ [a]).map name) :=
      ((Runs.sortOn_perm key l).append_right [a]).map name
    exact (((List.drop_sublist _ _).append_right [a]).map name).nodup (hperm.nodup_iff.2 h)
  have hnew : name a ∉ (newest cap (Runs.sortOn key l)).map name := by
    rw [List.map_append, List.nodup_append] at hsub
    exact fun hmem => hsub.2.2 _ hmem _ (by simp) rfl
  rw [push, put_of_new hnew, sortOn_congr hkey hsub hswap, hinsert,
    Runs.sortOn_of_sorted hkept, newest_orderedInsert hsorted, ← hinsert,
    sortOn_congr hkey h hswap]

/-- **A run of pushes under different names keeps the newest of them all.** -/
theorem foldl_push_newest {old l : List α} (h : ((old ++ l).map name).Nodup) :
    l.foldl (push name key cap) (newest cap (Runs.sortOn key old)) =
      newest cap (Runs.sortOn key (old ++ l)) := by
  induction l generalizing old with
  | nil => rw [List.foldl_nil, List.append_nil]
  | cons a l ih =>
    rw [List.append_cons] at h
    have hfirst : ((old ++ [a]).map name).Nodup :=
      ((List.sublist_append_left _ _).map name).nodup h
    rw [List.foldl_cons, push_newest hkey hfirst, ih h, List.append_cons old a l]

theorem foldl_push {l : List α} (h : (l.map name).Nodup) :
    l.foldl (push name key cap) [] = newest cap (Runs.sortOn key l) := by
  have hnil : newest cap (Runs.sortOn key []) = ([] : List α) := List.drop_nil
  have hempty : (([] ++ l).map name).Nodup := h
  have hrun := @foldl_push_newest _ _ _ _ _ _ _ hkey cap [] l hempty
  rwa [hnil, List.nil_append] at hrun

end Run

end SortedRing

end Lib
