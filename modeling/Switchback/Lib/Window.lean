import Mathlib.Algebra.Order.Ring.Int
import Mathlib.Algebra.BigOperators.Group.List.Basic

/-!
# Rolling windows

A log of entries with times that do not decrease, and what is in a window of a fixed length.
-/

namespace Lib

namespace Window

variable {α : Type*} (time : α → ℤ)

/-- The entries from `w` on. -/
def since (w : ℤ) (l : List α) : List α := l.filter fun a => w ≤ time a

/-- The entries of the window of length `len` that starts at `w`. -/
def inWindow (len w : ℤ) (l : List α) : List α :=
  l.filter fun a => w ≤ time a && time a ≤ w + len

/-- What entries weigh together. -/
def weigh (weight : α → ℕ) (l : List α) : ℕ := (l.map weight).sum

/-- No window weighs more than `cap`. -/
def Capped (len : ℤ) (weight : α → ℕ) (cap : ℕ) (l : List α) : Prop :=
  ∀ w, weigh weight (inWindow time len w l) ≤ cap

/-- No two entries of one window share a key. -/
def Apart {κ : Type*} (len : ℤ) (key : α → κ) (l : List α) : Prop :=
  l.Pairwise fun a b => time b ≤ time a + len → key a ≠ key b

variable {time}

theorem weigh_append (weight : α → ℕ) (l m : List α) :
    weigh weight (l ++ m) = weigh weight l + weigh weight m := by
  simp [weigh]

theorem weigh_le_of_sublist {weight : α → ℕ} {l m : List α} (h : l.Sublist m) :
    weigh weight l ≤ weigh weight m := by
  induction h with
  | slnil => exact Nat.le_refl _
  | cons a _ ih => simp only [weigh, List.map_cons, List.sum_cons] at ih ⊢; omega
  | cons_cons a _ ih => simp only [weigh, List.map_cons, List.sum_cons] at ih ⊢; omega

theorem weigh_one (l : List α) : weigh (fun _ => 1) l = l.length := by
  simp [weigh]

theorem capped_nil (len : ℤ) (weight : α → ℕ) (cap : ℕ) : Capped time len weight cap [] :=
  fun _ => Nat.zero_le _

/-- **One more entry.**  The windows that hold the new entry start no earlier than the one that
ends with it. -/
theorem Capped.concat {len : ℤ} {weight : α → ℕ} {cap : ℕ} {l : List α}
    (h : Capped time len weight cap l) {a : α}
    (hroom : weigh weight (since time (time a - len) l) + weight a ≤ cap) :
    Capped time len weight cap (l ++ [a]) := by
  intro w
  have happend : inWindow time len w (l ++ [a]) =
      inWindow time len w l ++ inWindow time len w [a] := by
    simp [inWindow]
  rw [happend, weigh_append]
  by_cases ha : w ≤ time a ∧ time a ≤ w + len
  · have hone : inWindow time len w [a] = [a] := by simp [inWindow, ha.1, ha.2]
    have hsub : (inWindow time len w l).Sublist (since time (time a - len) l) := by
      apply List.monotone_filter_right
      intro x hx
      simp only [Bool.and_eq_true, decide_eq_true_eq] at hx ⊢
      omega
    have hle : weigh weight _ ≤ weigh weight _ := weigh_le_of_sublist hsub
    have hsingle : weigh weight [a] = weight a := by simp [weigh]
    rw [hone, hsingle]
    omega
  · have hnone : inWindow time len w [a] = [] := by
      simp only [inWindow, List.filter_eq_nil_iff]
      intro x hx
      obtain rfl := List.mem_singleton.mp hx
      simpa using ha
    have hw := h w
    rw [hnone]
    simpa [weigh] using hw

/-- An entry is apart from the others if its key is new among those of its window. -/
theorem Apart.concat {κ : Type*} {len : ℤ} {key : α → κ} {l : List α} (h : Apart time len key l)
    {a : α} (hnew : ∀ b ∈ since time (time a - len) l, key b ≠ key a) :
    Apart time len key (l ++ [a]) := by
  refine List.pairwise_append.mpr ⟨h, List.pairwise_singleton _ _, ?_⟩
  intro b hb c hc hle
  obtain rfl := List.mem_singleton.mp hc
  apply hnew b
  simp only [since, List.mem_filter, decide_eq_true_eq]
  exact ⟨hb, by omega⟩

/-! ### Keeping the newest entries -/

/-- `kept` are the newest entries of `l`, all of them or `n`. -/
def Tail (n : ℕ) (l kept : List α) : Prop :=
  ∃ old, l = old ++ kept ∧ (old = [] ∨ kept.length = n)

theorem tail_nil (n : ℕ) : Tail n ([] : List α) [] := ⟨[], rfl, .inl rfl⟩

/-- Append, then keep the newest. -/
theorem Tail.concat {n : ℕ} (hn : 0 < n) {l kept : List α} (h : Tail n l kept) (a : α) :
    Tail n (l ++ [a]) ((kept ++ [a]).drop ((kept ++ [a]).length - n)) := by
  obtain ⟨old, rfl, hfull⟩ := h
  refine ⟨old ++ (kept ++ [a]).take ((kept ++ [a]).length - n), ?_, ?_⟩
  · rw [List.append_assoc, List.append_assoc, List.take_append_drop]
  · by_cases hlen : (kept ++ [a]).length ≤ n
    · left
      have hzero : (kept ++ [a]).length - n = 0 := by omega
      rcases hfull with rfl | hfull
      · rw [hzero]
        rfl
      · simp only [List.length_append, List.length_singleton] at hlen
        omega
    · right
      rw [List.length_drop]
      omega

/-- **Nothing that counts was dropped.**  If fewer than `n` of the kept entries are from `w` on, all
entries from `w` on are kept. -/
theorem Tail.since_eq {n : ℕ} {l kept : List α} (h : Tail n l kept)
    (hsorted : l.Pairwise fun a b => time a ≤ time b) {w : ℤ}
    (hfew : (since time w kept).length < n) : since time w l = since time w kept := by
  obtain ⟨old, rfl, rfl | hfull⟩ := h
  · rfl
  · -- one of the kept entries is before `w`, so everything older is
    have hlt : (since time w kept).length < kept.length := by omega
    obtain ⟨b, hb, hbefore⟩ : ∃ b ∈ kept, ¬ w ≤ time b := by
      by_contra hall
      have hfilter : since time w kept = kept := by
        apply List.filter_eq_self.mpr
        intro b hb
        by_contra hb'
        exact hall ⟨b, hb, by simpa using hb'⟩
      rw [hfilter] at hlt
      omega
    have hold : since time w old = [] := by
      apply List.filter_eq_nil_iff.mpr
      intro a ha
      have hab := (List.pairwise_append.mp hsorted).2.2 a ha b hb
      simp only [decide_eq_true_eq]
      omega
    have happend : since time w (old ++ kept) = since time w old ++ since time w kept := by
      simp [since]
    rw [happend, hold, List.nil_append]

end Window

end Lib
