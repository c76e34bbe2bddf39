import Mathlib.Data.List.Induction
import Switchback.Lib.Text

/-!
# Splitting texts

Where `splitOnce` and `rsplitOnce` cut a text that is put together from parts.
-/

namespace Lib

namespace Text

theorem stripPrefixList_append_self (p rest : List Char) :
    stripPrefixList p (p ++ rest) = some rest := by
  induction p with
  | nil => rfl
  | cons c p ih => simpa [stripPrefixList] using ih

/-- A literal is stripped exactly from the texts that begin with it. -/
theorem stripPrefixList_eq_some_iff {p l rest : List Char} :
    stripPrefixList p l = some rest ↔ l = p ++ rest := by
  constructor
  · exact stripPrefixList_eq_some
  · rintro rfl
    exact stripPrefixList_append_self p rest

theorem stripPrefixList_eq_none_iff {p l : List Char} :
    stripPrefixList p l = none ↔ ¬ p <+: l := by
  rw [← Option.not_isSome_iff_eq_none, not_iff_not, Option.isSome_iff_exists]
  constructor
  · rintro ⟨rest, h⟩
    exact ⟨rest, (stripPrefixList_eq_some_iff.1 h).symm⟩
  · rintro ⟨rest, h⟩
    exact ⟨rest, stripPrefixList_eq_some_iff.2 h.symm⟩

theorem splitOnceList_append {sep front : List Char} (hsep : sep ≠ [])
    (h : sep <:+: front) :
    ∃ a b, front = a ++ sep ++ b ∧
      ∀ back, splitOnceList sep (front ++ back) = some (a, b ++ back) := by
  induction front with
  | nil => exact absurd (List.infix_nil.1 h) hsep
  | cons c front ih =>
    by_cases hprefix : sep <+: c :: front
    · obtain ⟨rest, hrest⟩ := hprefix
      refine ⟨[], rest, hrest.symm, fun back => ?_⟩
      have hstrip : stripPrefixList sep (c :: front ++ back) = some (rest ++ back) := by
        rw [← hrest, List.append_assoc, stripPrefixList_append_self]
      rw [List.cons_append] at hstrip ⊢
      rw [splitOnceList, hstrip]
    · have hinner : sep <:+: front := (List.infix_cons_iff.1 h).resolve_left hprefix
      obtain ⟨a, b, hfront, hsplit⟩ := ih hinner
      have hnot (back : List Char) : ¬ sep <+: c :: (front ++ back) := by
        intro hlong
        apply hprefix
        have hlength : sep.length ≤ (c :: front).length := by
          have := hinner.length_le
          rw [List.length_cons]
          omega
        rw [← List.cons_append] at hlong
        exact List.prefix_of_prefix_length_le hlong (List.prefix_append _ _) hlength
      refine ⟨c :: a, b, by rw [hfront]; rfl, fun back => ?_⟩
      rw [List.cons_append, splitOnceList, stripPrefixList_eq_none_iff.2 (hnot back), hsplit]
      rfl

/-- What a front part does not contain is looked for behind it, where the part ends in a character
that the separator has not. -/
theorem splitOnceList_skip {sep front back : List Char} {c : Char} (hsep : sep ≠ [])
    (hc : c ∉ sep) (h : ¬ sep <:+: front) :
    splitOnceList sep (front ++ c :: back) =
      (splitOnceList sep back).map fun p => (front ++ c :: p.1, p.2) := by
  induction front with
  | nil =>
    have hnot : ¬ sep <+: c :: back := by
      rintro ⟨rest, hrest⟩
      cases sep with
      | nil => exact hsep rfl
      | cons d sep =>
        rw [List.cons_append, List.cons.injEq] at hrest
        exact hc (hrest.1 ▸ List.mem_cons_self)
    rw [List.nil_append, splitOnceList, stripPrefixList_eq_none_iff.2 hnot]
    rfl
  | cons d front ih =>
    rw [List.infix_cons_iff, not_or] at h
    have hnot : ¬ sep <+: d :: (front ++ c :: back) := by
      intro hlong
      obtain ⟨tail, htail⟩ := hlong
      rw [← List.cons_append] at htail
      rcases List.append_eq_append_iff.1 htail with ⟨rest, hrest, -⟩ | ⟨rest, hrest, hback⟩
      · exact h.1 ⟨rest, hrest.symm⟩
      · -- the separator would reach over the character that it has not
        cases rest with
        | nil =>
          rw [List.append_nil] at hrest
          exact h.1 (hrest ▸ List.prefix_refl _)
        | cons e rest =>
          rw [List.cons_append, List.cons.injEq] at hback
          apply hc
          rw [hrest, hback.1]
          exact List.mem_append_right _ List.mem_cons_self
    rw [List.cons_append, splitOnceList, stripPrefixList_eq_none_iff.2 hnot, ih h.2]
    cases splitOnceList sep back <;> rfl

/-- Split at the last occurrence of a character. -/
def rsplitOnceList (c : Char) : List Char → Option (List Char × List Char)
  | [] => none
  | d :: l =>
    match rsplitOnceList c l with
    | some (a, b) => some (d :: a, b)
    | none => if d = c then some ([], l) else none

/-- Split at the last occurrence of a character. -/
def rsplitOnce (c : Char) (s : String) : Option (String × String) :=
  (rsplitOnceList c s.toList).map fun p => (String.ofList p.1, String.ofList p.2)

theorem rsplitOnceList_append (c : Char) (front back : List Char) :
    ∃ a, rsplitOnceList c (front ++ c :: back) =
      some (a, ((rsplitOnceList c back).map Prod.snd).getD back) := by
  induction front with
  | nil =>
    rw [List.nil_append, rsplitOnceList]
    cases h : rsplitOnceList c back with
    | none => exact ⟨[], by simp⟩
    | some p => exact ⟨c :: p.1, rfl⟩
  | cons d front ih =>
    obtain ⟨a, ha⟩ := ih
    refine ⟨d :: a, ?_⟩
    rw [List.cons_append, rsplitOnceList, ha]

/-- **Where the front parts lack the separator, the parts are told from the whole.** -/
theorem append_cons_inj_of_notMem {c : Char} {a a' b b' : List Char} (ha : c ∉ a) (ha' : c ∉ a')
    (h : a ++ c :: b = a' ++ c :: b') : a = a' ∧ b = b' := by
  induction a generalizing a' with
  | nil =>
    cases a' with
    | nil => exact ⟨rfl, (List.cons.inj h).2⟩
    | cons d a' =>
      -- the whole begins with the separator, which the front part lacks
      obtain ⟨rfl, -⟩ := List.cons.inj h
      exact absurd List.mem_cons_self ha'
  | cons d a ih =>
    cases a' with
    | nil =>
      obtain ⟨rfl, -⟩ := List.cons.inj h
      exact absurd List.mem_cons_self ha
    | cons d' a' =>
      obtain ⟨hhead, htail⟩ := List.cons.inj h
      obtain ⟨hfront, hback⟩ := ih (List.not_mem_of_not_mem_cons ha)
        (List.not_mem_of_not_mem_cons ha') htail
      exact ⟨by rw [hhead, hfront], hback⟩

end Text

end Lib
