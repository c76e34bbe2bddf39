import Switchback.Lib.Text

/-!
# Segments of a list, in order

Lists, and texts, that occur in a list one after the other and do not overlap.
-/

namespace Lib

namespace Segments

variable {α : Type*}

/-- The list contains the segments one after the other, without overlap. -/
def Carries : List (List α) → List α → Prop
  | [], _ => True
  | s :: rest, l => ∃ front back, l = front ++ s ++ back ∧ Carries rest back

variable {segments : List (List α)} {s l : List α}

theorem Carries.append_left (h : Carries segments l) (front : List α) :
    Carries segments (front ++ l) := by
  cases segments with
  | nil => trivial
  | cons s rest =>
    obtain ⟨front', back, rfl, hrest⟩ := h
    exact ⟨front ++ front', back, by simp only [List.append_assoc], hrest⟩

theorem Carries.cons (s : List α) (h : Carries segments l) : Carries (s :: segments) (s ++ l) :=
  ⟨[], l, rfl, h⟩

theorem Carries.sum_length_le (h : Carries segments l) :
    (segments.map List.length).sum ≤ l.length := by
  induction segments generalizing l with
  | nil => exact Nat.zero_le _
  | cons s rest ih =>
    obtain ⟨front, back, rfl, hrest⟩ := h
    have hle := ih hrest
    simp only [List.map_cons, List.sum_cons, List.length_append]
    omega

/-- A list that is one of several segments carries no other of them that has any content. -/
theorem Carries.eq_singleton_of_last {segments : List (List α)} (hne : ∀ s ∈ segments, s ≠ [])
    (h : Carries (segments ++ [l]) l) : segments = [] := by
  cases segments with
  | nil => rfl
  | cons s rest =>
    have hle := h.sum_length_le
    have hs : 0 < s.length := List.length_pos_of_ne_nil (hne s List.mem_cons_self)
    simp only [List.cons_append, List.map_cons, List.map_append, List.map_nil, List.sum_cons,
      List.sum_append, List.sum_nil] at hle
    omega

theorem carries_join (sep : String) {sources texts : List String} (h : sources.Sublist texts) :
    Carries (sources.map String.toList) (Text.join sep texts).toList := by
  have hcons (text : String) (texts : List String) :
      ∃ back, (Text.join sep (text :: texts)).toList = text.toList ++ back ∧
        ∃ front, back = front ++ (Text.join sep texts).toList := by
    cases texts with
    | nil => exact ⟨[], (List.append_nil _).symm, [], rfl⟩
    | cons next texts =>
      refine ⟨sep.toList ++ (Text.join sep (next :: texts)).toList, ?_, sep.toList, rfl⟩
      rw [Text.join, String.toList_append, String.toList_append, List.append_assoc]
  induction h with
  | slnil => trivial
  | @cons sources texts text _ ih =>
    obtain ⟨back, hjoin, front, rfl⟩ := hcons text texts
    rw [hjoin]
    exact (ih.append_left front).append_left _
  | @cons_cons sources texts text _ ih =>
    obtain ⟨back, hjoin, front, rfl⟩ := hcons text texts
    rw [hjoin]
    exact (ih.append_left front).cons _

end Segments

end Lib
