import Switchback.Lib.OrdMap

/-!
# Entries of a map, one by one

Values that are changed where they are, and entries that are added where none of their key is.
-/

namespace Lib

namespace OrdMap

variable {κ ν : Type*} [LinearOrder κ]

/-- Change every value, by its key. -/
def mapWithKey (f : κ → ν → ν) (m : OrdMap κ ν) : OrdMap κ ν where
  entries := m.entries.map fun p => (p.1, f p.1 p.2)
  sorted := List.pairwise_map.mpr m.sorted

theorem getList_mapWithKey (f : κ → ν → ν) (k : κ) (l : List (κ × ν)) :
    getList k (l.map fun p => (p.1, f p.1 p.2)) = (getList k l).map (f k) := by
  induction l with
  | nil => rfl
  | cons p l ih =>
    rw [List.map_cons, getList, getList]
    split
    · rename_i hk
      rw [hk, Option.map_some]
    · exact ih

@[simp] theorem get_mapWithKey (f : κ → ν → ν) (m : OrdMap κ ν) (k : κ) :
    (m.mapWithKey f).get k = (m.get k).map (f k) := getList_mapWithKey f k m.entries

/-- Add an entry under a key that has none. -/
def orInsert (m : OrdMap κ ν) (p : κ × ν) : OrdMap κ ν :=
  match m.get p.1 with
  | some _ => m
  | none => m.insert p.1 p.2

def orInsertAll (m : OrdMap κ ν) (l : List (κ × ν)) : OrdMap κ ν := l.foldl orInsert m

theorem get_orInsert (m : OrdMap κ ν) (p : κ × ν) (k : κ) :
    (m.orInsert p).get k = (m.get k).or (if k = p.1 then some p.2 else none) := by
  unfold orInsert
  cases hp : m.get p.1 with
  | some v =>
    by_cases hk : k = p.1
    · rw [hk, hp, Option.some_or]
    · rw [if_neg hk, Option.or_none]
  | none =>
    dsimp only
    rw [get_insert]
    by_cases hk : k = p.1
    · rw [if_pos hk, if_pos hk, hk, hp, Option.none_or]
    · rw [if_neg hk, if_neg hk, Option.or_none]

@[simp] theorem get_orInsertAll (m : OrdMap κ ν) (l : List (κ × ν)) (k : κ) :
    (m.orInsertAll l).get k = (m.get k).or (getList k l) := by
  unfold orInsertAll
  induction l generalizing m with
  | nil => exact (Option.or_none).symm
  | cons p l ih =>
    rw [List.foldl_cons, ih, get_orInsert, Option.or_assoc, getList]
    by_cases hk : k = p.1
    · rw [if_pos hk, if_pos hk, Option.some_or]
    · rw [if_neg hk, if_neg hk, Option.none_or]

theorem getList_append (k : κ) (l l' : List (κ × ν)) :
    getList k (l ++ l') = (getList k l).or (getList k l') := by
  induction l with
  | nil => exact Option.none_or.symm
  | cons p l ih =>
    rw [List.cons_append, getList, getList]
    split
    · exact Option.some_or.symm
    · exact ih

theorem get_ofList_reverse (l : List (κ × ν)) (k : κ) :
    (ofList l).get k = getList k l.reverse := by
  have hfold : ∀ m : OrdMap κ ν, (l.foldl (fun m p => m.insert p.1 p.2) m).get k =
      (getList k l.reverse).or (m.get k) := by
    induction l with
    | nil => exact fun m => Option.none_or.symm
    | cons p l ih =>
      intro m
      rw [List.foldl_cons, ih, get_insert, List.reverse_cons, getList_append, Option.or_assoc,
        getList, getList]
      congr 1
      split
      · exact Option.some_or.symm
      · exact Option.none_or.symm
  exact (hfold empty).trans Option.or_none

end OrdMap

end Lib
