import Switchback.Lib.Json

/-!
# JSON values in key order

A value is sorted if the members of every object in it are in key order.
-/

namespace Lib

namespace Json

/-- The members of every object are in key order. -/
inductive Sorted : Json → Prop
  | null : Sorted .null
  | bool (b : Bool) : Sorted (.bool b)
  | num (n : JsonNumber) : Sorted (.num n)
  | str (s : String) : Sorted (.str s)
  | arr {elems : List Json} (h : ∀ v ∈ elems, Sorted v) : Sorted (.arr elems)
  | obj {fields : List (String × Json)} (keys : fields.Pairwise fun p q => p.1 < q.1)
      (h : ∀ p ∈ fields, Sorted p.2) : Sorted (.obj fields)

end Json

namespace OrdMap

variable {κ ν μ : Type*} [LinearOrder κ]

theorem entries_ofList {l : List (κ × ν)} (h : l.Pairwise fun p q => p.1 < q.1) :
    (ofList l).entries = l := by
  have hnodup : (l.map Prod.fst).Nodup := List.pairwise_map.2 (h.imp fun hlt => ne_of_lt hlt)
  exact entries_eq_of_getList (ofList l).sorted h fun k => get_ofList hnodup k

theorem mem_of_getList {l : List (κ × ν)} {k : κ} {v : ν} (h : getList k l = some v) :
    (k, v) ∈ l := by
  induction l with
  | nil => cases h
  | cons p l ih =>
    rw [getList] at h
    by_cases hk : k = p.1
    · rw [if_pos hk] at h
      cases h
      rw [hk]
      exact List.mem_cons_self
    · rw [if_neg hk] at h
      exact List.mem_cons_of_mem _ (ih h)

theorem getList_of_mem {l : List (κ × ν)} (h : l.Pairwise fun p q => p.1 < q.1) {k : κ} {v : ν}
    (hmem : (k, v) ∈ l) : getList k l = some v := by
  induction l with
  | nil => cases hmem
  | cons p l ih =>
    obtain ⟨hp, hl⟩ := List.pairwise_cons.1 h
    rcases List.mem_cons.1 hmem with rfl | hmem
    · exact if_pos rfl
    · rw [getList, if_neg (ne_of_gt (hp _ hmem)), ih hl hmem]

theorem getList_map (f : ν → μ) (k : κ) (l : List (κ × ν)) :
    getList k (l.map fun p => (p.1, f p.2)) = (getList k l).map f := by
  induction l with
  | nil => rfl
  | cons p l ih =>
    rw [List.map_cons, getList, getList, ih]
    split_ifs <;> rfl

theorem insertList_map (f : ν → μ) (k : κ) (v : ν) (l : List (κ × ν)) :
    insertList k (f v) (l.map fun p => (p.1, f p.2)) =
      (insertList k v l).map fun p => (p.1, f p.2) := by
  induction l with
  | nil => rfl
  | cons p l ih =>
    rw [List.map_cons, insertList, insertList, ih]
    split_ifs <;> rfl

theorem map_sorted (f : ν → μ) {l : List (κ × ν)} (h : l.Pairwise fun p q => p.1 < q.1) :
    (l.map fun p => (p.1, f p.2)).Pairwise fun p q => p.1 < q.1 :=
  List.pairwise_map.2 h

end OrdMap

namespace Json

theorem Sorted.getList {fields : List (String × Json)} (h : Sorted (.obj fields)) {k : String}
    {v : Json} (hk : OrdMap.getList k fields = some v) : Sorted v := by
  cases h with
  | obj _ h => exact h _ (OrdMap.mem_of_getList hk)

theorem Sorted.keys {fields : List (String × Json)} (h : Sorted (.obj fields)) :
    fields.Pairwise fun p q => p.1 < q.1 := by
  cases h with
  | obj keys _ => exact keys

theorem Sorted.members {fields : List (String × Json)} (h : Sorted (.obj fields)) :
    ∀ p ∈ fields, Sorted p.2 := by
  cases h with
  | obj _ h => exact h

theorem Sorted.elems {elems : List Json} (h : Sorted (.arr elems)) : ∀ v ∈ elems, Sorted v := by
  cases h with
  | arr h => exact h

end Json

end Lib
