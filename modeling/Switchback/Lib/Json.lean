import Mathlib.Data.String.Basic
import Switchback.Lib.Ieee
import Switchback.Lib.OrdMap

/-!
# JSON values

A JSON value with the three number representations of the usual Rust library.  An object is the
list of its members in increasing key order; `Json.mkObj` sorts the members it is given and a
later member overwrites an earlier one.
-/

namespace Lib

/-- A JSON number as the parser stores it. -/
inductive JsonNumber where
  | posInt (n : ℕ)
  | negInt (n : ℤ)
  | float (x : F64)
  deriving DecidableEq

/-- A JSON value. -/
inductive Json where
  | null
  | bool (b : Bool)
  | num (n : JsonNumber)
  | str (s : String)
  | arr (elems : List Json)
  | obj (fields : List (String × Json))

namespace Json

instance : Inhabited Json := ⟨.null⟩

mutual

/-- Decidable equality of values. -/
def decEq : (a b : Json) → Decidable (a = b)
  | .null, .null => isTrue rfl
  | .bool a, .bool b => if h : a = b then isTrue (by rw [h]) else isFalse (by simp [h])
  | .num a, .num b => if h : a = b then isTrue (by rw [h]) else isFalse (by simp [h])
  | .str a, .str b => if h : a = b then isTrue (by rw [h]) else isFalse (by simp [h])
  | .arr a, .arr b =>
      match decEqList a b with
      | isTrue h => isTrue (by rw [h])
      | isFalse h => isFalse (by simp [h])
  | .obj a, .obj b =>
      match decEqFields a b with
      | isTrue h => isTrue (by rw [h])
      | isFalse h => isFalse (by simp [h])
  | .null, .bool _ | .null, .num _ | .null, .str _ | .null, .arr _ | .null, .obj _
  | .bool _, .null | .bool _, .num _ | .bool _, .str _ | .bool _, .arr _ | .bool _, .obj _
  | .num _, .null | .num _, .bool _ | .num _, .str _ | .num _, .arr _ | .num _, .obj _
  | .str _, .null | .str _, .bool _ | .str _, .num _ | .str _, .arr _ | .str _, .obj _
  | .arr _, .null | .arr _, .bool _ | .arr _, .num _ | .arr _, .str _ | .arr _, .obj _
  | .obj _, .null | .obj _, .bool _ | .obj _, .num _ | .obj _, .str _ | .obj _, .arr _ =>
      isFalse nofun

def decEqList : (a b : List Json) → Decidable (a = b)
  | [], [] => isTrue rfl
  | x :: a, y :: b =>
      match decEq x y, decEqList a b with
      | isTrue h, isTrue h' => isTrue (by rw [h, h'])
      | isFalse h, _ => isFalse (by simp [h])
      | _, isFalse h => isFalse (by simp [h])
  | [], _ :: _ | _ :: _, [] => isFalse nofun

def decEqFields : (a b : List (String × Json)) → Decidable (a = b)
  | [], [] => isTrue rfl
  | (k, x) :: a, (k', y) :: b =>
      match decEq x y, decEqFields a b with
      | isTrue h, isTrue h' =>
          if hk : k = k' then isTrue (by rw [h, h', hk]) else isFalse (by simp [hk])
      | isFalse h, _ => isFalse (by simp [h])
      | _, isFalse h => isFalse (by simp [h])
  | [], _ :: _ | _ :: _, [] => isFalse nofun

end

instance : DecidableEq Json := decEq

/-- The object with the given members. -/
def mkObj (fields : List (String × Json)) : Json := .obj (OrdMap.ofList fields).entries

def ofNat (n : ℕ) : Json := .num (.posInt n)

/-- The member `k` of an object. -/
def get (k : String) : Json → Option Json
  | .obj fields => OrdMap.getList k fields
  | _ => none

/-- The value reached by a path of members. -/
def pointer (path : List String) (v : Json) : Option Json :=
  path.foldl (fun acc k => acc.bind (get k)) (some v)

/-- A member of an object given by members with distinct names. -/
theorem get_mkObj {fields : List (String × Json)} (h : (fields.map Prod.fst).Nodup)
    (k : String) : (mkObj fields).get k = OrdMap.getList k fields :=
  OrdMap.get_ofList h k

/-- A number, or null where the float is not finite. -/
def ofFloat (x : F64) : Json := if x.isFinite then .num (.float x) else .null

def asStr : Json → Option String
  | .str s => some s
  | _ => none

def asBool : Json → Option Bool
  | .bool b => some b
  | _ => none

def asU64 : Json → Option ℕ
  | .num (.posInt n) => some n
  | _ => none

/-- Any number as a binary64 datum. -/
def asF64 : Json → Option F64
  | .num (.posInt n) => some (Fp.ofNat n)
  | .num (.negInt n) => some (if n < 0 then Fp.neg (Fp.ofNat n.natAbs) else Fp.ofNat n.natAbs)
  | .num (.float x) => some x
  | _ => none

def asArray : Json → Option (List Json)
  | .arr l => some l
  | _ => none

def asObject : Json → Option (List (String × Json))
  | .obj fields => some fields
  | _ => none

def isNull : Json → Bool
  | .null => true
  | _ => false

/-- A string member. -/
def getStr (k : String) (v : Json) : Option String := (get k v).bind asStr

/-- An unsigned member. -/
def getU64 (k : String) (v : Json) : Option ℕ := (get k v).bind asU64

/-- An array member. -/
def getArray (k : String) (v : Json) : Option (List Json) := (get k v).bind asArray

end Json

end Lib
