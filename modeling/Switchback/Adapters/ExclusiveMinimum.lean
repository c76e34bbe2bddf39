import Mathlib.Algebra.Order.Floor.Ring
import Mathlib.Data.Rat.Floor
import Switchback.Lib.FloatOrder
import Switchback.Lib.Json
import Switchback.Lib.Members

/-!
# Exclusive minima in the tool schemas of the Codex relay

The relay's backend rejects a numeric `exclusiveMinimum` and takes an inclusive `minimum` in its
place.
-/

namespace Switchback

namespace ExclusiveMinimum

open Lib

/-! ### The rewriting -/

/-- A number that fits 64 signed bits. -/
def asI64 : Json → Option ℤ
  | .num (.posInt n) => if n < 2 ^ 63 then some n else none
  | .num (.negInt z) => some z
  | _ => none

def numberOfInt (z : ℤ) : JsonNumber := if 0 ≤ z then .posInt z.toNat else .negInt z

/-- The next integer, with the overflow checks of signed and then of unsigned machine words. -/
def nextInteger (bound : Json) : Option JsonNumber :=
  (((asI64 bound).bind fun z => if z + 1 < 2 ^ 63 then some (z + 1) else none).map numberOfInt).or
    ((bound.asU64.bind fun n => if n + 1 < 2 ^ 64 then some (n + 1) else none).map .posInt)

def asNumber : Json → Option JsonNumber
  | .num n => some n
  | _ => none

def numberMember (key : String) (fields : List (String × Json)) : Option JsonNumber :=
  (OrdMap.getList key fields).bind asNumber

/-- The inclusive bound for an exclusive one. -/
def inclusiveBound (fields : List (String × Json)) (bound : Json) : Option JsonNumber :=
  if (OrdMap.getList "type" fields).bind Json.asStr = some "integer" then nextInteger bound
  else asNumber bound

/-- Is there no bound yet that is as high, in double precision? -/
def shouldReplace (fields : List (String × Json)) (bound : JsonNumber) : Bool :=
  match (Json.num bound).asF64, (OrdMap.getList "minimum" fields).bind Json.asF64 with
  | some replacement, some current => Fp.lt current replacement
  | _, _ => true

def removeBound (fields : List (String × Json)) : List (String × Json) :=
  fields.filter fun p => p.1 ≠ "exclusiveMinimum"

/-- One object, its values being rewritten. -/
def rewriteNode (fields : List (String × Json)) : List (String × Json) :=
  match OrdMap.getList "exclusiveMinimum" fields with
  | none => fields
  | some bound =>
      match inclusiveBound (removeBound fields) bound with
      | none => removeBound fields
      | some minimum =>
          if shouldReplace (removeBound fields) minimum then
            OrdMap.insertList "minimum" (.num minimum) (removeBound fields)
          else removeBound fields

mutual

def downlevelExclusiveMinimum : Json → Json
  | .obj fields => .obj (rewriteNode (downlevelFields fields))
  | v => v

def downlevelFields : List (String × Json) → List (String × Json)
  | [] => []
  | (k, v) :: fields => (k, downlevelExclusiveMinimum v) :: downlevelFields fields

end

/-! ### Schemas -/

/-- Where a value stands: a schema or a list of schemas, schemas by name, or data. -/
inductive Position where
  | schema
  | named
  | data

def schemaKeywords : List String :=
  ["items", "additionalItems", "prefixItems", "contains", "additionalProperties", "propertyNames",
    "unevaluatedItems", "unevaluatedProperties", "not", "if", "then", "else", "anyOf", "oneOf",
    "allOf"]

def namedKeywords : List String :=
  ["properties", "patternProperties", "dependentSchemas", "definitions", "$defs"]

def positionOf (keyword : String) : Position :=
  if keyword ∈ schemaKeywords then .schema
  else if keyword ∈ namedKeywords then .named
  else .data

def isBoundKey (key : String) : Bool := key = "exclusiveMinimum" ∨ key = "minimum"

/-- The members of a schema beside its lower bounds. -/
def others (fields : List (String × Json)) : List (String × Json) :=
  fields.filter fun p => !isBoundKey p.1

/-- The type is the integers, or they are one of several types. -/
def integerTyped (fields : List (String × Json)) : Prop :=
  match OrdMap.getList "type" fields with
  | some (.str type) => type = "integer"
  | some (.arr types) => .str "integer" ∈ types
  | _ => False

/-- The exact value of a number. -/
def value : JsonNumber → ℚ
  | .posInt n => n
  | .negInt z => z
  | .float x => x.toRat

/-- The integers that the lower bounds of a schema let through. -/
def Accepts (fields : List (String × Json)) (n : ℤ) : Prop :=
  (∀ e ∈ numberMember "exclusiveMinimum" fields, value e < n) ∧
    ∀ m ∈ numberMember "minimum" fields, value m ≤ n

/-- A numeric exclusive bound is gone, and a schema of integers has the same ones; without it both
bounds are as they were. -/
def BoundKept (fields fields' : List (String × Json)) : Prop :=
  if (numberMember "exclusiveMinimum" fields).isSome then
    OrdMap.getList "exclusiveMinimum" fields' = none ∧
      (integerTyped fields → ∀ n : ℤ, Accepts fields n ↔ Accepts fields' n)
  else
    OrdMap.getList "exclusiveMinimum" fields' = OrdMap.getList "exclusiveMinimum" fields ∧
      OrdMap.getList "minimum" fields' = OrdMap.getList "minimum" fields

mutual

/-- What the rewriting of a value may do: at every schema the bounds are kept in this sense, and
nothing else changes. -/
def Kept : Position → Json → Json → Prop
  | .schema, .obj fields, v' =>
      ∃ fields', v' = .obj fields' ∧ BoundKept fields fields' ∧ MembersKept fields (others fields')
  | .schema, .arr l, v' => ∃ l', v' = .arr l' ∧ ListKept l l'
  | .named, .obj fields, v' => ∃ fields', v' = .obj fields' ∧ NamedKept fields fields'
  | _, v, v' => v' = v

def ListKept : List Json → List Json → Prop
  | [], l' => l' = []
  | v :: l, l' => ∃ v' rest, l' = v' :: rest ∧ Kept .schema v v' ∧ ListKept l rest

def MembersKept : List (String × Json) → List (String × Json) → Prop
  | [], l' => l' = []
  | (k, v) :: l, l' =>
      if isBoundKey k then MembersKept l l'
      else ∃ v' rest, l' = (k, v') :: rest ∧ Kept (positionOf k) v v' ∧ MembersKept l rest

def NamedKept : List (String × Json) → List (String × Json) → Prop
  | [], l' => l' = []
  | (k, v) :: l, l' => ∃ v' rest, l' = (k, v') :: rest ∧ Kept .schema v v' ∧ NamedKept l rest

end

/-! ### The schemas that are rewritten well -/

mutual

/-- No object inside, as far as objects nest, has the key. -/
def Untouched : Json → Prop
  | .obj fields => "exclusiveMinimum" ∉ fields.map Prod.fst ∧ UntouchedFields fields
  | _ => True

def UntouchedFields : List (String × Json) → Prop
  | [] => True
  | (_, v) :: l => Untouched v ∧ UntouchedFields l

end

mutual

/-- No schema inside has a numeric exclusive bound. -/
def Clean : Position → Json → Prop
  | .schema, .obj fields => numberMember "exclusiveMinimum" fields = none ∧ MembersClean fields
  | .schema, .arr l => ListClean l
  | .named, .obj fields => NamedClean fields
  | _, _ => True

def ListClean : List Json → Prop
  | [] => True
  | v :: l => Clean .schema v ∧ ListClean l

def MembersClean : List (String × Json) → Prop
  | [] => True
  | (k, v) :: l => (isBoundKey k ∨ Clean (positionOf k) v) ∧ MembersClean l

def NamedClean : List (String × Json) → Prop
  | [] => True
  | (_, v) :: l => Clean .schema v ∧ NamedClean l

end

/-- The exclusive bound adds nothing to the inclusive one. -/
def Implied (fields : List (String × Json)) (e : JsonNumber) : Prop :=
  ∃ m ∈ numberMember "minimum" fields, value e < ⌈value m⌉

/-- The number after a bound that is not a float, if it fits a machine word. -/
def successor : JsonNumber → Option ℤ
  | .posInt n => if n + 1 < 2 ^ 64 then some (n + 1) else none
  | .negInt z => if z + 1 < 2 ^ 63 then some (z + 1) else none
  | .float _ => none

/-- The inclusive bound, if there is one, is below `b` in double precision. -/
def Below (fields : List (String × Json)) (b : JsonNumber) : Prop :=
  ∀ x ∈ (OrdMap.getList "minimum" fields).bind Json.asF64, ∀ y ∈ (Json.num b).asF64,
    Fp.lt x y = true

/-- An exclusive bound on integers is its successor as an inclusive one, unless rounding hides the
successor behind the minimum that is there; where there is none, the minimum must imply it.  Of
integers among other types the bound itself becomes inclusive, so it must not be one. -/
def IntegerFit (fields : List (String × Json)) (e : JsonNumber) : Prop :=
  if (OrdMap.getList "type" fields).bind Json.asStr = some "integer" then
    (∀ z ∈ successor e, Below fields (numberOfInt z) →
        ∀ m ∈ numberMember "minimum" fields, value m ≤ z) ∧
      ((∀ z ∈ successor e, ¬ Below fields (numberOfInt z)) → Implied fields e)
  else
    (Below fields e → value e < ⌈value e⌉ ∧
        ∀ m ∈ numberMember "minimum" fields, ⌈value m⌉ ≤ ⌈value e⌉) ∧
      (¬ Below fields e → Implied fields e)

/-- The bounds of one schema. -/
def BoundFit (fields : List (String × Json)) : Prop :=
  match OrdMap.getList "exclusiveMinimum" fields with
  | some (.num e) => integerTyped fields → IntegerFit fields e
  | some _ => False
  | none => ∀ m ∈ OrdMap.getList "minimum" fields, Untouched m

mutual

/-- An exclusive bound is a number, and it is found: not in a list, where it stays, nor among names
or data, which lose what is called so. -/
def Fit : Position → Json → Prop
  | .schema, .obj fields => BoundFit fields ∧ MembersFit fields
  | .schema, .arr l => ListClean l
  | .named, .obj fields => "exclusiveMinimum" ∉ fields.map Prod.fst ∧ NamedFit fields
  | .data, v => Untouched v
  | _, _ => True

def MembersFit : List (String × Json) → Prop
  | [] => True
  | (k, v) :: l => (isBoundKey k ∨ Fit (positionOf k) v) ∧ MembersFit l

def NamedFit : List (String × Json) → Prop
  | [] => True
  | (_, v) :: l => Fit .schema v ∧ NamedFit l

end

/-! ### One object -/

section

variable (fields : List (String × Json))

theorem downlevelFields_eq_map :
    downlevelFields fields = fields.map fun p => (p.1, downlevelExclusiveMinimum p.2) := by
  induction fields with
  | nil => rfl
  | cons p fields ih => rw [downlevelFields, ih, List.map_cons]

theorem keys_downlevelFields : (downlevelFields fields).map Prod.fst = fields.map Prod.fst := by
  rw [downlevelFields_eq_map, List.map_map]
  rfl

theorem getList_downlevelFields (k : String) :
    OrdMap.getList k (downlevelFields fields) =
      (OrdMap.getList k fields).map downlevelExclusiveMinimum := by
  rw [downlevelFields_eq_map]
  exact OrdMap.getList_mapWithKey (fun _ => downlevelExclusiveMinimum) k fields

theorem getList_removeBound (k : String) :
    OrdMap.getList k (removeBound fields) =
      if k = "exclusiveMinimum" then none else OrdMap.getList k fields := by
  unfold removeBound
  rw [OrdMap.getList_filter (fun key => key ≠ "exclusiveMinimum")]
  by_cases hk : k = "exclusiveMinimum"
  · rw [if_pos hk, if_neg (by simp [hk])]
  · rw [if_neg hk, if_pos (by simp [hk])]

variable {fields}

theorem getList_eq_none_iff {k : String} :
    OrdMap.getList k fields = none ↔ k ∉ fields.map Prod.fst := by
  refine ⟨fun h hmem => ?_, OrdMap.getList_eq_none⟩
  induction fields with
  | nil => exact List.not_mem_nil hmem
  | cons p fields ih =>
    rw [OrdMap.getList] at h
    split at h
    · cases h
    · rename_i hne
      rcases List.mem_cons.mp hmem with heq | hmem
      · exact hne heq
      · exact ih h hmem

theorem rewriteNode_of_not_mem (h : "exclusiveMinimum" ∉ fields.map Prod.fst) :
    rewriteNode fields = fields := by
  unfold rewriteNode
  rw [OrdMap.getList_eq_none h]

theorem not_mem_keys_removeBound : "exclusiveMinimum" ∉ (removeBound fields).map Prod.fst := by
  intro hmem
  obtain ⟨p, hp, heq⟩ := List.mem_map.mp hmem
  exact of_decide_eq_true (List.mem_filter.mp hp).2 heq

theorem getList_rewriteNode_bound :
    OrdMap.getList "exclusiveMinimum" (rewriteNode fields) = none := by
  have hremoved : OrdMap.getList "exclusiveMinimum" (removeBound fields) = none :=
    OrdMap.getList_eq_none not_mem_keys_removeBound
  unfold rewriteNode
  split
  · assumption
  · split
    · exact hremoved
    · split
      · rw [OrdMap.getList_insertList, if_neg (by decide), hremoved]
      · exact hremoved

theorem not_mem_keys_rewriteNode : "exclusiveMinimum" ∉ (rewriteNode fields).map Prod.fst :=
  getList_eq_none_iff.mp getList_rewriteNode_bound

theorem filter_insertList (v : Json) (q : String → Bool) (k : String) (hk : q k = false) :
    (OrdMap.insertList k v fields).filter (fun p => q p.1) = fields.filter fun p => q p.1 := by
  induction fields with
  | nil =>
    rw [OrdMap.insertList, List.filter_cons_of_neg (by simp [hk])]
  | cons p fields ih =>
    obtain ⟨k', v'⟩ := p
    rw [OrdMap.insertList]
    split_ifs with hlt heq
    · rw [List.filter_cons_of_neg (by simp [hk])]
    · subst heq
      rw [List.filter_cons_of_neg (by simp [hk]), List.filter_cons_of_neg (by simp [hk])]
    · rw [List.filter_cons, List.filter_cons, ih]

theorem others_removeBound : others (removeBound fields) = others fields := by
  unfold others removeBound
  rw [List.filter_filter]
  refine List.filter_congr fun p _ => ?_
  unfold isBoundKey
  by_cases hp : p.1 = "exclusiveMinimum"
  · simp [hp]
  · simp [hp]

theorem others_rewriteNode : others (rewriteNode fields) = others fields := by
  have hinsert (v : Json) (l : List (String × Json)) :
      others (OrdMap.insertList "minimum" v l) = others l :=
    filter_insertList v (fun key => !isBoundKey key) "minimum" rfl
  unfold rewriteNode
  split
  · rfl
  · split
    · exact others_removeBound
    · split
      · rw [hinsert, others_removeBound]
      · exact others_removeBound

end

/-! ### Values that stay -/

mutual

theorem kept_self_iff : (p : Position) → (v : Json) → (Kept p v v ↔ Clean p v)
  | .schema, .obj fields => by
      rw [Kept, Clean]
      constructor
      · rintro ⟨fields', heq, hbound, hmembers⟩
        cases heq
        refine ⟨?_, (members_self_iff fields).mp hmembers⟩
        unfold BoundKept at hbound
        split at hbound
        · unfold numberMember
          rw [hbound.1]
          rfl
        · rename_i hnone
          simpa using hnone
      · rintro ⟨hnone, hmembers⟩
        refine ⟨fields, rfl, ?_, (members_self_iff fields).mpr hmembers⟩
        unfold BoundKept
        rw [hnone, if_neg (by simp)]
        exact ⟨rfl, rfl⟩
  | .schema, .arr l => by
      rw [Kept, Clean, ← list_self_iff l]
      constructor
      · rintro ⟨l', heq, h⟩
        cases heq
        exact h
      · exact fun h => ⟨l, rfl, h⟩
  | .named, .obj fields => by
      rw [Kept, Clean, ← named_self_iff fields]
      constructor
      · rintro ⟨fields', heq, h⟩
        cases heq
        exact h
      · exact fun h => ⟨fields, rfl, h⟩
  | .data, .null | .data, .bool _ | .data, .num _ | .data, .str _ | .data, .arr _ | .data, .obj _
  | .named, .null | .named, .bool _ | .named, .num _ | .named, .str _ | .named, .arr _
  | .schema, .null | .schema, .bool _ | .schema, .num _ | .schema, .str _ => by
      simp only [Kept, Clean]

theorem list_self_iff : (l : List Json) → (ListKept l l ↔ ListClean l)
  | [] => by simp only [ListKept, ListClean]
  | v :: l => by
      rw [ListKept, ListClean, ← kept_self_iff .schema v, ← list_self_iff l]
      constructor
      · rintro ⟨v', rest, heq, hv, hl⟩
        cases heq
        exact ⟨hv, hl⟩
      · exact fun ⟨hv, hl⟩ => ⟨v, l, rfl, hv, hl⟩

theorem members_self_iff :
    (l : List (String × Json)) → (MembersKept l (others l) ↔ MembersClean l)
  | [] => by simp only [MembersKept, MembersClean, others, List.filter_nil]
  | (k, v) :: l => by
      rw [MembersKept, MembersClean, ← members_self_iff l]
      cases hk : isBoundKey k with
      | true =>
        have hothers : others ((k, v) :: l) = others l := List.filter_cons_of_neg (by simp [hk])
        rw [if_pos rfl, hothers]
        exact (and_iff_right (.inl rfl)).symm
      | false =>
        have hothers : others ((k, v) :: l) = (k, v) :: others l :=
          List.filter_cons_of_pos (by simp [hk])
        rw [if_neg Bool.false_ne_true, hothers, ← kept_self_iff (positionOf k) v]
        constructor
        · rintro ⟨v', rest, heq, hv, hl⟩
          cases heq
          exact ⟨.inr hv, hl⟩
        · rintro ⟨hv, hl⟩
          exact ⟨v, _, rfl, hv.resolve_left Bool.false_ne_true, hl⟩

theorem named_self_iff : (l : List (String × Json)) → (NamedKept l l ↔ NamedClean l)
  | [] => by simp only [NamedKept, NamedClean]
  | (k, v) :: l => by
      rw [NamedKept, NamedClean, ← kept_self_iff .schema v, ← named_self_iff l]
      constructor
      · rintro ⟨v', rest, heq, hv, hl⟩
        cases heq
        exact ⟨hv, hl⟩
      · exact fun ⟨hv, hl⟩ => ⟨v, l, rfl, hv, hl⟩

end

mutual

theorem downlevel_eq_self_iff : (v : Json) → (downlevelExclusiveMinimum v = v ↔ Untouched v)
  | .obj fields => by
      rw [downlevelExclusiveMinimum, Untouched, Json.obj.injEq,
        ← downlevelFields_eq_self_iff fields]
      constructor
      · intro h
        have hnot : "exclusiveMinimum" ∉ fields.map Prod.fst := h ▸ not_mem_keys_rewriteNode
        refine ⟨hnot, ?_⟩
        rwa [rewriteNode_of_not_mem (by rwa [keys_downlevelFields])] at h
      · rintro ⟨hnot, h⟩
        rw [rewriteNode_of_not_mem (by rwa [keys_downlevelFields]), h]
  | .null | .bool _ | .num _ | .str _ | .arr _ => iff_of_true rfl trivial

theorem downlevelFields_eq_self_iff :
    (l : List (String × Json)) → (downlevelFields l = l ↔ UntouchedFields l)
  | [] => iff_of_true rfl trivial
  | (k, v) :: l => by
      rw [downlevelFields, UntouchedFields, ← downlevel_eq_self_iff v,
        ← downlevelFields_eq_self_iff l, List.cons_eq_cons, Prod.mk.injEq]
      exact and_congr_left' (and_iff_right rfl)

end

/-! ### Bounds -/

section

variable {fields : List (String × Json)} {e b : JsonNumber}

theorem value_numberOfInt (z : ℤ) : value (numberOfInt z) = z := by
  unfold numberOfInt
  split
  · rename_i hz
    show ((z.toNat : ℕ) : ℚ) = z
    exact_mod_cast congrArg (Int.cast : ℤ → ℚ) (Int.toNat_of_nonneg hz)
  · rfl

theorem nextInteger_eq (h : nextInteger (.num e) = some b) :
    ∃ z : ℤ, value e = z ∧ value b = z + 1 := by
  unfold nextInteger at h
  rcases Option.or_eq_some_iff.mp h with hsigned | ⟨-, hunsigned⟩
  · obtain ⟨z', hz', rfl⟩ := Option.map_eq_some_iff.mp hsigned
    obtain ⟨z, hz, hnext⟩ := Option.bind_eq_some_iff.mp hz'
    have hvalue : value e = z := by
      cases e with
      | posInt n =>
        unfold asI64 at hz
        dsimp only at hz
        split at hz
        · cases hz
          rfl
        · cases hz
      | negInt z => cases hz; rfl
      | float x => cases hz
    split at hnext
    · cases hnext
      refine ⟨z, hvalue, ?_⟩
      rw [value_numberOfInt]
      push_cast
      rfl
    · cases hnext
  · obtain ⟨n', hn', rfl⟩ := Option.map_eq_some_iff.mp hunsigned
    obtain ⟨n, hn, hnext⟩ := Option.bind_eq_some_iff.mp hn'
    have hvalue : value e = (n : ℤ) := by
      cases e with
      | posInt n => cases hn; rfl
      | negInt z => cases hn
      | float x => cases hn
    split at hnext
    · cases hnext
      refine ⟨n, hvalue, ?_⟩
      show ((n + 1 : ℕ) : ℚ) = _
      push_cast
      rfl
    · cases hnext

theorem inclusiveBound_le (h : inclusiveBound fields (.num e) = some b) {n : ℤ}
    (hn : value e < n) : value b ≤ n := by
  unfold inclusiveBound at h
  split at h
  · obtain ⟨z, he, hb⟩ := nextInteger_eq h
    rw [he] at hn
    rw [hb]
    have hz : z + 1 ≤ n := Int.add_one_le_iff.mpr (by exact_mod_cast hn)
    exact_mod_cast hz
  · cases h
    exact hn.le

theorem implied_iff :
    (∀ n : ℤ, (value e < n ∧ ∀ m ∈ numberMember "minimum" fields, value m ≤ n) ↔
      ∀ m ∈ numberMember "minimum" fields, value m ≤ n) ↔ Implied fields e := by
  unfold Implied
  cases numberMember "minimum" fields with
  | none =>
    refine iff_of_false (fun h => ?_) (fun ⟨m, hm, _⟩ => absurd hm (Option.not_mem_none m))
    have hlt := ((h ⌊value e⌋).mpr fun m hm => absurd hm (Option.not_mem_none m)).1
    exact absurd (Int.floor_le (value e)) (not_le.mpr hlt)
  | some m =>
    simp only [Option.mem_def, Option.some.injEq, forall_eq', exists_eq_left']
    constructor
    · exact fun h => ((h ⌈value m⌉).mpr (Int.le_ceil _)).1
    · intro h n
      refine ⟨fun hn => hn.2, fun hn => ⟨h.trans_le ?_, hn⟩⟩
      exact_mod_cast Int.ceil_le.mpr hn

theorem replaced_iff (h : inclusiveBound fields (.num e) = some b) :
    (∀ n : ℤ, (value e < n ∧ ∀ m ∈ numberMember "minimum" fields, value m ≤ n) ↔ value b ≤ n) ↔
      value e < ⌈value b⌉ ∧ ∀ m ∈ numberMember "minimum" fields, ⌈value m⌉ ≤ ⌈value b⌉ := by
  constructor
  · intro hall
    obtain ⟨he, hm⟩ := (hall ⌈value b⌉).mpr (Int.le_ceil _)
    exact ⟨he, fun m hmem => Int.ceil_le.mpr (hm m hmem)⟩
  · rintro ⟨he, hm⟩ n
    refine ⟨fun hn => inclusiveBound_le h hn.1, fun hn => ?_⟩
    have hceil : (⌈value b⌉ : ℚ) ≤ n := by exact_mod_cast Int.ceil_le.mpr hn
    refine ⟨he.trans_le hceil, fun m hmem => ?_⟩
    exact (Int.ceil_le.mp (hm m hmem)).trans hceil

end

theorem numberMember_downlevel (fields : List (String × Json)) {k : String}
    (hk : k ≠ "exclusiveMinimum") :
    numberMember k (removeBound (downlevelFields fields)) = numberMember k fields := by
  unfold numberMember
  rw [getList_removeBound, if_neg hk, getList_downlevelFields]
  cases OrdMap.getList k fields with
  | none => rfl
  | some v => cases v <;> rfl

theorem inclusiveBound_downlevel (fields : List (String × Json)) (v : Json) :
    inclusiveBound (removeBound (downlevelFields fields)) v = inclusiveBound fields v := by
  have htype : (OrdMap.getList "type" (removeBound (downlevelFields fields))).bind Json.asStr =
      (OrdMap.getList "type" fields).bind Json.asStr := by
    rw [getList_removeBound, if_neg (by decide), getList_downlevelFields]
    cases OrdMap.getList "type" fields with
    | none => rfl
    | some v => cases v <;> rfl
  unfold inclusiveBound
  rw [htype]

theorem shouldReplace_downlevel (fields : List (String × Json)) (bound : JsonNumber) :
    shouldReplace (removeBound (downlevelFields fields)) bound = shouldReplace fields bound := by
  have hminimum : (OrdMap.getList "minimum" (removeBound (downlevelFields fields))).bind
      Json.asF64 = (OrdMap.getList "minimum" fields).bind Json.asF64 := by
    rw [getList_removeBound, if_neg (by decide), getList_downlevelFields]
    cases OrdMap.getList "minimum" fields with
    | none => rfl
    | some v => cases v <;> rfl
  unfold shouldReplace
  rw [hminimum]

theorem nextInteger_num (e : JsonNumber) :
    nextInteger (.num e) = (successor e).map numberOfInt := by
  cases e with
  | posInt n =>
    have hnumber : numberOfInt (n + 1) = .posInt (n + 1) := if_pos (by omega)
    unfold nextInteger asI64 Json.asU64 successor
    dsimp only
    by_cases hsigned : n + 1 < 2 ^ 63
    · have hsmall : n < 2 ^ 63 := by omega
      have hnext : (n : ℤ) + 1 < 2 ^ 63 := by omega
      have hword : n + 1 < 2 ^ 64 := by omega
      rw [if_pos hsmall, Option.bind_some, if_pos hnext, if_pos hword]
      rw [Option.map_some, Option.some_or]
    · have hnone : ((if n < 2 ^ 63 then some (n : ℤ) else none).bind fun z =>
          if z + 1 < 2 ^ 63 then some (z + 1) else none) = none := by
        split_ifs
        · have hlast : ¬ (n : ℤ) + 1 < 2 ^ 63 := by omega
          rw [Option.bind_some, if_neg hlast]
        · rfl
      rw [hnone, Option.bind_some]
      split_ifs
      · exact congrArg some hnumber.symm
      · rfl
  | negInt z =>
    simp only [nextInteger, asI64, Json.asU64, successor, Option.bind_some, Option.bind_none,
      Option.map_none, Option.or_none]
  | float x => rfl

theorem shouldReplace_iff (fields : List (String × Json)) (b : JsonNumber) :
    shouldReplace fields b = true ↔ Below fields b := by
  unfold shouldReplace Below
  cases (OrdMap.getList "minimum" fields).bind Json.asF64 <;> cases b <;> simp [Json.asF64]

theorem integerFit_of_none (h : inclusiveBound fields (.num e) = none) :
    IntegerFit fields e ↔ Implied fields e := by
  unfold inclusiveBound at h
  unfold IntegerFit
  split_ifs at h ⊢
  · rw [nextInteger_num, Option.map_eq_none_iff] at h
    simp [h]
  · cases h

theorem integerFit_of_some {b : JsonNumber} (h : inclusiveBound fields (.num e) = some b) :
    IntegerFit fields e ↔
      if shouldReplace fields b then
        value e < ⌈value b⌉ ∧ ∀ m ∈ numberMember "minimum" fields, ⌈value m⌉ ≤ ⌈value b⌉
      else Implied fields e := by
  have hreplace := shouldReplace_iff fields b
  unfold inclusiveBound at h
  unfold IntegerFit
  split_ifs at h ⊢ with htype hreplaced hreplaced
  · rw [nextInteger_num] at h
    obtain ⟨z, hz, rfl⟩ := Option.map_eq_some_iff.1 h
    have hnext : value e < z := by
      obtain ⟨z', he, hz'⟩ := nextInteger_eq (nextInteger_num e ▸ h)
      rw [value_numberOfInt] at hz'
      rw [he, hz']
      exact lt_add_one _
    simp only [hz, Option.mem_def, Option.some.injEq, forall_eq', value_numberOfInt, Int.ceil_intCast,
      Int.ceil_le, hnext, hreplace.1 hreplaced, true_and, true_imp_iff, not_true_eq_false,
      false_imp_iff, and_true]
  · rw [nextInteger_num] at h
    obtain ⟨z, hz, rfl⟩ := Option.map_eq_some_iff.1 h
    simp only [hz, Option.mem_def, Option.some.injEq, forall_eq', mt hreplace.2 hreplaced,
      false_imp_iff, true_and, not_false_eq_true, true_imp_iff]
  · cases h
    simp only [hreplace.1 hreplaced, true_imp_iff, not_true_eq_false, false_imp_iff, and_true]
  · cases h
    simp only [mt hreplace.2 hreplaced, false_imp_iff, true_and, not_false_eq_true, true_imp_iff]

theorem boundKept_iff (fields : List (String × Json)) :
    BoundKept fields (rewriteNode (downlevelFields fields)) ↔ BoundFit fields := by
  -- what is not a number is removed all the same
  have hremoved {v : Json} (hv : OrdMap.getList "exclusiveMinimum" fields = some v)
      (hnumber : asNumber v = none) :
      ¬ BoundKept fields (rewriteNode (downlevelFields fields)) := by
    have hnone : numberMember "exclusiveMinimum" fields = none := by
      unfold numberMember
      rw [hv]
      exact hnumber
    unfold BoundKept
    rw [hnone, if_neg (by simp), getList_rewriteNode_bound, hv]
    rintro ⟨h, -⟩
    cases h
  cases hbound : OrdMap.getList "exclusiveMinimum" fields with
  | none =>
    unfold BoundKept BoundFit
    rw [hbound]
    have hnone : numberMember "exclusiveMinimum" fields = none := by
      unfold numberMember
      rw [hbound]
      rfl
    have hnot : "exclusiveMinimum" ∉ (downlevelFields fields).map Prod.fst := by
      rw [keys_downlevelFields]
      exact getList_eq_none_iff.mp hbound
    rw [hnone, if_neg (by simp), rewriteNode_of_not_mem hnot, getList_downlevelFields,
      getList_downlevelFields, hbound]
    dsimp only
    cases OrdMap.getList "minimum" fields with
    | none => exact iff_of_true ⟨rfl, rfl⟩ fun m hm => absurd hm (Option.not_mem_none m)
    | some m =>
      simp only [Option.map_none, Option.map_some, true_and, Option.some.injEq, Option.mem_def,
        forall_eq']
      exact downlevel_eq_self_iff m
  | some v =>
    unfold BoundFit
    rw [hbound]
    cases v with
    | null => exact iff_of_false (hremoved hbound rfl) id
    | bool x => exact iff_of_false (hremoved hbound rfl) id
    | str x => exact iff_of_false (hremoved hbound rfl) id
    | arr x => exact iff_of_false (hremoved hbound rfl) id
    | obj x => exact iff_of_false (hremoved hbound rfl) id
    | num e =>
      unfold BoundKept
      have hsome : numberMember "exclusiveMinimum" fields = some e := by
        unfold numberMember
        rw [hbound]
        rfl
      rw [hsome, if_pos (by rfl)]
      refine (and_iff_right getList_rewriteNode_bound).trans (imp_congr_right fun _ => ?_)
      have hgone (n : ℤ) : Accepts (rewriteNode (downlevelFields fields)) n ↔
          ∀ m ∈ numberMember "minimum" (rewriteNode (downlevelFields fields)), value m ≤ n := by
        unfold Accepts
        have hnone : numberMember "exclusiveMinimum" (rewriteNode (downlevelFields fields)) =
            none := by
          unfold numberMember
          rw [getList_rewriteNode_bound]
          rfl
        rw [hnone]
        exact and_iff_right fun e he => absurd he (Option.not_mem_none e)
      have hbefore (n : ℤ) : Accepts fields n ↔
          value e < n ∧ ∀ m ∈ numberMember "minimum" fields, value m ≤ n := by
        unfold Accepts
        rw [hsome]
        simp only [Option.mem_def, Option.some.injEq, forall_eq']
      have hbound' : OrdMap.getList "exclusiveMinimum" (downlevelFields fields) =
          some (.num e) := by
        rw [getList_downlevelFields, hbound]
        rfl
      simp only [hgone, hbefore]
      unfold rewriteNode
      rw [hbound']
      dsimp only
      rw [inclusiveBound_downlevel]
      cases hinclusive : inclusiveBound fields (.num e) with
      | none =>
        dsimp only
        rw [numberMember_downlevel fields (by decide), integerFit_of_none hinclusive]
        exact implied_iff
      | some b =>
        dsimp only
        rw [shouldReplace_downlevel, integerFit_of_some hinclusive]
        split
        · have hreplaced : numberMember "minimum" (OrdMap.insertList "minimum" (.num b)
              (removeBound (downlevelFields fields))) = some b := by
            unfold numberMember
            rw [OrdMap.getList_insertList, if_pos rfl]
            rfl
          rw [hreplaced]
          simp only [Option.mem_def, Option.some.injEq, forall_eq']
          exact replaced_iff hinclusive
        · rw [numberMember_downlevel fields (by decide)]
          exact implied_iff

/-! ### Whole schemas -/

theorem keys_namedKept {l l' : List (String × Json)} (h : NamedKept l l') :
    l'.map Prod.fst = l.map Prod.fst := by
  induction l generalizing l' with
  | nil =>
    rw [NamedKept] at h
    rw [h]
  | cons p l ih =>
    obtain ⟨k, v⟩ := p
    rw [NamedKept] at h
    obtain ⟨v', rest, rfl, -, h⟩ := h
    rw [List.map_cons, List.map_cons, ih h]

mutual

/-- What the rewriting does to a value is allowed exactly where the value is fit. -/
theorem kept_iff_fit :
    (p : Position) → (v : Json) → (Kept p v (downlevelExclusiveMinimum v) ↔ Fit p v)
  | .schema, .obj fields => by
      rw [Kept, Fit, downlevelExclusiveMinimum, ← boundKept_iff fields,
        ← membersKept_iff_fit fields, ← others_rewriteNode]
      constructor
      · rintro ⟨fields', heq, h⟩
        cases heq
        exact h
      · exact fun h => ⟨_, rfl, h⟩
  | .schema, .arr l => by
      rw [Kept, Fit, downlevelExclusiveMinimum, ← list_self_iff l]
      · constructor
        · rintro ⟨l', heq, h⟩
          cases heq
          exact h
        · exact fun h => ⟨l, rfl, h⟩
      · exact nofun
  | .named, .obj fields => by
      rw [Kept, Fit, downlevelExclusiveMinimum, ← namedKept_iff_fit fields]
      constructor
      · rintro ⟨fields', heq, h⟩
        cases heq
        have hnot : "exclusiveMinimum" ∉ fields.map Prod.fst :=
          keys_namedKept h ▸ not_mem_keys_rewriteNode
        refine ⟨hnot, ?_⟩
        rwa [rewriteNode_of_not_mem (by rwa [keys_downlevelFields])] at h
      · rintro ⟨hnot, h⟩
        refine ⟨_, rfl, ?_⟩
        rwa [rewriteNode_of_not_mem (by rwa [keys_downlevelFields])]
  | .data, .obj fields => by
      rw [Kept, Fit]
      · exact downlevel_eq_self_iff (.obj fields)
      all_goals exact nofun
  | .data, .null | .data, .bool _ | .data, .num _ | .data, .str _ | .data, .arr _
  | .named, .null | .named, .bool _ | .named, .num _ | .named, .str _ | .named, .arr _
  | .schema, .null | .schema, .bool _ | .schema, .num _ | .schema, .str _ => by
      simp only [Kept, Fit, Untouched, downlevelExclusiveMinimum]

theorem membersKept_iff_fit : (l : List (String × Json)) →
    (MembersKept l (others (downlevelFields l)) ↔ MembersFit l)
  | [] => by simp only [MembersKept, MembersFit, downlevelFields, others, List.filter_nil]
  | (k, v) :: l => by
      rw [MembersKept, MembersFit, ← membersKept_iff_fit l, downlevelFields]
      cases hk : isBoundKey k with
      | true =>
        have hothers : others ((k, downlevelExclusiveMinimum v) :: downlevelFields l) =
            others (downlevelFields l) := List.filter_cons_of_neg (by simp [hk])
        rw [if_pos rfl, hothers]
        exact (and_iff_right (.inl rfl)).symm
      | false =>
        have hothers : others ((k, downlevelExclusiveMinimum v) :: downlevelFields l) =
            (k, downlevelExclusiveMinimum v) :: others (downlevelFields l) :=
          List.filter_cons_of_pos (by simp [hk])
        rw [if_neg Bool.false_ne_true, hothers, ← kept_iff_fit (positionOf k) v]
        constructor
        · rintro ⟨v', rest, heq, hv, hl⟩
          cases heq
          exact ⟨.inr hv, hl⟩
        · rintro ⟨hv, hl⟩
          exact ⟨_, _, rfl, hv.resolve_left Bool.false_ne_true, hl⟩

theorem namedKept_iff_fit : (l : List (String × Json)) →
    (NamedKept l (downlevelFields l) ↔ NamedFit l)
  | [] => by simp only [NamedKept, NamedFit, downlevelFields]
  | (k, v) :: l => by
      rw [NamedKept, NamedFit, downlevelFields, ← kept_iff_fit .schema v, ← namedKept_iff_fit l]
      constructor
      · rintro ⟨v', rest, heq, hv, hl⟩
        cases heq
        exact ⟨hv, hl⟩
      · exact fun ⟨hv, hl⟩ => ⟨_, _, rfl, hv, hl⟩

end

theorem membersClean_others : (l : List (String × Json)) → MembersClean (others l) → MembersClean l
  | [], h => h
  | (k, v) :: l, h => by
      rw [MembersClean]
      cases hk : isBoundKey k with
      | true =>
        have hothers : others ((k, v) :: l) = others l := List.filter_cons_of_neg (by simp [hk])
        rw [hothers] at h
        exact ⟨.inl rfl, membersClean_others l h⟩
      | false =>
        have hothers : others ((k, v) :: l) = (k, v) :: others l :=
          List.filter_cons_of_pos (by simp [hk])
        rw [hothers, MembersClean] at h
        exact ⟨.inr (h.1.resolve_left (by simp [hk])), membersClean_others l h.2⟩

mutual

/-- No numeric exclusive bound is left at a schema. -/
theorem clean_of_kept : (p : Position) → (v v' : Json) → Kept p v v' → Clean p v'
  | .schema, .obj fields, v', h => by
      rw [Kept] at h
      obtain ⟨fields', rfl, hbound, hmembers⟩ := h
      rw [Clean]
      refine ⟨?_, membersClean_others fields' (membersClean_of_kept fields _ hmembers)⟩
      unfold BoundKept at hbound
      split at hbound
      · unfold numberMember
        rw [hbound.1]
        rfl
      · rename_i hnone
        unfold numberMember at hnone ⊢
        rw [hbound.1]
        simpa using hnone
  | .schema, .arr l, v', h => by
      rw [Kept] at h
      obtain ⟨l', rfl, hl⟩ := h
      rw [Clean]
      exact listClean_of_kept l l' hl
  | .named, .obj fields, v', h => by
      rw [Kept] at h
      obtain ⟨fields', rfl, hfields⟩ := h
      rw [Clean]
      exact namedClean_of_kept fields fields' hfields
  | .data, v, v', h => by simp only [Clean]
  | .named, .null, v', h | .named, .bool _, v', h | .named, .num _, v', h | .named, .str _, v', h
  | .named, .arr _, v', h | .schema, .null, v', h | .schema, .bool _, v', h
  | .schema, .num _, v', h | .schema, .str _, v', h => by
      simp only [Kept] at h
      rw [h]
      simp only [Clean]

theorem listClean_of_kept : (l l' : List Json) → ListKept l l' → ListClean l'
  | [], l', h => by
      rw [ListKept] at h
      rw [h, ListClean]
      trivial
  | v :: l, l', h => by
      rw [ListKept] at h
      obtain ⟨v', rest, rfl, hv, hl⟩ := h
      rw [ListClean]
      exact ⟨clean_of_kept .schema v v' hv, listClean_of_kept l rest hl⟩

theorem membersClean_of_kept : (l l' : List (String × Json)) → MembersKept l l' → MembersClean l'
  | [], l', h => by
      rw [MembersKept] at h
      rw [h, MembersClean]
      trivial
  | (k, v) :: l, l', h => by
      rw [MembersKept] at h
      split at h
      · exact membersClean_of_kept l l' h
      · obtain ⟨v', rest, rfl, hv, hl⟩ := h
        rw [MembersClean]
        exact ⟨.inr (clean_of_kept (positionOf k) v v' hv), membersClean_of_kept l rest hl⟩

theorem namedClean_of_kept : (l l' : List (String × Json)) → NamedKept l l' → NamedClean l'
  | [], l', h => by
      rw [NamedKept] at h
      rw [h, NamedClean]
      trivial
  | (k, v) :: l, l', h => by
      rw [NamedKept] at h
      obtain ⟨v', rest, rfl, hv, hl⟩ := h
      rw [NamedClean]
      exact ⟨clean_of_kept .schema v v' hv, namedClean_of_kept l rest hl⟩

end

/-- A positive integer is fit, and its bound becomes one. -/
example : downlevelExclusiveMinimum
    (.obj [("exclusiveMinimum", Json.ofNat 0), ("type", .str "integer")]) =
      .obj [("minimum", Json.ofNat 1), ("type", .str "integer")] := by decide

end ExclusiveMinimum

end Switchback
