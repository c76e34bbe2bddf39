import Switchback.Protocols.Schema

/-!
# What a schema node is rewritten to

The rewriting without its warnings, and the members of the rewritten node.
-/

namespace Switchback

namespace Schema

open Lib

section Image

variable (print : Json → String) (caps : SchemaCaps) (g : Fields → OrdMap String Json)

/-! ### The rewriting without its warnings -/

/-- A keyword that the dialect has no place for. -/
def dropped (key : String) : Bool :=
  isMeta key || (!caps.unions && (key == "anyOf" || key == "oneOf")) ||
    (!caps.allOf && key == "allOf") || (!caps.constKeyword && key == "const") ||
    (!caps.refs && (key == "$ref" || key == "$defs" || key == "definitions")) ||
    (!caps.additionalProperties && key == "additionalProperties")

def valueImage (v : Json) : Json :=
  match v with
  | .obj fields => .obj (g fields).entries
  | other => other

/-- The strings of an enumeration. -/
def enumStrings (values : List Json) : List Json := values.map fun v => .str (stringify print v)

/-- What a member is rewritten to under its own name. -/
def entry (key : String) (value : Json) : Option Json :=
  if dropped caps key then none
  else if key == "type" && !caps.typeArrays then
    match value with
    | .arr types => chosenType types
    | _ => some value
  else if key == "enum" && caps.stringEnumsOnly then
    match value with
    | .arr values => some (.arr (enumStrings print values))
    | _ => some value
  else if key == "properties" then
    match value with
    | .obj props => some (.obj (OrdMap.ofList (props.map fun p => (p.1, valueImage g p.2))).entries)
    | _ => none
  else if key == "items" then
    match value, caps.typeArrays with
    | .arr items, false => items.head?.map (valueImage g)
    | _, _ => some (valueImage g value)
  else some value

/-- A member that makes its node a string. -/
def typesString (key : String) (value : Json) : Bool :=
  key == "enum" && caps.stringEnumsOnly && value.asArray.isSome

def stepImage (out : OrdMap String Json) (p : String × Json) : OrdMap String Json :=
  insertAll out ((entry print caps g p.1 p.2).toList.map (fun v => (p.1, v)) ++
    if typesString caps p.1 p.2 then [("type", .str "string")] else [])

def loopImage (obj : Fields) : OrdMap String Json := obj.foldl (stepImage print caps g) OrdMap.empty

def constImage (obj : Fields) (out : OrdMap String Json) : OrdMap String Json :=
  match caps.constKeyword, OrdMap.getList "const" obj with
  | false, some value =>
      if caps.stringEnumsOnly then
        (out.insert "type" (.str "string")).insert "enum" (.arr [.str (stringify print value)])
      else out.insert "enum" (.arr [value])
  | _, _ => out

def mergeStep (out : OrdMap String Json) (member : Json) : OrdMap String Json :=
  match member with
  | .obj fields => mergeInto out (g fields)
  | _ => out

/-- The members of `allOf` that are merged. -/
def allOfMembers (obj : Fields) : List Json :=
  match caps.allOf, OrdMap.getList "allOf" obj with
  | false, some (.arr members) => members
  | _, _ => []

def mergeImage (obj : Fields) (out : OrdMap String Json) : OrdMap String Json :=
  (allOfMembers caps obj).foldl (mergeStep g) out

/-- An object node without properties. -/
def lacksProperties (out : OrdMap String Json) : Bool :=
  !caps.emptyObjects && (out.get "type").bind Json.asStr == some "object" &&
    ((out.get "properties").bind Json.asObject).all List.isEmpty

def placeImage (out : OrdMap String Json) : OrdMap String Json :=
  if lacksProperties caps out then out.insert "properties" placeholderProperties else out

def nodeImage (obj : Fields) : OrdMap String Json :=
  placeImage caps (mergeImage caps g obj (constImage print caps obj (loopImage print caps g obj)))

/-- The branch that a union node is replaced by. -/
def branchOf (obj : Fields) : Option Fields :=
  (if caps.unions then none else unionOf obj).bind fun union => pickBranch union.2

/-- What a node is rewritten to. -/
def image : ℕ → Fields → OrdMap String Json
  | 0, _ => truncated
  | left + 1, obj =>
      match branchOf caps obj with
      | some branch => describe obj (image left branch)
      | none => nodeImage print caps (image left) obj

variable {sub : Fields → String → Rewritten (OrdMap String Json)} {g}

theorem downlevelValue_fst (hsub : ∀ f path, (sub f path).1 = g f) (v : Json) (path : String) :
    (downlevelValue sub v path).1 = valueImage g v := by
  cases v with
  | obj fields =>
    unfold downlevelValue valueImage
    dsimp only
    rw [hsub]
  | _ => rfl

theorem downlevelProperties_fst (hsub : ∀ f path, (sub f path).1 = g f) (props : Fields)
    (path : String) :
    (downlevelProperties sub props path).1 =
      OrdMap.ofList (props.map fun p => (p.1, valueImage g p.2)) := by
  unfold downlevelProperties
  simp only [List.map_map, Function.comp_def, downlevelValue_fst hsub]

theorem typesString_of_dropped {key : String} (h : dropped caps key = true) (value : Json) :
    typesString caps key value = false := by
  unfold typesString
  by_cases hk : key = "enum"
  · subst hk
    have hmeta : isMeta "enum" = false := rfl
    simp [dropped, hmeta] at h
  · rw [beq_eq_false_iff_ne.2 hk]
    rfl

theorem rewriteKey_fst (hsub : ∀ f path, (sub f path).1 = g f) (path : String)
    (p : String × Json) :
    (rewriteKey print caps sub path p).1 =
      (entry print caps g p.1 p.2).toList.map (fun v => (p.1, v)) ++
        if typesString caps p.1 p.2 then [("type", .str "string")] else [] := by
  obtain ⟨key, value⟩ := p
  by_cases hd : dropped caps key = true
  · have hentry : entry print caps g key value = none := if_pos hd
    rw [typesString_of_dropped caps hd, hentry]
    unfold dropped at hd
    unfold rewriteKey
    dsimp only
    by_cases h₁ : isMeta key = true
    · rw [if_pos h₁]
      rfl
    rw [if_neg h₁]
    by_cases h₂ : (!caps.unions && (key == "anyOf" || key == "oneOf")) = true
    · rw [if_pos h₂]
      rfl
    rw [if_neg h₂]
    by_cases h₃ : (!caps.allOf && key == "allOf") = true
    · rw [if_pos h₃]
      rfl
    rw [if_neg h₃]
    by_cases h₄ : (!caps.constKeyword && key == "const") = true
    · rw [if_pos h₄]
      rfl
    rw [if_neg h₄]
    by_cases h₅ : (!caps.refs && (key == "$ref" || key == "$defs" || key == "definitions")) = true
    · rw [if_pos h₅]
      rfl
    rw [if_neg h₅]
    by_cases h₆ : (!caps.additionalProperties && key == "additionalProperties") = true
    · rw [if_pos h₆]
      rfl
    rw [if_neg h₆]
    rw [Bool.not_eq_true] at h₁ h₂ h₃ h₄ h₅ h₆
    rw [h₁, h₂, h₃, h₄, h₅, h₆] at hd
    exact absurd hd (by decide)
  · have hkept := hd
    unfold dropped at hd
    simp only [Bool.or_eq_true, not_or] at hd
    obtain ⟨⟨⟨⟨⟨h₁, h₂⟩, h₃⟩, h₄⟩, h₅⟩, h₆⟩ := hd
    unfold rewriteKey entry typesString
    dsimp only
    rw [if_neg h₁, if_neg h₂, if_neg h₃, if_neg h₄, if_neg h₅, if_neg h₆, if_neg hkept]
    by_cases htype : (key == "type" && !caps.typeArrays) = true
    · obtain rfl : key = "type" := beq_iff_eq.1 (Bool.and_eq_true_iff.1 htype).1
      rw [if_pos htype, if_pos htype]
      cases value with
      | arr types => exact (List.append_nil _).symm
      | _ => rfl
    rw [if_neg htype, if_neg htype]
    by_cases henum : (key == "enum" && caps.stringEnumsOnly) = true
    · obtain rfl : key = "enum" := beq_iff_eq.1 (Bool.and_eq_true_iff.1 henum).1
      rw [if_pos henum, if_pos henum, henum]
      cases value <;> rfl
    rw [if_neg henum, if_neg henum, Bool.eq_false_iff.2 henum]
    by_cases hprops : (key == "properties") = true
    · obtain rfl : key = "properties" := beq_iff_eq.1 hprops
      rw [if_pos hprops, if_pos hprops]
      cases value with
      | obj props =>
        dsimp only
        rw [downlevelProperties_fst hsub]
        rfl
      | _ => rfl
    rw [if_neg hprops, if_neg hprops]
    by_cases hitems : (key == "items") = true
    · obtain rfl : key = "items" := beq_iff_eq.1 hitems
      rw [if_pos hitems, if_pos hitems]
      cases value with
      | arr items =>
        cases caps.typeArrays with
        | true => rfl
        | false =>
          cases items with
          | nil => rfl
          | cons first items =>
            change [("items", (downlevelValue sub first (joinPath path "items")).1)] = _
            rw [downlevelValue_fst hsub]
            rfl
      | obj fields =>
        dsimp only
        rw [downlevelValue_fst hsub]
        rfl
      | _ => rfl
    · rw [if_neg hitems, if_neg hitems]
      rfl

theorem rewriteLoop_fst (hsub : ∀ f path, (sub f path).1 = g f) (path : String) (obj : Fields) :
    (rewriteLoop print caps sub path obj).1 = loopImage print caps g obj := by
  have hfold (l : Fields) (acc : Rewritten (OrdMap String Json)) :
      (l.foldl
        (fun acc p =>
          let r := rewriteKey print caps sub path p
          (insertAll acc.1 r.1, acc.2 ++ r.2)) acc).1 =
        l.foldl (stepImage print caps g) acc.1 := by
    induction l generalizing acc with
    | nil => rfl
    | cons p l ih =>
      rw [List.foldl_cons, List.foldl_cons, ih]
      dsimp only
      rw [rewriteKey_fst print caps hsub]
      rfl
  exact hfold obj _

theorem rewriteConst_fst (path : String) (obj : Fields) (out : OrdMap String Json) :
    (rewriteConst print caps path obj out).1 = constImage print caps obj out := by
  unfold rewriteConst constImage
  cases caps.constKeyword <;> cases OrdMap.getList "const" obj <;> cases caps.stringEnumsOnly <;>
    rfl

theorem mergeAllOf_fst (hsub : ∀ f path, (sub f path).1 = g f) (path : String) (obj : Fields)
    (out : OrdMap String Json) :
    (mergeAllOf caps sub path obj out).1 = mergeImage caps g obj out := by
  have hfold (members : List Json) (n : ℕ) (acc : Rewritten (OrdMap String Json)) :
      ((members.zipIdx n).foldl (mergeMember sub path) acc).1 =
        members.foldl (mergeStep g) acc.1 := by
    induction members generalizing n acc with
    | nil => rfl
    | cons member members ih =>
      rw [List.zipIdx_cons, List.foldl_cons, List.foldl_cons, ih]
      cases member with
      | obj fields =>
        unfold mergeMember mergeStep
        dsimp only
        rw [hsub]
      | _ => rfl
  unfold mergeAllOf mergeImage allOfMembers
  cases caps.allOf with
  | true => rfl
  | false =>
    cases OrdMap.getList "allOf" obj with
    | none => rfl
    | some v =>
      cases v with
      | arr members => exact hfold members 0 (out, [])
      | _ => rfl

theorem addPlaceholder_fst (path : String) (out : OrdMap String Json) :
    (addPlaceholder caps path out).1 = placeImage caps out := by
  unfold addPlaceholder placeImage lacksProperties
  split_ifs <;> rfl

theorem rewriteNode_fst (hsub : ∀ f path, (sub f path).1 = g f) (obj : Fields) (path : String) :
    (rewriteNode print caps sub obj path).1 = nodeImage print caps g obj := by
  unfold rewriteNode nodeImage
  dsimp only
  rw [addPlaceholder_fst, mergeAllOf_fst caps hsub, rewriteConst_fst,
    rewriteLoop_fst print caps hsub]

/-- **The rewriting of a node** does not depend on its path. -/
theorem downlevelObject_fst (left : ℕ) (obj : Fields) (path : String) :
    (downlevelObject print caps left obj path).1 = image print caps left obj := by
  induction left generalizing obj path with
  | zero => rfl
  | succ left ih =>
    unfold downlevelObject image branchOf
    cases (if caps.unions then none else unionOf obj) with
    | none => exact rewriteNode_fst print caps ih obj path
    | some union =>
      obtain ⟨keyword, branches⟩ := union
      rw [Option.bind_some]
      dsimp only
      cases pickBranch branches with
      | none => exact rewriteNode_fst print caps ih obj path
      | some branch =>
        dsimp only
        rw [ih]

theorem downlevel_eq (s : Json) :
    downlevel print caps s = valueImage (image print caps maxDownlevelDepth) s :=
  downlevelValue_fst (downlevelObject_fst print caps maxDownlevelDepth) s ""

/-! ### The members of the rewritten node -/

/-- The members of an object are in key order. -/
abbrev SortedFields {ν : Type} (obj : List (String × ν)) : Prop :=
  obj.Pairwise fun p q => p.1 < q.1

theorem typesString_key {key : String} {value : Json} (h : typesString caps key value = true) :
    key = "enum" := by
  unfold typesString at h
  rw [Bool.and_eq_true, Bool.and_eq_true] at h
  exact beq_iff_eq.1 h.1.1

variable {k : String} (out : OrdMap String Json) {obj : Fields}

theorem get_stepImage (hk : k ≠ "type") (out : OrdMap String Json) (p : String × Json) :
    (stepImage print caps g out p).get k =
      if k = p.1 then (entry print caps g p.1 p.2).or (out.get k) else out.get k := by
  have htail (out : OrdMap String Json) :
      (insertAll out (if typesString caps p.1 p.2 then [("type", .str "string")] else [])).get k =
        out.get k := by
    cases typesString caps p.1 p.2 with
    | false => rfl
    | true => exact (OrdMap.get_insert _ _ _ _).trans (if_neg hk)
  have hsplit : stepImage print caps g out p =
      insertAll (insertAll out ((entry print caps g p.1 p.2).toList.map fun v => (p.1, v)))
        (if typesString caps p.1 p.2 then [("type", .str "string")] else []) :=
    List.foldl_append
  rw [hsplit, htail]
  cases entry print caps g p.1 p.2 with
  | none =>
    rw [Option.none_or, ite_self]
    rfl
  | some v =>
    rw [Option.some_or]
    exact OrdMap.get_insert out p.1 k v

theorem get_stepImage_type (p : String × Json) :
    (stepImage print caps g out p).get "type" =
      if typesString caps p.1 p.2 then some (.str "string")
      else if p.1 = "type" then (entry print caps g p.1 p.2).or (out.get "type")
      else out.get "type" := by
  unfold stepImage insertAll
  rw [List.foldl_append]
  cases htypes : typesString caps p.1 p.2 with
  | true => exact (OrdMap.get_insert _ _ _ _).trans (if_pos rfl)
  | false =>
    cases entry print caps g p.1 p.2 with
    | none =>
      rw [Option.none_or, ite_self]
      rfl
    | some v =>
      refine (OrdMap.get_insert out p.1 "type" v).trans ?_
      by_cases hp : p.1 = "type"
      · rw [if_pos hp.symm, if_neg Bool.false_ne_true, if_pos hp, Option.some_or]
      · rw [if_neg (Ne.symm hp), if_neg Bool.false_ne_true, if_neg hp]

/-- A key comes after no key that is above it. -/
theorem getList_none_of_head {ν : Type} {p : String × ν} {l : List (String × ν)}
    (h : SortedFields (p :: l)) (hk : k ≤ p.1) : OrdMap.getList k l = none :=
  OrdMap.getList_eq_none_of_lt fun _ hq => lt_of_le_of_lt hk ((List.pairwise_cons.1 h).1 _ hq)

/-- After the loop a member is what its own entry says, `type` apart. -/
theorem get_loopImage (h : SortedFields obj) (hk : k ≠ "type") :
    (loopImage print caps g obj).get k =
      (OrdMap.getList k obj).bind (entry print caps g k) := by
  have hfold (out : OrdMap String Json) :
      (obj.foldl (stepImage print caps g) out).get k =
        ((OrdMap.getList k obj).bind (entry print caps g k)).or (out.get k) := by
    induction obj generalizing out with
    | nil => rfl
    | cons p l ih =>
      rw [List.foldl_cons, ih (List.pairwise_cons.1 h).2, get_stepImage print caps hk,
        OrdMap.getList]
      by_cases hkp : k = p.1
      · rw [getList_none_of_head h hkp.le, if_pos hkp, if_pos hkp, hkp]
        rfl
      · rw [if_neg hkp, if_neg hkp]
  exact (hfold OrdMap.empty).trans (Option.or_none)

/-- An enumeration makes its node a string, for the time being. -/
def enumType (obj : Fields) : Option Json :=
  if (OrdMap.getList "enum" obj).any (typesString caps "enum") then some (.str "string") else none

theorem enumType_of_none (h : OrdMap.getList "enum" obj = none) : enumType caps obj = none := by
  unfold enumType
  rw [h]
  rfl

theorem enumType_of_some {value : Json} (h : OrdMap.getList "enum" obj = some value) :
    enumType caps obj =
      if typesString caps "enum" value then some (.str "string") else none := by
  unfold enumType
  rw [h]
  rfl

theorem enum_lt_type : "enum" < "type" := by decide

/-- After the loop the type is that of the entry, or else that of the enumeration. -/
theorem get_loopImage_type (h : SortedFields obj) :
    (loopImage print caps g obj).get "type" =
      ((OrdMap.getList "type" obj).bind (entry print caps g "type")).or (enumType caps obj) := by
  have hfold (out : OrdMap String Json) :
      (obj.foldl (stepImage print caps g) out).get "type" =
        ((OrdMap.getList "type" obj).bind (entry print caps g "type")).or
          ((enumType caps obj).or (out.get "type")) := by
    induction obj generalizing out with
    | nil => rfl
    | cons p l ih =>
      obtain ⟨key, value⟩ := p
      rw [List.foldl_cons, ih (List.pairwise_cons.1 h).2, get_stepImage_type, OrdMap.getList]
      dsimp only
      by_cases htype : key = "type"
      · subst htype
        have htypes : typesString caps "type" value = false := rfl
        have hnone : OrdMap.getList "enum" l = none := getList_none_of_head h enum_lt_type.le
        have hnone' : OrdMap.getList "enum" (("type", value) :: l) = none := by
          rw [OrdMap.getList, if_neg (by decide), hnone]
        rw [getList_none_of_head h le_rfl, enumType_of_none caps hnone,
          enumType_of_none caps hnone', htypes, if_pos rfl, if_pos rfl]
        rfl
      rw [if_neg htype, if_neg (Ne.symm htype)]
      by_cases henum : key = "enum"
      · subst henum
        have hsome : OrdMap.getList "enum" (("enum", value) :: l) = some value := by
          rw [OrdMap.getList, if_pos rfl]
        rw [enumType_of_none caps (getList_none_of_head h le_rfl), enumType_of_some caps hsome]
        cases typesString caps "enum" value <;> rfl
      · have htypes : typesString caps key value = false := by
          cases ht : typesString caps key value with
          | false => rfl
          | true => exact absurd (typesString_key caps ht) henum
        have hsame : enumType caps ((key, value) :: l) = enumType caps l := by
          unfold enumType
          rw [OrdMap.getList, if_neg (Ne.symm henum)]
        rw [htypes, hsame]
        rfl
  exact (hfold OrdMap.empty).trans (by
    rw [OrdMap.get_empty, Option.or_none])

/-- What a member becomes that both nodes have. -/
def mergeValue (key : String) (existing incoming : Json) : Json :=
  match existing, incoming with
  | .obj a, .obj b => if key = "properties" then .obj (absorb a b) else existing
  | .arr a, .arr b => if key = "required" then .arr (absorbItems a b) else existing
  | _, _ => existing

def mergeGet (key : String) (existing incoming : Option Json) : Option Json :=
  match existing, incoming with
  | some a, some b => some (mergeValue key a b)
  | some a, none => some a
  | none, b => b

theorem get_mergeKey (p : String × Json) (k : String) :
    (mergeKey out p).get k = if k = p.1 then mergeGet k (out.get k) (some p.2) else out.get k := by
  obtain ⟨key, value⟩ := p
  unfold mergeKey
  dsimp only
  by_cases hk : k = key
  · subst hk
    rw [if_pos rfl]
    cases ho : out.get k with
    | none => exact (OrdMap.get_insert out k k value).trans (if_pos rfl)
    | some a =>
      unfold mergeGet mergeValue
      cases a with
      | obj a =>
        dsimp only
        by_cases hprops : k = "properties"
        · rw [if_pos hprops]
          cases value with
          | obj b =>
            dsimp only
            rw [if_pos hprops]
            exact (OrdMap.get_insert _ _ _ _).trans (if_pos rfl)
          | _ => exact ho
        · rw [if_neg hprops, ho]
          cases value <;> simp [hprops]
      | arr a =>
        dsimp only
        by_cases hreq : k = "required"
        · rw [if_pos hreq]
          cases value with
          | arr b =>
            dsimp only
            rw [if_pos hreq]
            exact (OrdMap.get_insert _ _ _ _).trans (if_pos rfl)
          | _ => exact ho
        · rw [if_neg hreq, ho]
          cases value <;> simp [hreq]
      | _ => exact ho
  · have hother (v : Json) : (out.insert key v).get k = out.get k :=
      (OrdMap.get_insert out key k v).trans (if_neg hk)
    rw [if_neg hk]
    cases out.get key with
    | none => exact hother value
    | some a =>
      cases a with
      | obj a =>
        dsimp only
        split_ifs
        · cases value with
          | obj b => exact hother _
          | _ => rfl
        · rfl
      | arr a =>
        dsimp only
        split_ifs
        · cases value with
          | arr b => exact hother _
          | _ => rfl
        · rfl
      | _ => rfl

/-- **Merging** works member by member. -/
theorem get_mergeInto (out src : OrdMap String Json) (k : String) :
    (mergeInto out src).get k = mergeGet k (out.get k) (src.get k) := by
  have hfold (l : Fields) (h : SortedFields l) (out : OrdMap String Json) :
      (l.foldl mergeKey out).get k = mergeGet k (out.get k) (OrdMap.getList k l) := by
    induction l generalizing out with
    | nil =>
      rw [List.foldl_nil]
      cases out.get k <;> rfl
    | cons p l ih =>
      rw [List.foldl_cons, ih (List.pairwise_cons.1 h).2, get_mergeKey, OrdMap.getList]
      by_cases hkp : k = p.1
      · rw [getList_none_of_head h hkp.le, if_pos hkp, if_pos hkp]
        cases mergeGet k (out.get k) (some p.2) <;> rfl
      · rw [if_neg hkp, if_neg hkp]
  exact hfold src.entries src.sorted out

theorem get_placeImage (k : String) :
    (placeImage caps out).get k =
      if lacksProperties caps out = true ∧ k = "properties" then some placeholderProperties
      else out.get k := by
  unfold placeImage
  by_cases h : lacksProperties caps out = true
  · rw [if_pos h, OrdMap.get_insert]
    by_cases hk : k = "properties"
    · rw [if_pos hk, if_pos ⟨h, hk⟩]
    · rw [if_neg hk, if_neg fun h' => hk h'.2]
  · rw [if_neg h, if_neg fun h' => h h'.1]

end Image

end Schema

end Switchback
