import Switchback.Protocols.SchemaWarnings

/-!
# Schemas that are rewritten without a warning

A schema is faithful when its rewrite warns of nothing, and what such a rewrite changes is harmless.
-/

namespace Switchback

namespace Schema

open Lib

section Reports

variable (print : Json → String) (caps : SchemaCaps)

/-! ### The nodes that are warned about -/

/-- An object node without properties, where the dialect has no place for one. -/
def EmptyObject (fields : Fields) : Prop :=
  caps.emptyObjects = false ∧
    ((OrdMap.getList "type" fields).bind fun t => if caps.typeArrays then some t else declaredType t) =
      some (.str "object") ∧
    ∀ props, OrdMap.getList "properties" fields = some (.obj props) → props = []

/-- A node beyond the cap, or with a construct that the dialect has no place for. -/
def Reports (left : ℕ) (fields : Fields) : Prop :=
  left = 0 ∨ (∃ p ∈ fields, (localLossiness caps p).isSome = true) ∨ LosesConst caps fields ∨
    EmptyObject caps fields

/-- A node without a member that is warned about. -/
structure Silent (fields : Fields) : Prop where
  members : ∀ p ∈ fields, localLossiness caps p = none
  const : ¬ LosesConst caps fields

variable {caps}

variable {fields : Fields}

theorem reports_of_not_silent (h : ¬ Silent caps fields) :
    (∃ p ∈ fields, (localLossiness caps p).isSome = true) ∨ LosesConst caps fields := by
  by_contra hnone
  rw [not_or] at hnone
  refine h ⟨fun p hp => ?_, hnone.2⟩
  by_contra hlocal
  exact hnone.1 ⟨p, hp, Option.isSome_iff_ne_none.2 hlocal⟩

theorem reports_succ_iff {left : ℕ} :
    Reports caps (left + 1) fields ↔ ¬ Silent caps fields ∨ EmptyObject caps fields := by
  unfold Reports
  constructor
  · rintro (hleft | ⟨p, hp, hlocal⟩ | hconst | hobject)
    · cases hleft
    · refine Or.inl fun h => ?_
      rw [h.members p hp] at hlocal
      cases hlocal
    · exact Or.inl fun h => h.const hconst
    · exact Or.inr hobject
  · rintro (hsilent | hobject)
    · exact Or.inr ((reports_of_not_silent hsilent).imp id Or.inl)
    · exact Or.inr (Or.inr (Or.inr hobject))

theorem lossiness_of_dropped {key : String} (h : dropped caps key = true) (value : Json) :
    (localLossiness caps (key, value)).isSome = true ∨ caps.constKeyword = false ∧ key = "const" := by
  unfold dropped at h
  unfold localLossiness
  dsimp only
  by_cases h₁ : isMeta key = true
  · rw [if_pos h₁]
    exact Or.inl rfl
  rw [if_neg h₁]
  by_cases h₂ : (!caps.unions && (key == "anyOf" || key == "oneOf")) = true
  · rw [if_pos h₂]
    exact Or.inl rfl
  rw [if_neg h₂]
  by_cases h₃ : (!caps.allOf && key == "allOf") = true
  · rw [if_pos h₃]
    exact Or.inl rfl
  rw [if_neg h₃]
  by_cases h₄ : (!caps.constKeyword && key == "const") = true
  · rw [Bool.and_eq_true, Bool.not_eq_true', beq_iff_eq] at h₄
    exact Or.inr h₄
  rw [if_neg h₄]
  by_cases h₅ : (!caps.refs && (key == "$ref" || key == "$defs" || key == "definitions")) = true
  · rw [if_pos h₅]
    exact Or.inl rfl
  rw [if_neg h₅]
  by_cases h₆ : (!caps.additionalProperties && key == "additionalProperties") = true
  · rw [if_pos h₆]
    exact Or.inl rfl
  rw [Bool.not_eq_true] at h₁ h₂ h₃ h₄ h₅ h₆
  rw [h₁, h₂, h₃, h₄, h₅, h₆] at h
  exact absurd h (by decide)

theorem Silent.kept (h : Silent caps fields) {key : String} {value : Json}
    (hget : OrdMap.getList key fields = some value) : dropped caps key = false := by
  cases hd : dropped caps key with
  | false => rfl
  | true =>
    rcases lossiness_of_dropped hd value with hsome | ⟨hcaps, rfl⟩
    · rw [h.members _ (OrdMap.mem_of_getList hget)] at hsome
      cases hsome
    · exact absurd ⟨hcaps, by rw [hget]; rfl⟩ h.const

theorem Silent.allOf (h : Silent caps fields) : allOfMembers caps fields = [] := by
  unfold allOfMembers
  cases hc : caps.allOf with
  | true => rfl
  | false =>
    cases hget : OrdMap.getList "allOf" fields with
    | none => rfl
    | some v =>
      have hkept := h.kept hget
      simp [dropped, hc] at hkept

theorem Silent.constImage (h : Silent caps fields) (out : OrdMap String Json) :
    constImage print caps fields out = out := by
  unfold Schema.constImage
  cases hc : caps.constKeyword with
  | true => rfl
  | false =>
    cases hget : OrdMap.getList "const" fields with
    | none => rfl
    | some v => exact absurd ⟨hc, by rw [hget]; rfl⟩ h.const

theorem Silent.branchOf (h : Silent caps fields) : branchOf caps fields = none := by
  unfold Schema.branchOf
  cases hu : (if caps.unions then none else unionOf fields) with
  | none => rfl
  | some union =>
    obtain ⟨p, hp, hlocal⟩ := unionOf_lossiness hu
    rw [h.members p hp] at hlocal
    cases hlocal

/-! ### The entries of a node -/

theorem kept_type : dropped caps "type" = false := not_dropped rfl (by decide)

theorem kept_enum : dropped caps "enum" = false := not_dropped rfl (by decide)

theorem kept_items : dropped caps "items" = false := not_dropped rfl (by decide)

theorem entry_type_eq (g : Fields → OrdMap String Json) (v : Json) :
    entry print caps g "type" v = if caps.typeArrays then some v else declaredType v := by
  unfold entry
  rw [kept_type, if_neg Bool.false_ne_true]
  cases caps.typeArrays with
  | true =>
    rw [if_neg (by decide), if_neg (by simp), if_neg (by decide), if_neg (by decide)]
    rfl
  | false =>
    rw [if_pos (by decide)]
    cases v <;> rfl

theorem lacksProperties_iff (g : Fields → OrdMap String Json) (h : Json.Sorted (.obj fields)) :
    lacksProperties caps (loopImage print caps g fields) = true ↔ EmptyObject caps fields := by
  have htype : ((loopImage print caps g fields).get "type").bind Json.asStr = some "object" ↔
      ((OrdMap.getList "type" fields).bind fun t =>
        if caps.typeArrays then some t else declaredType t) = some (.str "object") := by
    have hstr (v : Json) : v.asStr = some "object" ↔ v = .str "object" := by
      cases v <;> simp [Json.asStr]
    rw [get_loopImage_type print caps h.keys]
    simp only [entry_type_eq]
    cases (OrdMap.getList "type" fields).bind fun t =>
      if caps.typeArrays then some t else declaredType t with
    | some t => simp [hstr]
    | none =>
      unfold enumType
      split_ifs
      · exact iff_of_false (by decide) fun h => by cases h
      · exact iff_of_false (fun h => by cases h) fun h => by cases h
  have hprops : (((loopImage print caps g fields).get "properties").bind Json.asObject).all
      List.isEmpty = true ↔
        ∀ props, OrdMap.getList "properties" fields = some (.obj props) → props = [] := by
    rw [get_loopImage print caps h.keys (by decide)]
    cases hget : OrdMap.getList "properties" fields with
    | none => simp
    | some v =>
      cases v with
      | obj props =>
        rw [Option.bind_some, entry_properties_obj g (h.getList hget).keys]
        simp [Json.asObject]
      | _ =>
        rw [Option.bind_some, entry_properties_not_obj g fun _ heq => by cases heq]
        simp
  unfold lacksProperties EmptyObject
  rw [Bool.and_eq_true, Bool.and_eq_true, hprops, beq_iff_eq, htype, Bool.not_eq_true', and_assoc]

/-- A silent node is rewritten member by member. -/
theorem Silent.image (h : Silent caps fields) (hobject : ¬ EmptyObject caps fields)
    (hs : Json.Sorted (.obj fields)) (left : ℕ) :
    image print caps (left + 1) fields = loopImage print caps (image print caps left) fields := by
  unfold Schema.image
  rw [h.branchOf]
  unfold nodeImage mergeImage placeImage
  rw [h.constImage, h.allOf]
  exact if_neg fun hlacks => hobject ((lacksProperties_iff print _ hs).1 hlacks)

theorem childSchemas_sorted {p : String × Json} (h : p.2.Sorted) :
    ∀ v ∈ childSchemas caps p, v.Sorted := by
  obtain ⟨key, value⟩ := p
  intro v hv
  unfold childSchemas at hv
  dsimp only at hv h
  by_cases hprops : (key == "properties") = true
  · rw [if_pos hprops] at hv
    cases value with
    | obj props =>
      obtain ⟨p, hp, rfl⟩ := List.mem_map.1 hv
      exact h.members p hp
    | _ => cases hv
  rw [if_neg hprops] at hv
  by_cases hitems : (key == "items") = true
  · rw [if_pos hitems] at hv
    cases value with
    | arr items =>
      cases hc : caps.typeArrays with
      | true =>
        rw [hc] at hv
        obtain rfl := List.mem_singleton.1 hv
        exact h
      | false =>
        rw [hc] at hv
        cases items with
        | nil => cases hv
        | cons first rest =>
          obtain rfl := List.mem_singleton.1 hv
          exact h.elems _ List.mem_cons_self
    | _ =>
      obtain rfl := List.mem_singleton.1 hv
      exact h
  · rw [if_neg hitems] at hv
    cases hv

/-- **A schema has a warning** exactly when the rewriting comes to a node that is warned about. -/
theorem warned_any_iff (left : ℕ) {v : Json} (h : v.Sorted) :
    Warned print (fun _ => True) caps left v ↔ Visits caps (Reports caps) left v := by
  induction left generalizing v with
  | zero =>
    cases v with
    | obj obj => exact iff_of_true (warns_cons.2 (Or.inl trivial)) (.here (Or.inl rfl))
    | _ => exact iff_of_false warns_nil fun h => by cases h
  | succ left ih =>
    cases v with
    | obj obj =>
      refine (warned_succ print trivial).trans (Iff.trans ?_ visits_succ.symm)
      rw [reports_succ_iff]
      by_cases hs : Silent caps obj
      · have hchildren : (∃ p ∈ obj, ∃ v ∈ childSchemas caps p, Warned print (fun _ => True) caps left v) ↔
            ∃ p ∈ obj, ∃ v ∈ childSchemas caps p, Visits caps (Reports caps) left v :=
          exists_congr fun p => and_congr_right fun hp => exists_congr fun v =>
            and_congr_right fun hv => ih (childSchemas_sorted (h.members p hp) v hv)
        have hlocal : ¬ ∃ p ∈ obj, ∃ lossiness, localLossiness caps p = some lossiness ∧ True := by
          rintro ⟨p, hp, lossiness, hlossiness, -⟩
          rw [hs.members p hp] at hlossiness
          cases hlossiness
        have hlacks : lacksProperties caps (mergeImage caps (image print caps left) obj
            (constImage print caps obj (loopImage print caps (image print caps left) obj))) = true ↔
              EmptyObject caps obj := by
          unfold mergeImage
          rw [hs.constImage, hs.allOf]
          exact lacksProperties_iff print _ h
        rw [or_iff_right hlocal, hs.allOf, hchildren, hlacks]
        simp only [hs, hs.const, List.not_mem_nil, false_and, exists_false, and_true,
          false_or, or_false, not_true_eq_false]
        exact or_comm
      · refine iff_of_true ?_ (Or.inl (Or.inl hs))
        rcases reports_of_not_silent hs with ⟨p, hp, hlocal⟩ | hconst
        · obtain ⟨lossiness, hlossiness⟩ := Option.isSome_iff_exists.1 hlocal
          exact Or.inl ⟨p, hp, lossiness, hlossiness, trivial⟩
        · exact Or.inr (Or.inr (Or.inl ⟨hconst, trivial⟩))
    | _ => exact iff_of_false warns_nil fun h => by cases h

end Reports

/-! ### Equality up to the types -/

/-- A type array of one element may be collapsed, and a string enumeration may be given a type. -/
def AlikeType (fields fields' : Fields) : Prop :=
  OrdMap.getList "type" fields' = OrdMap.getList "type" fields ∨
  (∃ t, OrdMap.getList "type" fields = some (.arr [t]) ∧
    OrdMap.getList "type" fields' = some t) ∨
  (OrdMap.getList "type" fields = none ∧
    (∃ values, OrdMap.getList "enum" fields = some (.arr values) ∧
      ∀ v ∈ values, isString v = true) ∧
    OrdMap.getList "type" fields' = some (.str "string"))

mutual

/-- Equality up to the types of the nodes. -/
inductive Alike : Json → Json → Prop
  | same (v : Json) : Alike v v
  | node {fields fields' : Fields} (type : AlikeType fields fields')
      (items : AlikeOption (OrdMap.getList "items" fields) (OrdMap.getList "items" fields'))
      (props : AlikeProps (OrdMap.getList "properties" fields)
        (OrdMap.getList "properties" fields'))
      (rest : ∀ k, k ∉ ["type", "items", "properties"] →
        OrdMap.getList k fields' = OrdMap.getList k fields) :
      Alike (.obj fields) (.obj fields')

inductive AlikeOption : Option Json → Option Json → Prop
  | absent : AlikeOption none none
  | present {v v' : Json} (h : Alike v v') : AlikeOption (some v) (some v')

inductive AlikeProps : Option Json → Option Json → Prop
  | same (v : Option Json) : AlikeProps v v
  | props {props props' : Fields}
      (h : ∀ k, AlikeOption (OrdMap.getList k props) (OrdMap.getList k props')) :
      AlikeProps (some (.obj props)) (some (.obj props'))

end

theorem AlikeOption.same (v : Option Json) : AlikeOption v v := by
  cases v with
  | none => exact .absent
  | some v => exact .present (.same v)

theorem AlikeOption.get {v v' : Json} (h : AlikeOption (some v) (some v')) : Alike v v' := by
  cases h with
  | present h => exact h

variable {fields fields' : Fields}

theorem Alike.items (h : Alike (.obj fields) (.obj fields')) :
    AlikeOption (OrdMap.getList "items" fields) (OrdMap.getList "items" fields') := by
  cases h with
  | same => exact .same _
  | node _ items _ _ => exact items

theorem Alike.props (h : Alike (.obj fields) (.obj fields')) :
    AlikeProps (OrdMap.getList "properties" fields) (OrdMap.getList "properties" fields') := by
  cases h with
  | same => exact .same _
  | node _ _ props _ => exact props

theorem Alike.type (h : Alike (.obj fields) (.obj fields')) : AlikeType fields fields' := by
  cases h with
  | same => exact Or.inl rfl
  | node type _ _ _ => exact type

theorem AlikeProps.get {props props' : Fields}
    (h : AlikeProps (some (.obj props)) (some (.obj props'))) (k : String) :
    AlikeOption (OrdMap.getList k props) (OrdMap.getList k props') := by
  cases h with
  | same => exact .same _
  | props h => exact h k

/-! ### What is dropped without a warning -/

/-- Properties that are no object, and a type array without a type, are dropped. -/
def Malformed (caps : SchemaCaps) (fields : Fields) : Prop :=
  (∃ v, OrdMap.getList "properties" fields = some v ∧ v.asObject = none) ∨
    (caps.typeArrays = false ∧ OrdMap.getList "type" fields = some (.arr []))

section Silent

variable (print : Json → String) {caps : SchemaCaps}

theorem type_lossless {types : List Json}
    (h : localLossiness caps ("type", .arr types) = none) (hc : caps.typeArrays = false) :
    types.length ≤ 1 := by
  have hmeta : isMeta "type" = false := rfl
  simpa [localLossiness, hmeta, hc] using h

theorem enum_lossless {values : List Json}
    (h : localLossiness caps ("enum", .arr values) = none) (hc : caps.stringEnumsOnly = true) :
    ∀ v ∈ values, isString v = true := by
  have hmeta : isMeta "enum" = false := rfl
  simpa [localLossiness, hmeta, hc] using h

theorem items_lossless {items : List Json}
    (h : localLossiness caps ("items", .arr items) = none) : caps.typeArrays = true := by
  have hmeta : isMeta "items" = false := rfl
  cases hc : caps.typeArrays with
  | true => rfl
  | false => simp [localLossiness, hmeta, hc] at h

theorem enumStrings_of_isString {values : List Json} (h : ∀ v ∈ values, isString v = true) :
    enumStrings print values = values := by
  refine (List.map_congr_left fun v hv => ?_).trans (List.map_id _)
  have hv := h v hv
  cases v with
  | str s => rfl
  | _ => cases hv

variable {fields : Fields} {s : Json}

/-- The items of a silent node are one schema. -/
theorem Silent.items (h : Silent caps fields) (g : Fields → OrdMap String Json)
    {v : Json} (hget : OrdMap.getList "items" fields = some v) :
    entry print caps g "items" v = some (valueImage g v) ∧ childSchemas caps ("items", v) = [v] := by
  have hlocal := h.members _ (OrdMap.mem_of_getList hget)
  unfold entry childSchemas
  rw [kept_items, if_neg Bool.false_ne_true, if_neg (by simp), if_neg (by simp), if_neg (by simp),
    if_pos (by simp), if_neg (by simp), if_pos (by simp)]
  cases v with
  | arr items =>
    rw [items_lossless hlocal]
    exact ⟨rfl, rfl⟩
  | _ => exact ⟨rfl, rfl⟩

/-- The members of a silent node that hold no schemas, `type` apart, are kept. -/
theorem Silent.rest (h : Silent caps fields) (g : Fields → OrdMap String Json)
    {k : String} (hk : k ∉ ["type", "items", "properties"]) {v : Json}
    (hget : OrdMap.getList k fields = some v) : entry print caps g k v = some v := by
  by_cases henum : k = "enum"
  · subst henum
    have hlocal := h.members _ (OrdMap.mem_of_getList hget)
    unfold entry
    rw [kept_enum, if_neg Bool.false_ne_true, if_neg (by simp)]
    cases hc : caps.stringEnumsOnly with
    | true =>
      rw [if_pos (by simp)]
      cases v with
      | arr values =>
        exact congrArg (fun l => some (Json.arr l))
          (enumStrings_of_isString print (enum_lossless hlocal hc))
      | _ => rfl
    | false =>
      rw [if_neg (by simp), if_neg (by simp), if_neg (by simp)]
  · refine entry_other g ?_ (h.kept hget) v
    simp only [List.mem_cons, List.not_mem_nil, or_false, not_or] at hk ⊢
    exact ⟨hk.1, henum, hk.2.2, hk.2.1⟩

/-- The type of a silent node. -/
theorem Silent.type {out : Fields} (h : Silent caps fields) (hout : OrdMap.getList "type" out =
      ((OrdMap.getList "type" fields).bind (entry print caps g "type")).or (enumType caps fields))
    (hm : ¬ Malformed caps fields) : AlikeType fields out := by
  unfold AlikeType
  cases hget : OrdMap.getList "type" fields with
  | none =>
    rw [hget, Option.bind_none, Option.none_or] at hout
    rw [hout]
    cases henum : OrdMap.getList "enum" fields with
    | none => exact Or.inl (enumType_of_none caps henum)
    | some v =>
      rw [enumType_of_some caps henum]
      cases htypes : typesString caps "enum" v with
      | false => exact Or.inl rfl
      | true =>
        unfold typesString at htypes
        rw [Bool.and_eq_true, Bool.and_eq_true] at htypes
        cases v with
        | arr values =>
          have hlocal := h.members _ (OrdMap.mem_of_getList henum)
          exact Or.inr (Or.inr ⟨rfl, ⟨values, rfl, enum_lossless hlocal htypes.1.2⟩, rfl⟩)
        | _ => cases htypes.2
  | some t =>
    rw [hget, Option.bind_some, entry_type_eq] at hout
    cases hc : caps.typeArrays with
    | true =>
      rw [hc, if_pos rfl, Option.some_or] at hout
      exact Or.inl hout
    | false =>
      rw [hc, if_neg Bool.false_ne_true] at hout
      cases t with
      | arr types =>
        have hlength := type_lossless (h.members _ (OrdMap.mem_of_getList hget)) hc
        match types, hlength with
        | [], _ => exact absurd (Or.inr ⟨hc, hget⟩) hm
        | [t], _ =>
          have hchosen : chosenType [t] = some t := by
            cases hnull : isNullType t <;> simp [chosenType, hnull]
          rw [declaredType, hchosen, Option.some_or] at hout
          exact Or.inr (Or.inl ⟨t, rfl, hout⟩)
      | _ => exact Or.inl hout

/-- A schema that is not warned about, and from which nothing is dropped, is as it was. -/
theorem alike_of_silent (left : ℕ) (h : s.Sorted) (hr : ¬ Visits caps (Reports caps) left s)
    (hm : ¬ Visits caps (fun _ => Malformed caps) left s) :
    Alike s (valueImage (image print caps left) s) := by
  induction left generalizing s with
  | zero =>
    cases s with
    | obj obj => exact absurd (.here (Or.inl rfl)) hr
    | _ => exact .same _
  | succ left ih =>
    cases s with
    | obj obj =>
      have hnode : ¬ Reports caps (left + 1) obj := fun h' => hr (.here h')
      rw [reports_succ_iff, not_or, not_not] at hnode
      obtain ⟨hsilent, hobject⟩ := hnode
      have hmal : ¬ Malformed caps obj := fun h' => hm (.here h')
      have hchild {p : String × Json} (hp : p ∈ obj) {v : Json} (hv : v ∈ childSchemas caps p) :
          Alike v (valueImage (image print caps left) v) :=
        ih (childSchemas_sorted (h.members p hp) v hv) (fun h' => hr (.child hp hv h'))
          fun h' => hm (.child hp hv h')
      change Alike (.obj obj) (.obj (image print caps (left + 1) obj).entries)
      rw [hsilent.image print hobject h]
      have hloop {k : String} (hk : k ≠ "type") :
          (loopImage print caps (image print caps left) obj).get k =
            (OrdMap.getList k obj).bind (entry print caps (image print caps left) k) :=
        get_loopImage print caps h.keys hk
      refine .node (hsilent.type print (get_loopImage_type print caps h.keys) hmal) ?_ ?_ ?_
      · change AlikeOption _ ((loopImage print caps (image print caps left) obj).get "items")
        rw [hloop (by decide)]
        cases hget : OrdMap.getList "items" obj with
        | none => exact .absent
        | some v =>
          obtain ⟨hentry, hchildren⟩ := hsilent.items print (image print caps left) hget
          rw [Option.bind_some, hentry]
          refine .present (hchild (OrdMap.mem_of_getList hget) ?_)
          rw [hchildren]
          exact List.mem_singleton_self v
      · change AlikeProps _ ((loopImage print caps (image print caps left) obj).get "properties")
        rw [hloop (by decide)]
        cases hget : OrdMap.getList "properties" obj with
        | none => exact .same _
        | some v =>
          cases v with
          | obj props =>
            rw [Option.bind_some, entry_properties_obj _ (h.getList hget).keys]
            refine .props fun k => ?_
            rw [OrdMap.getList_map]
            cases hk : OrdMap.getList k props with
            | none => exact .absent
            | some v =>
              exact .present (hchild (OrdMap.mem_of_getList hget)
                (List.mem_map_of_mem (OrdMap.mem_of_getList hk)))
          | _ => exact absurd (Or.inl ⟨_, hget, rfl⟩) hmal
      · intro k hk
        have htype : k ≠ "type" := by
          rintro rfl
          exact hk List.mem_cons_self
        refine (hloop htype).trans ?_
        cases hget : OrdMap.getList k obj with
        | none => rfl
        | some v => exact hsilent.rest print _ hk hget
    | _ => exact .same _

/-- A schema that is not warned about, and from which something is dropped, is not as it was. -/
theorem not_alike_of_silent {left : ℕ} (h : s.Sorted) (hr : ¬ Visits caps (Reports caps) left s)
    (hm : Visits caps (fun _ => Malformed caps) left s) :
    ¬ Alike s (valueImage (image print caps left) s) := by
  have hsilent {left : ℕ} {obj : Fields} (hr : ¬ Visits caps (Reports caps) (left + 1) (.obj obj)) :
      Silent caps obj ∧ ¬ EmptyObject caps obj := by
    have hnode : ¬ Reports caps (left + 1) obj := fun h' => hr (.here h')
    rw [reports_succ_iff, not_or, not_not] at hnode
    exact hnode
  induction hm with
  | @here left obj hmal =>
    cases left with
    | zero => exact absurd (.here (Or.inl rfl)) hr
    | succ left =>
      obtain ⟨hs, hobject⟩ := hsilent hr
      change ¬ Alike (.obj obj) (.obj (image print caps (left + 1) obj).entries)
      rw [hs.image print hobject h]
      intro halike
      rcases hmal with ⟨v, hget, hv⟩ | ⟨hc, hget⟩
      · have hout : OrdMap.getList "properties"
            (loopImage print caps (image print caps left) obj).entries = none := by
          refine (get_loopImage print caps h.keys (by decide)).trans ?_
          rw [hget]
          refine entry_properties_not_obj _ fun props heq => ?_
          rw [heq] at hv
          cases hv
        have hprops := halike.props
        rw [hget, hout] at hprops
        cases hprops
      · have hout : OrdMap.getList "type"
            (loopImage print caps (image print caps left) obj).entries = enumType caps obj := by
          refine (get_loopImage_type print caps h.keys).trans ?_
          rw [hget, Option.bind_some, entry_type_eq, hc]
          rfl
        rcases halike.type with hsame | ⟨t, ht, -⟩ | ⟨hnone, -⟩
        · rw [hout, hget] at hsame
          unfold enumType at hsame
          split_ifs at hsame
          cases hsame
        · rw [hget] at ht
          cases ht
        · rw [hget] at hnone
          cases hnone
  | @child left obj p v hp hv hvisits ih =>
    obtain ⟨hs, hobject⟩ := hsilent hr
    obtain ⟨key, value⟩ := p
    have hget : OrdMap.getList key obj = some value := OrdMap.getList_of_mem h.keys hp
    have hchild := ih (childSchemas_sorted (h.members _ hp) v hv) fun h' => hr (.child hp hv h')
    change ¬ Alike (.obj obj) (.obj (image print caps (left + 1) obj).entries)
    rw [hs.image print hobject h]
    intro halike
    have hloop {k : String} (hk : k ≠ "type") :
        OrdMap.getList k (loopImage print caps (image print caps left) obj).entries =
          (OrdMap.getList k obj).bind (entry print caps (image print caps left) k) :=
      get_loopImage print caps h.keys hk
    by_cases hprops : key = "properties"
    · subst hprops
      cases value with
      | obj props =>
        obtain ⟨⟨k, w⟩, hk, rfl⟩ := List.mem_map.1 hv
        have hsorted := (h.getList hget).keys
        have hrel := halike.props
        rw [hloop (by decide), hget, Option.bind_some, entry_properties_obj _ hsorted] at hrel
        have hk' := hrel.get k
        rw [OrdMap.getList_map, OrdMap.getList_of_mem hsorted hk] at hk'
        exact hchild hk'.get
      | _ => cases hv
    · have hitems : key = "items" := by
        by_contra hitems
        unfold childSchemas at hv
        dsimp only at hv
        rw [if_neg (by simpa using hprops), if_neg (by simpa using hitems)] at hv
        cases hv
      subst hitems
      obtain ⟨hentry, hchildren⟩ := hs.items print (image print caps left) hget
      rw [hchildren] at hv
      obtain rfl := List.mem_singleton.1 hv
      have hrel := halike.items
      rw [hloop (by decide), hget, Option.bind_some, hentry] at hrel
      exact hchild hrel.get
  | @member left obj v hv hvisits ih =>
    rw [(hsilent hr).1.allOf] at hv
    cases hv

/-- **Without a warning** a schema is as it was exactly when nothing of it is malformed. -/
theorem alike_iff_of_silent (left : ℕ) (h : s.Sorted) (hr : ¬ Visits caps (Reports caps) left s) :
    Alike s (valueImage (image print caps left) s) ↔
      ¬ Visits caps (fun _ => Malformed caps) left s :=
  ⟨fun halike hm => not_alike_of_silent print h hr hm halike, alike_of_silent print left h hr⟩

end Silent

end Schema

end Switchback
