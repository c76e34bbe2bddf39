import Switchback.Protocols.SchemaIdempotent

/-!
# The warnings of downleveling

The warnings of a kind come from the nodes that the rewriting visits, and from their members.
-/

namespace Switchback

namespace Schema

open Lib

section Warnings

variable (print : Json → String) (caps : SchemaCaps)

/-! ### The warnings of a member -/

/-- How much is lost at a member itself. -/
def localLossiness (p : String × Json) : Option SchemaLossiness :=
  if isMeta p.1 then some .metadata
  else if !caps.unions && (p.1 == "anyOf" || p.1 == "oneOf") then some .high
  else if !caps.allOf && p.1 == "allOf" then some .medium
  else if !caps.constKeyword && p.1 == "const" then none
  else if !caps.refs && (p.1 == "$ref" || p.1 == "$defs" || p.1 == "definitions") then some .high
  else if !caps.additionalProperties && p.1 == "additionalProperties" then some .medium
  else if p.1 == "type" && !caps.typeArrays then
    match p.2 with
    | .arr types => if 1 < types.length then some .medium else none
    | _ => none
  else if p.1 == "enum" && caps.stringEnumsOnly then
    match p.2 with
    | .arr values => if values.any fun v => !isString v then some .low else none
    | _ => none
  else if p.1 == "items" then
    match p.2, caps.typeArrays with
    | .arr _, false => some .medium
    | _, _ => none
  else none

/-- The schemas in a member that are rewritten. -/
def childSchemas (p : String × Json) : List Json :=
  if p.1 == "properties" then
    match p.2 with
    | .obj props => props.map Prod.snd
    | _ => []
  else if p.1 == "items" then
    match p.2, caps.typeArrays with
    | .arr items, false => items.head?.toList
    | v, _ => [v]
  else []

/-- A warning of a kind. -/
def Warns (kind : SchemaLossiness → Prop) (ws : List SchemaWarning) : Prop :=
  ∃ w ∈ ws, kind w.lossiness

variable {caps} {kind : SchemaLossiness → Prop}

theorem warns_nil : ¬ Warns kind [] := fun ⟨_, hw, _⟩ => by cases hw

theorem warns_append {ws ws' : List SchemaWarning} :
    Warns kind (ws ++ ws') ↔ Warns kind ws ∨ Warns kind ws' := by
  unfold Warns
  simp only [List.mem_append, or_and_right, exists_or]

theorem warns_cons {w : SchemaWarning} {ws : List SchemaWarning} :
    Warns kind (w :: ws) ↔ kind w.lossiness ∨ Warns kind ws := by
  unfold Warns
  simp only [List.mem_cons, or_and_right, exists_or, exists_eq_left]

theorem warns_flatMap {α : Type} {f : α → List SchemaWarning} {l : List α} :
    Warns kind (l.flatMap f) ↔ ∃ a ∈ l, Warns kind (f a) := by
  unfold Warns
  simp only [List.mem_flatMap]
  constructor
  · rintro ⟨w, ⟨a, ha, hw⟩, hk⟩
    exact ⟨a, ha, w, hw, hk⟩
  · rintro ⟨a, ha, w, hw, hk⟩
    exact ⟨w, ⟨a, ha, hw⟩, hk⟩

variable {sub : Fields → String → Rewritten (OrdMap String Json)} {inner : Json → Prop}

theorem warns_singleton {path key message : String} {lossiness : SchemaLossiness} :
    Warns kind [warn path key lossiness message] ↔
      ∃ l, some lossiness = some l ∧ kind l := by
  unfold Warns
  simp [warn]

theorem childSchemas_of_dropped {key : String} (h : dropped caps key = true) (value : Json) :
    childSchemas caps (key, value) = [] := by
  have hne {k : String} (hmeta : isMeta k = false)
      (hk : k ∉ ["anyOf", "oneOf", "allOf", "const", "$ref", "$defs", "definitions",
        "additionalProperties"]) : (key == k) = false := by
    rw [beq_eq_false_iff_ne]
    rintro rfl
    rw [not_dropped hmeta hk] at h
    exact Bool.false_ne_true h
  unfold childSchemas
  dsimp only
  rw [hne (k := "properties") rfl (by decide), hne (k := "items") rfl (by decide)]
  rfl

theorem warns_rewriteKey
    (hinner : ∀ v path, Warns kind (downlevelValue sub v path).2 ↔ inner v) (path : String)
    (p : String × Json) :
    Warns kind (rewriteKey print caps sub path p).2 ↔
      (∃ lossiness, localLossiness caps p = some lossiness ∧ kind lossiness) ∨
        ∃ v ∈ childSchemas caps p, inner v := by
  obtain ⟨key, value⟩ := p
  by_cases hd : dropped caps key = true
  · rw [childSchemas_of_dropped hd]
    simp only [List.not_mem_nil, false_and, exists_false, or_false]
    unfold dropped at hd
    unfold rewriteKey localLossiness
    dsimp only
    by_cases h₁ : isMeta key = true
    · rw [if_pos h₁, if_pos h₁]
      exact warns_singleton
    rw [if_neg h₁, if_neg h₁]
    by_cases h₂ : (!caps.unions && (key == "anyOf" || key == "oneOf")) = true
    · rw [if_pos h₂, if_pos h₂]
      exact warns_singleton
    rw [if_neg h₂, if_neg h₂]
    by_cases h₃ : (!caps.allOf && key == "allOf") = true
    · rw [if_pos h₃, if_pos h₃]
      exact warns_singleton
    rw [if_neg h₃, if_neg h₃]
    by_cases h₄ : (!caps.constKeyword && key == "const") = true
    · rw [if_pos h₄, if_pos h₄]
      exact iff_of_false warns_nil (by rintro ⟨_, h, _⟩; cases h)
    rw [if_neg h₄, if_neg h₄]
    by_cases h₅ : (!caps.refs && (key == "$ref" || key == "$defs" || key == "definitions")) = true
    · rw [if_pos h₅, if_pos h₅]
      exact warns_singleton
    rw [if_neg h₅, if_neg h₅]
    by_cases h₆ : (!caps.additionalProperties && key == "additionalProperties") = true
    · rw [if_pos h₆, if_pos h₆]
      exact warns_singleton
    rw [if_neg h₆, if_neg h₆]
    rw [Bool.not_eq_true] at h₁ h₂ h₃ h₄ h₅ h₆
    rw [h₁, h₂, h₃, h₄, h₅, h₆] at hd
    exact absurd hd (by decide)
  · unfold dropped at hd
    simp only [Bool.or_eq_true, not_or] at hd
    obtain ⟨⟨⟨⟨⟨h₁, h₂⟩, h₃⟩, h₄⟩, h₅⟩, h₆⟩ := hd
    unfold rewriteKey localLossiness
    dsimp only
    rw [if_neg h₁, if_neg h₂, if_neg h₃, if_neg h₄, if_neg h₅, if_neg h₆, if_neg h₁, if_neg h₂,
      if_neg h₃, if_neg h₄, if_neg h₅, if_neg h₆]
    have hnone : ¬ ∃ lossiness, (none : Option SchemaLossiness) = some lossiness ∧
        kind lossiness := by
      rintro ⟨_, h, _⟩
      cases h
    by_cases htype : (key == "type" && !caps.typeArrays) = true
    · obtain rfl : key = "type" := beq_iff_eq.1 (Bool.and_eq_true_iff.1 htype).1
      have hchildren : childSchemas caps ("type", value) = [] := rfl
      rw [if_pos htype, if_pos htype, hchildren]
      simp only [List.not_mem_nil, false_and, exists_false, or_false]
      cases value with
      | arr types =>
        dsimp only
        split_ifs
        · exact warns_singleton
        · exact iff_of_false warns_nil (by rintro ⟨_, h, _⟩; cases h)
      | _ => exact iff_of_false warns_nil hnone
    rw [if_neg htype, if_neg htype]
    by_cases henum : (key == "enum" && caps.stringEnumsOnly) = true
    · obtain rfl : key = "enum" := beq_iff_eq.1 (Bool.and_eq_true_iff.1 henum).1
      have hchildren : childSchemas caps ("enum", value) = [] := rfl
      rw [if_pos henum, if_pos henum, hchildren]
      simp only [List.not_mem_nil, false_and, exists_false, or_false]
      cases value with
      | arr values =>
        dsimp only
        split_ifs
        · exact warns_singleton
        · exact iff_of_false warns_nil (by rintro ⟨_, h, _⟩; cases h)
      | _ => exact iff_of_false warns_nil hnone
    rw [if_neg henum, if_neg henum]
    by_cases hprops : (key == "properties") = true
    · obtain rfl : key = "properties" := beq_iff_eq.1 hprops
      rw [if_pos hprops, if_neg (by decide), or_iff_right hnone]
      cases value with
      | obj props =>
        change Warns kind (downlevelProperties sub props path).2 ↔
          ∃ v ∈ props.map Prod.snd, inner v
        unfold downlevelProperties
        rw [warns_flatMap]
        simp only [List.mem_map, exists_exists_and_eq_and, hinner]
      | _ => exact iff_of_false warns_nil (by rintro ⟨_, h, _⟩; cases h)
    rw [if_neg hprops]
    by_cases hitems : (key == "items") = true
    · obtain rfl : key = "items" := beq_iff_eq.1 hitems
      rw [if_pos hitems, if_pos hitems]
      have hone (v : Json) : Warns kind (downlevelValue sub v (joinPath path "items")).2 ↔
          ∃ w ∈ [v], inner w := by
        rw [hinner]
        simp
      cases value with
      | arr items =>
        cases ht : caps.typeArrays with
        | true =>
          have hchildren : childSchemas caps ("items", .arr items) = [.arr items] := by
            simp [childSchemas, ht]
          rw [hchildren]
          exact (hone (.arr items)).trans (or_iff_right hnone).symm
        | false =>
          cases items with
          | nil =>
            have hchildren : childSchemas caps ("items", .arr []) = [] := by
              simp [childSchemas, ht]
            rw [hchildren]
            simp only [List.not_mem_nil, false_and, exists_false, or_false]
            exact warns_singleton
          | cons first rest =>
            have hchildren : childSchemas caps ("items", .arr (first :: rest)) = [first] := by
              simp [childSchemas, ht]
            rw [hchildren]
            refine warns_cons.trans (or_congr ?_ (hone first))
            simp [warn]
      | null | bool | num | str | obj =>
        have hchildren (v : Json) (hv : ∀ l, v ≠ .arr l) : childSchemas caps ("items", v) = [v] := by
          unfold childSchemas
          cases v with
          | arr l => exact absurd rfl (hv l)
          | _ => rfl
        rw [hchildren _ (fun _ h => by cases h)]
        exact (hone _).trans (or_iff_right hnone).symm
    · have hchildren : childSchemas caps (key, value) = [] := by
        unfold childSchemas
        dsimp only
        rw [if_neg hprops, if_neg hitems]
      rw [if_neg hitems, if_neg hitems, hchildren]
      simp only [List.not_mem_nil, false_and, exists_false, or_false]
      exact iff_of_false warns_nil hnone

/-! ### The warnings of a node -/

variable (path : String) {left : ℕ}

theorem rewriteLoop_snd (obj : Fields) :
    (rewriteLoop print caps sub path obj).2 =
      obj.flatMap fun p => (rewriteKey print caps sub path p).2 := by
  have hfold (l : Fields) (acc : Rewritten (OrdMap String Json)) :
      (l.foldl
        (fun acc p =>
          let r := rewriteKey print caps sub path p
          (insertAll acc.1 r.1, acc.2 ++ r.2)) acc).2 =
        acc.2 ++ l.flatMap fun p => (rewriteKey print caps sub path p).2 := by
    induction l generalizing acc with
    | nil => exact (List.append_nil _).symm
    | cons p l ih => rw [List.foldl_cons, ih, List.flatMap_cons, List.append_assoc]
  exact hfold obj _

/-- A constant that is rewritten. -/
def LosesConst (caps : SchemaCaps) (obj : Fields) : Prop :=
  caps.constKeyword = false ∧ (OrdMap.getList "const" obj).isSome = true

theorem warns_rewriteConst (obj : Fields) (out : OrdMap String Json) :
    Warns kind (rewriteConst print caps path obj out).2 ↔ LosesConst caps obj ∧ kind .low := by
  unfold rewriteConst LosesConst
  cases caps.constKeyword with
  | true => exact iff_of_false warns_nil fun h => by cases h.1.1
  | false =>
    cases OrdMap.getList "const" obj with
    | none => exact iff_of_false warns_nil fun h => by cases h.1.2
    | some value =>
      dsimp only
      split_ifs
      · exact warns_singleton.trans (by simp)
      · exact warns_singleton.trans (by simp)

theorem warns_mergeAllOf
    (hinner : ∀ v path, Warns kind (downlevelValue sub v path).2 ↔ inner v) (path : String)
    (obj : Fields) (out : OrdMap String Json) :
    Warns kind (mergeAllOf caps sub path obj out).2 ↔ ∃ v ∈ allOfMembers caps obj, inner v := by
  have hstep (acc : Rewritten (OrdMap String Json)) (member : Json × ℕ) :
      Warns kind (mergeMember sub path acc member).2 ↔ Warns kind acc.2 ∨ inner member.1 := by
    obtain ⟨v, n⟩ := member
    rw [← hinner v (joinPath (joinPath path "allOf") (toString n))]
    cases v with
    | obj fields => exact warns_append
    | _ => exact (or_iff_left warns_nil).symm
  have hfold (members : List Json) (n : ℕ) (acc : Rewritten (OrdMap String Json)) :
      Warns kind ((members.zipIdx n).foldl (mergeMember sub path) acc).2 ↔
        Warns kind acc.2 ∨ ∃ v ∈ members, inner v := by
    induction members generalizing n acc with
    | nil => simp
    | cons member members ih =>
      rw [List.zipIdx_cons, List.foldl_cons, ih, hstep]
      simp only [List.mem_cons, or_and_right, exists_or, exists_eq_left, or_assoc]
  unfold mergeAllOf allOfMembers
  cases caps.allOf with
  | true => exact iff_of_false warns_nil fun ⟨_, h, _⟩ => by cases h
  | false =>
    cases OrdMap.getList "allOf" obj with
    | none => exact iff_of_false warns_nil fun ⟨_, h, _⟩ => by cases h
    | some v =>
      cases v with
      | arr members => exact (hfold members 0 (out, [])).trans (or_iff_right warns_nil)
      | _ => exact iff_of_false warns_nil fun ⟨_, h, _⟩ => by cases h

theorem warns_addPlaceholder (out : OrdMap String Json) :
    Warns kind (addPlaceholder caps path out).2 ↔
      lacksProperties caps out = true ∧ kind .medium := by
  unfold addPlaceholder lacksProperties
  split_ifs with h
  · exact warns_singleton.trans (by simp [h])
  · exact iff_of_false warns_nil fun h' => h h'.1

/-- **The warnings of a node**: those of its members, of its constant, of the members of `allOf` and
of the placeholder. -/
theorem warns_rewriteNode {g : Fields → OrdMap String Json}
    (hsub : ∀ f path, (sub f path).1 = g f)
    (hinner : ∀ v path, Warns kind (downlevelValue sub v path).2 ↔ inner v) (obj : Fields)
    (path : String) :
    Warns kind (rewriteNode print caps sub obj path).2 ↔
      (∃ p ∈ obj, (∃ lossiness, localLossiness caps p = some lossiness ∧ kind lossiness) ∨
          ∃ v ∈ childSchemas caps p, inner v) ∨
        (LosesConst caps obj ∧ kind .low) ∨
        (∃ v ∈ allOfMembers caps obj, inner v) ∨
        (lacksProperties caps
          (mergeImage caps g obj (constImage print caps obj (loopImage print caps g obj))) = true ∧
          kind .medium) := by
  unfold rewriteNode
  dsimp only
  rw [warns_append, warns_append, warns_append, rewriteLoop_snd, warns_flatMap,
    warns_rewriteConst, warns_mergeAllOf hinner, warns_addPlaceholder,
    mergeAllOf_fst caps hsub, rewriteConst_fst, rewriteLoop_fst print caps hsub]
  simp only [warns_rewriteKey print hinner, or_assoc]

/-- A condition on some node of a schema that the rewriting comes to; a node is given with the
levels that are left for it. -/
inductive Visits (caps : SchemaCaps) (Q : ℕ → Fields → Prop) : ℕ → Json → Prop
  | here {left : ℕ} {fields : Fields} (h : Q left fields) : Visits caps Q left (.obj fields)
  | child {left : ℕ} {fields : Fields} {p : String × Json} {v : Json} (hp : p ∈ fields)
      (hv : v ∈ childSchemas caps p) (h : Visits caps Q left v) :
      Visits caps Q (left + 1) (.obj fields)
  | member {left : ℕ} {fields : Fields} {v : Json} (hv : v ∈ allOfMembers caps fields)
      (h : Visits caps Q left v) : Visits caps Q (left + 1) (.obj fields)

variable {Q Q' : ℕ → Fields → Prop}

theorem visits_succ {fields : Fields} :
    Visits caps Q (left + 1) (.obj fields) ↔
      Q (left + 1) fields ∨ (∃ p ∈ fields, ∃ v ∈ childSchemas caps p, Visits caps Q left v) ∨
        ∃ v ∈ allOfMembers caps fields, Visits caps Q left v := by
  constructor
  · intro h
    cases h with
    | here h => exact Or.inl h
    | child hp hv h => exact Or.inr (Or.inl ⟨_, hp, _, hv, h⟩)
    | member hv h => exact Or.inr (Or.inr ⟨_, hv, h⟩)
  · rintro (h | ⟨p, hp, v, hv, h⟩ | ⟨v, hv, h⟩)
    · exact .here h
    · exact .child hp hv h
    · exact .member hv h

theorem visits_or {s : Json} :
    Visits caps (fun left fields => Q left fields ∨ Q' left fields) left s ↔
      Visits caps Q left s ∨ Visits caps Q' left s := by
  constructor
  · intro h
    induction h with
    | here h => exact h.imp .here .here
    | child hp hv _ ih => exact ih.imp (.child hp hv) (.child hp hv)
    | member hv _ ih => exact ih.imp (.member hv) (.member hv)
  · rintro (h | h)
    · induction h with
      | here h => exact .here (Or.inl h)
      | child hp hv _ ih => exact .child hp hv ih
      | member hv _ ih => exact .member hv ih
    · induction h with
      | here h => exact .here (Or.inr h)
      | child hp hv _ ih => exact .child hp hv ih
      | member hv _ ih => exact .member hv ih

/-! ### The warnings of a schema -/

theorem warns_path (left : ℕ) (obj : Fields) (path path' : String) :
    Warns kind (downlevelObject print caps left obj path).2 ↔
      Warns kind (downlevelObject print caps left obj path').2 := by
  induction left generalizing obj path path' with
  | zero => exact warns_singleton.trans warns_singleton.symm
  | succ left ih =>
    have hinner (v : Json) (path : String) :
        Warns kind (downlevelValue (downlevelObject print caps left) v path).2 ↔
          Warns kind (downlevelValue (downlevelObject print caps left) v "").2 := by
      cases v with
      | obj fields => exact ih fields path ""
      | _ => exact Iff.rfl
    have hnode (path path' : String) :
        Warns kind (rewriteNode print caps (downlevelObject print caps left) obj path).2 ↔
          Warns kind (rewriteNode print caps (downlevelObject print caps left) obj path').2 := by
      rw [warns_rewriteNode print (downlevelObject_fst print caps left) hinner,
        warns_rewriteNode print (downlevelObject_fst print caps left) hinner]
    unfold downlevelObject
    cases (if caps.unions then none else unionOf obj) with
    | none => exact hnode path path'
    | some union =>
      obtain ⟨keyword, branches⟩ := union
      dsimp only
      cases pickBranch branches with
      | none =>
        dsimp only
        rw [warns_cons, warns_cons]
        exact or_congr Iff.rfl (hnode path path')
      | some branch =>
        dsimp only
        rw [warns_cons, warns_cons]
        exact or_congr Iff.rfl (ih branch path path')

/-- A value in a schema is warned about. -/
def Warned (kind : SchemaLossiness → Prop) (caps : SchemaCaps) (left : ℕ) (v : Json) : Prop :=
  Warns kind (downlevelValue (downlevelObject print caps left) v "").2

theorem warned_value (v : Json) (path : String) :
    Warns kind (downlevelValue (downlevelObject print caps left) v path).2 ↔
      Warned print kind caps left v := by
  cases v with
  | obj fields => exact warns_path print left fields path ""
  | _ => exact Iff.rfl

theorem unionOf_lossiness {obj : Fields} {keyword : String} {branches : List Json}
    (h : (if caps.unions then none else unionOf obj) = some (keyword, branches)) :
    ∃ p ∈ obj, localLossiness caps p = some .high := by
  cases hc : caps.unions with
  | true =>
    rw [hc] at h
    cases h
  | false =>
    rw [hc, if_neg Bool.false_ne_true] at h
    have hkey {k : String} {l : List Json} (hk : k = "anyOf" ∨ k = "oneOf")
        (hl : (OrdMap.getList k obj).bind Json.asArray = some l) :
        ∃ p ∈ obj, localLossiness caps p = some .high := by
      obtain ⟨v, hv, -⟩ := Option.bind_eq_some_iff.1 hl
      refine ⟨(k, v), OrdMap.mem_of_getList hv, ?_⟩
      unfold localLossiness
      dsimp only
      rw [hc]
      rcases hk with rfl | rfl
      · rw [if_neg (by decide), if_pos (by decide)]
      · rw [if_neg (by decide), if_pos (by decide)]
    unfold unionOf at h
    rcases Option.or_eq_some_iff.1 h with h | ⟨-, h⟩
    · obtain ⟨l, hl, -⟩ := Option.map_eq_some_iff.1 h
      exact hkey (Or.inl rfl) hl
    · obtain ⟨l, hl, -⟩ := Option.map_eq_some_iff.1 h
      exact hkey (Or.inr rfl) hl

theorem warned_succ {obj : Fields} (hhigh : kind .high) :
    Warned print kind caps (left + 1) (.obj obj) ↔
      (∃ p ∈ obj, ∃ lossiness, localLossiness caps p = some lossiness ∧ kind lossiness) ∨
        (∃ p ∈ obj, ∃ v ∈ childSchemas caps p, Warned print kind caps left v) ∨
        (LosesConst caps obj ∧ kind .low) ∨
        (∃ v ∈ allOfMembers caps obj, Warned print kind caps left v) ∨
        (lacksProperties caps (mergeImage caps (image print caps left) obj
            (constImage print caps obj (loopImage print caps (image print caps left) obj))) =
          true ∧ kind .medium) := by
  have hnode : Warns kind (rewriteNode print caps (downlevelObject print caps left) obj "").2 ↔
      (∃ p ∈ obj, ∃ lossiness, localLossiness caps p = some lossiness ∧ kind lossiness) ∨
        (∃ p ∈ obj, ∃ v ∈ childSchemas caps p, Warned print kind caps left v) ∨
        (LosesConst caps obj ∧ kind .low) ∨
        (∃ v ∈ allOfMembers caps obj, Warned print kind caps left v) ∨
        (lacksProperties caps (mergeImage caps (image print caps left) obj
            (constImage print caps obj (loopImage print caps (image print caps left) obj))) =
          true ∧ kind .medium) := by
    rw [warns_rewriteNode print (downlevelObject_fst print caps left)
      (fun v path => warned_value print v path)]
    simp only [and_or_left, exists_or, or_assoc]
  change Warns kind (downlevelObject print caps (left + 1) obj "").2 ↔ _
  unfold downlevelObject
  cases hu : (if caps.unions then none else unionOf obj) with
  | none => exact hnode
  | some union =>
    obtain ⟨keyword, branches⟩ := union
    obtain ⟨p, hp, hlocal⟩ := unionOf_lossiness hu
    have hright : ∃ p ∈ obj, ∃ lossiness, localLossiness caps p = some lossiness ∧
        kind lossiness := ⟨p, hp, .high, hlocal, hhigh⟩
    dsimp only
    cases pickBranch branches with
    | none =>
      dsimp only
      exact iff_of_true (warns_cons.2 (Or.inl hhigh)) (Or.inl hright)
    | some branch =>
      dsimp only
      exact iff_of_true (warns_cons.2 (Or.inl hhigh)) (Or.inl hright)

/-- A union, a reference or a node beyond the cap. -/
def LosesHigh (caps : SchemaCaps) (left : ℕ) (fields : Fields) : Prop :=
  left = 0 ∨ ∃ p ∈ fields, localLossiness caps p = some .high

/-- **A schema has a warning of high lossiness** exactly when the rewriting comes to a node that is
beyond the cap or has a union or a reference that is not accepted. -/
theorem warned_high_iff (left : ℕ) (v : Json) :
    Warned print (· = .high) caps left v ↔ Visits caps (LosesHigh caps) left v := by
  induction left generalizing v with
  | zero =>
    cases v with
    | obj obj =>
      exact iff_of_true (warns_cons.2 (Or.inl rfl)) (.here (Or.inl rfl))
    | _ => exact iff_of_false warns_nil fun h => by cases h
  | succ left ih =>
    cases v with
    | obj obj =>
      refine (warned_succ print ?_).trans (Iff.trans ?_ visits_succ.symm)
      · rfl
      simp only [ih, LosesHigh, Nat.succ_ne_zero, false_or, reduceCtorEq, and_false,
        exists_eq_right, or_false]
    | _ => exact iff_of_false warns_nil fun h => by cases h

end Warnings

end Schema

end Switchback
