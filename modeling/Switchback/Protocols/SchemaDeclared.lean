import Switchback.Lib.SortedJson
import Switchback.Protocols.SchemaNode

/-!
# What a schema declares

For the dialect of Gemini, a node declares a type, an enumeration, items and properties: its own,
or those of the branch that it is replaced by, or, where it has none itself, those of the members of
`allOf`.  The schemas in it stand here as they are in the input.
-/

namespace Switchback

namespace Schema

open Lib

/-! ### Declarations -/

/-- What stands at a property: a schema of the input, with the levels that are left for it, or the
placeholder. -/
inductive Child where
  | schema (left : ℕ) (v : Json)
  | placeholder

structure Declared where
  type : Option Json
  enum : Option Json
  items : Option (ℕ × Json)
  props : Option (List (String × Child))

/-- The first declaration wins; of the properties, each. -/
def Declared.merge (d d' : Declared) : Declared where
  type := d.type.or d'.type
  enum := d.enum.or d'.enum
  items := d.items.or d'.items
  props :=
    match d.props, d'.props with
    | some a, some b => some (absorb a b)
    | some a, none => some a
    | none, b => b

/-- An object without properties has the placeholder. -/
def Declared.place (d : Declared) : Declared :=
  if d.type.bind Json.asStr == some "object" && d.props.all List.isEmpty then
    { d with props := some [("_", .placeholder)] }
  else d

def declaredType : Json → Option Json
  | .arr types => chosenType types
  | v => some v

def declaredItems (left : ℕ) : Json → Option (ℕ × Json)
  | .arr items => items.head?.map fun v => (left, v)
  | v => some (left, v)

def declaredProps (left : ℕ) : Json → Option (List (String × Child))
  | .obj props => some (props.map fun p => (p.1, .schema left p.2))
  | _ => none

section Gemini

variable (print : Json → String)

def declaredEnum : Json → Json
  | .arr values => .arr (enumStrings print values)
  | v => v

/-- What a node declares itself; a constant is a string enumeration. -/
def ownDeclared (left : ℕ) (obj : Fields) : Declared where
  type :=
    match OrdMap.getList "const" obj with
    | some _ => some (.str "string")
    | none =>
        ((OrdMap.getList "type" obj).bind declaredType).or (enumType SchemaCaps.gemini obj)
  enum :=
    match OrdMap.getList "const" obj with
    | some value => some (.arr [.str (stringify print value)])
    | none => (OrdMap.getList "enum" obj).map (declaredEnum print)
  items := (OrdMap.getList "items" obj).bind (declaredItems left)
  props := (OrdMap.getList "properties" obj).bind (declaredProps left)

/-- What is declared beyond the nesting cap. -/
def truncatedDeclared : Declared := ⟨some (.str "string"), none, none, none⟩

def mergeDeclared (members : Fields → Declared) (d : Declared) (member : Json) : Declared :=
  match member with
  | .obj fields => d.merge (members fields)
  | _ => d

/-- What a node declares. -/
def declared : ℕ → Fields → Declared
  | 0, _ => truncatedDeclared
  | left + 1, obj =>
      match branchOf SchemaCaps.gemini obj with
      | some branch => declared left branch
      | none =>
          ((allOfMembers SchemaCaps.gemini obj).foldl (mergeDeclared (declared left))
            (ownDeclared print left obj)).place

end Gemini

section Absorb

variable {ν μ : Type}

theorem absorb_map (f : ν → μ) (a b : List (String × ν)) :
    absorb (a.map fun p => (p.1, f p.2)) (b.map fun p => (p.1, f p.2)) =
      (absorb a b).map fun p => (p.1, f p.2) := by
  unfold absorb
  induction b generalizing a with
  | nil => rfl
  | cons p b ih =>
    rw [List.map_cons, List.foldl_cons, List.foldl_cons, ← ih]
    congr 1
    dsimp only
    rw [OrdMap.getList_map, Option.isSome_map, OrdMap.insertList_map]
    split_ifs <;> rfl

theorem absorb_sorted {a b : List (String × ν)} (ha : SortedFields a) :
    SortedFields (absorb a b) := by
  unfold absorb
  induction b generalizing a with
  | nil => exact ha
  | cons p b ih =>
    rw [List.foldl_cons]
    refine ih ?_
    split_ifs
    · exact ha
    · exact OrdMap.insertList_sorted p.1 p.2 ha

theorem mem_absorb {a b : List (String × ν)} {p : String × ν} (h : p ∈ absorb a b) :
    p ∈ a ∨ p ∈ b := by
  unfold absorb at h
  induction b generalizing a with
  | nil => exact Or.inl h
  | cons q b ih =>
    rw [List.foldl_cons] at h
    rcases ih h with hmem | hmem
    · split_ifs at hmem
      · exact Or.inl hmem
      · rcases OrdMap.mem_insertList hmem with heq | hmem
        · exact Or.inr (heq ▸ List.mem_cons_self)
        · exact Or.inl hmem
    · exact Or.inr (List.mem_cons_of_mem _ hmem)

end Absorb

/-! ### The schemas in a declaration -/

/-- The schemas in a declaration are in key order, with fewer levels left. -/
structure Declared.Below (left : ℕ) (d : Declared) : Prop where
  props : ∀ ps, d.props = some ps → SortedFields ps ∧
    ∀ k l v, (k, .schema l v) ∈ ps → l < left ∧ v.Sorted
  items : ∀ l v, d.items = some (l, v) → l < left ∧ v.Sorted

variable {left : ℕ} {d : Declared}

theorem Declared.Below.mono {left' : ℕ} (h : d.Below left)
    (hle : left ≤ left') : d.Below left' where
  props ps hps := ⟨(h.props ps hps).1, fun k l v hmem =>
    ⟨lt_of_lt_of_le ((h.props ps hps).2 k l v hmem).1 hle, ((h.props ps hps).2 k l v hmem).2⟩⟩
  items l v hitems := ⟨lt_of_lt_of_le (h.items l v hitems).1 hle, (h.items l v hitems).2⟩

theorem Declared.Below.merge {d' : Declared} (h : d.Below left)
    (h' : d'.Below left) : (d.merge d').Below left where
  props ps hps := by
    unfold Declared.merge at hps
    cases hd : d.props with
    | none =>
      rw [hd] at hps
      exact h'.props ps hps
    | some a =>
      cases hd' : d'.props with
      | none =>
        rw [hd, hd'] at hps
        cases hps
        exact h.props _ hd
      | some b =>
        rw [hd, hd'] at hps
        cases hps
        refine ⟨absorb_sorted (h.props a hd).1, fun k l v hmem => ?_⟩
        rcases mem_absorb hmem with hmem | hmem
        · exact (h.props a hd).2 k l v hmem
        · exact (h'.props b hd').2 k l v hmem
  items l v hitems := by
    unfold Declared.merge at hitems
    dsimp only at hitems
    rcases Option.or_eq_some_iff.1 hitems with hitems | ⟨-, hitems⟩
    · exact h.items l v hitems
    · exact h'.items l v hitems

theorem Declared.Below.place (h : d.Below left) : d.place.Below left := by
  unfold Declared.place
  split_ifs
  · refine ⟨fun ps hps => ?_, h.items⟩
    cases hps
    refine ⟨List.pairwise_singleton _ _, fun k l v hmem => ?_⟩
    rw [List.mem_singleton] at hmem
    cases hmem
  · exact h

section Gemini

variable (print : Json → String)

variable (left : ℕ) {obj : Fields} {out : OrdMap String Json}

theorem ownDeclared_below (h : Json.Sorted (.obj obj)) :
    (ownDeclared print left obj).Below (left + 1) where
  props ps hps := by
    obtain ⟨v, hv, hps⟩ := Option.bind_eq_some_iff.1 hps
    have hsorted := h.getList hv
    cases v with
    | obj props =>
      cases hps
      refine ⟨OrdMap.map_sorted _ hsorted.keys, fun k l v hmem => ?_⟩
      obtain ⟨p, hp, heq⟩ := List.mem_map.1 hmem
      cases heq
      exact ⟨Nat.lt_succ_self left, hsorted.members p hp⟩
    | _ => cases hps
  items l v hitems := by
    obtain ⟨w, hw, hitems⟩ := Option.bind_eq_some_iff.1 hitems
    have hsorted := h.getList hw
    cases w with
    | arr items =>
      obtain ⟨first, hfirst, heq⟩ := Option.map_eq_some_iff.1 hitems
      cases heq
      exact ⟨Nat.lt_succ_self left, hsorted.elems v (List.mem_of_mem_head? hfirst)⟩
    | _ =>
      cases hitems
      exact ⟨Nat.lt_succ_self left, hsorted⟩

theorem branchOf_sorted {caps : SchemaCaps} {branch : Fields} (h : Json.Sorted (.obj obj))
    (hb : branchOf caps obj = some branch) : Json.Sorted (.obj branch) := by
  obtain ⟨⟨keyword, branches⟩, hunion, hpick⟩ := Option.bind_eq_some_iff.1 hb
  have hbranches : ∀ v ∈ branches, v.Sorted := by
    have harr {k : String} {l : List Json}
        (hl : (OrdMap.getList k obj).bind Json.asArray = some l) : ∀ v ∈ l, v.Sorted := by
      obtain ⟨v, hv, hl⟩ := Option.bind_eq_some_iff.1 hl
      cases v with
      | arr elems =>
        cases hl
        exact (h.getList hv).elems
      | _ => cases hl
    cases hc : caps.unions with
    | true =>
      rw [hc] at hunion
      cases hunion
    | false =>
      rw [hc, if_neg Bool.false_ne_true] at hunion
      unfold unionOf at hunion
      rcases Option.or_eq_some_iff.1 hunion with hunion | ⟨-, hunion⟩
      all_goals
        obtain ⟨l, hl, heq⟩ := Option.map_eq_some_iff.1 hunion
        cases heq
        exact harr hl
  have hmem : Json.obj branch ∈ branches := by
    unfold pickBranch at hpick
    rcases Option.or_eq_some_iff.1 hpick with hpick | ⟨-, hpick⟩
    · obtain ⟨v, hv, hpick⟩ := List.exists_of_findSome?_eq_some hpick
      cases v with
      | obj fields =>
        dsimp only at hpick
        split_ifs at hpick
        cases hpick
        exact hv
      | _ => cases hpick
    · obtain ⟨v, hv, hpick⟩ := List.exists_of_findSome?_eq_some hpick
      cases v with
      | obj fields =>
        cases hpick
        exact hv
      | _ => cases hpick
  exact hbranches _ hmem

theorem allOfMembers_sorted {caps : SchemaCaps} (h : Json.Sorted (.obj obj)) :
    ∀ v ∈ allOfMembers caps obj, v.Sorted := by
  intro v hv
  unfold allOfMembers at hv
  cases hc : caps.allOf with
  | true =>
    rw [hc] at hv
    cases hv
  | false =>
    cases hm : OrdMap.getList "allOf" obj with
    | none =>
      rw [hc, hm] at hv
      cases hv
    | some w =>
      rw [hc, hm] at hv
      cases w with
      | arr members => exact (h.getList hm).elems v hv
      | _ => cases hv

/-- **The schemas in a declaration** have fewer levels left. -/
theorem declared_below (h : Json.Sorted (.obj obj)) : (declared print left obj).Below left := by
  induction left generalizing obj with
  | zero =>
    refine ⟨fun ps hps => ?_, fun l v hitems => ?_⟩
    · cases hps
    · cases hitems
  | succ left ih =>
    unfold declared
    cases hb : branchOf SchemaCaps.gemini obj with
    | some branch => exact (ih (branchOf_sorted h hb)).mono (Nat.le_succ left)
    | none =>
      have hfold (members : List Json) (hm : ∀ v ∈ members, v.Sorted) (d : Declared)
          (hd : d.Below (left + 1)) :
          (members.foldl (mergeDeclared (declared print left)) d).Below (left + 1) := by
        induction members generalizing d with
        | nil => exact hd
        | cons member members ihm =>
          obtain ⟨hmember, hmembers⟩ := List.forall_mem_cons.1 hm
          refine ihm hmembers _ ?_
          cases member with
          | obj fields => exact hd.merge ((ih hmember).mono (Nat.le_succ left))
          | _ => exact hd
      exact (hfold _ (allOfMembers_sorted h) _ (ownDeclared_below print left h)).place

/-! ### The rewritten node -/

def Child.render : Child → Json
  | .schema left v => valueImage (image print SchemaCaps.gemini left) v
  | .placeholder => .obj Schema.placeholder.entries

/-- A rewritten node is what a declaration says. -/
structure Agrees (out : OrdMap String Json) (d : Declared) : Prop where
  type : out.get "type" = d.type
  enum : out.get "enum" = d.enum
  items : out.get "items" =
    d.items.map fun p => valueImage (image print SchemaCaps.gemini p.1) p.2
  props : out.get "properties" =
    d.props.map fun ps => .obj (ps.map fun p => (p.1, p.2.render print))

variable {print}

theorem mergeGet_of_ne {key : String} (h₁ : key ≠ "properties") (h₂ : key ≠ "required")
    (existing incoming : Option Json) : mergeGet key existing incoming = existing.or incoming := by
  cases existing with
  | none => rfl
  | some a =>
    cases incoming with
    | none => rfl
    | some b =>
      unfold mergeGet mergeValue
      cases a <;> cases b <;> simp [h₁, h₂]

theorem Agrees.merge {src : OrdMap String Json} {d d' : Declared} (h : Agrees print out d)
    (h' : Agrees print src d') : Agrees print (mergeInto out src) (d.merge d') where
  type := by
    rw [get_mergeInto, mergeGet_of_ne (by decide) (by decide), h.type, h'.type]
    rfl
  enum := by
    rw [get_mergeInto, mergeGet_of_ne (by decide) (by decide), h.enum, h'.enum]
    rfl
  items := by
    rw [get_mergeInto, mergeGet_of_ne (by decide) (by decide), h.items, h'.items,
      ← Option.map_or]
    rfl
  props := by
    rw [get_mergeInto, h.props, h'.props]
    unfold Declared.merge
    cases d.props with
    | none => rfl
    | some a =>
      cases d'.props with
      | none => rfl
      | some b =>
        unfold mergeGet mergeValue
        dsimp only [Option.map_some]
        rw [if_pos rfl, absorb_map]

theorem Agrees.place {d : Declared} (h : Agrees print out d) :
    Agrees print (placeImage SchemaCaps.gemini out) d.place := by
  have hlacks : lacksProperties SchemaCaps.gemini out =
      (d.type.bind Json.asStr == some "object" && d.props.all List.isEmpty) := by
    unfold lacksProperties
    rw [h.type, h.props]
    cases d.props with
    | none => rfl
    | some ps => cases ps <;> rfl
  have hget (k : String) := get_placeImage SchemaCaps.gemini out k
  unfold Declared.place
  cases hc : d.type.bind Json.asStr == some "object" && d.props.all List.isEmpty with
  | false =>
    rw [hlacks, hc] at hget
    have hsame (k : String) : (placeImage SchemaCaps.gemini out).get k = out.get k :=
      (hget k).trans (if_neg fun h' => Bool.false_ne_true h'.1)
    rw [if_neg Bool.false_ne_true]
    exact ⟨(hsame _).trans h.type, (hsame _).trans h.enum, (hsame _).trans h.items,
      (hsame _).trans h.props⟩
  | true =>
    rw [hlacks, hc] at hget
    have hsame {k : String} (hk : k ≠ "properties") :
        (placeImage SchemaCaps.gemini out).get k = out.get k :=
      (hget k).trans (if_neg fun h' => hk h'.2)
    rw [if_pos rfl]
    refine ⟨(hsame (by decide)).trans h.type, (hsame (by decide)).trans h.enum,
      (hsame (by decide)).trans h.items, ?_⟩
    exact (hget "properties").trans (if_pos (And.intro rfl rfl))

theorem entry_type (g : Fields → OrdMap String Json) (v : Json) :
    entry print SchemaCaps.gemini g "type" v = declaredType v := by
  have hd : dropped SchemaCaps.gemini "type" = false := rfl
  unfold entry
  rw [hd, if_neg Bool.false_ne_true, if_pos (by decide)]
  cases v <;> rfl

theorem entry_enum (g : Fields → OrdMap String Json) (v : Json) :
    entry print SchemaCaps.gemini g "enum" v = some (declaredEnum print v) := by
  have hd : dropped SchemaCaps.gemini "enum" = false := rfl
  unfold entry
  rw [hd, if_neg Bool.false_ne_true, if_neg (by decide), if_pos (by decide)]
  cases v <;> rfl

theorem entry_items (v : Json) :
    entry print SchemaCaps.gemini (image print SchemaCaps.gemini left) "items" v =
      (declaredItems left v).map fun p => valueImage (image print SchemaCaps.gemini p.1) p.2 := by
  have hd : dropped SchemaCaps.gemini "items" = false := rfl
  unfold entry
  rw [hd, if_neg Bool.false_ne_true, if_neg (by decide), if_neg (by decide), if_neg (by decide),
    if_pos (by decide)]
  cases v with
  | arr items => cases items <;> rfl
  | _ => rfl

theorem entry_properties {v : Json} (hv : v.Sorted) :
    entry print SchemaCaps.gemini (image print SchemaCaps.gemini left) "properties" v =
      (declaredProps left v).map fun ps => .obj (ps.map fun p => (p.1, p.2.render print)) := by
  have hd : dropped SchemaCaps.gemini "properties" = false := rfl
  unfold entry
  rw [hd, if_neg Bool.false_ne_true, if_neg (by decide), if_neg (by decide),
    if_pos (by decide)]
  cases v with
  | obj props =>
    unfold declaredProps
    dsimp only [Option.map_some]
    rw [OrdMap.entries_ofList (OrdMap.map_sorted _ hv.keys), List.map_map]
    rfl
  | _ => rfl

theorem ownDeclared_agrees (h : Json.Sorted (.obj obj)) :
    Agrees print
      (constImage print SchemaCaps.gemini obj
        (loopImage print SchemaCaps.gemini (image print SchemaCaps.gemini left) obj))
      (ownDeclared print left obj) := by
  have hother {k : String} (hk : k ≠ "type") (hk' : k ≠ "enum") (out : OrdMap String Json) :
      (constImage print SchemaCaps.gemini obj out).get k = out.get k := by
    unfold constImage
    cases OrdMap.getList "const" obj with
    | none => rfl
    | some value =>
      exact (OrdMap.get_insert _ _ _ _).trans ((if_neg hk').trans
        ((OrdMap.get_insert _ _ _ _).trans (if_neg hk)))
  refine ⟨?_, ?_, ?_, ?_⟩
  · unfold constImage ownDeclared
    cases OrdMap.getList "const" obj with
    | none =>
      refine (get_loopImage_type print SchemaCaps.gemini h.keys).trans ?_
      simp only [entry_type]
    | some value =>
      exact (OrdMap.get_insert _ _ _ _).trans ((if_neg (by decide)).trans
        ((OrdMap.get_insert _ _ _ _).trans (if_pos rfl)))
  · unfold constImage ownDeclared
    cases OrdMap.getList "const" obj with
    | none =>
      refine (get_loopImage print SchemaCaps.gemini h.keys (by decide)).trans ?_
      simp only [entry_enum]
      cases OrdMap.getList "enum" obj <;> rfl
    | some value => exact (OrdMap.get_insert _ _ _ _).trans (if_pos rfl)
  · rw [hother (by decide) (by decide),
      get_loopImage print SchemaCaps.gemini h.keys (by decide)]
    unfold ownDeclared
    simp only [entry_items]
    cases OrdMap.getList "items" obj <;> rfl
  · rw [hother (by decide) (by decide),
      get_loopImage print SchemaCaps.gemini h.keys (by decide)]
    unfold ownDeclared
    cases hp : OrdMap.getList "properties" obj with
    | none => rfl
    | some v => exact entry_properties left (h.getList hp)

theorem get_describe {k : String}
    (hk : k ≠ "description") : (describe obj out).get k = out.get k := by
  unfold describe
  cases OrdMap.getList "description" obj with
  | none => rfl
  | some description =>
    dsimp only
    split_ifs
    · rfl
    · exact (OrdMap.get_insert _ _ _ _).trans (if_neg hk)

/-- **A node is rewritten to what it declares.** -/
theorem image_agrees (h : Json.Sorted (.obj obj)) :
    Agrees print (image print SchemaCaps.gemini left obj) (declared print left obj) := by
  induction left generalizing obj with
  | zero => exact ⟨rfl, rfl, rfl, rfl⟩
  | succ left ih =>
    unfold image declared
    cases hb : branchOf SchemaCaps.gemini obj with
    | some branch =>
      have hbranch := ih (branchOf_sorted h hb)
      exact ⟨(get_describe (by decide)).trans hbranch.type,
        (get_describe (by decide)).trans hbranch.enum,
        (get_describe (by decide)).trans hbranch.items,
        (get_describe (by decide)).trans hbranch.props⟩
    | none =>
      have hfold (members : List Json) (hm : ∀ v ∈ members, v.Sorted) (out : OrdMap String Json)
          (d : Declared) (hd : Agrees print out d) :
          Agrees print (members.foldl (mergeStep (image print SchemaCaps.gemini left)) out)
            (members.foldl (mergeDeclared (declared print left)) d) := by
        induction members generalizing out d with
        | nil => exact hd
        | cons member members ihm =>
          obtain ⟨hmember, hmembers⟩ := List.forall_mem_cons.1 hm
          refine ihm hmembers _ _ ?_
          cases member with
          | obj fields => exact hd.merge (ih hmember)
          | _ => exact hd
      exact (hfold _ (allOfMembers_sorted h) _ _ (ownDeclared_agrees left h)).place

end Gemini

/-! ### Dropped keywords -/

section Clean

variable (print : Json → String) (caps : SchemaCaps)

/-- No keyword is one that the dialect has no place for. -/
def Clean (out : OrdMap String Json) : Prop := ∀ k, dropped caps k = true → out.get k = none

variable {caps}

theorem not_dropped {key : String} (hmeta : isMeta key = false)
    (h : key ∉ ["anyOf", "oneOf", "allOf", "const", "$ref", "$defs", "definitions",
      "additionalProperties"]) : dropped caps key = false := by
  simp only [List.mem_cons, not_or] at h
  obtain ⟨h₁, h₂, h₃, h₄, h₅, h₆, h₇, h₈, -⟩ := h
  simp [dropped, hmeta, h₁, h₂, h₃, h₄, h₅, h₆, h₇, h₈]

variable {out : OrdMap String Json}

theorem Clean.insert (h : Clean caps out) {key : String} (v : Json)
    (hkey : dropped caps key = false) : Clean caps (out.insert key v) := by
  intro k hk
  have hne : k ≠ key := by
    rintro rfl
    rw [hkey] at hk
    exact Bool.false_ne_true hk
  rw [OrdMap.get_insert, if_neg hne]
  exact h k hk

theorem Clean.merge {src : OrdMap String Json} (h : Clean caps out) (h' : Clean caps src) :
    Clean caps (mergeInto out src) := by
  intro k hk
  rw [get_mergeInto, h k hk, h' k hk]
  rfl

theorem clean_empty : Clean caps OrdMap.empty := fun _ _ => rfl

theorem clean_loopImage (g : Fields → OrdMap String Json) {obj : Fields} (h : SortedFields obj) :
    Clean caps (loopImage print caps g obj) := by
  intro k hk
  have hne : k ≠ "type" := by
    rintro rfl
    rw [not_dropped rfl (by decide)] at hk
    exact Bool.false_ne_true hk
  rw [get_loopImage print caps h hne]
  cases OrdMap.getList k obj with
  | none => rfl
  | some v => exact if_pos hk

theorem Clean.const (h : Clean caps out) (obj : Fields) :
    Clean caps (constImage print caps obj out) := by
  unfold constImage
  have htype : dropped caps "type" = false := not_dropped rfl (by decide)
  have henum : dropped caps "enum" = false := not_dropped rfl (by decide)
  cases caps.constKeyword with
  | true => exact h
  | false =>
    cases OrdMap.getList "const" obj with
    | none => exact h
    | some value =>
      dsimp only
      split_ifs
      · exact (h.insert _ htype).insert _ henum
      · exact h.insert _ henum

theorem Clean.place (h : Clean caps out) : Clean caps (placeImage caps out) := by
  unfold placeImage
  split_ifs
  · exact h.insert _ (not_dropped rfl (by decide))
  · exact h

theorem Clean.describe (h : Clean caps out) (obj : Fields) : Clean caps (describe obj out) := by
  unfold Schema.describe
  cases OrdMap.getList "description" obj with
  | none => exact h
  | some description =>
    dsimp only
    split_ifs
    · exact h
    · exact h.insert _ (not_dropped rfl (by decide))

/-- **No keyword of a rewritten node** is one that is dropped. -/
theorem image_clean (left : ℕ) {obj : Fields} (h : Json.Sorted (.obj obj)) :
    Clean caps (image print caps left obj) := by
  induction left generalizing obj with
  | zero => exact clean_empty.insert _ (not_dropped rfl (by decide))
  | succ left ih =>
    unfold image
    cases hb : branchOf caps obj with
    | some branch => exact (ih (branchOf_sorted h hb)).describe obj
    | none =>
      have hfold (members : List Json) (hm : ∀ v ∈ members, v.Sorted) (out : OrdMap String Json)
          (hout : Clean caps out) :
          Clean caps (members.foldl (mergeStep (image print caps left)) out) := by
        induction members generalizing out with
        | nil => exact hout
        | cons member members ihm =>
          obtain ⟨hmember, hmembers⟩ := List.forall_mem_cons.1 hm
          refine ihm hmembers _ ?_
          cases member with
          | obj fields => exact hout.merge (ih hmember)
          | _ => exact hout
      exact (hfold _ (allOfMembers_sorted h) _
        ((clean_loopImage print _ h.keys).const print obj)).place

end Clean

end Schema

end Switchback
