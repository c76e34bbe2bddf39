import Switchback.Protocols.SchemaDialect

/-!
# Downleveling twice

A second pass reaches the nodes that stay, with the levels that the first one has left for them.
-/

namespace Switchback

namespace Schema

open Lib

section Again

variable {print : Json → String}

/-! ### A node that is rewritten again -/

/-- A declared enumeration comes with a type. -/
def Declared.TypedEnum (d : Declared) : Prop :=
  ∀ values, d.enum = some (.arr values) → d.type.isSome = true

variable (left : ℕ) {d : Declared} {v s : Json} {caps : SchemaCaps}
variable (g : Fields → OrdMap String Json) {k : String} {n : ℕ}

theorem ownDeclared_typedEnum (obj : Fields) : (ownDeclared print left obj).TypedEnum := by
  intro values hvalues
  unfold ownDeclared at hvalues ⊢
  dsimp only at hvalues ⊢
  cases hc : OrdMap.getList "const" obj with
  | some value => rfl
  | none =>
    rw [hc] at hvalues
    obtain ⟨w, hw, hvalues⟩ := Option.map_eq_some_iff.1 hvalues
    cases w with
    | arr ws =>
      have henum : enumType SchemaCaps.gemini obj = some (.str "string") :=
        enumType_of_some SchemaCaps.gemini hw
      dsimp only
      rw [henum, Option.isSome_or]
      exact Bool.or_true _
    | _ => cases hvalues

theorem Declared.TypedEnum.merge {d' : Declared} (h : d.TypedEnum) (h' : d'.TypedEnum) :
    (d.merge d').TypedEnum := by
  intro values hvalues
  unfold Declared.merge
  dsimp only
  rw [Option.isSome_or, Bool.or_eq_true]
  rcases Option.or_eq_some_iff.1 hvalues with hvalues | ⟨-, hvalues⟩
  · exact Or.inl (h values hvalues)
  · exact Or.inr (h' values hvalues)

theorem Declared.TypedEnum.place (h : d.TypedEnum) : d.place.TypedEnum := by
  unfold Declared.place
  split_ifs
  · exact h
  · exact h

theorem declared_typedEnum (obj : Fields) : (declared print left obj).TypedEnum := by
  induction left generalizing obj with
  | zero => exact fun values hvalues => by cases hvalues
  | succ left ih =>
    unfold declared
    cases branchOf SchemaCaps.gemini obj with
    | some branch => exact ih branch
    | none =>
      have hfold (members : List Json) (d : Declared) (hd : d.TypedEnum) :
          (members.foldl (mergeDeclared (declared print left)) d).TypedEnum := by
        induction members generalizing d with
        | nil => exact hd
        | cons member members ihm =>
          refine ihm _ ?_
          cases member with
          | obj fields => exact hd.merge (ih fields)
          | _ => exact hd
      exact (hfold _ _ (ownDeclared_typedEnum left obj)).place

theorem image_of_clean {out : OrdMap String Json} (h : Clean SchemaCaps.gemini out) (n : ℕ) :
    image print SchemaCaps.gemini (n + 1) out.entries =
      placeImage SchemaCaps.gemini
        (loopImage print SchemaCaps.gemini (image print SchemaCaps.gemini n) out.entries) := by
  have hnone {k : String} (hk : dropped SchemaCaps.gemini k = true) :
      OrdMap.getList k out.entries = none := h k hk
  have hbranch : branchOf SchemaCaps.gemini out.entries = none := by
    unfold branchOf unionOf
    rw [hnone rfl, hnone rfl]
    rfl
  unfold image
  rw [hbranch]
  unfold nodeImage mergeImage allOfMembers constImage
  rw [hnone rfl, hnone rfl]
  rfl

theorem chosenType_mem {types : List Json} {t : Json} (h : chosenType types = some t) :
    t ∈ types := by
  rcases Option.or_eq_some_iff.1 h with h | ⟨-, h⟩
  · exact List.mem_of_find?_eq_some h
  · exact List.mem_of_mem_head? h

theorem mem_ne_arr {elems : List Json} (h : v ∈ elems) : v ≠ .arr elems := by
  rintro rfl
  have hlt := List.sizeOf_lt_of_mem h
  rw [Json.arr.sizeOf_spec] at hlt
  omega

theorem valueImage_ne_arr {g : Fields → OrdMap String Json} {elems : List Json}
    (h : v ∈ elems) : valueImage g v ≠ .arr elems := by
  cases v with
  | obj fields => exact fun heq => by cases heq
  | _ => exact mem_ne_arr h

theorem declaredEnum_of_strings {values : List Json} (h : ∀ v ∈ values, ∃ s, v = Json.str s) :
    declaredEnum print (.arr values) = .arr values := by
  have hsame : values.map (fun v => Json.str (stringify print v)) = values.map id :=
    List.map_congr_left fun v hv => by
      obtain ⟨s, rfl⟩ := h v hv
      rfl
  change Json.arr (values.map fun v => .str (stringify print v)) = .arr values
  rw [hsame, List.map_id]

theorem entry_other
    (hk : k ∉ ["type", "enum", "properties", "items"]) (hd : dropped caps k = false) (v : Json) :
    entry print caps g k v = some v := by
  simp only [List.mem_cons, not_or] at hk
  obtain ⟨h₁, h₂, h₃, h₄, -⟩ := hk
  unfold entry
  rw [hd, beq_eq_false_iff_ne.2 h₁, beq_eq_false_iff_ne.2 h₂, beq_eq_false_iff_ne.2 h₃,
    beq_eq_false_iff_ne.2 h₄]
  rfl

theorem entry_dropped
    (hd : dropped caps k = true) (v : Json) : entry print caps g k v = none := if_pos hd

theorem entry_properties_obj {props : Fields} (h : SortedFields props) :
    entry print caps g "properties" (.obj props) =
      some (.obj (props.map fun p => (p.1, valueImage g p.2))) := by
  have hd : dropped caps "properties" = false := not_dropped rfl (by decide)
  unfold entry
  rw [hd, if_neg Bool.false_ne_true, if_neg (by simp), if_neg (by simp), if_pos (by decide)]
  dsimp only
  rw [OrdMap.entries_ofList (OrdMap.map_sorted _ h)]

/-- **A rewritten node is rewritten to itself** exactly when its type and its items are no arrays
and the schemas in it are rewritten to themselves. -/
theorem image_again_iff {out : OrdMap String Json} (h : Agrees print out d)
    (hclean : Clean SchemaCaps.gemini out) (hstrings : d.StringEnum) (htyped : d.TypedEnum)
    (hobject : d.type = some (.str "object") → ∃ p ps, d.props = some (p :: ps))
    (hsorted : ∀ ps, d.props = some ps → SortedFields ps) (n : ℕ) :
    image print SchemaCaps.gemini (n + 1) out.entries = out ↔
      (∀ types, d.type ≠ some (.arr types)) ∧
        (∀ l v, d.items = some (l, v) → (∀ elems, v ≠ .arr elems) ∧
          valueImage (image print SchemaCaps.gemini n)
              (valueImage (image print SchemaCaps.gemini l) v) =
            valueImage (image print SchemaCaps.gemini l) v) ∧
        ∀ ps, d.props = some ps → ∀ p ∈ ps,
          valueImage (image print SchemaCaps.gemini n) (p.2.render print) = p.2.render print := by
  rw [image_of_clean hclean]
  have hget {k : String} (hk : k ≠ "type") :
      (loopImage print SchemaCaps.gemini (image print SchemaCaps.gemini n) out.entries).get k =
        (out.get k).bind (entry print SchemaCaps.gemini (image print SchemaCaps.gemini n) k) :=
    get_loopImage print SchemaCaps.gemini out.sorted hk
  have htype :
      (loopImage print SchemaCaps.gemini (image print SchemaCaps.gemini n) out.entries).get
          "type" = (d.type.bind declaredType).or (enumType SchemaCaps.gemini out.entries) := by
    refine (get_loopImage_type print SchemaCaps.gemini out.sorted).trans ?_
    have hd : OrdMap.getList "type" out.entries = d.type := h.type
    rw [hd]
    simp only [entry_type]
  have hprops {ps : List (String × Child)} (hps : d.props = some ps) :
      (loopImage print SchemaCaps.gemini (image print SchemaCaps.gemini n) out.entries).get
          "properties" =
        some (.obj (ps.map fun p =>
          (p.1, valueImage (image print SchemaCaps.gemini n) (p.2.render print)))) := by
    rw [hget (by decide), h.props, hps, Option.map_some, Option.bind_some,
      entry_properties_obj _ (OrdMap.map_sorted _ (hsorted ps hps)), List.map_map]
    rfl
  generalize hsecond : loopImage print SchemaCaps.gemini (image print SchemaCaps.gemini n)
    out.entries = second at hget htype hprops ⊢
  have hplace {k : String} (hk : k ≠ "properties") :
      (placeImage SchemaCaps.gemini second).get k = second.get k :=
    (get_placeImage _ _ _).trans (if_neg fun h' => hk h'.2)
  constructor
  · intro hsame
    have hsecondget {k : String} (hk : k ≠ "properties") : second.get k = out.get k := by
      rw [← hplace hk, hsame]
    refine ⟨fun types htypes => ?_, fun l v hitems => ?_, fun ps hps p hp => ?_⟩
    · have heq := @hsecondget "type" (by decide)
      rw [htype, h.type, htypes] at heq
      rcases Option.or_eq_some_iff.1 heq with hchosen | ⟨-, henum⟩
      · exact mem_ne_arr (chosenType_mem hchosen) rfl
      · unfold enumType at henum
        split_ifs at henum
        cases henum
    · have heq := @hsecondget "items" (by decide)
      rw [hget (by decide), h.items, hitems, Option.map_some, Option.bind_some,
        entry_items] at heq
      cases v with
      | arr elems =>
        cases elems with
        | nil => cases heq
        | cons first rest =>
          exact absurd (Option.some.inj heq) (valueImage_ne_arr List.mem_cons_self)
      | _ => exact ⟨(fun elems helems => by cases helems), Option.some.inj heq⟩
    · have heq : (placeImage SchemaCaps.gemini second).get "properties" = out.get "properties" := by
        rw [hsame]
      rw [get_placeImage, h.props, hps] at heq
      by_cases hlacks : lacksProperties SchemaCaps.gemini second = true
      · -- then there is no property, and the placeholder is none of them
        rw [if_pos ⟨hlacks, rfl⟩] at heq
        unfold lacksProperties at hlacks
        rw [hprops hps] at hlacks
        cases ps with
        | nil => cases hp
        | cons q ps => simp [Json.asObject] at hlacks
      · rw [if_neg fun h' => hlacks h'.1, hprops hps] at heq
        have hmap := Json.obj.inj (Option.some.inj heq)
        exact (Prod.mk.inj (List.map_inj_left.1 hmap p hp)).2
  · rintro ⟨htypes, hitems, hall⟩
    have hsametype : second.get "type" = out.get "type" := by
      rw [htype, h.type]
      cases ht : d.type with
      | none =>
        have hnone : enumType SchemaCaps.gemini out.entries = none := by
          cases he : d.enum with
          | none => exact enumType_of_none _ (h.enum.trans he)
          | some v =>
            rw [enumType_of_some _ (h.enum.trans he)]
            cases v with
            | arr values =>
              have := htyped values he
              rw [ht] at this
              exact absurd this Bool.false_ne_true
            | _ => rfl
        rw [hnone]
        rfl
      | some v =>
        cases v with
        | arr types => exact absurd ht (htypes types)
        | _ => rfl
    have hlacks : lacksProperties SchemaCaps.gemini second = false := by
      rw [Bool.eq_false_iff]
      intro hlacks
      unfold lacksProperties at hlacks
      rw [Bool.and_eq_true, Bool.and_eq_true] at hlacks
      obtain ⟨⟨-, hobj⟩, hempty⟩ := hlacks
      obtain ⟨v, hv, hs⟩ := Option.bind_eq_some_iff.1 (beq_iff_eq.1 hobj)
      cases v with
      | str t =>
        cases hs
        rw [hsametype, h.type] at hv
        obtain ⟨p, ps, hps⟩ := hobject hv
        rw [hprops hps] at hempty
        simp [Json.asObject] at hempty
      | _ => cases hs
    refine OrdMap.ext_get fun k => ?_
    rw [get_placeImage, hlacks, if_neg fun h' => Bool.false_ne_true h'.1]
    by_cases hkt : k = "type"
    · rw [hkt, hsametype]
    rw [hget hkt]
    by_cases hke : k = "enum"
    · subst hke
      rw [h.enum]
      cases he : d.enum with
      | none => rfl
      | some v =>
        rw [Option.bind_some, entry_enum]
        cases v with
        | arr values => rw [declaredEnum_of_strings (hstrings values he)]
        | _ => rfl
    by_cases hki : k = "items"
    · subst hki
      rw [h.items]
      cases hi : d.items with
      | none => rfl
      | some p =>
        obtain ⟨l, v⟩ := p
        obtain ⟨harr, hsame⟩ := hitems l v hi
        rw [Option.map_some, Option.bind_some, entry_items]
        cases v with
        | arr elems => exact absurd rfl (harr elems)
        | _ => exact congrArg some hsame
    by_cases hkp : k = "properties"
    · subst hkp
      rw [← hget hkt, h.props]
      cases hp : d.props with
      | none =>
        rw [hget hkt, h.props, hp]
        rfl
      | some ps =>
        rw [hprops hp, Option.map_some]
        have hmap : ps.map (fun p =>
            (p.1, valueImage (image print SchemaCaps.gemini n) (p.2.render print))) =
            ps.map fun p => (p.1, p.2.render print) :=
          List.map_congr_left fun p hmem => by rw [hall ps hp p hmem]
        rw [hmap]
    cases hd : dropped SchemaCaps.gemini k with
    | true =>
      rw [hclean k hd]
      rfl
    | false =>
      cases out.get k with
      | none => rfl
      | some v =>
        have hother : k ∉ ["type", "enum", "properties", "items"] := by
          simp [hkt, hke, hki, hkp]
        exact entry_other _ hother hd v

/-! ### A schema -/

/-- The nodes of a schema that stay, with the levels that the second pass has left for them, and
those that the first one had. -/
inductive SurvivesAt (print : Json → String) : ℕ → ℕ → Json → ℕ → ℕ → Fields → Prop
  | self (n left : ℕ) (fields : Fields) : SurvivesAt print n left (.obj fields) n left fields
  | property {n left l n' m : ℕ} {fields t : Fields} {ps : List (String × Child)} {k : String}
      {v : Json} (hprops : (declared print left fields).props = some ps)
      (hp : (k, .schema l v) ∈ ps) (h : SurvivesAt print (n - 1) l v n' m t) :
      SurvivesAt print n left (.obj fields) n' m t
  | items {n left l n' m : ℕ} {fields t : Fields} {v : Json}
      (hitems : (declared print left fields).items = some (l, v))
      (h : SurvivesAt print (n - 1) l v n' m t) : SurvivesAt print n left (.obj fields) n' m t

/-- The type and the items of a node are no arrays, and there is a level left for a placeholder. -/
structure SettledNode (print : Json → String) (n left : ℕ) (fields : Fields) : Prop where
  type : ∀ types, (declared print left fields).type ≠ some (.arr types)
  items : ∀ l elems, (declared print left fields).items ≠ some (l, .arr elems)
  placeholder : ∀ ps k, (declared print left fields).props = some ps → (k, .placeholder) ∈ ps →
    2 ≤ n

/-- Every node that stays is settled. -/
def Settled (print : Json → String) (n left : ℕ) (s : Json) : Prop :=
  ∀ n' m t, SurvivesAt print n left s n' m t → SettledNode print n' m t

theorem settled_of_not_obj {left : ℕ} (h : ∀ fields, s ≠ .obj fields) : Settled print n left s := by
  intro n' m t ht
  cases ht with
  | self => exact absurd rfl (h _)
  | property => exact absurd rfl (h _)
  | items => exact absurd rfl (h _)

theorem settled_obj {left : ℕ} {fields : Fields} :
    Settled print n left (.obj fields) ↔
      SettledNode print n left fields ∧
        (∀ ps, (declared print left fields).props = some ps →
          ∀ k l v, (k, .schema l v) ∈ ps → Settled print (n - 1) l v) ∧
        ∀ l v, (declared print left fields).items = some (l, v) → Settled print (n - 1) l v := by
  constructor
  · intro h
    exact ⟨h _ _ _ (.self n left fields),
      fun ps hps k l v hmem n' m t ht => h n' m t (.property hps hmem ht),
      fun l v hv n' m t ht => h n' m t (.items hv ht)⟩
  · rintro ⟨hnode, hprops, hitems⟩ n' m t ht
    cases ht with
    | self => exact hnode
    | property hp hmem ht => exact hprops _ hp _ _ _ hmem n' m t ht
    | items hv ht => exact hitems _ _ hv n' m t ht

theorem placeholder_again_iff (n : ℕ) :
    valueImage (image print SchemaCaps.gemini n) (Child.render print .placeholder) =
        Child.render print .placeholder ↔ 1 ≤ n := by
  cases n with
  | zero =>
    refine iff_of_false (fun h => ?_) (by omega)
    have hsame : Json.obj truncated.entries = .obj Schema.placeholder.entries := h
    exact absurd hsame (by decide)
  | succ n => exact iff_of_true rfl (by omega)

/-- **The second pass changes nothing** exactly when every node that stays is settled. -/
theorem again_iff (hle : left ≤ n) (h : s.Sorted) :
    valueImage (image print SchemaCaps.gemini n)
          (valueImage (image print SchemaCaps.gemini left) s) =
        valueImage (image print SchemaCaps.gemini left) s ↔
      Settled print n left s := by
  induction left using Nat.strong_induction_on generalizing n s with
  | _ left ih =>
    cases s with
    | obj obj =>
      rw [settled_obj]
      cases n with
      | zero =>
        obtain rfl : left = 0 := by omega
        refine iff_of_true rfl ⟨⟨?_, ?_, ?_⟩, ?_, ?_⟩
        · intro types htypes
          cases htypes
        · intro l elems helems
          cases helems
        · intro ps k hps
          cases hps
        · intro ps hps
          cases hps
        · intro l v hv
          cases hv
      | succ n =>
        have hbelow := declared_below print left h
        have hnode := image_again_iff (@image_agrees print left _ h)
          (image_clean print left h) (declared_stringEnum left obj) (declared_typedEnum left obj)
          (declared_object left) (fun ps hps => (hbelow.props ps hps).1) n
        have hobj : valueImage (image print SchemaCaps.gemini (n + 1))
              (valueImage (image print SchemaCaps.gemini left) (.obj obj)) =
            valueImage (image print SchemaCaps.gemini left) (.obj obj) ↔
            image print SchemaCaps.gemini (n + 1)
              (image print SchemaCaps.gemini left obj).entries =
            image print SchemaCaps.gemini left obj := by
          refine ⟨fun heq => ?_, fun heq => ?_⟩
          · have hentries := Json.obj.inj heq
            exact OrdMap.ext_get fun k => congrArg (OrdMap.getList k) hentries
          · exact congrArg (fun out : OrdMap String Json => Json.obj out.entries) heq
        rw [hobj, hnode, Nat.add_sub_cancel]
        constructor
        · rintro ⟨htype, hitems, hprops⟩
          refine ⟨⟨htype, fun l elems helems => ?_, fun ps k hps hmem => ?_⟩,
            fun ps hps k l v hmem => ?_, fun l v hv => ?_⟩
          · exact (hitems l _ helems).1 elems rfl
          · have := (placeholder_again_iff n).1 (hprops ps hps _ hmem)
            omega
          · obtain ⟨hlt, hv⟩ := (hbelow.props ps hps).2 k l v hmem
            exact (ih l hlt (by omega) hv).1 (hprops ps hps _ hmem)
          · obtain ⟨hlt, hsorted⟩ := hbelow.items l v hv
            exact (ih l hlt (by omega) hsorted).1 (hitems l v hv).2
        · rintro ⟨hsettled, hprops, hitems⟩
          refine ⟨hsettled.type, fun l v hv => ⟨?_, ?_⟩, fun ps hps p hmem => ?_⟩
          · rintro elems rfl
            exact hsettled.items l elems hv
          · obtain ⟨hlt, hsorted⟩ := hbelow.items l v hv
            exact (ih l hlt (by omega) hsorted).2 (hitems l v hv)
          · obtain ⟨k, child⟩ := p
            cases child with
            | schema l v =>
              obtain ⟨hlt, hv⟩ := (hbelow.props ps hps).2 k l v hmem
              exact (ih l hlt (by omega) hv).2 (hprops ps hps k l v hmem)
            | placeholder =>
              have := hsettled.placeholder ps k hps hmem
              exact (placeholder_again_iff n).2 (by omega)
    | _ =>
      exact iff_of_true rfl (settled_of_not_obj fun _ => by intro heq; cases heq)

/-! ### Full JSON Schema -/

theorem get_image_permissive {obj : Fields} (h : SortedFields obj) (k : String) :
    (image print SchemaCaps.permissive (left + 1) obj).get k =
      (OrdMap.getList k obj).bind
        (entry print SchemaCaps.permissive (image print SchemaCaps.permissive left) k) := by
  have himage : image print SchemaCaps.permissive (left + 1) obj =
      loopImage print SchemaCaps.permissive (image print SchemaCaps.permissive left) obj := rfl
  rw [himage]
  by_cases hk : k = "type"
  · have hnone : enumType SchemaCaps.permissive obj = none := by
      unfold enumType
      cases OrdMap.getList "enum" obj <;> rfl
    rw [hk, get_loopImage_type print SchemaCaps.permissive h, hnone, Option.or_none]
  · exact get_loopImage print SchemaCaps.permissive h hk

theorem entry_permissive_kept
    (hk : k ∉ ["properties", "items"]) (hd : dropped SchemaCaps.permissive k = false) (v : Json) :
    entry print SchemaCaps.permissive g k v = some v := by
  simp only [List.mem_cons, not_or] at hk
  obtain ⟨h₁, h₂, -⟩ := hk
  have htype : (k == "type" && !SchemaCaps.permissive.typeArrays) = false := Bool.and_false _
  have henum : (k == "enum" && SchemaCaps.permissive.stringEnumsOnly) = false := Bool.and_false _
  unfold entry
  rw [hd, htype, henum, beq_eq_false_iff_ne.2 h₁, beq_eq_false_iff_ne.2 h₂]
  rfl

theorem entry_permissive_items (v : Json) :
    entry print SchemaCaps.permissive g "items" v = some (valueImage g v) := by
  have hd : dropped SchemaCaps.permissive "items" = false := rfl
  unfold entry
  rw [hd, if_neg Bool.false_ne_true, if_neg (by decide), if_neg (by decide), if_neg (by decide),
    if_pos (by decide)]
  cases v <;> rfl

theorem entry_properties_not_obj
    (h : ∀ props, v ≠ .obj props) : entry print caps g "properties" v = none := by
  have hd : dropped caps "properties" = false := not_dropped rfl (by decide)
  unfold entry
  rw [hd, if_neg Bool.false_ne_true, if_neg (by simp), if_neg (by simp), if_pos (by decide)]
  cases v with
  | obj props => exact absurd rfl (h props)
  | _ => rfl

/-- **With full JSON Schema** a second pass changes nothing. -/
theorem permissive_again (h : s.Sorted) :
    valueImage (image print SchemaCaps.permissive left)
        (valueImage (image print SchemaCaps.permissive left) s) =
      valueImage (image print SchemaCaps.permissive left) s := by
  induction left generalizing s with
  | zero => cases s <;> rfl
  | succ left ih =>
    cases s with
    | obj obj =>
      refine congrArg (fun out : OrdMap String Json => Json.obj out.entries)
        (OrdMap.ext_get fun k => ?_)
      have hout := (image print SchemaCaps.permissive (left + 1) obj).sorted
      rw [get_image_permissive left hout]
      change ((image print SchemaCaps.permissive (left + 1) obj).get k).bind _ = _
      rw [get_image_permissive left h.keys]
      cases hv : OrdMap.getList k obj with
      | none => rfl
      | some v =>
        rw [Option.bind_some]
        cases hd : dropped SchemaCaps.permissive k with
        | true =>
          rw [entry_dropped _ hd]
          rfl
        | false =>
          by_cases hkp : k = "properties"
          · subst hkp
            cases v with
            | obj props =>
              have hprops := (h.getList hv).keys
              rw [entry_properties_obj _ hprops, Option.bind_some,
                entry_properties_obj _ (OrdMap.map_sorted _ hprops), List.map_map]
              refine congrArg (fun ps => some (Json.obj ps)) (List.map_congr_left fun p hp => ?_)
              exact Prod.ext rfl (ih ((h.getList hv).members p hp))
            | _ =>
              rw [entry_properties_not_obj _ fun _ heq => by cases heq]
              rfl
          by_cases hki : k = "items"
          · subst hki
            rw [entry_permissive_items, Option.bind_some, entry_permissive_items,
              ih (h.getList hv)]
          · have hother : k ∉ ["properties", "items"] := by simp [hkp, hki]
            rw [entry_permissive_kept _ hother hd, Option.bind_some,
              entry_permissive_kept _ hother hd]
    | _ => rfl

end Again

/-- Downleveling to full JSON Schema is idempotent.  Downleveling to the dialect of Gemini is
exactly where, at every node that stays, the type and the items are no arrays and no placeholder
stands at the nesting cap. -/
theorem downlevel_idempotent_iff (print : Json → String) (s : Json) (h : s.Sorted) :
    downlevel print SchemaCaps.permissive (downlevel print SchemaCaps.permissive s) =
        downlevel print SchemaCaps.permissive s ∧
      (downlevel print SchemaCaps.gemini (downlevel print SchemaCaps.gemini s) =
          downlevel print SchemaCaps.gemini s ↔
        Settled print maxDownlevelDepth maxDownlevelDepth s) := by
  simp only [downlevel_eq]
  exact ⟨permissive_again maxDownlevelDepth h, again_iff maxDownlevelDepth le_rfl h⟩

/-- A nullable string. -/
theorem downlevel_idempotent_nullable :
    downlevel (fun _ => "") SchemaCaps.gemini (downlevel (fun _ => "") SchemaCaps.gemini
        (.obj [("type", .arr [.str "string", .str "null"])])) =
      downlevel (fun _ => "") SchemaCaps.gemini
        (.obj [("type", .arr [.str "string", .str "null"])]) := by
  have hsorted : Json.Sorted (.obj [("type", .arr [.str "string", .str "null"])]) := by
    refine .obj (by decide) fun p hp => ?_
    obtain rfl := List.mem_singleton.1 hp
    refine .arr fun v hv => ?_
    rcases List.mem_pair.1 hv with rfl | rfl
    · exact .str _
    · exact .str _
  refine (downlevel_idempotent_iff (fun _ => "") _ hsorted).2.2
    (settled_obj.2 ⟨⟨?_, ?_, ?_⟩, ?_, ?_⟩)
  · intro types htypes
    cases htypes
  · intro l elems helems
    cases helems
  · intro ps k hps
    cases hps
  · intro ps hps
    cases hps
  · intro l v hv
    cases hv

/-- Objects in the property `a` of each other; the innermost one has no property. -/
def nestedObjects : ℕ → Json
  | 0 => .obj [("type", .str "object")]
  | n + 1 => .obj [("properties", .obj [("a", nestedObjects n)]), ("type", .str "object")]

/-- The placeholder of the innermost of a hundred objects stands beyond the cap, where the second
pass truncates it. -/
theorem downlevel_truncates_placeholder :
    downlevel (fun _ => "") SchemaCaps.gemini
        (downlevel (fun _ => "") SchemaCaps.gemini (nestedObjects 99)) ≠
      downlevel (fun _ => "") SchemaCaps.gemini (nestedObjects 99) := by
  decide +kernel

end Schema

end Switchback
