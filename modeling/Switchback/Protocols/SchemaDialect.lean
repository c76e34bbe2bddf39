import Switchback.Lib.Lines
import Switchback.Protocols.SchemaDeclared

/-!
# Schemas in the dialect of Gemini

The dialect concerns every schema that is reached through properties and items.  The nodes of the
input that stay in the output must declare what it asks for.
-/

namespace Switchback

namespace Schema

open Lib

/-! ### The dialect -/

/-- A keyword that the dialect does not know. -/
def Forbidden (key : String) : Prop :=
  key ∈ ["anyOf", "oneOf", "allOf", "const", "$ref", "$defs", "definitions",
      "additionalProperties", "$schema", "$id", "$comment", "$anchor", "examples"] ∨
    "x-".toList <+: key.toList

/-- A schema of the dialect, leaving out the schemas in it. -/
structure NodeInDialect (fields : Fields) : Prop where
  keywords : ∀ p ∈ fields, ¬ Forbidden p.1
  type : ∀ types, OrdMap.getList "type" fields ≠ some (.arr types)
  enum : ∀ values, OrdMap.getList "enum" fields = some (.arr values) →
    (∀ v ∈ values, ∃ s, v = .str s) ∧ OrdMap.getList "type" fields = some (.str "string")
  object : OrdMap.getList "type" fields = some (.str "object") →
    ∃ p props, OrdMap.getList "properties" fields = some (.obj (p :: props))

/-- The schemas that are reached through the values of properties and through items. -/
inductive Reaches : Json → Fields → Prop
  | self (fields : Fields) : Reaches (.obj fields) fields
  | property {fields props t : Fields} {p : String × Json}
      (hprops : OrdMap.getList "properties" fields = some (.obj props)) (hp : p ∈ props)
      (h : Reaches p.2 t) : Reaches (.obj fields) t
  | items {fields t : Fields} {v : Json} (hitems : OrdMap.getList "items" fields = some v)
      (h : Reaches v t) : Reaches (.obj fields) t
  | tuple {fields t : Fields} {elems : List Json} {v : Json}
      (hitems : OrdMap.getList "items" fields = some (.arr elems)) (hv : v ∈ elems)
      (h : Reaches v t) : Reaches (.obj fields) t

def InDialect (s : Json) : Prop := ∀ t, Reaches s t → NodeInDialect t

theorem inDialect_of_not_obj {s : Json} (h : ∀ fields, s ≠ .obj fields) : InDialect s := by
  intro t ht
  cases ht with
  | self => exact absurd rfl (h _)
  | property => exact absurd rfl (h _)
  | items => exact absurd rfl (h _)
  | tuple => exact absurd rfl (h _)

theorem inDialect_obj {fields : Fields} :
    InDialect (.obj fields) ↔
      NodeInDialect fields ∧
        (∀ props, OrdMap.getList "properties" fields = some (.obj props) →
          ∀ p ∈ props, InDialect p.2) ∧
        ∀ v, OrdMap.getList "items" fields = some v →
          InDialect v ∧ ∀ elems, v = .arr elems → ∀ w ∈ elems, InDialect w := by
  constructor
  · intro h
    refine ⟨h _ (.self fields), fun props hprops p hp t ht => h t (.property hprops hp ht),
      fun v hv => ⟨fun t ht => h t (.items hv ht), ?_⟩⟩
    rintro elems rfl w hw t ht
    exact h t (.tuple hv hw ht)
  · rintro ⟨hnode, hprops, hitems⟩ t ht
    cases ht with
    | self => exact hnode
    | property hp hmem ht => exact hprops _ hp _ hmem t ht
    | items hv ht => exact (hitems _ hv).1 t ht
    | tuple hv hmem ht => exact (hitems _ hv).2 _ rfl _ hmem t ht

section Gemini

variable (print : Json → String)

/-- The nodes of a schema that stay, with the levels that are left for them. -/
inductive Survives : ℕ → Json → ℕ → Fields → Prop
  | self (left : ℕ) (fields : Fields) : Survives left (.obj fields) left fields
  | property {left l m : ℕ} {fields t : Fields} {ps : List (String × Child)} {k : String}
      {v : Json} (hprops : (declared print left fields).props = some ps)
      (hp : (k, .schema l v) ∈ ps) (h : Survives l v m t) : Survives left (.obj fields) m t
  | items {left l m : ℕ} {fields t : Fields} {v : Json}
      (hitems : (declared print left fields).items = some (l, v)) (h : Survives l v m t) :
      Survives left (.obj fields) m t

/-- The type of a node is no array, and it is `string` beside an enumeration; a schema in an array
of items is in the dialect as it is. -/
structure NodeFits (left : ℕ) (fields : Fields) : Prop where
  type : ∀ types, (declared print left fields).type ≠ some (.arr types)
  enum : ∀ values, (declared print left fields).enum = some (.arr values) →
    (declared print left fields).type = some (.str "string")
  items : ∀ l elems, (declared print left fields).items = some (l, .arr elems) →
    ∀ v ∈ elems, InDialect v

/-- Every node that stays fits. -/
def Fits (left : ℕ) (s : Json) : Prop := ∀ m t, Survives print left s m t → NodeFits print m t

theorem fits_of_not_obj {left : ℕ} {s : Json} (h : ∀ fields, s ≠ .obj fields) :
    Fits print left s := by
  intro m t ht
  cases ht with
  | self => exact absurd rfl (h _)
  | property => exact absurd rfl (h _)
  | items => exact absurd rfl (h _)

theorem fits_obj {left : ℕ} {fields : Fields} :
    Fits print left (.obj fields) ↔
      NodeFits print left fields ∧
        (∀ ps, (declared print left fields).props = some ps →
          ∀ k l v, (k, .schema l v) ∈ ps → Fits print l v) ∧
        ∀ l v, (declared print left fields).items = some (l, v) → Fits print l v := by
  constructor
  · intro h
    exact ⟨h _ _ (.self left fields), fun ps hps k l v hmem m t ht => h m t (.property hps hmem ht),
      fun l v hv m t ht => h m t (.items hv ht)⟩
  · rintro ⟨hnode, hprops, hitems⟩ m t ht
    cases ht with
    | self => exact hnode
    | property hp hmem ht => exact hprops _ hp _ _ _ hmem m t ht
    | items hv ht => exact hitems _ _ hv m t ht

/-! ### One node -/

variable {print}

/-- A declared enumeration is one of strings. -/
def Declared.StringEnum (d : Declared) : Prop :=
  ∀ values, d.enum = some (.arr values) → ∀ v ∈ values, ∃ s, v = Json.str s

variable (left : ℕ) {d : Declared}

theorem ownDeclared_stringEnum (obj : Fields) : (ownDeclared print left obj).StringEnum := by
  intro values hvalues v hv
  unfold ownDeclared at hvalues
  dsimp only at hvalues
  cases hc : OrdMap.getList "const" obj with
  | some value =>
    rw [hc] at hvalues
    cases hvalues
    exact ⟨_, List.mem_singleton.1 hv⟩
  | none =>
    rw [hc] at hvalues
    obtain ⟨w, -, hw⟩ := Option.map_eq_some_iff.1 hvalues
    cases w with
    | arr ws =>
      cases hw
      obtain ⟨x, -, rfl⟩ := List.mem_map.1 hv
      exact ⟨_, rfl⟩
    | _ => cases hw

theorem Declared.StringEnum.merge {d' : Declared} (h : d.StringEnum) (h' : d'.StringEnum) :
    (d.merge d').StringEnum := by
  intro values hvalues
  rcases Option.or_eq_some_iff.1 hvalues with hvalues | ⟨-, hvalues⟩
  · exact h values hvalues
  · exact h' values hvalues

theorem Declared.StringEnum.place (h : d.StringEnum) : d.place.StringEnum := by
  unfold Declared.place
  split_ifs
  · exact h
  · exact h

theorem declared_stringEnum (obj : Fields) : (declared print left obj).StringEnum := by
  induction left generalizing obj with
  | zero => exact fun values hvalues => by cases hvalues
  | succ left ih =>
    unfold declared
    cases branchOf SchemaCaps.gemini obj with
    | some branch => exact ih branch
    | none =>
      have hfold (members : List Json) (d : Declared) (hd : d.StringEnum) :
          (members.foldl (mergeDeclared (declared print left)) d).StringEnum := by
        induction members generalizing d with
        | nil => exact hd
        | cons member members ihm =>
          refine ihm _ ?_
          cases member with
          | obj fields => exact hd.merge (ih fields)
          | _ => exact hd
      exact (hfold _ _ (ownDeclared_stringEnum left obj)).place

theorem place_object (h : d.place.type = some (.str "object")) :
    ∃ p ps, d.place.props = some (p :: ps) := by
  unfold Declared.place at h ⊢
  cases hc : d.type.bind Json.asStr == some "object" && d.props.all List.isEmpty with
  | true => exact ⟨_, _, rfl⟩
  | false =>
    rw [hc] at h
    have htype : d.type = some (.str "object") := h
    rw [htype] at hc
    cases hp : d.props with
    | none =>
      rw [hp] at hc
      exact absurd hc (by decide)
    | some ps =>
      cases ps with
      | nil =>
        rw [hp] at hc
        exact absurd hc (by decide)
      | cons p ps => exact ⟨p, ps, hp⟩

theorem declared_object {obj : Fields} (h : (declared print left obj).type = some (.str "object")) :
    ∃ p ps, (declared print left obj).props = some (p :: ps) := by
  induction left generalizing obj with
  | zero =>
    have htype : some (Json.str "string") = some (.str "object") := h
    exact absurd htype (by decide)
  | succ left ih =>
    unfold declared at h ⊢
    cases hb : branchOf SchemaCaps.gemini obj with
    | some branch =>
      rw [hb] at h
      exact ih h
    | none =>
      rw [hb] at h
      exact place_object h

theorem forbidden_iff {key : String} :
    Forbidden key ↔ dropped SchemaCaps.gemini key = true := by
  have hx : Text.startsWith "x-" key = true ↔ "x-".toList <+: key.toList :=
    Text.startsWithList_iff
  unfold Forbidden dropped isMeta
  rw [← hx]
  simp only [SchemaCaps.gemini, alwaysStrip, Bool.not_false, Bool.true_and, Bool.or_eq_true,
    beq_iff_eq, List.contains_iff_mem, List.mem_cons, List.not_mem_nil, or_false]
  grind only

/-- A node is rewritten to one of the dialect exactly when its type is no array, and `string` beside
an enumeration. -/
theorem nodeInDialect_image_iff {obj : Fields} (h : Json.Sorted (.obj obj)) :
    NodeInDialect (image print SchemaCaps.gemini left obj).entries ↔
      (∀ types, (declared print left obj).type ≠ some (.arr types)) ∧
        ∀ values, (declared print left obj).enum = some (.arr values) →
          (declared print left obj).type = some (.str "string") := by
  have hagrees := @image_agrees print left obj h
  have htype : OrdMap.getList "type" (image print SchemaCaps.gemini left obj).entries =
      (declared print left obj).type := hagrees.type
  have henum : OrdMap.getList "enum" (image print SchemaCaps.gemini left obj).entries =
      (declared print left obj).enum := hagrees.enum
  constructor
  · rintro ⟨-, htypes, henums, -⟩
    rw [htype] at htypes henums
    rw [henum] at henums
    exact ⟨htypes, fun values hvalues => (henums values hvalues).2⟩
  · rintro ⟨htypes, henums⟩
    refine ⟨fun p hp hforbidden => ?_, ?_, fun values hvalues => ?_, fun hobject => ?_⟩
    · have hget := OrdMap.getList_of_mem (image print SchemaCaps.gemini left obj).sorted hp
      have hnone := image_clean print left h p.1 (forbidden_iff.1 hforbidden)
      exact absurd (hnone.symm.trans hget) (by simp)
    · rwa [htype]
    · rw [henum] at hvalues
      rw [htype]
      exact ⟨declared_stringEnum left obj values hvalues, henums values hvalues⟩
    · rw [htype] at hobject
      obtain ⟨p, ps, hps⟩ := declared_object left hobject
      refine ⟨(p.1, p.2.render print), ps.map fun p => (p.1, p.2.render print), ?_⟩
      exact hagrees.props.trans (by rw [hps]; rfl)

theorem inDialect_placeholder : InDialect (.obj placeholder.entries) := by
  refine inDialect_obj.2 ⟨⟨fun p hp hforbidden => ?_, ?_, ?_, ?_⟩, ?_, ?_⟩
  · rw [forbidden_iff] at hforbidden
    rcases List.mem_pair.1 hp with rfl | rfl
    · exact absurd hforbidden (by decide)
    · exact absurd hforbidden (by decide)
  · intro types htypes
    cases htypes
  · intro values hvalues
    cases hvalues
  · intro hobject
    have htype : some (Json.str "string") = some (.str "object") := hobject
    exact absurd htype (by decide)
  · intro props hprops
    cases hprops
  · intro v hv
    cases hv

/-- **A schema is rewritten into the dialect** exactly when every node that stays fits. -/
theorem inDialect_valueImage_iff {s : Json} (h : s.Sorted) :
    InDialect (valueImage (image print SchemaCaps.gemini left) s) ↔ Fits print left s := by
  induction left using Nat.strong_induction_on generalizing s with
  | _ left ih =>
    cases s with
    | obj obj =>
      have hagrees := @image_agrees print left obj h
      have hbelow := declared_below print left h
      have hprops : OrdMap.getList "properties" (image print SchemaCaps.gemini left obj).entries =
          (declared print left obj).props.map fun ps =>
            .obj (ps.map fun p => (p.1, p.2.render print)) := hagrees.props
      have hitems : OrdMap.getList "items" (image print SchemaCaps.gemini left obj).entries =
          (declared print left obj).items.map fun p =>
            valueImage (image print SchemaCaps.gemini p.1) p.2 := hagrees.items
      refine Iff.trans inDialect_obj (Iff.trans ?_ (fits_obj print).symm)
      rw [nodeInDialect_image_iff left h, hprops, hitems]
      constructor
      · rintro ⟨⟨htype, henum⟩, hp, hi⟩
        refine ⟨⟨htype, henum, fun l elems hitem w hw => ?_⟩, fun ps hps k l v hmem => ?_,
          fun l v hitem => ?_⟩
        · exact (hi (.arr elems) (by rw [hitem]; rfl)).2 elems rfl w hw
        · obtain ⟨hlt, hv⟩ := (hbelow.props ps hps).2 k l v hmem
          have hchild : (k, Child.render print (.schema l v)) ∈
              ps.map fun p => (p.1, p.2.render print) := List.mem_map.2 ⟨_, hmem, rfl⟩
          exact (ih l hlt hv).1 (hp _ (by rw [hps]; rfl) _ hchild)
        · obtain ⟨hlt, hv⟩ := hbelow.items l v hitem
          exact (ih l hlt hv).1 (hi _ (by rw [hitem]; rfl)).1
      · rintro ⟨hnode, hp, hi⟩
        refine ⟨⟨hnode.type, hnode.enum⟩, fun props hsome p hmem => ?_, fun v hv => ?_⟩
        · obtain ⟨ps, hps, heq⟩ := Option.map_eq_some_iff.1 hsome
          cases heq
          obtain ⟨⟨k, child⟩, hchild, rfl⟩ := List.mem_map.1 hmem
          cases child with
          | schema l v =>
            obtain ⟨hlt, hv⟩ := (hbelow.props ps hps).2 k l v hchild
            exact (ih l hlt hv).2 (hp ps hps k l v hchild)
          | placeholder => exact inDialect_placeholder
        · obtain ⟨⟨l, w⟩, hitem, rfl⟩ := Option.map_eq_some_iff.1 hv
          obtain ⟨hlt, hw⟩ := hbelow.items l w hitem
          refine ⟨(ih l hlt hw).2 (hi l w hitem), fun elems helems x hx => ?_⟩
          cases w with
          | arr ws =>
            cases helems
            exact hnode.items l _ hitem x hx
          | _ => cases helems
    | _ =>
      exact iff_of_true (inDialect_of_not_obj fun _ => by intro heq; cases heq)
        (fits_of_not_obj print fun _ => by intro heq; cases heq)

/-- A schema is rewritten into the dialect exactly when, at every node that stays, the type is no
array, it is `string` beside an enumeration, and a schema in an array of items is in the dialect as
it is. -/
theorem downlevel_inDialect_iff (print : Json → String) (s : Json) (h : s.Sorted) :
    InDialect (downlevel print SchemaCaps.gemini s) ↔ Fits print maxDownlevelDepth s := by
  rw [downlevel_eq]
  exact inDialect_valueImage_iff maxDownlevelDepth h

end Gemini

/-- A nullable string with a reference is rewritten into the dialect. -/
theorem downlevel_inDialect_nullable :
    InDialect (downlevel (fun _ => "") SchemaCaps.gemini
      (.obj [("$ref", .str "#/$defs/Thing"), ("type", .arr [.str "string", .str "null"])])) := by
  have hsorted : Json.Sorted
      (.obj [("$ref", .str "#/$defs/Thing"), ("type", .arr [.str "string", .str "null"])]) := by
    refine .obj (by decide) fun p hp => ?_
    rcases List.mem_pair.1 hp with rfl | rfl
    · exact .str _
    · refine .arr fun v hv => ?_
      rcases List.mem_pair.1 hv with rfl | rfl
      · exact .str _
      · exact .str _
  refine (downlevel_inDialect_iff (fun _ => "") _ hsorted).2 ((fits_obj _).2 ⟨⟨?_, ?_, ?_⟩, ?_, ?_⟩)
  · intro types htypes
    cases htypes
  · intro values hvalues
    cases hvalues
  · intro l elems helems
    cases helems
  · intro ps hps
    cases hps
  · intro l v hv
    cases hv

/-- An enumeration of strings keeps the type that it is declared with. -/
theorem downlevel_enum_keeps_integer :
    ¬ InDialect (downlevel (fun _ => "") SchemaCaps.gemini
      (.obj [("enum", .arr [.str "a"]), ("type", .str "integer")])) := by
  have hdown : downlevel (fun _ => "") SchemaCaps.gemini
      (.obj [("enum", .arr [.str "a"]), ("type", .str "integer")]) =
        .obj [("enum", .arr [.str "a"]), ("type", .str "integer")] := by
    decide +kernel
  intro h
  rw [hdown] at h
  have htype := ((h _ (.self _)).enum _ rfl).2
  have hinteger : some (Json.str "integer") = some (.str "string") := htype
  exact absurd hinteger (by decide)

end Schema

end Switchback
