import Switchback.Protocols.SchemaFaithful

/-!
# What is lost in downleveling

A rewrite that warns of nothing should keep the schema, and one that loses something should warn.
-/

namespace Switchback

namespace Schema

open Lib

/-- The keywords of unions and of references. -/
def structuralKeys : List String := ["anyOf", "oneOf", "$ref", "$defs", "definitions"]

/-- The keywords whose value is a schema. -/
def schemaKeys : List String :=
  ["items", "additionalProperties", "not", "if", "then", "else", "contains", "propertyNames",
    "unevaluatedItems", "unevaluatedProperties"]

/-- The keywords whose value is a list of schemas. -/
def schemaListKeys : List String := ["items", "allOf", "prefixItems"]

/-- The keywords whose value is an object of schemas. -/
def schemaMapKeys : List String := ["properties", "patternProperties", "dependentSchemas"]

/-- A union, a reference or a node beyond the cap, somewhere in a schema. -/
inductive Mentions : ℕ → Json → Prop
  | deep (fields : Fields) : Mentions 0 (.obj fields)
  | keyword {left : ℕ} {fields : Fields} {p : String × Json} (hp : p ∈ fields)
      (hk : p.1 ∈ structuralKeys) : Mentions left (.obj fields)
  | schema {left : ℕ} {fields : Fields} {p : String × Json} (hp : p ∈ fields)
      (hk : p.1 ∈ schemaKeys) (h : Mentions left p.2) : Mentions (left + 1) (.obj fields)
  | elem {left : ℕ} {fields : Fields} {key : String} {elems : List Json} {v : Json}
      (hp : (key, .arr elems) ∈ fields) (hk : key ∈ schemaListKeys) (hv : v ∈ elems)
      (h : Mentions left v) : Mentions (left + 1) (.obj fields)
  | member {left : ℕ} {fields : Fields} {key : String} {members : Fields} {p : String × Json}
      (hm : (key, .obj members) ∈ fields) (hk : key ∈ schemaMapKeys) (hp : p ∈ members)
      (h : Mentions left p.2) : Mentions (left + 1) (.obj fields)

section Merge

variable (caps : SchemaCaps)

/-! ### What fills a node -/

/-- A place of a node that is filled once: a keyword, or a property. -/
inductive Slot where
  | key (k : String)
  | property (k : String)

/-- What a member offers under its own name. -/
def keyOffer (key : String) (value : Json) : Option Json :=
  if dropped caps key || key == "properties" then none
  else if key == "items" && !caps.typeArrays then
    match value with
    | .arr items => items.head?
    | _ => some value
  else some value

/-- What a node itself has for a place. -/
def ownOffer (slot : Slot) (fields : Fields) : Option Json :=
  match slot with
  | .key k => (OrdMap.getList k fields).bind (keyOffer caps k)
  | .property k => ((OrdMap.getList "properties" fields).bind Json.asObject).bind (OrdMap.getList k)

def memberOffer (sub : Fields → Option (ℕ × Json)) (member : Json) : Option (ℕ × Json) :=
  match member with
  | .obj fields => sub fields
  | _ => none

/-- What there is for a place, that of the node itself first: schemas of the input, with the levels
that are left for them. -/
def offersOf (sub : Fields → Option (ℕ × Json)) (left : ℕ) (slot : Slot) (fields : Fields) :
    List (ℕ × Json) :=
  ((ownOffer caps slot fields).map fun v => (left, v)).toList ++
    (allOfMembers caps fields).filterMap (memberOffer sub)

/-- What fills a place: the first that there is. -/
def offer : ℕ → Slot → Fields → Option (ℕ × Json)
  | 0, _, _ => none
  | left + 1, slot, fields => (offersOf caps (offer left slot) left slot fields).head?

/-- What there is besides for a place, which is taken. -/
def keptOut (left : ℕ) (slot : Slot) (fields : Fields) : List (ℕ × Json) :=
  (offersOf caps (offer caps left slot) left slot fields).tail

/-- A union, a reference or a deep node that goes with something else: with the additional
properties, with a tuple item after the first, or with what merging keeps out. -/
inductive Unseen : ℕ → Fields → Prop
  | additional {left : ℕ} {fields : Fields} {v : Json} (hc : caps.additionalProperties = false)
      (hget : OrdMap.getList "additionalProperties" fields = some v) (h : Mentions left v) :
      Unseen (left + 1) fields
  | item {left : ℕ} {fields : Fields} {items : List Json} {v : Json} (hc : caps.typeArrays = false)
      (hget : OrdMap.getList "items" fields = some (.arr items)) (hv : v ∈ items.tail)
      (h : Mentions left v) : Unseen (left + 1) fields
  | key {left : ℕ} {fields : Fields} {k : String} {q : ℕ × Json}
      (hq : q ∈ keptOut caps left (.key k) fields)
      (h : Mentions (q.1 + 1) (.obj [(k, q.2)])) : Unseen (left + 1) fields
  | property {left : ℕ} {fields : Fields} {k : String} {q : ℕ × Json}
      (hq : q ∈ keptOut caps left (.property k) fields) (h : Mentions q.1 q.2) :
      Unseen (left + 1) fields

/-- A union, a reference or a deep node is removed. -/
def Removes (left : ℕ) (fields : Fields) : Prop := LosesHigh caps left fields ∨ Unseen caps left fields

end Merge

section Kept

variable (print : Json → String) {caps : SchemaCaps}

theorem keptOut_of_allOf {left : ℕ} {slot : Slot} {fields : Fields}
    (h : allOfMembers caps fields = []) : keptOut caps left slot fields = [] := by
  unfold keptOut offersOf
  rw [h]
  cases ownOffer caps slot fields <;> rfl

end Kept

theorem lossiness_prependPath (head : String) (w : SchemaWarning) :
    (w.prependPath head).lossiness = w.lossiness := by
  unfold SchemaWarning.prependPath
  split_ifs <;> rfl

theorem stripLit_render {w : SchemaWarning} (h : w.lossiness = .high) :
    ∃ payload, Text.stripLit "schema_downlevel:" (SchemaWarning.render w) = some payload ∧
      Text.startsWith "high:" payload = true := by
  have hrender (path : String) : ("schema_downlevel:" ++ SchemaLossiness.asStr w.lossiness ++ ":" ++
      path ++ ":" ++ w.keyword ++ ": " ++ w.message).toList =
        "schema_downlevel:".toList ++ ("high:".toList ++
          (path ++ ":" ++ w.keyword ++ ": " ++ w.message).toList) := by
    rw [h]
    simp only [String.toList_append, List.append_assoc]
    rfl
  unfold SchemaWarning.render Text.stripLit Text.startsWith
  dsimp only
  rw [hrender, Text.stripPrefixList_append_self]
  refine ⟨_, rfl, ?_⟩
  exact congrArg Option.isSome ((congrArg (Text.stripPrefixList "high:".toList)
    String.toList_ofList).trans (Text.stripPrefixList_append_self _ _))

/-- **The gate rejects** a target among whose warnings there is one of high lossiness, whatever path
the warnings are put under. -/
theorem highLossinessSchemaWarning_isSome {ws : List SchemaWarning}
    (h : ∃ w ∈ ws, w.lossiness = .high) (head : String) (before after : List String) :
    (highLossinessSchemaWarning
      (before ++ ws.map (fun w => SchemaWarning.render (w.prependPath head)) ++ after)).isSome = true := by
  obtain ⟨w, hw, hhigh⟩ := h
  obtain ⟨payload, hstrip, hstarts⟩ :=
    stripLit_render ((lossiness_prependPath head w).trans hhigh)
  unfold highLossinessSchemaWarning
  rw [List.find?_isSome]
  refine ⟨SchemaWarning.render (w.prependPath head), ?_, ?_⟩
  · exact List.mem_append_left _ (List.mem_append_right _ (List.mem_map.2 ⟨w, hw, rfl⟩))
  · rw [hstrip, Option.some_or]
    exact hstarts

/-! ### No silent loss -/

/-- A schema without a warning is as it was, up to its types; what is removed is reported, and the
strict gate rejects the target. -/
structure NoSilentLoss (print : Json → String) (caps : SchemaCaps) (s : Json) : Prop where
  faithful : (downlevelWithWarnings print caps s).2 = [] → Alike s (downlevel print caps s)
  reported : Visits caps (Removes caps) maxDownlevelDepth s →
    ∃ w ∈ (downlevelWithWarnings print caps s).2, w.lossiness = .high
  rejected : Visits caps (Removes caps) maxDownlevelDepth s →
    ∀ (head : String) (before after : List String),
      (highLossinessSchemaWarning (before ++
        (downlevelWithWarnings print caps s).2.map (fun w => SchemaWarning.render (w.prependPath head)) ++
          after)).isSome = true

section Loss

variable (print : Json → String) (caps : SchemaCaps)

theorem warnings_eq_nil_iff {s : Json} (h : s.Sorted) :
    (downlevelWithWarnings print caps s).2 = [] ↔
      ¬ Visits caps (Reports caps) maxDownlevelDepth s := by
  rw [← warned_any_iff print maxDownlevelDepth h]
  unfold Warned Warns
  change (downlevelWithWarnings print caps s).2 = [] ↔
    ¬ ∃ w ∈ (downlevelWithWarnings print caps s).2, True
  simp [List.eq_nil_iff_forall_not_mem]

theorem reported_iff (s : Json) :
    (∃ w ∈ (downlevelWithWarnings print caps s).2, w.lossiness = .high) ↔
      Visits caps (LosesHigh caps) maxDownlevelDepth s :=
  warned_high_iff print maxDownlevelDepth s

/-- Nothing is lost in silence exactly when something is warned about wherever properties that are no
object or an empty type array are dropped, and some union, reference or deep node has a warning of
its own wherever one goes unseen. -/
theorem noSilentLoss_iff (s : Json) (h : s.Sorted) :
    NoSilentLoss print caps s ↔
      (Visits caps (fun _ => Malformed caps) maxDownlevelDepth s →
        Visits caps (Reports caps) maxDownlevelDepth s) ∧
      (Visits caps (Unseen caps) maxDownlevelDepth s →
        Visits caps (LosesHigh caps) maxDownlevelDepth s) := by
  have hremoves : Visits caps (Removes caps) maxDownlevelDepth s ↔
      Visits caps (LosesHigh caps) maxDownlevelDepth s ∨
        Visits caps (Unseen caps) maxDownlevelDepth s := visits_or
  constructor
  · intro hloss
    refine ⟨fun hm => ?_, fun hunseen => ?_⟩
    · by_contra hr
      have halike := hloss.faithful ((warnings_eq_nil_iff print caps h).2 hr)
      rw [downlevel_eq] at halike
      exact (alike_iff_of_silent print maxDownlevelDepth h hr).1 halike hm
    · exact (reported_iff print caps s).1 (hloss.reported (hremoves.2 (Or.inr hunseen)))
  · rintro ⟨hmalformed, hunseen⟩
    have hreported (hr : Visits caps (Removes caps) maxDownlevelDepth s) :
        ∃ w ∈ (downlevelWithWarnings print caps s).2, w.lossiness = .high :=
      (reported_iff print caps s).2 ((hremoves.1 hr).elim id hunseen)
    refine ⟨fun hnil => ?_, hreported, fun hr => highLossinessSchemaWarning_isSome (hreported hr)⟩
    have hr := (warnings_eq_nil_iff print caps h).1 hnil
    rw [downlevel_eq]
    exact alike_of_silent print maxDownlevelDepth h hr fun hm => hr (hmalformed hm)

end Loss

/-- A closed object keeps all that it says, but for the additional properties. -/
theorem noSilentLoss_closed :
    NoSilentLoss (fun _ => "") SchemaCaps.gemini
      (.obj [("additionalProperties", .bool false), ("type", .str "object")]) := by
  have hsorted : Json.Sorted
      (.obj [("additionalProperties", .bool false), ("type", .str "object")]) := by
    refine .obj (by decide) fun p hp => ?_
    rcases List.mem_pair.1 hp with rfl | rfl
    · exact .bool _
    · exact .str _
  refine (noSilentLoss_iff (fun _ => "") SchemaCaps.gemini _ hsorted).2
    ⟨fun _ => .here (Or.inr (Or.inl ⟨_, List.mem_cons_self, rfl⟩)), fun hunseen => ?_⟩
  exfalso
  rcases visits_succ.1 hunseen with hnode | ⟨p, hp, v, hv, -⟩ | ⟨v, hv, -⟩
  · cases hnode with
    | additional hc hget h =>
      cases hget
      cases h
    | item hc hget hv h => cases hget
    | key hq h =>
      rw [keptOut_of_allOf rfl] at hq
      cases hq
    | property hq h =>
      rw [keptOut_of_allOf rfl] at hq
      cases hq
  · rcases List.mem_pair.1 hp with rfl | rfl
    · cases hv
    · cases hv
  · cases hv

/-- Properties that are no object are dropped without a warning, and a reference in the additional
properties without one of high lossiness. -/
theorem downlevel_loses_silently :
    ¬ NoSilentLoss (fun _ => "") SchemaCaps.gemini (.obj [("properties", Json.ofNat 5)]) ∧
      ¬ NoSilentLoss (fun _ => "") SchemaCaps.gemini
        (.obj [("additionalProperties", .obj [("$ref", .str "#/$defs/Thing")])]) := by
  constructor
  · intro h
    have hdown : downlevelWithWarnings (fun _ => "") SchemaCaps.gemini
        (.obj [("properties", Json.ofNat 5)]) = (.obj [], []) := rfl
    have halike := h.faithful (congrArg Prod.snd hdown)
    have hsame : downlevel (fun _ => "") SchemaCaps.gemini (.obj [("properties", Json.ofNat 5)]) =
        .obj [] := congrArg Prod.fst hdown
    rw [hsame] at halike
    cases halike.props
  · intro h
    have hremoves : Visits SchemaCaps.gemini (Removes SchemaCaps.gemini) maxDownlevelDepth
        (.obj [("additionalProperties", .obj [("$ref", .str "#/$defs/Thing")])]) :=
      .here (Or.inr (.additional rfl rfl (.keyword List.mem_cons_self (by decide))))
    obtain ⟨w, hw, hhigh⟩ := h.reported hremoves
    have hdown : (downlevelWithWarnings (fun _ => "") SchemaCaps.gemini
        (.obj [("additionalProperties", .obj [("$ref", .str "#/$defs/Thing")])])).2 =
          [warn "" "additionalProperties" .medium
            "dropped unsupported `additionalProperties` constraint"] := rfl
    rw [hdown] at hw
    obtain rfl := List.mem_singleton.1 hw
    cases hhigh

end Schema

end Switchback
