import Switchback.Protocols.GeminiRequest

/-!
# JSON Schema downleveling

A schema is rewritten to what the dialect of a target accepts.  The levels that are left count down
from the nesting cap, where the source counts the depth up.
-/

namespace Switchback

namespace Schema

open Lib

abbrev Fields := List (String × Json)

/-- The keywords of JSON Schema that a dialect accepts. -/
structure SchemaCaps where
  unions : Bool
  allOf : Bool
  constKeyword : Bool
  typeArrays : Bool
  refs : Bool
  stringEnumsOnly : Bool
  emptyObjects : Bool
  additionalProperties : Bool

/-- Full JSON Schema. -/
def SchemaCaps.permissive : SchemaCaps where
  unions := true
  allOf := true
  constKeyword := true
  typeArrays := true
  refs := true
  stringEnumsOnly := false
  emptyObjects := true
  additionalProperties := true

/-- The restricted dialect of Gemini. -/
def SchemaCaps.gemini : SchemaCaps where
  unions := false
  allOf := false
  constKeyword := false
  typeArrays := false
  refs := false
  stringEnumsOnly := true
  emptyObjects := false
  additionalProperties := false

def alwaysStrip : List String := ["$schema", "$id", "$comment", "$anchor", "examples"]

/-- Stripped whatever the dialect is. -/
def isMeta (key : String) : Bool := alwaysStrip.contains key || Text.startsWith "x-" key

/-! ### Warnings -/

def SchemaLossiness.asStr : SchemaLossiness → String
  | .metadata => "metadata"
  | .low => "low"
  | .medium => "medium"
  | .high => "high"

/-- A warning as a text. -/
def SchemaWarning.render (w : SchemaWarning) : String :=
  let path := if w.path = "" then "/" else w.path
  "schema_downlevel:" ++ SchemaLossiness.asStr w.lossiness ++ ":" ++ path ++ ":" ++ w.keyword ++
    ": " ++ w.message

def escapeJsonPointer (segment : String) : String :=
  String.ofList (segment.toList.flatMap fun c =>
    if c = '~' then ['~', '0'] else if c = '/' then ['~', '1'] else [c])

def joinPath (path segment : String) : String := path ++ "/" ++ escapeJsonPointer segment

def warn (path keyword : String) (lossiness : SchemaLossiness) (message : String) :
    SchemaWarning :=
  ⟨joinPath path keyword, keyword, lossiness, message⟩

/-- What the strict gate rejects a target for. -/
def highLossinessSchemaWarning (warnings : List String) : Option String :=
  warnings.find? fun warning =>
    ((Text.stripLit "schema_downlevel:" warning).or
      ((Text.splitOnce ": schema_downlevel:" warning).map Prod.snd)).any
      (Text.startsWith "high:")

/-! ### One node -/

/-- The first branch of a union whose type is not null, or else the first that is an object. -/
def pickBranch (branches : List Json) : Option Fields :=
  (branches.findSome? fun
    | .obj fields =>
        if (OrdMap.getList "type" fields).bind Json.asStr = some "null" then none else some fields
    | _ => none).or
  (branches.findSome? Json.asObject)

/-- The union of a node: that of `anyOf`, or else of `oneOf`. -/
def unionOf (obj : Fields) : Option (String × List Json) :=
  (((OrdMap.getList "anyOf" obj).bind Json.asArray).map fun branches => ("anyOf", branches)).or
    (((OrdMap.getList "oneOf" obj).bind Json.asArray).map fun branches => ("oneOf", branches))

/-- The members of the second list whose names are new. -/
def absorb {ν : Type} (existing incoming : List (String × ν)) : List (String × ν) :=
  incoming.foldl (fun existing p =>
    if (OrdMap.getList p.1 existing).isSome then existing
    else OrdMap.insertList p.1 p.2 existing) existing

def absorbItems (existing incoming : List Json) : List Json :=
  incoming.foldl (fun existing item => if item ∈ existing then existing else existing ++ [item])
    existing

def mergeKey (out : OrdMap String Json) (p : String × Json) : OrdMap String Json :=
  match out.get p.1 with
  | none => out.insert p.1 p.2
  | some (.obj existing) =>
      if p.1 = "properties" then
        match p.2 with
        | .obj incoming => out.insert p.1 (.obj (absorb existing incoming))
        | _ => out
      else out
  | some (.arr existing) =>
      if p.1 = "required" then
        match p.2 with
        | .arr incoming => out.insert p.1 (.arr (absorbItems existing incoming))
        | _ => out
      else out
  | some _ => out

def mergeInto (out src : OrdMap String Json) : OrdMap String Json := src.entries.foldl mergeKey out

def isNullType (t : Json) : Bool := t.asStr = some "null"

/-- The first type of an array that is not null, or else the first. -/
def chosenType (types : List Json) : Option Json :=
  (types.find? fun t => !isNullType t).or types.head?

/-- What a node is rewritten to, and the warnings. -/
abbrev Rewritten (α : Type) := α × List SchemaWarning

section Node

-- the printer of JSON values, the dialect, and the rewriting of the nodes in a node
variable (print : Json → String) (caps : SchemaCaps)
  (sub : Fields → String → Rewritten (OrdMap String Json))

def stringify : Json → String
  | .str s => s
  | other => print other

def isString (v : Json) : Bool := v.asStr.isSome

def downlevelValue (v : Json) (path : String) : Rewritten Json :=
  match v with
  | .obj fields => (.obj (sub fields path).1.entries, (sub fields path).2)
  | other => (other, [])

/-- The properties, each rewritten. -/
def downlevelProperties (props : Fields) (path : String) : Rewritten (OrdMap String Json) :=
  let down := props.map fun p =>
    (p.1, downlevelValue sub p.2 (joinPath (joinPath path "properties") p.1))
  (OrdMap.ofList (down.map fun p => (p.1, p.2.1)), down.flatMap fun p => p.2.2)

/-- What a member is rewritten to: the insertions into the new node. -/
def rewriteKey (path : String) (p : String × Json) : Rewritten Fields :=
  let key := p.1
  let value := p.2
  if isMeta key then
    ([], [warn path key .metadata "stripped schema metadata unsupported by provider dialect"])
  else if !caps.unions && (key == "anyOf" || key == "oneOf") then
    ([], [warn path key .high "dropped unsupported union keyword"])
  else if !caps.allOf && key == "allOf" then
    -- merged in below
    ([], [warn path key .medium "merged unsupported `allOf` shallowly"])
  else if !caps.constKeyword && key == "const" then
    -- rewritten below
    ([], [])
  else if !caps.refs && (key == "$ref" || key == "$defs" || key == "definitions") then
    ([], [warn path key .high "dropped unsupported JSON Schema reference keyword"])
  else if !caps.additionalProperties && key == "additionalProperties" then
    ([], [warn path key .medium "dropped unsupported `additionalProperties` constraint"])
  else if key == "type" && !caps.typeArrays then
    match value with
    | .arr types =>
        ((chosenType types).toList.map fun t => ("type", t),
          if 1 < types.length then
            [warn path "type" .medium "collapsed unsupported type array to one type"]
          else [])
    | _ => ([("type", value)], [])
  else if key == "enum" && caps.stringEnumsOnly then
    match value with
    | .arr values =>
        ([("enum", .arr (values.map fun v => .str (stringify print v))), ("type", .str "string")],
          if values.any fun v => !isString v then
            [warn path "enum" .low "stringified non-string enum values"]
          else [])
    | _ => ([("enum", value)], [])
  else if key == "properties" then
    match value with
    | .obj props =>
        let r := downlevelProperties sub props path
        ([("properties", .obj r.1.entries)], r.2)
    | _ => ([], [])
  else if key == "items" then
    match value, caps.typeArrays with
    | .arr items, false =>
        let w := warn path "items" .medium
          "collapsed unsupported tuple item schemas to the first item"
        match items.head? with
        | some first =>
            let r := downlevelValue sub first (joinPath path "items")
            ([("items", r.1)], w :: r.2)
        | none => ([], [w])
    | _, _ =>
        let r := downlevelValue sub value (joinPath path "items")
        ([("items", r.1)], r.2)
  else ([(key, value)], [])

def insertAll (out : OrdMap String Json) (fields : Fields) : OrdMap String Json :=
  fields.foldl (fun out p => out.insert p.1 p.2) out

/-- The members in order, from an empty node. -/
def rewriteLoop (path : String) (obj : Fields) : Rewritten (OrdMap String Json) :=
  obj.foldl
    (fun acc p =>
      let r := rewriteKey print caps sub path p
      (insertAll acc.1 r.1, acc.2 ++ r.2))
    (OrdMap.empty, [])

/-- A constant becomes an enumeration of one value. -/
def rewriteConst (path : String) (obj : Fields) (out : OrdMap String Json) :
    Rewritten (OrdMap String Json) :=
  match caps.constKeyword, OrdMap.getList "const" obj with
  | false, some value =>
      let w := warn path "const" .low "rewrote unsupported `const` as a single-value enum"
      if caps.stringEnumsOnly then
        ((out.insert "type" (.str "string")).insert "enum" (.arr [.str (stringify print value)]),
          [w])
      else (out.insert "enum" (.arr [value]), [w])
  | _, _ => (out, [])

/-- One member of `allOf`. -/
def mergeMember (path : String) (acc : Rewritten (OrdMap String Json)) (member : Json × ℕ) :
    Rewritten (OrdMap String Json) :=
  match member.1 with
  | .obj fields =>
      let down := sub fields (joinPath (joinPath path "allOf") (toString member.2))
      (mergeInto acc.1 down.1, acc.2 ++ down.2)
  | _ => acc

/-- The members of `allOf`, merged shallowly. -/
def mergeAllOf (path : String) (obj : Fields) (out : OrdMap String Json) :
    Rewritten (OrdMap String Json) :=
  match caps.allOf, OrdMap.getList "allOf" obj with
  | false, some (.arr members) => members.zipIdx.foldl (mergeMember sub path) (out, [])
  | _, _ => (out, [])

def placeholder : OrdMap String Json :=
  (OrdMap.empty.insert "type" (.str "string")).insert "description"
    (.str "placeholder (schema declared no properties)")

def placeholderProperties : Json := .obj [("_", .obj placeholder.entries)]

/-- An object without properties gets one. -/
def addPlaceholder (path : String) (out : OrdMap String Json) :
    Rewritten (OrdMap String Json) :=
  if !caps.emptyObjects && (out.get "type").bind Json.asStr == some "object" &&
      ((out.get "properties").bind Json.asObject).all List.isEmpty then
    (out.insert "properties" placeholderProperties,
      [warn path "properties" .medium
        "added placeholder property to unsupported empty object schema"])
  else (out, [])

/-- A node that is no union. -/
def rewriteNode (obj : Fields) (path : String) : Rewritten (OrdMap String Json) :=
  let loop := rewriteLoop print caps sub path obj
  let const := rewriteConst print caps path obj loop.1
  let merged := mergeAllOf caps sub path obj const.1
  let done := addPlaceholder caps path merged.1
  (done.1, loop.2 ++ const.2 ++ merged.2 ++ done.2)

/-- The description of a union goes to its branch. -/
def describe (obj : Fields) (chosen : OrdMap String Json) : OrdMap String Json :=
  match OrdMap.getList "description" obj with
  | some description =>
      if (chosen.get "description").isSome then chosen
      else chosen.insert "description" description
  | none => chosen

end Node

def maxDownlevelDepth : ℕ := 100

/-- A node beyond the cap. -/
def truncated : OrdMap String Json := OrdMap.empty.insert "type" (.str "string")

section Rewrite

variable (print : Json → String) (caps : SchemaCaps)

def downlevelObject : ℕ → Fields → String → Rewritten (OrdMap String Json)
  | 0, _, path =>
      (truncated,
        [warn path "$depth" .high
          (s!"schema nesting exceeded the maximum supported depth ({maxDownlevelDepth}); " ++
            "truncated to a permissive value")])
  | left + 1, obj, path =>
      match if caps.unions then none else unionOf obj with
      | some (keyword, branches) =>
          let w := warn path keyword .high s!"collapsed unsupported `{keyword}` union to one branch"
          match pickBranch branches with
          | some branch =>
              let down := downlevelObject left branch path
              (describe obj down.1, w :: down.2)
          | none =>
              let node := rewriteNode print caps (downlevelObject left) obj path
              (node.1, w :: node.2)
      | none => rewriteNode print caps (downlevelObject left) obj path

def downlevelWithWarnings (schema : Json) : Rewritten Json :=
  downlevelValue (downlevelObject print caps maxDownlevelDepth) schema ""

def downlevel (schema : Json) : Json := (downlevelWithWarnings print caps schema).1

end Rewrite

end Schema

end Switchback
