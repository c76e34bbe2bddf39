import Mathlib.Data.List.Induction
import Switchback.Lib.Json

/-!
# Masked views of labelled documents

A masking of JSON documents by the names of their members: strings under secret names are hidden,
strings under URL names are masked, and so is any other string.  A document whose leaves are
labelled as secrets, URLs and the rest says what a masked view may not tell apart.
-/

namespace Lib

/-- A masking by names. -/
structure Masker where
  isSecret : String → Bool
  isUrl : String → Bool
  maskSecret : String → String
  maskUrl : String → String

namespace Masker

variable (m : Masker)

/-- A value under a secret name. -/
def hide : Json → Json
  | .str s => .str (m.maskSecret s)
  | v => v

/-- A value under a URL name. -/
def maskStr : Json → Json
  | .str s => .str (m.maskUrl s)
  | v => v

mutual

/-- The masked view. -/
def redact : Json → Json
  | .obj fields => .obj (redactFields fields)
  | .arr items => .arr (redactList items)
  | .str s => .str (m.maskUrl s)
  | .null => .null
  | .bool b => .bool b
  | .num n => .num n

def redactList : List Json → List Json
  | [] => []
  | v :: vs => redact v :: redactList vs

def redactFields : List (String × Json) → List (String × Json)
  | [] => []
  | (k, v) :: fields =>
      (k, if m.isSecret k then m.hide v else if m.isUrl k then m.maskStr v else redact v) ::
        redactFields fields

end

/-- The view of a member. -/
def redactField (k : String) (v : Json) : Json :=
  if m.isSecret k then m.hide v else if m.isUrl k then m.maskStr v else m.redact v

theorem redactList_eq (items : List Json) : m.redactList items = items.map m.redact := by
  induction items with
  | nil => rfl
  | cons v vs ih => rw [redactList, ih, List.map_cons]

end Masker

/-! ### Objects -/

namespace Json

/-- Members with new values under their names. -/
def mapMembers (h : String → Json → Json) (l : List (String × Json)) : List (String × Json) :=
  l.map fun f => (f.1, h f.1 f.2)

@[simp] theorem mapMembers_cons (h : String → Json → Json) (k : String) (v : Json)
    (l : List (String × Json)) : mapMembers h ((k, v) :: l) = (k, h k v) :: mapMembers h l := rfl

theorem map_fst_mapMembers (h : String → Json → Json) (l : List (String × Json)) :
    (mapMembers h l).map Prod.fst = l.map Prod.fst := by
  rw [mapMembers, List.map_map]
  rfl

theorem insertList_mapMembers (h : String → Json → Json) (k : String) (v : Json)
    (l : List (String × Json)) :
    mapMembers h (OrdMap.insertList k v l) = OrdMap.insertList k (h k v) (mapMembers h l) := by
  induction l with
  | nil => rfl
  | cons f l ih =>
    obtain ⟨k', v'⟩ := f
    rw [mapMembers_cons]
    simp only [OrdMap.insertList]
    split_ifs
    · rfl
    · rfl
    · rw [mapMembers_cons, ih]

theorem entries_mapMembers (h : String → Json → Json) (l : List (String × Json)) :
    mapMembers h (OrdMap.ofList l).entries = (OrdMap.ofList (mapMembers h l)).entries := by
  induction l using List.reverseRecOn with
  | nil => rfl
  | append_singleton l f ih =>
    have hmap : mapMembers h (l ++ [f]) = mapMembers h l ++ [(f.1, h f.1 f.2)] := List.map_append
    rw [hmap, OrdMap.ofList, OrdMap.ofList, List.foldl_append, List.foldl_append]
    exact (insertList_mapMembers h f.1 f.2 _).trans
      (congrArg (OrdMap.insertList f.1 (h f.1 f.2)) ih)

theorem mkObj_inj {l l' : List (String × Json)} (hnames : l.map Prod.fst = l'.map Prod.fst)
    (hnodup : (l.map Prod.fst).Nodup) : mkObj l = mkObj l' ↔ l = l' := by
  refine ⟨fun h => ?_, fun h => congrArg mkObj h⟩
  have hget : ∀ k, OrdMap.getList k l = OrdMap.getList k l' := by
    intro k
    rw [← get_mkObj hnodup k, h, get_mkObj (hnames ▸ hnodup) k]
  clear h
  induction l generalizing l' with
  | nil =>
    rw [List.map_nil, eq_comm, List.map_eq_nil_iff] at hnames
    rw [hnames]
  | cons f l ih =>
    obtain ⟨k, v⟩ := f
    cases l' with
    | nil => cases hnames
    | cons f' l' =>
      obtain ⟨k', v'⟩ := f'
      rw [List.map_cons, List.map_cons, List.cons.injEq] at hnames
      obtain ⟨rfl, hrest⟩ := hnames
      rw [List.map_cons, List.nodup_cons] at hnodup
      have hv : v = v' := by simpa [OrdMap.getList] using hget k
      rw [hv, ih hrest hnodup.2]
      intro j
      by_cases hj : j = k
      · rw [hj, OrdMap.getList_eq_none hnodup.1, OrdMap.getList_eq_none (hrest ▸ hnodup.1)]
      · simpa [OrdMap.getList, hj] using hget j

end Json

namespace Masker

variable (m : Masker)

theorem redactFields_eq (fields : List (String × Json)) :
    m.redactFields fields = Json.mapMembers m.redactField fields := by
  induction fields with
  | nil => rfl
  | cons f fields ih =>
    obtain ⟨k, v⟩ := f
    rw [redactFields, ih, Json.mapMembers_cons]
    rfl

/-- The view of an object, member by member. -/
theorem redact_mkObj (l : List (String × Json)) :
    m.redact (Json.mkObj l) = Json.mkObj (Json.mapMembers m.redactField l) := by
  rw [Json.mkObj, redact, redactFields_eq, Json.entries_mapMembers, Json.mkObj]

end Masker

/-! ### Labelled documents -/

/-- A document whose leaves say what they are. -/
inductive Doc where
  | plain (v : Json)
  | secret (s : String)
  | url (s : String)
  | arr (items : List Doc)
  | obj (fields : List (String × Doc))

namespace Doc

mutual

/-- The document as it is written. -/
def toJson : Doc → Json
  | .plain v => v
  | .secret s => .str s
  | .url s => .str s
  | .arr items => .arr (toJsonList items)
  | .obj fields => Json.mkObj (toJsonFields fields)

def toJsonList : List Doc → List Json
  | [] => []
  | d :: ds => toJson d :: toJsonList ds

def toJsonFields : List (String × Doc) → List (String × Json)
  | [] => []
  | (k, d) :: fields => (k, toJson d) :: toJsonFields fields

end

theorem map_fst_toJsonFields (fields : List (String × Doc)) :
    (toJsonFields fields).map Prod.fst = fields.map Prod.fst := by
  induction fields with
  | nil => rfl
  | cons f fields ih =>
    obtain ⟨k, d⟩ := f
    rw [toJsonFields, List.map_cons, List.map_cons, ih]

mutual

/-- Two documents that agree but for their secrets and URLs, which are related. -/
def Rel (RS RU : String → String → Prop) : Doc → Doc → Prop
  | .plain v, .plain w => v = w
  | .secret s, .secret t => RS s t
  | .url u, .url v => RU u v
  | .arr l, .arr l' => RelList RS RU l l'
  | .obj f, .obj f' => RelFields RS RU f f'
  | .plain _, .secret _ | .plain _, .url _ | .plain _, .arr _ | .plain _, .obj _
  | .secret _, .plain _ | .secret _, .url _ | .secret _, .arr _ | .secret _, .obj _
  | .url _, .plain _ | .url _, .secret _ | .url _, .arr _ | .url _, .obj _
  | .arr _, .plain _ | .arr _, .secret _ | .arr _, .url _ | .arr _, .obj _
  | .obj _, .plain _ | .obj _, .secret _ | .obj _, .url _ | .obj _, .arr _ => False

def RelList (RS RU : String → String → Prop) : List Doc → List Doc → Prop
  | [], [] => True
  | d :: l, d' :: l' => Rel RS RU d d' ∧ RelList RS RU l l'
  | [], _ :: _ | _ :: _, [] => False

def RelFields (RS RU : String → String → Prop) :
    List (String × Doc) → List (String × Doc) → Prop
  | [], [] => True
  | (k, d) :: l, (k', d') :: l' => k = k' ∧ Rel RS RU d d' ∧ RelFields RS RU l l'
  | [], _ :: _ | _ :: _, [] => False

end

theorem RelFields.map_fst {RS RU : String → String → Prop} {l l' : List (String × Doc)}
    (h : RelFields RS RU l l') : l.map Prod.fst = l'.map Prod.fst := by
  induction l generalizing l' with
  | nil =>
    cases l' with
    | nil => rfl
    | cons f' l' => cases h
  | cons f l ih =>
    obtain ⟨k, d⟩ := f
    cases l' with
    | nil => cases h
    | cons f' l' =>
      obtain ⟨k', d'⟩ := f'
      obtain ⟨rfl, -, hrest⟩ := h
      rw [List.map_cons, List.map_cons, ih hrest]

/-- A document that needs no name: anything but a secret. -/
def Unnamed : Doc → Prop
  | .secret _ => False
  | .plain _ | .url _ | .arr _ | .obj _ => True

end Doc

/-! ### The view of a labelled document -/

namespace Masker

variable (m : Masker)

/-- What a name must be for the masking to reach what stands under it. -/
def Under (k : String) : Doc → Prop
  | .plain _ => True
  | .secret _ => m.isSecret k = true
  | .url _ => m.isSecret k = false
  | .arr _ | .obj _ => m.isSecret k = false ∧ m.isUrl k = false

mutual

/-- The masking reaches every label of a document. -/
def Fits : Doc → Prop
  | .plain _ => True
  | .secret _ => True
  | .url _ => True
  | .arr items => FitsList items
  | .obj fields => (fields.map Prod.fst).Nodup ∧ FitsFields fields

def FitsList : List Doc → Prop
  | [] => True
  | d :: ds => d.Unnamed ∧ Fits d ∧ FitsList ds

def FitsFields : List (String × Doc) → Prop
  | [] => True
  | (k, d) :: fields => m.Under k d ∧ Fits d ∧ FitsFields fields

end

section Views

variable {m} {RS RU RV : String → String → Prop}

theorem redactField_eq_iff (hblind : ∀ s t, RS s t → m.maskSecret s = m.maskSecret t)
    (hurl : ∀ u v, RU u v → (m.maskUrl u = m.maskUrl v ↔ RV u v)) {k : String} {d d' : Doc}
    (hunder : m.Under k d) (hrel : Doc.Rel RS RU d d')
    (hinner : d.Unnamed → (m.redact d.toJson = m.redact d'.toJson ↔ Doc.Rel RS RV d d')) :
    m.redactField k d.toJson = m.redactField k d'.toJson ↔ Doc.Rel RS RV d d' := by
  cases d with
  | plain v =>
    cases d' with
    | plain w =>
      have hv : v = w := hrel
      exact iff_of_true (by rw [hv]) hv
    | secret | url | arr | obj => exact hrel.elim
  | secret s =>
    cases d' with
    | secret t =>
      have hs : m.isSecret k = true := hunder
      refine iff_of_true ?_ hrel
      simp only [redactField, hs, if_true, Doc.toJson, hide, hblind s t hrel]
    | plain | url | arr | obj => exact hrel.elim
  | url u =>
    cases d' with
    | url v =>
      have hs : m.isSecret k = false := hunder
      rw [redactField, redactField, hs, Doc.Rel, ← hurl u v hrel]
      cases m.isUrl k <;> simp [Doc.toJson, maskStr, redact]
    | plain | secret | arr | obj => exact hrel.elim
  | arr items =>
    obtain ⟨hs, hu⟩ : m.isSecret k = false ∧ m.isUrl k = false := hunder
    simpa only [redactField, hs, hu, Bool.false_eq_true, if_false] using hinner trivial
  | obj fields =>
    obtain ⟨hs, hu⟩ : m.isSecret k = false ∧ m.isUrl k = false := hunder
    simpa only [redactField, hs, hu, Bool.false_eq_true, if_false] using hinner trivial

mutual

/-- **Two runs of a masking.**  Documents that agree but for their secrets and URLs, which are
related by `RU`, have the same view exactly when the URLs are related by `RV`, where that is what it
takes for two of them to have the same mask. -/
theorem redact_eq_iff (hblind : ∀ s t, RS s t → m.maskSecret s = m.maskSecret t)
    (hurl : ∀ u v, RU u v → (m.maskUrl u = m.maskUrl v ↔ RV u v)) :
    ∀ {a b : Doc}, a.Unnamed → m.Fits a → Doc.Rel RS RU a b →
      (m.redact a.toJson = m.redact b.toJson ↔ Doc.Rel RS RV a b)
  | .plain v, .plain w, _, _, hrel => by
      have hv : v = w := hrel
      exact iff_of_true (by rw [hv]) hv
  | .url u, .url v, _, _, hrel => by
      rw [Doc.toJson, Doc.toJson, redact, redact, Json.str.injEq, Doc.Rel, hurl u v hrel]
  | .arr l, .arr l', _, hfits, hrel => by
      rw [Doc.toJson, Doc.toJson, redact, redact, Json.arr.injEq]
      exact redactList_eq_iff hblind hurl hfits hrel
  | .obj f, .obj f', _, hfits, hrel => by
      have hnames : (Doc.toJsonFields f).map Prod.fst = (Doc.toJsonFields f').map Prod.fst := by
        rw [Doc.map_fst_toJsonFields, Doc.map_fst_toJsonFields, Doc.RelFields.map_fst hrel]
      rw [Doc.toJson, Doc.toJson, redact_mkObj, redact_mkObj, Json.mkObj_inj]
      · exact redactFields_eq_iff hblind hurl hfits.2 hrel
      · rw [Json.map_fst_mapMembers, Json.map_fst_mapMembers, hnames]
      · rw [Json.map_fst_mapMembers, Doc.map_fst_toJsonFields]
        exact hfits.1

theorem redactList_eq_iff (hblind : ∀ s t, RS s t → m.maskSecret s = m.maskSecret t)
    (hurl : ∀ u v, RU u v → (m.maskUrl u = m.maskUrl v ↔ RV u v)) :
    ∀ {l l' : List Doc}, m.FitsList l → Doc.RelList RS RU l l' →
      (m.redactList (Doc.toJsonList l) = m.redactList (Doc.toJsonList l') ↔
        Doc.RelList RS RV l l')
  | [], [], _, _ => iff_of_true rfl trivial
  | d :: l, d' :: l', hfits, hrel => by
      rw [Doc.toJsonList, Doc.toJsonList, redactList, redactList, List.cons.injEq, Doc.RelList,
        redact_eq_iff hblind hurl hfits.1 hfits.2.1 hrel.1,
        redactList_eq_iff hblind hurl hfits.2.2 hrel.2]

theorem redactFields_eq_iff (hblind : ∀ s t, RS s t → m.maskSecret s = m.maskSecret t)
    (hurl : ∀ u v, RU u v → (m.maskUrl u = m.maskUrl v ↔ RV u v)) :
    ∀ {l l' : List (String × Doc)}, m.FitsFields l → Doc.RelFields RS RU l l' →
      (Json.mapMembers m.redactField (Doc.toJsonFields l) =
          Json.mapMembers m.redactField (Doc.toJsonFields l') ↔ Doc.RelFields RS RV l l')
  | [], [], _, _ => iff_of_true rfl trivial
  | (k, d) :: l, (k', d') :: l', hfits, hrel => by
      obtain ⟨rfl, hd, hl⟩ := hrel
      have hfield := redactField_eq_iff hblind hurl hfits.1 hd fun hun =>
        redact_eq_iff hblind hurl hun hfits.2.1 hd
      rw [Doc.toJsonFields, Doc.toJsonFields, Json.mapMembers_cons, Json.mapMembers_cons,
        List.cons.injEq, Prod.mk.injEq, Doc.RelFields,
        redactFields_eq_iff hblind hurl hfits.2.2 hl, hfield, and_assoc]

end

end Views

end Masker

end Lib
