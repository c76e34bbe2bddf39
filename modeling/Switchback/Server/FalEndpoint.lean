import Switchback.Lib.Url
import Switchback.Server.Workloads

/-!
# Where a fal request goes

The URL of a fal request is the configured base with the client's model, and for a job that runs
with what fal called it, resolved as a reference.  A few forms of the model are refused.
-/

namespace Switchback

namespace Workloads

open Lib Url

/-- The base URL with one slash at its end. -/
def normalizedBase (baseUrl : String) : Url.Text :=
  (baseUrl.toList.reverse.dropWhile (· = '/')).reverse ++ ['/']

/-- The model, and what comes after it. -/
def endpointPath (model : String) (suffix : Option String) : Url.Text :=
  match suffix with
  | some suffix => model.toList ++ '/' :: suffix.toList.dropWhile (· = '/')
  | none => model.toList

/-- The model slugs that are not refused. -/
def SlugOk (model : String) : Prop :=
  ¬ (model = "" ∨ Text.startsWith "/" model = true ∨ Text.contains ".." model = true ∨
    Text.contains "?" model = true ∨ Text.contains "#" model = true)

instance (model : String) : Decidable (SlugOk model) := inferInstanceAs (Decidable (¬ _))

/-- `fal_model_endpoint`, with what the URL parser says when it fails. -/
def falModelEndpoint (p : Url.Parser) (parseError : String) (baseUrl model : String)
    (suffix : Option String) : Except WorkloadError Url :=
  if SlugOk model then
    match (p.parse (normalizedBase baseUrl)).bind fun base =>
        p.join base (endpointPath model suffix) with
    | some url => .ok url
    | none => .error (.invalidRequest s!"invalid fal base_url: {parseError}")
  else .error (.invalidRequest "invalid fal model slug")

/-- The same scheme, host and port, and a path that begins with the path of the base. -/
structure StaysAt (base url : Url) : Prop where
  scheme : url.scheme = base.scheme
  host : url.host = base.host
  port : url.port = base.port
  path : render base.path <+: render url.path

/-- What the segments climb out of, they spell again. -/
def SpellsAgain (base : List Url.Text) (l : List Url.Text) : Prop :=
  base = [] ∨ ∃ s rest,
    (climbs l).2 = base.dropLast.drop (base.dropLast.length - (climbs l).1) ++ s :: rest ∧
      base.getLast?.getD [] <+: s

/-- A reference with a scheme or an authority of its own names those of the base, one from the root
names its path, and any other one spells again what it climbs out of. -/
def ReferenceStays (base : Url) : Reference → Prop
  | .absolute scheme authority path _ =>
    scheme = base.scheme ∧ authority.map Authority.host = base.host ∧
      authority.bind Authority.port = base.port ∧ render base.path <+: render path
  | .same _ => True
  | .rooted l _ => render base.path <+: render (.segments (resolve [] l))
  | .relative l _ => SpellsAgain (segmentsOf base.path) l

/-- The text is such a reference; texts of the `file` scheme resolve to such a URL. -/
structure StaysUnder (p : Url.Parser) (base : Url) (t : Url.Text) : Prop where
  file : ∀ rest url, fileText (some base) t = some rest →
    p.file (if isFile base.scheme then some base else none) rest = some url → StaysAt base url
  reference : ∀ r, fileText (some base) t = none → ¬ (isOpaque base.path ∧ splitScheme t = none) →
    p.reference (some base.scheme) t = some r → ReferenceStays base r

/-! ### When the result stays -/

theorem spellsAgain_iff {base l : List Url.Text} (hbase : Apart base) (hl : Apart l) :
    render (.segments base) <+: render (.segments (resolve base.dropLast l)) ↔
      SpellsAgain base l := by
  unfold SpellsAgain
  rcases List.eq_nil_or_concat' base with rfl | ⟨init, last, rfl⟩
  · simp [render]
  · have hlast : '/' ∉ last := hbase last (by simp)
    have hinit : Apart init := fun s hs => hbase s (by simp [hs])
    have hne : init ++ [last] ≠ [] := by simp
    rw [List.dropLast_concat, render_prefix_iff hinit hlast (resolve_apart hinit hl), resolve_eq]
    simp only [hne, false_or, List.getLast?_concat, Option.getD_some]
    -- the segments that are kept in front are those of the base
    have hsplit : ∀ s rest, (init.take (init.length - (climbs l).1) ++ (climbs l).2 =
        init ++ s :: rest ↔
          (climbs l).2 = init.drop (init.length - (climbs l).1) ++ s :: rest) := by
      intro s rest
      conv_lhs => rhs; rw [← List.take_append_drop (init.length - (climbs l).1) init]
      rw [List.append_assoc, List.append_cancel_left_eq]
    simp only [hsplit]

theorem withQueryOf_staysAt_iff (base u : Url) (t : Url.Text) :
    StaysAt base (withQueryOf u t) ↔ StaysAt base u :=
  ⟨fun h => ⟨h.scheme, h.host, h.port, h.path⟩, fun h => ⟨h.scheme, h.host, h.port, h.path⟩⟩

theorem staysAt_self (base : Url) (q f : Option Url.Text) :
    StaysAt base { base with query := q, fragment := f } :=
  ⟨rfl, rfl, rfl, List.prefix_rfl⟩

/-- The segments of a relative reference. -/
def ReferenceApart : Reference → Prop
  | .relative l _ => Apart l
  | _ => True

variable {r : Reference} (p : Url.Parser)

/-- **The target of a reference stays at the base** exactly when the reference does. -/
theorem target_staysAt_iff {base : Url} (hr : ReferenceApart r)
    (hbase : ∀ l tail, r = .relative l tail → ∃ segs, base.path = .segments segs ∧ Apart segs) :
    StaysAt base (r.target base) ↔ ReferenceStays base r := by
  cases r with
  | absolute scheme authority path tail =>
    rw [Reference.target, withQueryOf_staysAt_iff]
    exact ⟨fun h => ⟨h.scheme, h.host, h.port, h.path⟩, fun ⟨h1, h2, h3, h4⟩ => ⟨h1, h2, h3, h4⟩⟩
  | same tail =>
    refine iff_of_true ?_ trivial
    simp only [Reference.target]
    split_ifs
    · exact staysAt_self base _ _
    · exact staysAt_self base _ _
  | rooted l tail =>
    rw [Reference.target, withQueryOf_staysAt_iff]
    exact ⟨fun h => h.path, fun h => ⟨rfl, rfl, rfl, h⟩⟩
  | relative l tail =>
    obtain ⟨segs, hpath, hsegs⟩ := hbase l tail rfl
    rw [Reference.target, withQueryOf_staysAt_iff]
    simp only [ReferenceStays, hpath, segmentsOf]
    rw [← spellsAgain_iff hsegs hr]
    constructor
    · intro h
      have := h.path
      rwa [hpath] at this
    · intro h
      refine ⟨rfl, rfl, rfl, ?_⟩
      rwa [hpath]

theorem schemeless_apart {scheme t : Url.Text}
    (h : p.schemeless scheme t = some r) : ReferenceApart r := by
  unfold Parser.schemeless at h
  split at h
  · obtain rfl := Option.some.inj h
    trivial
  · dsimp only at h
    split_ifs at h
    · obtain rfl := Option.some.inj h
      trivial
    · obtain ⟨_, _, _, rfl, -⟩ := p.afterSlashes_eq_some h
      trivial
    · obtain ⟨_, _, _, rfl, -⟩ := p.afterSlashes_eq_some h
      trivial
    · obtain rfl := Option.some.inj h
      trivial
    · obtain rfl := Option.some.inj h
      exact splitPath_apart _ _

theorem reference_apart {scheme : Option Url.Text} {t : Url.Text}
    (h : p.reference scheme t = some r) : ReferenceApart r := by
  unfold Parser.reference at h
  split at h
  · split_ifs at h
    · exact schemeless_apart p h
    · obtain ⟨_, _, _, rfl, -⟩ := p.afterSlashes_eq_some h
      trivial
    · next hspecial =>
      obtain ⟨_, _, _, rfl, -⟩ := p.nonSpecial_eq_some (by simpa using hspecial) h
      trivial
  · obtain ⟨scheme, -, h⟩ := Option.bind_eq_some_iff.1 h
    exact schemeless_apart p h

/-- **Against a parsed base** the result stays exactly when the text does. -/
theorem join_staysAt_iff {input : Url.Text} {base : Url}
    (hbase : p.parse input = some base) (t : Url.Text) :
    (∀ url, p.join base t = some url → StaysAt base url) ↔ StaysUnder p base (clean t) := by
  unfold Parser.join
  dsimp only
  cases htext : fileText (some base) (clean t) with
  | some rest =>
    constructor
    · intro h
      refine ⟨fun rest' url hrest hurl => h url ?_, fun r hnone => ?_⟩
      · obtain rfl := Option.some.inj (htext.symm.trans hrest)
        exact hurl
      · rw [htext] at hnone
        cases hnone
    · intro h url hurl
      exact h.file rest url htext hurl
  | none =>
    by_cases hopaque : isOpaque base.path = true ∧ splitScheme (clean t) = none
    · simp only [if_pos hopaque]
      refine iff_of_true (fun url hurl => ?_) ⟨fun rest url hrest => ?_, fun r _ hnot => ?_⟩
      · split_ifs at hurl with hhash
        obtain rfl := Option.some.inj hurl
        exact (target_staysAt_iff (r := .same (clean t)) trivial fun _ _ h => by cases h).2
          trivial
      · rw [htext] at hrest
        cases hrest
      · exact absurd hopaque hnot
    · simp only [if_neg hopaque]
      -- a relative reference is read against a base that was read as segments
      have hsegs : ∀ r, p.reference (some base.scheme) (clean t) = some r →
          ∀ l tail, r = .relative l tail → ∃ segs, base.path = .segments segs ∧ Apart segs := by
        rintro r hr l tail rfl
        have hfile : isFile base.scheme = false := by
          by_contra hfile
          rw [Bool.not_eq_false] at hfile
          cases hsplit : splitScheme (clean t) with
          | none => simp [fileText, hsplit, hfile] at htext
          | some q =>
            have hne : isSpecial q.1 = true → some base.scheme ≠ some q.1 := by
              rintro hspecial heq
              rw [← Option.some.inj heq] at hspecial
              simp only [isFile, decide_eq_true_eq] at hfile
              rw [hfile] at hspecial
              exact absurd hspecial (by decide)
            obtain ⟨_, _, _, habs, -⟩ := p.reference_of_scheme hsplit hne hr
            cases habs
        have happart := p.parse_apart hbase hfile
        cases hpath : base.path with
        | segments segs =>
          rw [hpath] at happart
          exact ⟨segs, rfl, happart⟩
        | opaquePath text =>
          -- an opaque base takes only texts with a scheme of their own, and its own is not special
          rw [hpath] at happart
          cases hsplit : splitScheme (clean t) with
          | none => exact absurd ⟨by rw [hpath]; rfl, hsplit⟩ hopaque
          | some q =>
            have hne : isSpecial q.1 = true → some base.scheme ≠ some q.1 := by
              rintro hspecial heq
              have hbase : isSpecial base.scheme = false := happart
              rw [← Option.some.inj heq, hbase] at hspecial
              cases hspecial
            obtain ⟨_, _, _, habs, -⟩ := p.reference_of_scheme hsplit hne hr
            cases habs
      constructor
      · intro h
        refine ⟨fun rest url hrest => ?_, fun r _ _ hr => ?_⟩
        · rw [htext] at hrest
          cases hrest
        · have := h (r.target base) (by rw [hr]; rfl)
          exact (target_staysAt_iff (reference_apart p hr) (hsegs r hr)).1 this
      · intro h url hurl
        obtain ⟨r, hr, rfl⟩ := Option.map_eq_some_iff.1 hurl
        exact (target_staysAt_iff (reference_apart p hr) (hsegs r hr)).2
          (h.reference r htext hopaque hr)

/-- **The fal credential goes to the configured origin and path** exactly when the model and what
follows it name no other place. -/
theorem key_stays_iff (p : Url.Parser) (parseError baseUrl model : String)
    (suffix : Option String) :
    (∀ base url, p.parse (normalizedBase baseUrl) = some base →
        falModelEndpoint p parseError baseUrl model suffix = .ok url → StaysAt base url) ↔
      (SlugOk model → ∀ base, p.parse (normalizedBase baseUrl) = some base →
        StaysUnder p base (clean (endpointPath model suffix))) := by
  have hok : ∀ base url, p.parse (normalizedBase baseUrl) = some base →
      (falModelEndpoint p parseError baseUrl model suffix = .ok url ↔
        SlugOk model ∧ p.join base (endpointPath model suffix) = some url) := by
    intro base url hbase
    unfold falModelEndpoint
    by_cases hslug : SlugOk model
    · rw [if_pos hslug, hbase, Option.bind_some]
      cases p.join base (endpointPath model suffix) with
      | none => simp
      | some url' => simp [hslug]
    · simp [hslug]
  constructor
  · intro h hslug base hbase
    rw [← join_staysAt_iff p hbase]
    exact fun url hurl => h base url hbase ((hok base url hbase).2 ⟨hslug, hurl⟩)
  · intro h base url hbase hurl
    obtain ⟨hslug, hjoin⟩ := (hok base url hbase).1 hurl
    exact (join_staysAt_iff p hbase _).2 (h hslug base hbase) url hjoin

/-- Hosts are names, and there are no files. -/
def nameParser : Url.Parser where
  host _ name := some (.domain (lower name))
  file _ _ := none
  file_scheme := Url.no_file

/-- A model that is a URL takes the credential to its own host. -/
theorem key_leaves :
    ¬ ∀ (p : Url.Parser) (parseError baseUrl model : String) (suffix : Option String) base url,
      p.parse (normalizedBase baseUrl) = some base →
        falModelEndpoint p parseError baseUrl model suffix = .ok url → StaysAt base url := by
  intro h
  have hbase : (nameParser.parse (normalizedBase "https://queue.fal.run")).map Url.host =
      some (some (.domain "queue.fal.run".toList)) := by
    decide +kernel
  have hurl : ((falModelEndpoint nameParser "" "https://queue.fal.run" "https://evil.example/x"
      none).toOption).map Url.host = some (some (.domain "evil.example".toList)) := by
    decide +kernel
  obtain ⟨base, hparse, hhost⟩ := Option.map_eq_some_iff.1 hbase
  obtain ⟨url, hok, hhost'⟩ := Option.map_eq_some_iff.1 hurl
  have hendpoint : falModelEndpoint nameParser "" "https://queue.fal.run" "https://evil.example/x"
      none = .ok url := by
    cases hres : falModelEndpoint nameParser "" "https://queue.fal.run" "https://evil.example/x"
        none with
    | error e =>
      rw [hres] at hok
      cases hok
    | ok url' =>
      rw [hres] at hok
      rw [Option.some.inj hok]
  have hstays := (h _ _ _ _ _ base url hparse hendpoint).host
  rw [hhost, hhost'] at hstays
  exact absurd hstays (by decide +kernel)

end Workloads

end Switchback
