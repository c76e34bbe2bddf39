import Switchback.Lib.Ip
import Switchback.Lib.Utf8

/-!
# URLs

The URL parser of the WHATWG standard: absolute URLs, and references against a base.  How hosts are
read and what the `file` scheme does are parameters.
-/

namespace Lib

namespace Url

open Ip

/-- Text as characters. -/
abbrev Text := List Char

inductive Host where
  | domain (name : Text)
  | ipv4 (a : V4)
  | ipv6 (a : V6)
  deriving DecidableEq

inductive Path where
  /-- The path of a URL that cannot be a base. -/
  | opaquePath (text : Text)
  | segments (l : List Text)

/-! ### Characters -/

def isAlpha (c : Char) : Bool := ('a' ≤ c ∧ c ≤ 'z') ∨ ('A' ≤ c ∧ c ≤ 'Z')

def isDigit (c : Char) : Bool := '0' ≤ c ∧ c ≤ '9'

def lower (t : Text) : Text :=
  t.map fun c => if 'A' ≤ c ∧ c ≤ 'Z' then Char.ofNat (c.toNat + 32) else c

/-- What a scheme is made of after its first letter. -/
def isSchemeChar (c : Char) : Bool := isAlpha c || isDigit c || c = '+' || c = '-' || c = '.'

/-- The text without C0 controls and spaces at its ends, and without tabs and newlines. -/
def clean (t : Text) : Text :=
  let control (c : Char) : Bool := c.toNat ≤ 0x20
  (((t.dropWhile control).reverse.dropWhile control).reverse).filter fun c =>
    !(c = '\t' || c = '\n' || c = '\r')

/-- The default port of a special scheme other than `file`. -/
def defaultPort (scheme : Text) : Option ℕ :=
  if scheme = "http".toList ∨ scheme = "ws".toList then some 80
  else if scheme = "https".toList ∨ scheme = "wss".toList then some 443
  else if scheme = "ftp".toList then some 21
  else none

def isSpecial (scheme : Text) : Bool := (defaultPort scheme).isSome

def isFile (scheme : Text) : Bool := scheme = "file".toList

/-- What separates path segments. -/
def isSlash (special : Bool) (c : Char) : Bool := c = '/' || (special && c = '\\')

/-- The lowercase scheme, and what follows its colon. -/
def splitScheme : Text → Option (Text × Text)
  | [] => none
  | c :: t =>
    if isAlpha c then
      match t.dropWhile isSchemeChar with
      | ':' :: rest => some (lower (c :: t.takeWhile isSchemeChar), rest)
      | _ => none
    else none

/-! ### Paths -/

/-- The characters that are percent-encoded in a path. -/
def inPathSet (c : Char) : Bool :=
  c.toNat ≤ 0x20 || 0x7F ≤ c.toNat || "\"#<>?^`\x7b\x7d".toList.contains c

def hexUpper (n : ℕ) : Char := Char.ofNat (if n < 10 then 48 + n else 55 + n)

def percentEncodeIn (set : Char → Bool) (c : Char) : Text :=
  if set c then
    (String.utf8EncodeChar c).flatMap fun b =>
      ['%', hexUpper (b.toNat / 16), hexUpper (b.toNat % 16)]
  else [c]

def percentEncode (c : Char) : Text := percentEncodeIn inPathSet c

def isSingleDot (s : Text) : Bool := s = ".".toList || lower s = "%2e".toList

def isDoubleDot (s : Text) : Bool :=
  s = "..".toList || lower s = ".%2e".toList || lower s = "%2e.".toList || lower s = "%2e%2e".toList

/-- One segment onto the path. -/
def pushSegment (path : List Text) (s : Text) : List Text :=
  if isDoubleDot s then path.dropLast
  else if isSingleDot s then path
  else path ++ [s.flatMap percentEncode]

/-- The segments of a reference onto a path; a dot segment at the end leaves an empty one. -/
def resolve (path : List Text) (l : List Text) : List Text :=
  let path := l.foldl pushSegment path
  if l.getLast?.any fun s => isDoubleDot s || isSingleDot s then path ++ [[]] else path

/-- The pieces between separators. -/
def pieces (p : Char → Bool) : Text → List Text
  | [] => [[]]
  | c :: t =>
    if p c then [] :: pieces p t
    else
      match pieces p t with
      | [] => [[c]]
      | s :: l => (c :: s) :: l

/-- The segments of a path as written. -/
def splitPath (special : Bool) (t : Text) : List Text := pieces (isSlash special) t

/-- What stands before a query and a fragment. -/
def beforeQuery (t : Text) : Text := t.takeWhile fun c => !(c = '?' || c = '#')

/-- The query and the fragment of what begins with one of them. -/
def queryAndFragment (t : Text) : Option Text × Option Text :=
  match t.dropWhile fun c => !(c = '?' || c = '#') with
  | '?' :: t =>
    (some (t.takeWhile (· ≠ '#')), match t.dropWhile (· ≠ '#') with
      | _ :: fragment => some fragment
      | [] => none)
  | '#' :: fragment => (none, some fragment)
  | _ => (none, none)

end Url

/-- A parsed URL.  Query, fragment and credentials are kept as written. -/
structure Url where
  scheme : Url.Text
  userinfo : Option Url.Text := none
  host : Option Url.Host := none
  port : Option ℕ := none
  path : Url.Path
  query : Option Url.Text := none
  fragment : Option Url.Text := none

namespace Url

open Ip

/-- The URL with the query and the fragment that end `t`. -/
def withQueryOf (u : Url) (t : Text) : Url :=
  { u with query := (queryAndFragment t).1, fragment := (queryAndFragment t).2 }

def isOpaque : Path → Bool
  | .opaquePath _ => true
  | .segments _ => false

def segmentsOf : Path → List Text
  | .opaquePath _ => []
  | .segments l => l

/-- A path as text. -/
def render : Path → Text
  | .opaquePath t => t
  | .segments l => l.flatMap fun s => '/' :: s

/-! ### Authorities -/

structure Authority where
  userinfo : Option Text
  host : Host
  port : Option ℕ

/-- What stands before the last `@`, and the rest. -/
def splitUserinfo (t : Text) : Option Text × Text :=
  match t.reverse.dropWhile (· ≠ '@') with
  | [] => (none, t)
  | _ :: before => (some before.reverse, (t.reverse.takeWhile (· ≠ '@')).reverse)

/-- The host, and what follows the first colon outside of brackets. -/
def splitPort (inside : Bool) : Text → Text × Option Text
  | [] => ([], none)
  | c :: t =>
    if c = ':' ∧ inside = false then ([], some t)
    else
      let rest := splitPort (if c = '[' then true else if c = ']' then false else inside) t
      (c :: rest.1, rest.2)

/-- The port, unless it is the default of the scheme. -/
def parsePort (scheme t : Text) : Option (Option ℕ) :=
  let n := number 10 t
  if t.all isDigit ∧ n < 65536 then
    some (if t = [] ∨ defaultPort scheme = some n then none else some n)
  else none

/-- What an authority runs up to. -/
def endsAuthority (special : Bool) (c : Char) : Bool := isSlash special c || c = '?' || c = '#'

/-- The segments after an authority. -/
def authoritySegments (special : Bool) (t : Text) : List Text :=
  match beforeQuery t with
  | [] => if special then [[]] else []
  | _ :: rest => splitPath special rest

/-! ### References -/

/-- What a text says by itself, with the text that its query and fragment end. -/
inductive Reference where
  | absolute (scheme : Text) (authority : Option Authority) (path : Path) (tail : Text)
  /-- A query or a fragment only, or nothing at all. -/
  | same (tail : Text)
  | rooted (l : List Text) (tail : Text)
  | relative (l : List Text) (tail : Text)

/-- What it comes to against a base. -/
def Reference.target (base : Url) : Reference → Url
  | .absolute scheme authority path tail =>
    withQueryOf
      { scheme := scheme, userinfo := authority.bind Authority.userinfo,
        host := authority.map Authority.host, port := authority.bind Authority.port, path := path }
      tail
  | .same tail =>
    if tail.head? = some '?' then withQueryOf base tail
    else { base with fragment := (queryAndFragment tail).2 }
  | .rooted l tail => withQueryOf { base with path := .segments (resolve [] l) } tail
  | .relative l tail =>
    withQueryOf { base with path := .segments (resolve (segmentsOf base.path).dropLast l) } tail

/-- A text of the `file` scheme, or one without a scheme against a base of that scheme. -/
def fileText (base : Option Url) (t : Text) : Option Text :=
  match splitScheme t with
  | some (own, rest) => if isFile own then some rest else none
  | none => if base.any fun b => isFile b.scheme then some t else none

/-- What the standard leaves to others here: how a host is read, opaque or not, and the `file`
scheme, against a base of that scheme. -/
structure Parser where
  host : Bool → Text → Option Host
  file : Option Url → Text → Option Url
  file_scheme : ∀ base t u, file base t = some u → isFile u.scheme = true

theorem no_file (_base : Option Url) (_t : Text) (u : Url) (h : none = some u) :
    isFile u.scheme = true :=
  absurd h.symm (Option.some_ne_none u)

/-! ### Hosts -/

/-- The number that a part of a dotted host spells: decimal, octal or hexadecimal. -/
def numberPart (t : Text) : Option ℕ :=
  let r : ℕ × Text :=
    match t with
    | '0' :: 'x' :: ds | '0' :: 'X' :: ds => (16, ds)
    | '0' :: c :: ds => (8, c :: ds)
    | _ => (10, t)
  if t = [] then none
  else if r.2.all fun c => (digit r.1 c).isSome then some (number r.1 r.2)
  else none

/-- The parts of a dotted host; a dot at the end counts for nothing. -/
def dotParts (t : Text) : List Text :=
  let parts := pieces (· = '.') t
  if 1 < parts.length ∧ parts.getLast? = some [] then parts.dropLast else parts

def endsInNumber (t : Text) : Bool :=
  (dotParts t).getLast?.any fun last =>
    (last ≠ [] && last.all isDigit) || (numberPart last).isSome

/-- The address that up to four numbers spell; the last one fills what is left. -/
def ipv4OfText (t : Text) : Option V4 := do
  let numbers ← (dotParts t).mapM numberPart
  let last ← numbers.getLast?
  if 4 < numbers.length ∨ numbers.dropLast.any (255 < ·) ∨ 256 ^ (5 - numbers.length) ≤ last then
    none
  else
    some (V4.truncate
      (numbers.dropLast.foldl (fun n part => 256 * n + part) 0 * 256 ^ (5 - numbers.length) + last))

/-- The bytes of a percent-encoded text. -/
def percentBytes : Text → List UInt8
  | [] => []
  | '%' :: a :: b :: t =>
    match digit 16 a, digit 16 b with
    | some high, some low => UInt8.ofNat (16 * high + low) :: percentBytes t
    | _, _ => 37 :: percentBytes (a :: b :: t)
  | c :: t => String.utf8EncodeChar c ++ percentBytes t

/-- What no host may hold. -/
def isForbidden (c : Char) : Bool := c.toNat = 0 || "\t\n\r #/:<>?@[\\]^|".toList.contains c

/-- How the standard reads a host, with the conversion of domain names to ASCII. -/
def readHost (toAscii : Text → Option Text) (isOpaque : Bool) (t : Text) : Option Host :=
  match t with
  | '[' :: rest =>
    match if rest.getLast? = some ']' then readV6 rest.dropLast else none with
    | some (a, []) => some (.ipv6 a)
    | _ => none
  | _ =>
    if isOpaque then
      if t.any isForbidden then none
      else some (.domain (t.flatMap (percentEncodeIn fun c => c.toNat ≤ 0x1F || 0x7F ≤ c.toNat)))
    else
      (toAscii (Utf8.lossy (percentBytes t))).bind fun name =>
        if name = [] ∨
            name.any fun c => isForbidden c || c.toNat ≤ 0x1F || c = '%' || c.toNat = 0x7F then
          none
        else if endsInNumber name then (ipv4OfText name).map .ipv4
        else some (.domain name)

namespace Parser

variable (p : Parser)

def authority (scheme t : Text) : Option Authority :=
  let userinfo := (splitUserinfo t).1
  let name := (splitPort false (splitUserinfo t).2).1
  let port := (splitPort false (splitUserinfo t).2).2
  if name = [] then
    if isSpecial scheme ∨ userinfo.isSome ∨ port.isSome then none
    else some { userinfo := none, host := .domain [], port := none }
  else do
    let host ← p.host (!isSpecial scheme) name
    let port ← parsePort scheme (port.getD [])
    pure { userinfo := userinfo, host := host, port := port }

/-- From an authority on. -/
def afterSlashes (scheme t : Text) : Option Reference :=
  let special := isSpecial scheme
  let tail := t.dropWhile fun c => !endsAuthority special c
  (p.authority scheme (t.takeWhile fun c => !endsAuthority special c)).map fun a =>
    .absolute scheme (some a) (.segments (resolve [] (authoritySegments special tail))) tail

/-- Without a scheme of its own, against a base of `scheme`. -/
def schemeless (scheme : Text) : Text → Option Reference
  | [] => some (.same [])
  | c :: t =>
    let special := isSpecial scheme
    if c = '?' ∨ c = '#' then some (.same (c :: t))
    else if isSlash special c then
      if t.head?.any (isSlash special) then
        p.afterSlashes scheme (if special then t.dropWhile (isSlash true) else t.drop 1)
      else some (.rooted (splitPath special (beforeQuery t)) t)
    else some (.relative (splitPath special (beforeQuery (c :: t))) t)

/-- With a scheme of its own that is not special. -/
def nonSpecial (scheme : Text) : Text → Option Reference
  | '/' :: '/' :: t => p.afterSlashes scheme t
  | '/' :: t =>
    some (.absolute scheme none (.segments (resolve [] (splitPath false (beforeQuery t)))) t)
  | t => some (.absolute scheme none (.opaquePath (beforeQuery t)) t)

/-- The reference that a cleaned text is, against a base of `scheme`.  A special scheme without two
slashes is no scheme when the base has it too. -/
def reference (scheme : Option Text) (t : Text) : Option Reference :=
  match splitScheme t with
  | some (own, rest) =>
    if isSpecial own then
      if scheme = some own then p.schemeless own rest
      else p.afterSlashes own (rest.dropWhile (isSlash true))
    else p.nonSpecial own rest
  | none => scheme.bind fun scheme => p.schemeless scheme t

def join (base : Url) (input : Text) : Option Url :=
  let t := clean input
  match fileText (some base) t with
  | some rest => p.file (if isFile base.scheme then some base else none) rest
  | none =>
    if isOpaque base.path ∧ splitScheme t = none then
      if t.head? = some '#' then some ((Reference.same t).target base) else none
    else (p.reference (some base.scheme) t).map (Reference.target base)

def parse (input : Text) : Option Url :=
  let t := clean input
  match fileText none t with
  | some rest => p.file none rest
  | none => (p.reference none t).map (Reference.target { scheme := [], path := .segments [] })

end Parser

/-! ### Dot segments -/

/-- What the segments of a reference do to the path in front of them: how many of its segments they
climb out of, and what they leave there. -/
def climb (r : ℕ × List Text) (s : Text) : ℕ × List Text :=
  if isDoubleDot s then (if r.2 = [] then r.1 + 1 else r.1, r.2.dropLast)
  else if isSingleDot s then r
  else (r.1, r.2 ++ [s.flatMap percentEncode])

def climbs (l : List Text) : ℕ × List Text :=
  let r := l.foldl climb (0, [])
  if l.getLast?.any fun s => isDoubleDot s || isSingleDot s then (r.1, r.2 ++ [[]]) else r

theorem pushSegment_eq (path : List Text) (r : ℕ × List Text) (s : Text) :
    pushSegment (path.take (path.length - r.1) ++ r.2) s =
      path.take (path.length - (climb r s).1) ++ (climb r s).2 := by
  unfold pushSegment climb
  by_cases hdouble : isDoubleDot s = true
  · simp only [hdouble, if_true]
    by_cases hkept : r.2 = []
    · have hclimbed : min (path.length - r.1 - 1) path.length = path.length - (r.1 + 1) := by omega
      simp [hkept, List.dropLast_eq_take, List.take_take, hclimbed]
    · simp [hkept, List.dropLast_append_of_ne_nil]
  · by_cases hsingle : isSingleDot s = true
    · simp [hdouble, hsingle]
    · simp [hdouble, hsingle]

/-- **A reference climbs out of some segments and leaves its own.** -/
theorem resolve_eq (path l : List Text) :
    resolve path l = path.take (path.length - (climbs l).1) ++ (climbs l).2 := by
  have hfold : ∀ (l : List Text) (r : ℕ × List Text),
      l.foldl pushSegment (path.take (path.length - r.1) ++ r.2) =
        path.take (path.length - (l.foldl climb r).1) ++ (l.foldl climb r).2 := by
    intro l
    induction l with
    | nil => exact fun r => rfl
    | cons s l ih =>
      intro r
      rw [List.foldl_cons, pushSegment_eq, ih, List.foldl_cons]
  have hall := hfold l (0, [])
  simp only [Nat.sub_zero, List.take_length, List.append_nil] at hall
  unfold resolve climbs
  simp only [hall]
  by_cases hlast : (l.getLast?.any fun s => isDoubleDot s || isSingleDot s) = true
  · simp [hlast]
  · simp [hlast]

/-! ### Segments without slashes -/

/-- No segment has a slash in it. -/
def Apart (l : List Text) : Prop := ∀ s ∈ l, '/' ∉ s

theorem Apart.append {l m : List Text} (hl : Apart l) (hm : Apart m) : Apart (l ++ m) := by
  intro s hs
  exact (List.mem_append.1 hs).elim (hl s) (hm s)

theorem Apart.dropLast {l : List Text} (h : Apart l) : Apart l.dropLast :=
  fun s hs => h s ((List.dropLast_sublist l).subset hs)

theorem hexUpper_ne {n : ℕ} (hn : n < 16) : hexUpper n ≠ '/' := by
  revert n
  decide

theorem percentEncode_ne {c : Char} (hc : c ≠ '/') : '/' ∉ percentEncode c := by
  unfold percentEncode percentEncodeIn
  split_ifs
  · simp only [List.mem_flatMap, not_exists, not_and]
    intro b _
    have hhigh : b.toNat / 16 < 16 := by
      have := b.toNat_lt
      omega
    have h1 := hexUpper_ne hhigh
    have h2 := hexUpper_ne (Nat.mod_lt b.toNat (by decide : 16 > 0))
    simp [h1.symm, h2.symm]
  · simpa using Ne.symm hc

theorem encoded_ne {s : Text} (hs : '/' ∉ s) : '/' ∉ s.flatMap percentEncode := by
  simp only [List.mem_flatMap, not_exists, not_and]
  intro c hc
  apply percentEncode_ne
  rintro rfl
  exact hs hc

theorem pieces_apart {p : Char → Bool} (hp : p '/' = true) (t : Text) : Apart (pieces p t) := by
  induction t with
  | nil => simp [Apart, pieces]
  | cons c t ih =>
    unfold pieces
    by_cases hslash : p c = true
    · rw [if_pos hslash]
      intro s hs
      rcases List.mem_cons.1 hs with rfl | hs
      · simp
      · exact ih s hs
    · rw [if_neg hslash]
      have hc : '/' ≠ c := by
        rintro rfl
        exact hslash hp
      cases hrest : pieces p t with
      | nil => simpa [Apart] using hc
      | cons s l =>
        rw [hrest] at ih
        intro s' hs'
        rcases List.mem_cons.1 hs' with rfl | hs'
        · simpa [hc] using ih s List.mem_cons_self
        · exact ih s' (List.mem_cons_of_mem _ hs')

theorem splitPath_apart (special : Bool) (t : Text) : Apart (splitPath special t) :=
  pieces_apart (by simp [isSlash]) t

theorem pushSegment_apart {path : List Text} (h : Apart path) {s : Text} (hs : '/' ∉ s) :
    Apart (pushSegment path s) := by
  unfold pushSegment
  split_ifs
  · exact h.dropLast
  · exact h
  · refine h.append ?_
    simpa [Apart] using encoded_ne hs

theorem resolve_apart {path l : List Text} (hpath : Apart path) (hl : Apart l) :
    Apart (resolve path l) := by
  have hfold : Apart (l.foldl pushSegment path) := by
    induction l generalizing path with
    | nil => exact hpath
    | cons s l ih =>
      exact ih (pushSegment_apart hpath (hl s List.mem_cons_self))
        fun s' hs' => hl s' (List.mem_cons_of_mem _ hs')
  unfold resolve
  by_cases hlast : (l.getLast?.any fun s => isDoubleDot s || isSingleDot s) = true
  · simp only [hlast, if_true]
    exact hfold.append (by simp [Apart])
  · simpa [hlast] using hfold

/-! ### Paths as text -/

/-- A text without slashes begins a segment and what follows it only if it begins the segment. -/
theorem prefix_segment_iff {t s : Text} {l : List Text} (ht : '/' ∉ t) :
    t <+: s ++ render (.segments l) ↔ t <+: s := by
  constructor
  · intro h
    rcases List.prefix_or_prefix_of_prefix h (List.prefix_append s _) with h' | ⟨u, hu⟩
    · exact h'
    · subst hu
      rw [List.prefix_append_right_inj] at h
      cases u with
      | nil => simp
      | cons c u =>
        cases l with
        | nil => simp [render] at h
        | cons s' l =>
          have hc : c = '/' := by
            obtain ⟨v, hv⟩ := h
            simpa [render] using (List.cons_eq_cons.1 (by simpa [render] using hv)).1
          subst hc
          simp at ht
  · intro h
    exact h.trans (List.prefix_append _ _)

theorem segment_prefix_iff {t s u : Text} {l : List Text} (ht : '/' ∉ t) (hs : '/' ∉ s) :
    t ++ '/' :: u <+: s ++ render (.segments l) ↔ t = s ∧ '/' :: u <+: render (.segments l) := by
  constructor
  · intro h
    have hts : t <+: s := (prefix_segment_iff ht).1 ((List.prefix_append _ _).trans h)
    obtain ⟨v, rfl⟩ := hts
    cases v with
    | nil => simpa using h
    | cons c v =>
      rw [List.append_assoc, List.prefix_append_right_inj, List.cons_append,
        List.cons_prefix_cons] at h
      have hc : c = '/' := h.1.symm
      subst hc
      simp at hs
  · rintro ⟨rfl, h⟩
    rwa [List.prefix_append_right_inj]

/-- **A path begins another as text** when its segments begin the other's, the last one as text. -/
theorem render_prefix_iff {l path : List Text} {last : Text} (hl : Apart l) (hlast : '/' ∉ last)
    (hpath : Apart path) :
    render (.segments (l ++ [last])) <+: render (.segments path) ↔
      ∃ s rest, path = l ++ s :: rest ∧ last <+: s := by
  induction l generalizing path with
  | nil =>
    cases path with
    | nil => simp [render]
    | cons s rest =>
      have hone : render (.segments (s :: rest)) = '/' :: (s ++ render (.segments rest)) := by
        simp [render]
      rw [hone]
      simp only [List.nil_append, render, List.flatMap_cons, List.flatMap_nil, List.append_nil,
        List.cons_prefix_cons, true_and, List.cons.injEq]
      have hiff := prefix_segment_iff (s := s) (l := rest) hlast
      simp only [render] at hiff
      rw [hiff]
      constructor
      · exact fun h => ⟨s, rest, ⟨rfl, rfl⟩, h⟩
      · rintro ⟨s', rest', ⟨rfl, rfl⟩, h⟩
        exact h
  | cons t l ih =>
    cases path with
    | nil => simp [render]
    | cons s rest =>
      obtain ⟨u, hu⟩ : ∃ u, render (.segments (l ++ [last])) = '/' :: u := by
        cases l with
        | nil => exact ⟨last, by simp [render]⟩
        | cons t' l => exact ⟨_, by simp only [render, List.cons_append, List.flatMap_cons]; rfl⟩
      have ht : '/' ∉ t := hl t List.mem_cons_self
      have hs : '/' ∉ s := hpath s List.mem_cons_self
      have hleft : render (.segments (t :: l ++ [last])) = '/' :: (t ++ '/' :: u) := by
        rw [← hu]
        simp [render]
      have hright : render (.segments (s :: rest)) = '/' :: (s ++ render (.segments rest)) := by
        simp [render]
      rw [hleft, hright, List.cons_prefix_cons, segment_prefix_iff ht hs, ← hu,
        ih (fun x hx => hl x (List.mem_cons_of_mem _ hx))
          (fun x hx => hpath x (List.mem_cons_of_mem _ hx))]
      constructor
      · rintro ⟨-, rfl, s', rest', hpath', hprefix⟩
        exact ⟨s', rest', by rw [hpath', List.cons_append], hprefix⟩
      · rintro ⟨s', rest', hpath', hprefix⟩
        rw [List.cons_append, List.cons.injEq] at hpath'
        exact ⟨rfl, hpath'.1.symm, s', rest', hpath'.2, hprefix⟩

/-! ### What is parsed -/

/-- A path with its slashes between its segments only; only a scheme that is not special has opaque
ones. -/
def PathApart (special : Bool) : Path → Prop
  | .opaquePath _ => special = false
  | .segments l => Apart l

namespace Parser

variable (p : Parser)

theorem afterSlashes_eq_some {scheme t : Text} {r : Reference}
    (h : p.afterSlashes scheme t = some r) :
    ∃ authority path tail, r = .absolute scheme authority path tail ∧
      PathApart (isSpecial scheme) path := by
  obtain ⟨a, -, rfl⟩ := Option.map_eq_some_iff.1 h
  refine ⟨_, _, _, rfl, resolve_apart (by simp [Apart]) ?_⟩
  unfold authoritySegments
  split
  · split_ifs <;> simp [Apart]
  · exact splitPath_apart _ _

theorem nonSpecial_eq_some {scheme t : Text} {r : Reference} (hscheme : isSpecial scheme = false)
    (h : p.nonSpecial scheme t = some r) :
    ∃ authority path tail, r = .absolute scheme authority path tail ∧
      PathApart (isSpecial scheme) path := by
  unfold nonSpecial at h
  split at h
  · exact p.afterSlashes_eq_some h
  · obtain rfl := Option.some.inj h
    exact ⟨_, _, _, rfl, resolve_apart (by simp [Apart]) (splitPath_apart _ _)⟩
  · obtain rfl := Option.some.inj h
    exact ⟨_, _, _, rfl, hscheme⟩

/-- Only an absolute reference is read from a text with a scheme that is not special or not the one
of the base. -/
theorem reference_of_scheme {scheme : Option Text} {own rest t : Text} {r : Reference}
    (hsplit : splitScheme t = some (own, rest)) (hne : isSpecial own = true → scheme ≠ some own)
    (h : p.reference scheme t = some r) :
    ∃ authority path tail, r = .absolute own authority path tail ∧
      PathApart (isSpecial own) path := by
  unfold reference at h
  simp only [hsplit] at h
  by_cases hspecial : isSpecial own = true
  · rw [if_pos hspecial, if_neg (hne hspecial)] at h
    exact p.afterSlashes_eq_some h
  · rw [if_neg hspecial] at h
    exact p.nonSpecial_eq_some (by simpa using hspecial) h

/-- **A parsed URL** of another scheme than `file` has its slashes between its segments only. -/
theorem parse_apart {t : Text} {u : Url} (h : p.parse t = some u)
    (hfile : isFile u.scheme = false) :
    PathApart (isSpecial u.scheme) u.path := by
  unfold parse at h
  dsimp only at h
  cases htext : fileText none (clean t) with
  | some rest =>
    rw [htext] at h
    have := p.file_scheme _ _ _ h
    rw [hfile] at this
    cases this
  | none =>
    rw [htext] at h
    obtain ⟨r, hr, rfl⟩ := Option.map_eq_some_iff.1 h
    cases hsplit : splitScheme (clean t) with
    | none =>
      unfold reference at hr
      rw [hsplit] at hr
      cases hr
    | some q =>
      obtain ⟨authority, path, tail, rfl, hpath⟩ :=
        p.reference_of_scheme hsplit (fun _ h => by cases h) hr
      exact hpath

end Parser

end Url

end Lib
