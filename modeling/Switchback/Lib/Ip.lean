import Mathlib.Algebra.Order.Ring.Int
import Mathlib.Data.List.Basic

/-!
# IP addresses

The addresses of the usual Rust library, with the text that it reads and prints.
-/

namespace Lib

namespace Ip

/-- An IPv4 address. -/
abbrev V4 := Fin (2 ^ 32)

/-- An IPv6 address. -/
abbrev V6 := Fin (2 ^ 128)

inductive IpAddr where
  | v4 (a : V4)
  | v6 (a : V6)
  deriving DecidableEq

namespace V4

/-- The octets, the first one first. -/
def octets (a : V4) : List ℕ :=
  [a.val / 2 ^ 24, a.val / 2 ^ 16 % 256, a.val / 2 ^ 8 % 256, a.val % 256]

/-- The low 32 bits. -/
def truncate (n : ℕ) : V4 := Fin.ofNat (2 ^ 32) n

def ofOctets (l : List ℕ) : V4 := Fin.ofNat (2 ^ 32) (l.foldl (fun n octet => 256 * n + octet) 0)

end V4

namespace V6

/-- The first group of sixteen bits. -/
def firstSegment (a : V6) : ℕ := a.val / 2 ^ 112

def ofSegments (l : List ℕ) : V6 :=
  Fin.ofNat (2 ^ 128) (l.foldl (fun n group => 65536 * n + group) 0)

/-- `::ffff:a.b.c.d`. -/
def ofMapped (a : V4) : V6 := Fin.ofNat (2 ^ 128) (0xFFFF * 2 ^ 32 + a.val)

/-- The IPv4 address in an IPv4-mapped one. -/
def toMapped (a : V6) : Option V4 :=
  if a.val / 2 ^ 32 = 0xFFFF then some (Fin.ofNat (2 ^ 32) a.val) else none

end V6

/-! ### Reading -/

/-- The value of a digit. -/
def digit (radix : ℕ) (c : Char) : Option ℕ :=
  (if '0' ≤ c ∧ c ≤ '9' then some (c.toNat - 48)
    else if 'a' ≤ c ∧ c ≤ 'f' then some (c.toNat - 87)
    else if 'A' ≤ c ∧ c ≤ 'F' then some (c.toNat - 55)
    else none).filter (· < radix)

/-- The number that digits spell. -/
def number (radix : ℕ) (l : List Char) : ℕ :=
  l.foldl (fun n c => radix * n + (digit radix c).getD 0) 0

/-- The digits at the front, and what follows them. -/
def digits (radix : ℕ) (l : List Char) : List Char × List Char :=
  (l.takeWhile fun c => (digit radix c).isSome, l.dropWhile fun c => (digit radix c).isSome)

/-- A decimal octet without leading zeros. -/
def readOctet (l : List Char) : Option (ℕ × List Char) :=
  let (ds, rest) := digits 10 l
  if ds = [] ∨ 3 < ds.length ∨ (ds.head? = some '0' ∧ 1 < ds.length) ∨ 255 < number 10 ds then none
  else some (number 10 ds, rest)

/-- A group of up to four hexadecimal digits. -/
def readGroup (l : List Char) : Option (ℕ × List Char) :=
  let (ds, rest) := digits 16 l
  if ds = [] ∨ 4 < ds.length then none else some (number 16 ds, rest)

def readChar (c : Char) : List Char → Option (List Char)
  | [] => none
  | d :: l => if d = c then some l else none

def readV4 (l : List Char) : Option (V4 × List Char) := do
  let (a, l) ← readOctet l
  let l ← readChar '.' l
  let (b, l) ← readOctet l
  let l ← readChar '.' l
  let (c, l) ← readOctet l
  let l ← readChar '.' l
  let (d, l) ← readOctet l
  pure (V4.ofOctets [a, b, c, d], l)

/-- What follows the separator, which stands before every group but the first. -/
def readSeparator (first : Bool) (l : List Char) : Option (List Char) :=
  if first then some l else readChar ':' l

/-- Up to `room` groups, an IPv4 address at the end counting as two, and whether there was one. -/
def readGroups : ℕ → Bool → List Char → List ℕ × Bool × List Char
  | 0, _, l => ([], false, l)
  | room + 1, first, l =>
    match if 0 < room then (readSeparator first l).bind readV4 else none with
    | some (a, rest) => ([a.val / 65536, a.val % 65536], true, rest)
    | none =>
      match (readSeparator first l).bind readGroup with
      | none => ([], false, l)
      | some (group, rest) =>
        let (groups, v4, rest) := readGroups room false rest
        (group :: groups, v4, rest)

def readV6 (l : List Char) : Option (V6 × List Char) :=
  let (head, headV4, l) := readGroups 8 true l
  if head.length = 8 then some (V6.ofSegments head, l)
  else if headV4 then none
  else do
    let l ← readChar ':' l
    let l ← readChar ':' l
    let (tail, _, l) := readGroups (7 - head.length) true l
    pure (V6.ofSegments
      (head ++ List.replicate (8 - head.length - tail.length) 0 ++ tail), l)

/-- The address that the whole text spells. -/
def parse (l : List Char) : Option IpAddr :=
  match readV4 l with
  | some (a, []) => some (.v4 a)
  | _ =>
    match readV6 l with
    | some (a, []) => some (.v6 a)
    | _ => none

/-! ### Printing -/

def dotted (a : V4) : List Char :=
  match a.octets with
  | [] => []
  | octet :: octets =>
    Nat.toDigits 10 octet ++ octets.flatMap fun octet => '.' :: Nat.toDigits 10 octet

theorem ofOctets_octets (a : V4) : V4.ofOctets a.octets = a := by
  apply Fin.ext
  have ha := a.isLt
  simp only [V4.ofOctets, V4.octets, List.foldl_cons, List.foldl_nil, Fin.val_ofNat]
  omega

theorem octet_lt (a : V4) : ∀ octet ∈ a.octets, octet < 256 := by
  have ha := a.isLt
  simp only [V4.octets, List.forall_mem_cons]
  refine ⟨?_, ?_, ?_, ?_, by simp⟩ <;> omega

theorem octet_digits : ∀ n < 256,
    (Nat.toDigits 10 n).all (fun c => (digit 10 c).isSome) = true ∧ Nat.toDigits 10 n ≠ [] ∧
      (Nat.toDigits 10 n).length ≤ 3 ∧ number 10 (Nat.toDigits 10 n) = n ∧
      ((Nat.toDigits 10 n).head? = some '0' → (Nat.toDigits 10 n).length = 1) := by
  decide +kernel

/-- An octet is read back up to what is not a digit. -/
theorem readOctet_toDigits {n : ℕ} (hn : n < 256) {rest : List Char}
    (hrest : ∀ c, rest.head? = some c → digit 10 c = none) :
    readOctet (Nat.toDigits 10 n ++ rest) = some (n, rest) := by
  obtain ⟨hall, hne, hlength, hnumber, hzero⟩ := octet_digits n hn
  have htake : digits 10 (Nat.toDigits 10 n ++ rest) = (Nat.toDigits 10 n, rest) := by
    have hdigit : ∀ c ∈ Nat.toDigits 10 n, (digit 10 c).isSome = true := List.all_eq_true.1 hall
    rw [digits, List.takeWhile_append_of_pos hdigit, List.dropWhile_append_of_pos hdigit]
    cases rest with
    | nil => simp
    | cons c rest => simp [hrest c rfl]
  simp only [readOctet, htake, hnumber]
  apply if_neg
  rintro (h | h | ⟨h0, h1⟩ | h)
  · exact hne h
  · omega
  · have := hzero h0
    omega
  · omega

/-- **A printed address is read back.** -/
theorem parse_dotted (a : V4) : parse (dotted a) = some (.v4 a) := by
  have hlt := octet_lt a
  have hback := ofOctets_octets a
  simp only [V4.octets, List.forall_mem_cons] at hlt hback
  obtain ⟨h1, h2, h3, h4, -⟩ := hlt
  have hdot : ∀ (l : List Char) (c : Char), ('.' :: l).head? = some c → digit 10 c = none := by
    rintro l c ⟨⟩
    decide
  have hread : readV4 (dotted a) = some (a, []) := by
    simp only [readV4, dotted, V4.octets, List.flatMap_cons, List.flatMap_nil,
      List.cons_append]
    rw [readOctet_toDigits h1 (hdot _)]
    simp only [Option.bind_eq_bind, Option.bind_some, readChar, if_true]
    rw [readOctet_toDigits h2 (hdot _)]
    simp only [Option.bind_some, if_true]
    rw [readOctet_toDigits h3 (hdot _)]
    simp only [Option.bind_some, if_true]
    rw [readOctet_toDigits h4 (by simp)]
    simp only [Option.bind_some, hback]
    rfl
  rw [parse, hread]

/-- The groups of an IPv6 address. -/
def V6.segments (a : V6) : List ℕ := (List.range 8).map fun i => a.val / 2 ^ (112 - 16 * i) % 65536

def hextets (l : List ℕ) : List Char :=
  match l with
  | [] => []
  | group :: groups =>
    Nat.toDigits 16 group ++ groups.flatMap fun group => ':' :: Nat.toDigits 16 group

/-- With `::` for the longest run of at least two zero groups, the first one of these. -/
def compressed (a : V6) : List Char :=
  let l := a.segments
  let run (i : ℕ) : ℕ := ((l.drop i).takeWhile (· = 0)).length
  let longest := ((List.range 8).map run).foldl max 0
  match (List.range 8).find? fun i => run i = longest with
  | some i =>
    if 2 ≤ longest then hextets (l.take i) ++ "::".toList ++ hextets (l.drop (i + longest))
    else hextets l
  | none => hextets l

def IpAddr.print : IpAddr → List Char
  | .v4 a => dotted a
  | .v6 a => compressed a

example : compressed (.ofMapped (.ofOctets [10, 0, 0, 1])) = "::ffff:a00:1".toList := by
  decide +kernel

theorem parse_bracket (l : List Char) : parse ('[' :: l) = none := by
  have h10 : digit 10 '[' = none := by decide
  have h16 : digit 16 '[' = none := by decide
  have hv4 : readV4 ('[' :: l) = none := by simp [readV4, readOctet, digits, h10]
  have hgroup : readGroup ('[' :: l) = none := by simp [readGroup, digits, h16]
  have hv6 : readV6 ('[' :: l) = none := by
    simp [readV6, readGroups, readSeparator, hv4, hgroup, readChar]
  rw [parse, hv4, hv6]

end Ip

end Lib
