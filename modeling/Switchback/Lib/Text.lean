import Mathlib.Algebra.Order.Ring.Int
import Mathlib.Data.List.Basic
import Mathlib.Data.List.Infix

/-!
# Text

The string operations of the usual Rust library that the programs verified here use, over lists
of characters so that the kernel can run them.
-/

namespace Lib

namespace Text

/-- The rest of `l` after the literal `p`. -/
def stripPrefixList : List Char → List Char → Option (List Char)
  | [], l => some l
  | _ :: _, [] => none
  | c :: p, d :: l => if c = d then stripPrefixList p l else none

/-- The rest of `s` after `p`. -/
def stripLit (p s : String) : Option String :=
  (stripPrefixList p.toList s.toList).map String.ofList

def startsWith (p s : String) : Bool := (stripPrefixList p.toList s.toList).isSome

/-- Split at the first occurrence of `sep`. -/
def splitOnceList (sep : List Char) : List Char → Option (List Char × List Char)
  | [] => if sep.isEmpty then some ([], []) else none
  | c :: l =>
      match stripPrefixList sep (c :: l) with
      | some rest => some ([], rest)
      | none => (splitOnceList sep l).map fun p => (c :: p.1, p.2)

/-- Split at the first occurrence of `sep`. -/
def splitOnce (sep s : String) : Option (String × String) :=
  (splitOnceList sep.toList s.toList).map fun p => (String.ofList p.1, String.ofList p.2)

/-- The characters with the Unicode property White_Space. -/
def isWhiteSpace (c : Char) : Bool :=
  let n := c.toNat
  (9 ≤ n ∧ n ≤ 13) ∨ n = 0x20 ∨ n = 0x85 ∨ n = 0xA0 ∨ n = 0x1680 ∨ (0x2000 ≤ n ∧ n ≤ 0x200A) ∨
    n = 0x2028 ∨ n = 0x2029 ∨ n = 0x202F ∨ n = 0x205F ∨ n = 0x3000

def trimStartList (l : List Char) : List Char := l.dropWhile isWhiteSpace

def trimEndList (l : List Char) : List Char := (l.reverse.dropWhile isWhiteSpace).reverse

/-- The text without its outer white space. -/
def trim (s : String) : String := String.ofList (trimEndList (trimStartList s.toList))

def containsList (sub : List Char) : List Char → Bool
  | [] => sub.isEmpty
  | c :: l => (stripPrefixList sub (c :: l)).isSome || containsList sub l

def contains (sub s : String) : Bool := containsList sub.toList s.toList

/-- Lower case of the ASCII letters only. -/
def toAsciiLowercase (s : String) : String :=
  String.ofList (s.toList.map fun c => if 'A' ≤ c ∧ c ≤ 'Z' then Char.ofNat (c.toNat + 32) else c)

def join (sep : String) : List String → String
  | [] => ""
  | [s] => s
  | s :: t :: l => s ++ sep ++ join sep (t :: l)

/-- The length in bytes. -/
def len (s : String) : ℕ := (s.toList.map Char.utf8Size).sum

/-- The text without `suffix`. -/
def stripSuffix (suffix s : String) : Option String :=
  (stripPrefixList suffix.toList.reverse s.toList.reverse).map fun l => String.ofList l.reverse

/-- The lines, without their `\n` or `\r\n`. -/
def lines : List Char → List (List Char)
  | [] => []
  | '\n' :: l => [] :: lines l
  | '\r' :: '\n' :: l => [] :: lines l
  | c :: l =>
      match lines l with
      | [] => [[c]]
      | line :: rest => (c :: line) :: rest

theorem stripPrefixList_eq_some {p l rest : List Char} (h : stripPrefixList p l = some rest) :
    l = p ++ rest := by
  induction p generalizing l with
  | nil => simpa [stripPrefixList] using h
  | cons c p ih =>
    cases l with
    | nil => simp [stripPrefixList] at h
    | cons d l =>
      simp only [stripPrefixList] at h
      split_ifs at h with hc
      rw [hc, ih h, List.cons_append]

theorem mem_dropWhile_of_neg {p : Char → Bool} {c : Char} {l : List Char} (hc : c ∈ l)
    (hp : p c = false) : c ∈ l.dropWhile p := by
  rw [← List.takeWhile_append_dropWhile (p := p) (l := l)] at hc
  rcases List.mem_append.mp hc with hc | hc
  · have hall := List.all_takeWhile (p := p) (l := l)
    rw [List.all_eq_true] at hall
    rw [hall c hc] at hp
    cases hp
  · exact hc

theorem trim_ne_empty {s : String} {c : Char} (hc : c ∈ s.toList) (h : isWhiteSpace c = false) :
    trim s ≠ "" := by
  have hmem : c ∈ trimEndList (trimStartList s.toList) := by
    rw [trimEndList, List.mem_reverse]
    apply mem_dropWhile_of_neg _ h
    rw [List.mem_reverse]
    exact mem_dropWhile_of_neg hc h
  intro hempty
  rw [trim] at hempty
  have hnil : trimEndList (trimStartList s.toList) = [] := by
    simpa using congrArg String.toList hempty
  rw [hnil] at hmem
  cases hmem

end Text

end Lib
