import Mathlib.Algebra.Order.Ring.Int
import Mathlib.Data.String.Basic

/-!
# Self-delimiting encodings

A `Wire` writes values as bytes that say themselves where they end, so that encodings can be put
one behind the other.  Reading what was written gives the value and what stands behind it.
-/

namespace Lib

/-- An encoding of values. -/
structure Wire (α : Type*) where
  put : α → List UInt8
  get : List UInt8 → Option (α × List UInt8)
  get_put : ∀ a rest, get (put a ++ rest) = some (a, rest)

namespace Wire

variable {α β : Type*}

/-- A byte. -/
def byte : Wire UInt8 where
  put b := [b]
  get
    | [] => none
    | b :: rest => some (b, rest)
  get_put _ _ := rfl

/-- Two values, one behind the other. -/
def prod (w : Wire α) (v : Wire β) : Wire (α × β) where
  put p := w.put p.1 ++ v.put p.2
  get bytes := (w.get bytes).bind fun (a, rest) => (v.get rest).map fun (b, rest') => ((a, b), rest')
  get_put p rest := by simp [w.get_put, v.get_put]

/-- A value written as another one that determines it. -/
def map (w : Wire β) (f : α → β) (g : β → α) (hg : ∀ a, g (f a) = a) : Wire α where
  put a := w.put (f a)
  get bytes := (w.get bytes).map fun (b, rest) => (g b, rest)
  get_put a rest := by simp [w.get_put, hg]

/-- Each element behind a one, and a zero at the end. -/
def putList (w : Wire α) : List α → List UInt8
  | [] => [0]
  | a :: l => 1 :: (w.put a ++ putList w l)

/-- Read elements until the zero; an element takes at least its one. -/
def getList (w : Wire α) : ℕ → List UInt8 → Option (List α × List UInt8)
  | 0, _ => none
  | _ + 1, [] => none
  | fuel + 1, flag :: bytes =>
    if flag = 0 then some ([], bytes)
    else
      (w.get bytes).bind fun (a, rest) =>
        (getList w fuel rest).map fun (l, rest') => (a :: l, rest')

theorem getList_putList (w : Wire α) (l : List α) (rest : List UInt8) {fuel : ℕ}
    (hfuel : l.length < fuel) : getList w fuel (putList w l ++ rest) = some (l, rest) := by
  induction l generalizing fuel with
  | nil =>
    cases fuel with
    | zero => omega
    | succ fuel => rfl
  | cons a l ih =>
    cases fuel with
    | zero => omega
    | succ fuel =>
      have hone : (1 : UInt8) ≠ 0 := by decide
      rw [List.length_cons] at hfuel
      simp [putList, getList, hone, w.get_put, ih (by omega : l.length < fuel)]

theorem length_le_length_putList (w : Wire α) (l : List α) : l.length < (putList w l).length := by
  induction l with
  | nil => simp [putList]
  | cons a l ih =>
    simp only [putList, List.length_cons, List.length_append]
    omega

/-- A list. -/
def list (w : Wire α) : Wire (List α) where
  put := putList w
  get bytes := getList w bytes.length bytes
  get_put l rest := by
    refine getList_putList w l rest ?_
    have := length_le_length_putList w l
    rw [List.length_append]
    omega

/-- An optional value, as a list of at most one. -/
def option (w : Wire α) : Wire (Option α) :=
  (list w).map Option.toList List.head? (by rintro (_ | _) <;> rfl)

/-- The digits of a number to the base 256, least significant first. -/
def digits : ℕ → ℕ → List UInt8
  | 0, _ => []
  | fuel + 1, n => if n = 0 then [] else UInt8.ofNat (n % 256) :: digits fuel (n / 256)

def ofDigits : List UInt8 → ℕ
  | [] => 0
  | d :: ds => d.toNat + 256 * ofDigits ds

theorem ofDigits_digits {fuel n : ℕ} (h : n ≤ fuel) : ofDigits (digits fuel n) = n := by
  induction fuel generalizing n with
  | zero =>
    obtain rfl : n = 0 := by omega
    rfl
  | succ fuel ih =>
    rw [digits]
    split_ifs with hn
    · exact hn.symm
    · have hbyte : (UInt8.ofNat (n % 256)).toNat = n % 256 := by
        rw [UInt8.toNat_ofNat']
        omega
      rw [ofDigits, hbyte, ih (by omega)]
      omega

/-- A number. -/
def nat : Wire ℕ := (list byte).map (fun n => digits n n) ofDigits fun _ => ofDigits_digits le_rfl

/-- An integer: its sign and its distance from zero. -/
def int : Wire ℤ :=
  (prod nat nat).map (fun z => (z.toNat, (-z).toNat)) (fun p => (p.1 : ℤ) - p.2) (by omega)

/-- A text. -/
def string : Wire String :=
  (list (nat.map Char.toNat Char.ofNat Char.ofNat_toNat)).map String.toList String.ofList
    fun _ => String.ofList_toList

/-- A truth value. -/
def bool : Wire Bool := nat.map Bool.toNat (· = 1) (by decide)

/-- Read a whole message. -/
def read (w : Wire α) (bytes : List UInt8) : Option α := (w.get bytes).map Prod.fst

/-- **What was written is read back.** -/
theorem read_write (w : Wire α) (a : α) : w.read (w.put a) = some a := by
  have h := w.get_put a []
  rw [List.append_nil] at h
  simp [read, h]

end Wire

end Lib
