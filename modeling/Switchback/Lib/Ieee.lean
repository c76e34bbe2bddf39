import Mathlib.Algebra.Order.Ring.Int

/-!
# Binary floating point

IEEE 754 binary data as exact numbers `(-1)^neg · m · 2^e` with the two infinities and one NaN.
Every operation computes the exact rational result and rounds it once, to nearest with ties to
even, so it can be run by the kernel.

NaN payloads and the exception flags are not modelled.
-/

namespace Lib

/-- A binary format: bits of significand and the least and greatest exponent of its last bit. -/
structure Format where
  prec : ℕ
  emin : ℤ
  emax : ℤ

def binary64 : Format := ⟨53, -1074, 971⟩

def binary32 : Format := ⟨24, -149, 104⟩

/-- A datum of a binary format. -/
inductive Fp (f : Format) where
  | nan
  | inf (neg : Bool)
  | fin (neg : Bool) (m : ℕ) (e : ℤ)
  deriving DecidableEq

abbrev F64 := Fp binary64

abbrev F32 := Fp binary32

namespace Fp

variable {f : Format}

def zero : Fp f := .fin false 0 f.emin

instance : Inhabited (Fp f) := ⟨zero⟩

/-- The quotient `num / den` rounded to an integer, ties to even. -/
def roundDiv (num den : ℕ) : ℕ :=
  let q := num / den
  let r := num % den
  if den < 2 * r ∨ (2 * r = den ∧ q % 2 = 1) then q + 1 else q

/-- The numerator and denominator of `(num / den) · 2 ^ (-e)`. -/
def scale (num den : ℕ) (e : ℤ) : ℕ × ℕ :=
  if 0 ≤ e then (num, den * 2 ^ e.toNat) else (num * 2 ^ (-e).toNat, den)

/-- The floor of the binary logarithm of a positive quotient. -/
def floorLog2 (num den : ℕ) : ℤ :=
  let d : ℤ := (Nat.log2 num : ℤ) - Nat.log2 den
  let s := scale num den d
  if s.2 ≤ s.1 then d else d - 1

/-- The datum nearest to `± num / den`, ties to even; overflow gives an infinity. -/
def round (neg : Bool) (num den : ℕ) : Fp f :=
  if num = 0 then .fin neg 0 f.emin
  else
    let e := max (floorLog2 num den - ((f.prec : ℤ) - 1)) f.emin
    let s := scale num den e
    let m := roundDiv s.1 s.2
    -- rounding up can reach the next binade
    let (m, e) := if m = 2 ^ f.prec then (2 ^ (f.prec - 1), e + 1) else (m, e)
    if f.emax < e then .inf neg else .fin neg m e

/-- The exact value `± num / 2 ^ k` of a finite datum, as a signed numerator and `k`. -/
def exact (neg : Bool) (m : ℕ) (e : ℤ) : ℤ × ℕ :=
  let n := m * 2 ^ e.toNat
  (if neg then -(n : ℤ) else n, (-e).toNat)

/-- Round a signed numerator over `2 ^ k`; `zneg` is the sign of an exact zero. -/
def ofExact (zneg : Bool) (n : ℤ) (k : ℕ) : Fp f :=
  if n = 0 then .fin zneg 0 f.emin else round (n < 0) n.natAbs (2 ^ k)

def ofNat (n : ℕ) : Fp f := round false n 1

/-- The datum nearest to the decimal literal `n / 10 ^ d`. -/
def ofDecimal (n d : ℕ) : Fp f := round false n (10 ^ d)

def isFinite : Fp f → Bool
  | .fin .. => true
  | _ => false

def isNan : Fp f → Bool
  | .nan => true
  | _ => false

def neg : Fp f → Fp f
  | .nan => .nan
  | .inf s => .inf !s
  | .fin s m e => .fin (!s) m e

def abs : Fp f → Fp f
  | .nan => .nan
  | .inf _ => .inf false
  | .fin _ m e => .fin false m e

def add : Fp f → Fp f → Fp f
  | .nan, _ => .nan
  | _, .nan => .nan
  | .inf s, .inf t => if s = t then .inf s else .nan
  | .inf s, .fin .. => .inf s
  | .fin .., .inf t => .inf t
  | .fin s m e, .fin t m' e' =>
      let a := exact s m e
      let b := exact t m' e'
      let k := max a.2 b.2
      ofExact (s && t) (a.1 * 2 ^ (k - a.2) + b.1 * 2 ^ (k - b.2)) k

def sub (x y : Fp f) : Fp f := add x (neg y)

def mul : Fp f → Fp f → Fp f
  | .nan, _ => .nan
  | _, .nan => .nan
  | .inf s, .inf t => .inf (s != t)
  | .inf s, .fin t m _ => if m = 0 then .nan else .inf (s != t)
  | .fin s m _, .inf t => if m = 0 then .nan else .inf (s != t)
  | .fin s m e, .fin t m' e' =>
      let a := exact false m e
      let b := exact false m' e'
      round (s != t) (a.1 * b.1).natAbs (2 ^ (a.2 + b.2))

def div : Fp f → Fp f → Fp f
  | .nan, _ => .nan
  | _, .nan => .nan
  | .inf _, .inf _ => .nan
  | .inf s, .fin t _ _ => .inf (s != t)
  | .fin s _ _, .inf t => .fin (s != t) 0 f.emin
  | .fin s m e, .fin t m' e' =>
      if m' = 0 then (if m = 0 then .nan else .inf (s != t))
      else
        let a := exact false m e
        let b := exact false m' e'
        round (s != t) (a.1.natAbs * 2 ^ b.2) (b.1.natAbs * 2 ^ a.2)

instance : Add (Fp f) := ⟨add⟩
instance : Sub (Fp f) := ⟨sub⟩
instance : Mul (Fp f) := ⟨mul⟩
instance : Div (Fp f) := ⟨div⟩

/-- Comparison; `none` when an operand is NaN. -/
def partialCmp : Fp f → Fp f → Option Ordering
  | .nan, _ => none
  | _, .nan => none
  | .inf s, .inf t => some (compare t.toNat s.toNat)
  | .inf s, .fin .. => some (if s then .lt else .gt)
  | .fin .., .inf t => some (if t then .gt else .lt)
  | .fin s m e, .fin t m' e' =>
      let a := exact s m e
      let b := exact t m' e'
      some (compare (a.1 * 2 ^ b.2) (b.1 * 2 ^ a.2))

def lt (x y : Fp f) : Bool := partialCmp x y == some .lt

def le (x y : Fp f) : Bool := partialCmp x y == some .lt || partialCmp x y == some .eq

/-- The smaller operand; a NaN operand is ignored. -/
def min (x y : Fp f) : Fp f :=
  if x.isNan then y else if y.isNan then x else if lt y x then y else x

/-- The larger operand; a NaN operand is ignored. -/
def max (x y : Fp f) : Fp f :=
  if x.isNan then y else if y.isNan then x else if lt x y then y else x

/-- Restrict to `[lo, hi]`; NaN stays NaN. -/
def clamp (x lo hi : Fp f) : Fp f := if lt x lo then lo else if lt hi x then hi else x

/-- Conversion to another format, rounding once. -/
def convert {g : Format} : Fp f → Fp g
  | .nan => .nan
  | .inf s => .inf s
  | .fin s m e => let a := exact false m e; round s a.1.natAbs (2 ^ a.2)

/-- The least natural number above the datum; negative data and NaN give zero. -/
def ceilNat : Fp f → ℕ
  | .fin false m e => let a := exact false m e; (a.1.natAbs + 2 ^ a.2 - 1) / 2 ^ a.2
  | _ => 0

/-- Decimal text with `d` fractional digits, ties to even. -/
def toFixed (d : ℕ) : Fp f → String
  | .nan => "NaN"
  | .inf s => if s then "-inf" else "inf"
  | .fin s m e =>
      let a := exact false m e
      let n := roundDiv (a.1.natAbs * 10 ^ d) (2 ^ a.2)
      let sign := if s then "-" else ""
      let digits := toString (n % 10 ^ d)
      let pad := String.ofList (List.replicate (d - digits.length) '0')
      if d = 0 then sign ++ toString n
      else sign ++ toString (n / 10 ^ d) ++ "." ++ pad ++ digits

end Fp

end Lib
