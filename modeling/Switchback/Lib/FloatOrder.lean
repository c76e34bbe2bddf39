import Mathlib.Algebra.Order.Field.Rat
import Mathlib.Order.Compare
import Mathlib.Tactic.FieldSimp
import Mathlib.Tactic.Positivity
import Mathlib.Order.WithBot
import Switchback.Lib.Ieee

/-!
# The order of floating-point data

Comparison without NaN is that of the exact values, with an infinity at each end.
-/

namespace Lib

namespace Fp

variable {f : Format} {x y : Fp f}

/-- The exact value of a finite datum. -/
def toRat : Fp f → ℚ
  | .fin s m e => (exact s m e).1 / 2 ^ (exact s m e).2
  | _ => 0

/-- The place of a datum in the order; that of NaN does not matter. -/
def rank : Fp f → WithBot (WithTop ℚ)
  | .inf true => ⊥
  | .inf false => ((⊤ : WithTop ℚ) : WithBot (WithTop ℚ))
  | x => ((x.toRat : WithTop ℚ) : WithBot (WithTop ℚ))

theorem div_pow_lt_div_pow_iff (a b : ℤ) (k l : ℕ) :
    (a : ℚ) / 2 ^ k < b / 2 ^ l ↔ a * 2 ^ l < b * 2 ^ k := by
  rw [div_lt_div_iff₀ (by positivity) (by positivity)]
  exact_mod_cast Iff.rfl

theorem div_pow_eq_div_pow_iff (a b : ℤ) (k l : ℕ) :
    (a : ℚ) / 2 ^ k = b / 2 ^ l ↔ a * 2 ^ l = b * 2 ^ k := by
  rw [div_eq_div_iff (by positivity) (by positivity)]
  exact_mod_cast Iff.rfl

theorem compares_toRat (s t : Bool) (m m' : ℕ) (e e' : ℤ) :
    (compare ((exact s m e).1 * 2 ^ (exact t m' e').2)
      ((exact t m' e').1 * 2 ^ (exact s m e).2)).Compares
      (toRat (.fin s m e : Fp f)) (toRat (.fin t m' e' : Fp f)) := by
  generalize hcmp : compare ((exact s m e).1 * 2 ^ (exact t m' e').2)
    ((exact t m' e').1 * 2 ^ (exact s m e).2) = o
  have hint := (compare_iff _ _).1 hcmp
  unfold toRat
  cases o with
  | lt => exact (div_pow_lt_div_pow_iff _ _ _ _).2 hint
  | eq => exact (div_pow_eq_div_pow_iff _ _ _ _).2 hint
  | gt => exact (div_pow_lt_div_pow_iff _ _ _ _).2 hint

theorem coe_lt_top (q : ℚ) :
    ((q : WithTop ℚ) : WithBot (WithTop ℚ)) < ((⊤ : WithTop ℚ) : WithBot (WithTop ℚ)) :=
  WithBot.coe_lt_coe.2 (WithTop.coe_lt_top q)

/-- **A comparison without NaN compares places.** -/
theorem partialCmp_compares (hx : x.isNan = false) (hy : y.isNan = false) :
    ∃ o, partialCmp x y = some o ∧ o.Compares x.rank y.rank := by
  cases x with
  | nan => cases hx
  | inf s =>
    cases y with
    | nan => cases hy
    | inf t =>
      cases s <;> cases t
      · exact ⟨.eq, rfl, rfl⟩
      · exact ⟨.gt, rfl, WithBot.bot_lt_coe _⟩
      · exact ⟨.lt, rfl, WithBot.bot_lt_coe _⟩
      · exact ⟨.eq, rfl, rfl⟩
    | fin t m e =>
      cases s
      · exact ⟨.gt, rfl, coe_lt_top _⟩
      · exact ⟨.lt, rfl, WithBot.bot_lt_coe _⟩
  | fin s m e =>
    cases y with
    | nan => cases hy
    | inf t =>
      cases t
      · exact ⟨.lt, rfl, coe_lt_top _⟩
      · exact ⟨.gt, rfl, WithBot.bot_lt_coe _⟩
    | fin t m' e' =>
      refine ⟨_, rfl, ?_⟩
      have hcmp := @compares_toRat f s t m m' e e'
      generalize compare ((exact s m e).1 * 2 ^ (exact t m' e').2)
        ((exact t m' e').1 * 2 ^ (exact s m e).2) = o at hcmp ⊢
      cases o with
      | lt => exact WithBot.coe_lt_coe.2 (WithTop.coe_lt_coe.2 hcmp)
      | eq => exact congrArg (fun q : ℚ => ((q : WithTop ℚ) : WithBot (WithTop ℚ))) hcmp
      | gt => exact WithBot.coe_lt_coe.2 (WithTop.coe_lt_coe.2 hcmp)

end Fp

end Lib
