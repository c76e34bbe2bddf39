import Mathlib.Algebra.Order.Ring.Int

/-!
# Lower-case hexadecimal

Bytes as text, two digits for each, the high one first.
-/

namespace Lib

namespace Hex

/-- The digit of a number below sixteen. -/
def digit (n : ℕ) : Char := "0123456789abcdef".toList.getD n '0'

/-- The two digits of a byte. -/
def byte (b : UInt8) : List Char := [digit (b.toNat / 16), digit (b.toNat % 16)]

/-- The text of some bytes. -/
def hex (bs : List UInt8) : String := String.ofList (bs.flatMap byte)

theorem digit_injective {m n : ℕ} (hm : m < 16) (hn : n < 16) (h : digit m = digit n) :
    m = n := by
  have hall : ∀ a < 16, ∀ b < 16, digit a = digit b → a = b := by decide
  exact hall m hm n hn h

theorem byte_injective {a b : UInt8} (h : byte a = byte b) : a = b := by
  have ha := a.toNat_lt
  have hb := b.toNat_lt
  obtain ⟨hhigh, hlow⟩ : digit (a.toNat / 16) = digit (b.toNat / 16) ∧
      digit (a.toNat % 16) = digit (b.toNat % 16) := by simpa [byte] using h
  have hhigh := digit_injective (by omega) (by omega) hhigh
  have hlow := digit_injective (by omega) (by omega) hlow
  apply UInt8.toNat_inj.1
  omega

/-- **The text tells the bytes.** -/
theorem hex_injective : Function.Injective hex := by
  have hlist (bs : List UInt8) : ∀ cs : List UInt8,
      bs.flatMap byte = cs.flatMap byte → bs = cs := by
    induction bs with
    | nil =>
      intro cs h
      cases cs with
      | nil => rfl
      | cons c cs => simp [byte] at h
    | cons b bs ih =>
      intro cs h
      cases cs with
      | nil => simp [byte] at h
      | cons c cs =>
        rw [List.flatMap_cons, List.flatMap_cons] at h
        obtain ⟨hhead, hrest⟩ := List.append_inj h rfl
        rw [byte_injective hhead, ih cs hrest]
  intro bs cs h
  exact hlist bs cs (String.ofList_injective h)

end Hex

end Lib
