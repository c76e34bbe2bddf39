import Mathlib.Algebra.Order.Ring.Int
import Mathlib.Data.List.Basic

/-!
# UTF-8, decoded with replacement

The encoder is the one of the core library.  The decoder puts U+FFFD for every longest piece of
input that no character begins with or that breaks off inside a character.
-/

namespace Lib

namespace Utf8

/-- U+FFFD. -/
def replacement : Char := Char.ofNat 0xFFFD

def encode (cs : List Char) : List UInt8 := cs.flatMap String.utf8EncodeChar

/-- The length of a character by its first byte; zero where none begins with it. -/
def charWidth (b : ℕ) : ℕ :=
  if b < 0x80 then 1
  else if 0xC2 ≤ b ∧ b ≤ 0xDF then 2
  else if 0xE0 ≤ b ∧ b ≤ 0xEF then 3
  else if 0xF0 ≤ b ∧ b ≤ 0xF4 then 4
  else 0

def IsCont (b : ℕ) : Prop := 0x80 ≤ b ∧ b ≤ 0xBF

/-- The second byte of a three-byte character: no overlong form, no surrogate. -/
def SecondOfThree (b b₁ : ℕ) : Prop :=
  (b = 0xE0 ∧ 0xA0 ≤ b₁ ∧ b₁ ≤ 0xBF) ∨ (0xE1 ≤ b ∧ b ≤ 0xEC ∧ IsCont b₁) ∨
    (b = 0xED ∧ 0x80 ≤ b₁ ∧ b₁ ≤ 0x9F) ∨ (0xEE ≤ b ∧ b ≤ 0xEF ∧ IsCont b₁)

/-- The second byte of a four-byte character: no overlong form, nothing above U+10FFFF. -/
def SecondOfFour (b b₁ : ℕ) : Prop :=
  (b = 0xF0 ∧ 0x90 ≤ b₁ ∧ b₁ ≤ 0xBF) ∨ (0xF1 ≤ b ∧ b ≤ 0xF3 ∧ IsCont b₁) ∨
    (b = 0xF4 ∧ 0x80 ≤ b₁ ∧ b₁ ≤ 0x8F)

instance (b : ℕ) : Decidable (IsCont b) := inferInstanceAs (Decidable (_ ∧ _))
instance (b b₁ : ℕ) : Decidable (SecondOfThree b b₁) := inferInstanceAs (Decidable (_ ∨ _))
instance (b b₁ : ℕ) : Decidable (SecondOfFour b b₁) := inferInstanceAs (Decidable (_ ∨ _))

/-- Byte `i`, or zero past the end. -/
def byteAt (bs : List UInt8) (i : ℕ) : ℕ := (bs.getD i 0).toNat

/-- The first character of a non-empty input and the number of bytes it takes. -/
def firstChar (bs : List UInt8) : Char × ℕ :=
  let b := byteAt bs 0
  let b₁ := byteAt bs 1
  let b₂ := byteAt bs 2
  let b₃ := byteAt bs 3
  match charWidth b with
  | 1 => (Char.ofNat b, 1)
  | 2 =>
      if IsCont b₁ then (Char.ofNat ((b - 0xC0) * 0x40 + (b₁ - 0x80)), 2) else (replacement, 1)
  | 3 =>
      if SecondOfThree b b₁ then
        if IsCont b₂ then
          (Char.ofNat ((b - 0xE0) * 0x1000 + (b₁ - 0x80) * 0x40 + (b₂ - 0x80)), 3)
        else (replacement, 2)
      else (replacement, 1)
  | 4 =>
      if SecondOfFour b b₁ then
        if IsCont b₂ then
          if IsCont b₃ then
            (Char.ofNat ((b - 0xF0) * 0x40000 + (b₁ - 0x80) * 0x1000 + (b₂ - 0x80) * 0x40 +
              (b₃ - 0x80)), 4)
          else (replacement, 3)
        else (replacement, 2)
      else (replacement, 1)
  | _ => (replacement, 1)

/-- The characters of at most `n` bytes of input. -/
def lossyLoop : ℕ → List UInt8 → List Char
  | 0, _ => []
  | n + 1, bs =>
      if bs.isEmpty then []
      else (firstChar bs).1 :: lossyLoop n (bs.drop (firstChar bs).2)

/-- Decode, with U+FFFD for what is not UTF-8. -/
def lossy (bs : List UInt8) : List Char := lossyLoop bs.length bs

/-- The input is UTF-8: decoding it loses nothing. -/
def Valid (bs : List UInt8) : Prop := encode (lossy bs) = bs

instance (bs : List UInt8) : Decidable (Valid bs) := inferInstanceAs (Decidable (_ = _))

theorem firstChar_pos (bs : List UInt8) : 1 ≤ (firstChar bs).2 := by
  unfold firstChar
  dsimp only
  repeat' split
  all_goals simp

theorem toNat_valid (c : Char) : c.toNat < 0xD800 ∨ (0xDFFF < c.toNat ∧ c.toNat < 0x110000) :=
  c.valid

theorem byteAt_cons_zero (b : ℕ) (hb : b < 256) (rest : List UInt8) :
    byteAt (UInt8.ofNat b :: rest) 0 = b := by
  show (UInt8.ofNat b).toNat = b
  rw [UInt8.toNat_ofNat']
  omega

theorem byteAt_cons_succ (x : UInt8) (rest : List UInt8) (i : ℕ) :
    byteAt (x :: rest) (i + 1) = byteAt rest i := rfl

theorem firstChar_one {b : ℕ} (hb : b < 0x80) (rest : List UInt8) :
    firstChar (UInt8.ofNat b :: rest) = (Char.ofNat b, 1) := by
  have hw : charWidth b = 1 := if_pos hb
  unfold firstChar
  dsimp only
  rw [byteAt_cons_zero b (by omega), hw]
  rfl

theorem firstChar_two {b b₁ : ℕ} (hb : 0xC2 ≤ b ∧ b ≤ 0xDF) (h₁ : IsCont b₁)
    (rest : List UInt8) :
    firstChar (UInt8.ofNat b :: UInt8.ofNat b₁ :: rest) =
      (Char.ofNat ((b - 0xC0) * 0x40 + (b₁ - 0x80)), 2) := by
  have hw : charWidth b = 2 := by
    unfold charWidth
    rw [if_neg (by omega), if_pos hb]
  have hlt := h₁.2
  unfold firstChar
  dsimp only
  rw [byteAt_cons_zero b (by omega), byteAt_cons_succ, byteAt_cons_zero b₁ (by omega), hw]
  exact if_pos h₁

theorem firstChar_three {b b₁ b₂ : ℕ} (hb : 0xE0 ≤ b ∧ b ≤ 0xEF) (h₁ : SecondOfThree b b₁)
    (h₂ : IsCont b₂) (rest : List UInt8) :
    firstChar (UInt8.ofNat b :: UInt8.ofNat b₁ :: UInt8.ofNat b₂ :: rest) =
      (Char.ofNat ((b - 0xE0) * 0x1000 + (b₁ - 0x80) * 0x40 + (b₂ - 0x80)), 3) := by
  have hw : charWidth b = 3 := by
    unfold charWidth
    rw [if_neg (by omega), if_neg (by omega), if_pos hb]
  have hlt : b₁ < 256 := by
    unfold SecondOfThree IsCont at h₁
    omega
  have hlt₂ := h₂.2
  unfold firstChar
  dsimp only
  rw [byteAt_cons_zero b (by omega), byteAt_cons_succ, byteAt_cons_zero b₁ hlt, byteAt_cons_succ,
    byteAt_cons_succ, byteAt_cons_zero b₂ (by omega), hw]
  exact (if_pos h₁).trans (if_pos h₂)

theorem firstChar_four {b b₁ b₂ b₃ : ℕ} (hb : 0xF0 ≤ b ∧ b ≤ 0xF4) (h₁ : SecondOfFour b b₁)
    (h₂ : IsCont b₂) (h₃ : IsCont b₃) (rest : List UInt8) :
    firstChar (UInt8.ofNat b :: UInt8.ofNat b₁ :: UInt8.ofNat b₂ :: UInt8.ofNat b₃ :: rest) =
      (Char.ofNat ((b - 0xF0) * 0x40000 + (b₁ - 0x80) * 0x1000 + (b₂ - 0x80) * 0x40 +
        (b₃ - 0x80)), 4) := by
  have hw : charWidth b = 4 := by
    unfold charWidth
    rw [if_neg (by omega), if_neg (by omega), if_neg (by omega), if_pos hb]
  have hlt : b₁ < 256 := by
    unfold SecondOfFour IsCont at h₁
    omega
  have hlt₂ := h₂.2
  have hlt₃ := h₃.2
  unfold firstChar
  dsimp only
  rw [byteAt_cons_zero b (by omega), byteAt_cons_succ, byteAt_cons_zero b₁ hlt, byteAt_cons_succ,
    byteAt_cons_succ, byteAt_cons_zero b₂ (by omega), byteAt_cons_succ, byteAt_cons_succ,
    byteAt_cons_succ, byteAt_cons_zero b₃ (by omega), hw]
  exact (if_pos h₁).trans ((if_pos h₂).trans (if_pos h₃))

theorem firstChar_encode (c : Char) (rest : List UInt8) :
    firstChar (String.utf8EncodeChar c ++ rest) = (c, (String.utf8EncodeChar c).length) := by
  have hv := toNat_valid c
  have hc : Char.ofNat c.toNat = c := Char.ofNat_toNat c
  have hval : c.val.toNat = c.toNat := rfl
  unfold String.utf8EncodeChar
  dsimp only
  rw [hval]
  generalize c.toNat = v at hv hc
  subst hc
  split
  · rw [List.singleton_append, firstChar_one (by omega)]
    rfl
  · split
    · rw [List.cons_append, List.singleton_append,
        firstChar_two (by omega) (by unfold IsCont; omega)]
      refine congrArg (fun n => (Char.ofNat n, 2)) ?_
      omega
    · split
      · rw [List.cons_append, List.cons_append, List.singleton_append,
          firstChar_three (by omega) (by unfold SecondOfThree IsCont; omega)
            (by unfold IsCont; omega)]
        refine congrArg (fun n => (Char.ofNat n, 3)) ?_
        omega
      · rw [List.cons_append, List.cons_append, List.cons_append, List.singleton_append,
          firstChar_four (by omega) (by unfold SecondOfFour IsCont; omega)
            (by unfold IsCont; omega) (by unfold IsCont; omega)]
        refine congrArg (fun n => (Char.ofNat n, 4)) ?_
        omega

theorem encode_cons (c : Char) (cs : List Char) :
    encode (c :: cs) = String.utf8EncodeChar c ++ encode cs := rfl

theorem encode_append (a b : List Char) : encode (a ++ b) = encode a ++ encode b :=
  List.flatMap_append

theorem lossyLoop_of_le {n m : ℕ} {bs : List UInt8} (hn : bs.length ≤ n) (hm : bs.length ≤ m) :
    lossyLoop n bs = lossyLoop m bs := by
  induction n generalizing m bs with
  | zero =>
    have hnil : bs = [] := List.length_eq_zero_iff.mp (by omega)
    subst hnil
    cases m <;> rfl
  | succ n ih =>
    cases m with
    | zero =>
      have hnil : bs = [] := List.length_eq_zero_iff.mp (by omega)
      subst hnil
      rfl
    | succ m =>
      unfold lossyLoop
      split
      · rfl
      · have hpos := firstChar_pos bs
        have hdrop : (bs.drop (firstChar bs).2).length ≤ bs.length - 1 := by
          rw [List.length_drop]
          omega
        rw [@ih m (bs.drop (firstChar bs).2) (by omega) (by omega)]

theorem lossy_cons (c : Char) (rest : List UInt8) :
    lossy (String.utf8EncodeChar c ++ rest) = c :: lossy rest := by
  have hpos : 1 ≤ (String.utf8EncodeChar c).length := by
    rw [String.length_utf8EncodeChar]
    exact Char.utf8Size_pos c
  unfold lossy
  obtain ⟨n, hn⟩ : ∃ n, (String.utf8EncodeChar c ++ rest).length = n + 1 :=
    ⟨(String.utf8EncodeChar c ++ rest).length - 1, by rw [List.length_append]; omega⟩
  rw [hn, lossyLoop, firstChar_encode, List.drop_left]
  rw [List.length_append] at hn
  have hne : ¬ (String.utf8EncodeChar c ++ rest).isEmpty = true := by
    intro h
    have := List.isEmpty_iff.mp h
    have hlen := congrArg List.length this
    rw [List.length_append, List.length_nil] at hlen
    omega
  have hn' : rest.length ≤ n := by omega
  rw [if_neg hne, lossyLoop_of_le hn' (Nat.le_refl _)]

/-- **Encoded text is read back, whatever follows it.** -/
theorem lossy_encode_append (cs : List Char) (rest : List UInt8) :
    lossy (encode cs ++ rest) = cs ++ lossy rest := by
  induction cs with
  | nil => rfl
  | cons c cs ih => rw [encode_cons, List.append_assoc, lossy_cons, ih, List.cons_append]

theorem lossy_encode (cs : List Char) : lossy (encode cs) = cs := by
  have h := lossy_encode_append cs []
  rw [List.append_nil] at h
  rw [h]
  exact List.append_nil cs

theorem valid_encode (cs : List Char) : Valid (encode cs) := by
  unfold Valid
  rw [lossy_encode]

theorem Valid.lossy_append {a : List UInt8} (h : Valid a) (b : List UInt8) :
    lossy (a ++ b) = lossy a ++ lossy b := by
  have key := lossy_encode_append (lossy a) b
  rwa [h] at key

theorem Valid.of_append {a b : List UInt8} (ha : Valid a) (h : Valid (a ++ b)) : Valid b := by
  unfold Valid at h
  rw [ha.lossy_append, encode_append, ha] at h
  exact List.append_cancel_left h

theorem length_encode (cs : List Char) : (encode cs).length = (cs.map Char.utf8Size).sum := by
  unfold encode
  rw [List.length_flatMap]
  simp only [String.length_utf8EncodeChar]

theorem mem_utf8EncodeChar_ascii {b : UInt8} {c : Char} (h : b ∈ String.utf8EncodeChar c)
    (hb : b.toNat < 128) : c.toNat = b.toNat := by
  have hv := toNat_valid c
  have hval : c.val.toNat = c.toNat := rfl
  have hbyte (n : ℕ) (hn : n < 256) : (UInt8.ofNat n).toNat = n := by
    rw [UInt8.toNat_ofNat']
    omega
  unfold String.utf8EncodeChar at h
  dsimp only at h
  rw [hval] at h
  generalize c.toNat = v at hv h
  split_ifs at h
  · rw [List.mem_singleton.1 h, hbyte v (by omega)]
  all_goals
    simp only [List.mem_cons, List.not_mem_nil, or_false] at h
    rcases h with rfl | rfl | rfl | rfl <;> rw [hbyte _ (by omega)] at hb <;> omega

theorem mem_encode_ascii {b : UInt8} {cs : List Char} (h : b ∈ encode cs) (hb : b.toNat < 128) :
    ∃ c ∈ cs, c.toNat = b.toNat := by
  obtain ⟨c, hc, hbc⟩ := List.mem_flatMap.1 h
  exact ⟨c, hc, mem_utf8EncodeChar_ascii hbc hb⟩

end Utf8

end Lib
