import Switchback.Lib.Lines
import Switchback.Lib.Utf8

/-!
# ASCII text in decoded bytes

Decoding with replacement neither makes nor hides ASCII text: an ASCII text is in what bytes decode
to exactly when its bytes are in the bytes.
-/

namespace Lib

namespace Utf8

def IsAscii (c : Char) : Prop := c.toNat < 0x80

theorem toNat_ofNat {n : ℕ} (hv : n < 0xD800 ∨ (0xDFFF < n ∧ n < 0x110000)) :
    (Char.ofNat n).toNat = n := by
  have hvalid : n.isValidChar := hv
  rw [Char.ofNat, dif_pos hvalid]
  exact UInt32.toNat_ofNatLT ..

theorem not_isAscii_ofNat {n : ℕ} (hn : 0x80 ≤ n)
    (hv : n < 0xD800 ∨ (0xDFFF < n ∧ n < 0x110000)) : ¬ IsAscii (Char.ofNat n) := by
  rw [IsAscii, toNat_ofNat hv]
  omega

theorem firstChar_high {bs : List UInt8} (h : 0x80 ≤ byteAt bs 0) :
    ¬ IsAscii (firstChar bs).1 ∧ ∀ i < (firstChar bs).2, 0x80 ≤ byteAt bs i := by
  have hreplacement : ¬ IsAscii replacement := by unfold IsAscii; decide
  have hone : ∀ i < 1, 0x80 ≤ byteAt bs i := fun i hi => (by omega : i = 0) ▸ h
  have hnext (n : ℕ) (hn : ∀ i < n, 0x80 ≤ byteAt bs i) (hb : 0x80 ≤ byteAt bs n) :
      ∀ i < n + 1, 0x80 ≤ byteAt bs i := by
    intro i hi
    rcases Nat.lt_succ_iff_lt_or_eq.1 hi with hi | rfl
    · exact hn i hi
    · exact hb
  have htwo : charWidth (byteAt bs 0) = 2 → 0xC2 ≤ byteAt bs 0 ∧ byteAt bs 0 ≤ 0xDF := by
    intro hw
    unfold charWidth at hw
    split_ifs at hw <;> omega
  have hwidth : charWidth (byteAt bs 0) ≠ 1 := by
    unfold charWidth
    split_ifs <;> omega
  unfold firstChar
  dsimp only
  split
  next hw => exact absurd hw hwidth
  next hw =>
    split_ifs with hcont
    · have hb := htwo hw
      unfold IsCont at hcont
      dsimp only
      exact ⟨not_isAscii_ofNat (by omega) (by omega), hnext 1 hone hcont.1⟩
    · exact ⟨hreplacement, hone⟩
  next =>
    split_ifs with hsecond hcont
    · unfold SecondOfThree at hsecond
      unfold IsCont at hsecond hcont
      dsimp only
      exact ⟨not_isAscii_ofNat (by omega) (by omega),
        hnext 2 (hnext 1 hone (by omega)) (by omega)⟩
    · unfold SecondOfThree IsCont at hsecond
      exact ⟨hreplacement, hnext 1 hone (by omega)⟩
    · exact ⟨hreplacement, hone⟩
  next =>
    split_ifs with hsecond hcont hcont'
    · unfold SecondOfFour at hsecond
      unfold IsCont at hsecond hcont hcont'
      dsimp only
      exact ⟨not_isAscii_ofNat (by omega) (by omega),
        hnext 3 (hnext 2 (hnext 1 hone (by omega)) (by omega)) (by omega)⟩
    · unfold SecondOfFour at hsecond
      unfold IsCont at hsecond hcont
      exact ⟨hreplacement, hnext 2 (hnext 1 hone (by omega)) (by omega)⟩
    · unfold SecondOfFour IsCont at hsecond
      exact ⟨hreplacement, hnext 1 hone (by omega)⟩
    · exact ⟨hreplacement, hone⟩
  next => exact ⟨hreplacement, hone⟩

theorem lossy_eq_cons (b : UInt8) (rest : List UInt8) :
    lossy (b :: rest) =
      (firstChar (b :: rest)).1 :: lossy ((b :: rest).drop (firstChar (b :: rest)).2) := by
  have hpos := firstChar_pos (b :: rest)
  have hle : ((b :: rest).drop (firstChar (b :: rest)).2).length ≤ rest.length := by
    rw [List.length_drop, List.length_cons]
    omega
  show lossyLoop (rest.length + 1) (b :: rest) = _
  rw [lossyLoop, if_neg (by simp), lossyLoop_of_le hle le_rfl]
  rfl

def asciiByte (c : Char) : UInt8 := UInt8.ofNat c.toNat

theorem asciiByte_toNat {c : Char} (h : IsAscii c) : (asciiByte c).toNat = c.toNat := by
  rw [asciiByte, UInt8.toNat_ofNat']
  unfold IsAscii at h
  omega

variable {m : List Char}

theorem prefix_lossy_iff (h : ∀ c ∈ m, IsAscii c) {bs : List UInt8} :
    m <+: lossy bs ↔ m.map asciiByte <+: bs := by
  induction m generalizing bs with
  | nil => exact iff_of_true List.nil_prefix List.nil_prefix
  | cons c m ih =>
    have hc : IsAscii c := h c List.mem_cons_self
    have hbyte := asciiByte_toNat hc
    unfold IsAscii at hc
    cases bs with
    | nil => exact iff_of_false (by simp [lossy, lossyLoop]) (by simp)
    | cons b rest =>
      rw [lossy_eq_cons, List.map_cons, List.cons_prefix_cons, List.cons_prefix_cons]
      rcases Nat.lt_or_ge b.toNat 0x80 with hlow | hhigh
      · have hfirst : firstChar (b :: rest) = (Char.ofNat b.toNat, 1) := by
          have := firstChar_one hlow rest
          rwa [UInt8.ofNat_toNat] at this
        rw [hfirst]
        refine and_congr ⟨fun hcb => ?_, fun hcb => ?_⟩
          (ih fun c hc => h c (List.mem_cons_of_mem _ hc))
        · rw [hcb, asciiByte, toNat_ofNat (by omega), UInt8.ofNat_toNat]
        · rw [← hcb, hbyte, Char.ofNat_toNat]
      · refine iff_of_false (fun hcb => ?_) fun hcb => ?_
        · refine (@firstChar_high (b :: rest) hhigh).1 ?_
          rw [← hcb.1]
          exact hc
        · rw [← hcb.1] at hhigh
          omega

theorem infix_of_high {skipped rest : List UInt8} (h : ∀ c ∈ m, IsAscii c) (hm : m ≠ [])
    (hskipped : ∀ b ∈ skipped, 0x80 ≤ b.toNat) (hwithin : m.map asciiByte <:+: skipped ++ rest) :
    m.map asciiByte <:+: rest := by
  induction skipped with
  | nil => exact hwithin
  | cons b skipped ih =>
    rw [List.cons_append, List.infix_cons_iff] at hwithin
    rcases hwithin with hfront | hwithin
    · exfalso
      obtain ⟨c, m, rfl⟩ := List.exists_cons_of_ne_nil hm
      have hc := h c List.mem_cons_self
      have hbyte := asciiByte_toNat hc
      have hb := hskipped b List.mem_cons_self
      rw [List.map_cons, List.cons_prefix_cons] at hfront
      rw [← hfront.1] at hb
      unfold IsAscii at hc
      omega
    · exact ih (fun b hb => hskipped b (List.mem_cons_of_mem _ hb)) hwithin

/-- **What decoded bytes contain.** -/
theorem infix_lossy_iff (h : ∀ c ∈ m, IsAscii c) (hm : m ≠ []) (bs : List UInt8) :
    m <:+: lossy bs ↔ m.map asciiByte <:+: bs := by
  induction hn : bs.length using Nat.strong_induction_on generalizing bs with
  | _ n ih =>
    cases bs with
    | nil => exact iff_of_false (by simpa [lossy, lossyLoop] using hm) (by simpa using hm)
    | cons b rest =>
      have hpos := firstChar_pos (b :: rest)
      have hshort : ((b :: rest).drop (firstChar (b :: rest)).2).length < n := by
        rw [List.length_drop, ← hn, List.length_cons]
        omega
      have hfirst : m <+: lossy (b :: rest) ↔ m.map asciiByte <+: b :: rest := prefix_lossy_iff h
      rw [lossy_eq_cons] at hfirst ⊢
      rw [List.infix_cons_iff, hfirst, ih _ hshort _ rfl]
      constructor
      · rintro (hfront | hwithin)
        · exact hfront.isInfix
        · exact hwithin.trans (List.drop_suffix _ _).isInfix
      · intro hwithin
        rcases Nat.lt_or_ge b.toNat 0x80 with hlow | hhigh
        · have hone : (firstChar (b :: rest)).2 = 1 := by
            have := firstChar_one hlow rest
            rw [UInt8.ofNat_toNat] at this
            rw [this]
          rw [hone]
          exact List.infix_cons_iff.1 hwithin
        · right
          refine @infix_of_high m ((b :: rest).take (firstChar (b :: rest)).2) _ h hm ?_ ?_
          · intro x hx
            obtain ⟨i, hi, hxi⟩ := List.mem_take_iff_getElem.1 hx
            have := (@firstChar_high (b :: rest) hhigh).2 i (by omega)
            rwa [byteAt, List.getD_eq_getElem?_getD, List.getElem?_eq_getElem (by omega), hxi] at this
          · rwa [List.take_append_drop]

end Utf8

namespace Text

theorem containsList_iff {sub l : List Char} : containsList sub l = true ↔ sub <:+: l := by
  induction l with
  | nil => simp [containsList]
  | cons c l ih =>
    rw [containsList, Bool.or_eq_true, ih, List.infix_cons_iff, Option.isSome_iff_ne_none, ne_eq,
      stripPrefixList_eq_none_iff, not_not]

theorem containsList_lossy_iff {m : List Char} (h : ∀ c ∈ m, Utf8.IsAscii c) (hm : m ≠ [])
    (bs : List UInt8) :
    containsList m (Utf8.lossy bs) = true ↔ m.map Utf8.asciiByte <:+: bs :=
  containsList_iff.trans (Utf8.infix_lossy_iff h hm bs)

end Text

end Lib
