import Switchback.Lib.Utf8

/-!
# Cutting UTF-8 text

A cut at a byte backs off to the next boundary between characters, which is at most three bytes
away.
-/

namespace Lib

namespace Utf8

/-- The longest beginning that is UTF-8, of at most so many bytes. -/
def validEnd (src : List UInt8) : ℕ → ℕ
  | 0 => 0
  | n + 1 => if Valid (src.take (n + 1)) then n + 1 else validEnd src n

/-- Drop bytes in front until the rest is UTF-8. -/
def dropToValid : List UInt8 → List UInt8
  | [] => []
  | b :: rest => if Valid (b :: rest) then b :: rest else dropToValid rest

theorem valid_nil : Valid [] := rfl

theorem validEnd_le (src : List UInt8) (n : ℕ) : validEnd src n ≤ n := by
  induction n with
  | zero => exact le_rfl
  | succ n ih =>
    rw [validEnd]
    split_ifs <;> omega

theorem valid_validEnd (src : List UInt8) (n : ℕ) : Valid (src.take (validEnd src n)) := by
  induction n with
  | zero => exact valid_nil
  | succ n ih =>
    rw [validEnd]
    split_ifs with h
    · exact h
    · exact ih

theorem le_validEnd {src : List UInt8} {k n : ℕ} (hk : k ≤ n) (h : Valid (src.take k)) :
    k ≤ validEnd src n := by
  induction n with
  | zero => omega
  | succ n ih =>
    rw [validEnd]
    split_ifs with hn
    · exact hk
    · rcases Nat.lt_or_eq_of_le hk with hlt | rfl
      · exact ih (by omega)
      · exact absurd h hn

theorem dropToValid_suffix (src : List UInt8) : dropToValid src <:+ src := by
  induction src with
  | nil => exact List.suffix_rfl
  | cons b rest ih =>
    rw [dropToValid]
    split_ifs
    · exact List.suffix_rfl
    · exact ih.trans (List.suffix_cons b rest)

theorem valid_dropToValid (src : List UInt8) : Valid (dropToValid src) := by
  induction src with
  | nil => exact valid_nil
  | cons b rest ih =>
    rw [dropToValid]
    split_ifs with h
    · exact h
    · exact ih

theorem le_dropToValid {src v : List UInt8} (hv : v <:+ src) (h : Valid v) :
    v.length ≤ (dropToValid src).length := by
  induction src with
  | nil => exact hv.length_le
  | cons b rest ih =>
    rw [dropToValid]
    split_ifs with hvalid
    · exact hv.length_le
    · rcases List.suffix_cons_iff.1 hv with rfl | hv
      · exact absurd h hvalid
      · exact ih hv

/-! ### Boundaries -/

theorem exists_boundary_before (cs : List Char) {n : ℕ} (h : n ≤ (encode cs).length) :
    ∃ p q, cs = p ++ q ∧ (encode p).length ≤ n ∧ n < (encode p).length + 4 := by
  induction cs generalizing n with
  | nil => exact ⟨[], [], rfl, n.zero_le, by simp [encode] at h; omega⟩
  | cons c cs ih =>
    have hc := Char.utf8Size_le_four c
    rw [encode_cons, List.length_append, String.length_utf8EncodeChar] at h
    by_cases hn : n < c.utf8Size
    · exact ⟨[], c :: cs, rfl, n.zero_le, by omega⟩
    · obtain ⟨p, q, rfl, hle, hlt⟩ := ih (n := n - c.utf8Size) (by omega)
      refine ⟨c :: p, q, rfl, ?_, ?_⟩
      all_goals
        rw [encode_cons, List.length_append, String.length_utf8EncodeChar]
        omega

theorem exists_boundary_after (cs : List Char) {n : ℕ} (h : n ≤ (encode cs).length) :
    ∃ p q, cs = p ++ q ∧ n ≤ (encode p).length ∧ (encode p).length < n + 4 := by
  induction cs generalizing n with
  | nil => exact ⟨[], [], rfl, h, by simp [encode]⟩
  | cons c cs ih =>
    have hc := Char.utf8Size_le_four c
    rw [encode_cons, List.length_append, String.length_utf8EncodeChar] at h
    rcases Nat.eq_zero_or_pos n with rfl | hpos
    · exact ⟨[], c :: cs, rfl, Nat.zero_le _, by simp [encode]⟩
    by_cases hn : n ≤ c.utf8Size
    · refine ⟨[c], cs, rfl, ?_, ?_⟩
      all_goals
        rw [encode_cons, List.length_append, String.length_utf8EncodeChar]
        simp [encode]
        omega
    · obtain ⟨p, q, rfl, hle, hlt⟩ := ih (n := n - c.utf8Size) (by omega)
      refine ⟨c :: p, q, rfl, ?_, ?_⟩
      all_goals
        rw [encode_cons, List.length_append, String.length_utf8EncodeChar]
        omega

theorem isCont_of_mem_tail {c : Char} {b : UInt8} (h : b ∈ (String.utf8EncodeChar c).tail) :
    IsCont b.toNat := by
  have hv := toNat_valid c
  have hval : c.val.toNat = c.toNat := rfl
  have hbyte (n : ℕ) (hn : n < 256) : (UInt8.ofNat n).toNat = n := by
    rw [UInt8.toNat_ofNat']
    omega
  unfold String.utf8EncodeChar at h
  dsimp only at h
  rw [hval] at h
  generalize c.toNat = v at hv h
  unfold IsCont
  split_ifs at h
  all_goals
    simp only [List.tail_cons, List.mem_cons, List.not_mem_nil, or_false] at h
  all_goals
    rcases h with rfl | rfl | rfl <;> rw [hbyte _ (by omega)] <;> omega

theorem not_valid_of_isCont {b : UInt8} (hb : IsCont b.toNat) (rest : List UInt8) :
    ¬ Valid (b :: rest) := by
  intro h
  have hwidth : charWidth b.toNat = 0 := by
    unfold IsCont at hb
    unfold charWidth
    split_ifs <;> omega
  have hfirst : firstChar (b :: rest) = (replacement, 1) := by
    unfold firstChar
    dsimp only
    rw [show byteAt (b :: rest) 0 = b.toNat from rfl, hwidth]
    rfl
  have hlossy : lossy (b :: rest) = replacement :: lossyLoop rest.length rest := by
    show lossyLoop (rest.length + 1) (b :: rest) = _
    rw [lossyLoop, if_neg (by simp), hfirst]
    rfl
  rw [Valid, hlossy, encode_cons] at h
  have hhead : (0xEF : UInt8) = b := (List.cons.inj h).1
  rw [← hhead] at hb
  exact absurd hb (by decide)

theorem exists_of_valid_suffix {cs : List Char} {u v : List UInt8} (h : encode cs = u ++ v)
    (hv : Valid v) : ∃ p q, cs = p ++ q ∧ v = encode q := by
  induction cs generalizing u with
  | nil =>
    obtain ⟨-, rfl⟩ := List.append_eq_nil_iff.1 h.symm
    exact ⟨[], [], rfl, rfl⟩
  | cons c cs ih =>
    rcases Nat.eq_zero_or_pos u.length with hzero | hpos
    · rw [List.length_eq_zero_iff.1 hzero] at h
      exact ⟨[], c :: cs, rfl, h.symm⟩
    rw [encode_cons] at h
    rcases List.append_eq_append_iff.1 h with ⟨u', rfl, hrest⟩ | ⟨w, hw, rfl⟩
    · obtain ⟨p, q, rfl, hq⟩ := ih hrest
      exact ⟨c :: p, q, rfl, hq⟩
    · cases w with
      | nil =>
        obtain ⟨p, q, rfl, hq⟩ := ih (u := []) rfl
        exact ⟨c :: p, q, rfl, hq⟩
      | cons b w =>
        have hmem : b ∈ (String.utf8EncodeChar c).tail := by
          rw [hw, List.tail_append_of_ne_nil (List.ne_nil_of_length_pos hpos)]
          exact List.mem_append_right _ List.mem_cons_self
        exact absurd hv (not_valid_of_isCont (isCont_of_mem_tail hmem) _)

/-! ### Backing off -/

theorem validEnd_spec {cs : List Char} {rest : List UInt8} {n : ℕ} (h : n ≤ (encode cs).length) :
    ∃ p q, cs = p ++ q ∧ (encode cs ++ rest).take (validEnd (encode cs ++ rest) n) = encode p ∧
      (encode p).length ≤ n ∧ n < (encode p).length + 4 := by
  have hle := validEnd_le (encode cs ++ rest) n
  have hvalid := valid_validEnd (encode cs ++ rest) n
  obtain ⟨p₀, q₀, hcs, hp₀, hnear⟩ := exists_boundary_before cs h
  have hlong : (encode p₀).length ≤ validEnd (encode cs ++ rest) n := by
    refine le_validEnd hp₀ ?_
    rw [hcs, encode_append, List.append_assoc, List.take_left' rfl]
    exact valid_encode p₀
  generalize validEnd (encode cs ++ rest) n = e at hle hvalid hlong ⊢
  rw [List.take_append_of_le_length (by omega)] at hvalid ⊢
  have hsplit := List.take_append_drop e (encode cs)
  have hrest := hvalid.of_append (hsplit.symm ▸ valid_encode cs)
  obtain ⟨p, q, hpq, hq⟩ := exists_of_valid_suffix hsplit.symm hrest
  have hp : (encode cs).take e = encode p := by
    refine List.append_cancel_right (hsplit.trans ?_)
    rw [hq, ← encode_append, ← hpq]
  have hlength : (encode p).length = e := by
    rw [← hp, List.length_take_of_le (by omega)]
  exact ⟨p, q, hpq, hp, by omega, by omega⟩

theorem dropToValid_spec {cs : List Char} {n : ℕ} (h : n ≤ (encode cs).length) :
    ∃ r s, cs = r ++ s ∧ dropToValid ((encode cs).drop n) = encode s ∧
      (encode s).length ≤ (encode cs).length - n ∧
      (encode cs).length - n < (encode s).length + 4 := by
  obtain ⟨p₀, q₀, hcs, hp₀, hnear⟩ := exists_boundary_after cs h
  obtain ⟨u, hu⟩ := dropToValid_suffix ((encode cs).drop n)
  have hsplit : encode cs = ((encode cs).take n ++ u) ++ dropToValid ((encode cs).drop n) := by
    rw [List.append_assoc, hu, List.take_append_drop]
  obtain ⟨r, s, hrs, hs⟩ := exists_of_valid_suffix hsplit (valid_dropToValid _)
  have hshort := (dropToValid_suffix ((encode cs).drop n)).length_le
  have hlong : (encode q₀).length ≤ (dropToValid ((encode cs).drop n)).length := by
    refine le_dropToValid ?_ (valid_encode q₀)
    rw [hcs, encode_append, List.drop_append_of_le_length hp₀]
    exact List.suffix_append _ _
  have htotal := congrArg (fun cs => (encode cs).length) hcs
  simp only [encode_append, List.length_append] at htotal
  rw [hs, List.length_drop] at hshort
  rw [hs] at hlong
  exact ⟨r, s, hrs, hs, hshort, by omega⟩

end Utf8

end Lib
