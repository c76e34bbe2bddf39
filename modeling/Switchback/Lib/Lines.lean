import Switchback.Lib.Split

/-!
# Lines and words

More of the string operations: what is between line ends and between spaces, and printed numbers.
-/

namespace Lib

namespace Text

def startsWithList (p : String) (l : List Char) : Bool := (stripPrefixList p.toList l).isSome

/-- The words between white space. -/
def splitWhitespace (l : List Char) : List (List Char) :=
  (l.splitOnP isWhiteSpace).filter fun word => word ≠ []

/-- Strip a prefix at most so many times. -/
def trimStartLoop (p : List Char) : ℕ → List Char → List Char
  | 0, l => l
  | n + 1, l =>
      match stripPrefixList p l with
      | some rest => trimStartLoop p n rest
      | none => l

/-- Strip a prefix as long as there is one. -/
def trimStartMatches (p : String) (l : List Char) : List Char := trimStartLoop p.toList l.length l

/-- The line without a carriage return at its end. -/
def dropCr : List Char → List Char
  | [] => []
  | ['\r'] => []
  | c :: l => c :: dropCr l

theorem startsWithList_iff {p : String} {l : List Char} :
    startsWithList p l = true ↔ p.toList <+: l := by
  unfold startsWithList
  rw [Option.isSome_iff_exists]
  constructor
  · rintro ⟨rest, h⟩
    exact ⟨rest, (stripPrefixList_eq_some h).symm⟩
  · rintro ⟨rest, rfl⟩
    exact ⟨rest, stripPrefixList_append_self _ _⟩

theorem dropCr_cons {c : Char} {l : List Char} (h : c ≠ '\r' ∨ l ≠ []) :
    dropCr (c :: l) = c :: dropCr l := by
  rw [dropCr]
  rintro rfl rfl
  rcases h with h | h <;> exact h rfl

theorem prefix_dropCr_iff {p l : List Char} (hp : '\r' ∉ p) : p <+: dropCr l ↔ p <+: l := by
  induction l generalizing p with
  | nil => rfl
  | cons c l ih =>
    cases p with
    | nil => simp
    | cons d p =>
      rw [List.mem_cons, not_or] at hp
      by_cases hc : c ≠ '\r' ∨ l ≠ []
      · rw [dropCr_cons hc, List.cons_prefix_cons, List.cons_prefix_cons, ih hp.2]
      · push Not at hc
        obtain ⟨rfl, rfl⟩ := hc
        refine iff_of_false (fun h => ?_) fun h => ?_
        · exact absurd (List.prefix_nil.1 h) (List.cons_ne_nil d p)
        · exact hp.1 (List.cons_prefix_cons.1 h).1.symm

theorem dropCr_append {p : List Char} (hp : '\r' ∉ p) (l : List Char) :
    dropCr (p ++ l) = p ++ dropCr l := by
  induction p with
  | nil => rfl
  | cons c p ih =>
    rw [List.mem_cons, not_or] at hp
    rw [List.cons_append, dropCr_cons (Or.inl fun h => hp.1 h.symm), ih hp.2, List.cons_append]

theorem lines_cons {line : List Char} (h : '\n' ∉ line) (rest : List Char) :
    lines (line ++ '\n' :: rest) = dropCr line :: lines rest := by
  induction line with
  | nil => rfl
  | cons c line ih =>
    rw [List.mem_cons, not_or] at h
    have hline := ih h.2
    cases line with
    | nil =>
      by_cases hc : c = '\r'
      · subst hc
        rfl
      · have hlast : lines (c :: '\n' :: rest) = [c] :: lines rest := by
          rw [lines]
          · rfl
          · exact fun heq => h.1 heq.symm
          · exact fun _ heq _ => absurd heq hc
        rw [dropCr_cons (Or.inl hc)]
        exact hlast
    | cons d line =>
      rw [List.mem_cons, not_or] at h
      rw [dropCr_cons (Or.inr (List.cons_ne_nil d line)), List.cons_append, lines, hline]
      · exact fun heq => h.1 heq.symm
      · intro _ _ heq
        exact absurd (List.cons.inj heq).1.symm h.2.1

/-- A text of terminated lines. -/
def unlines (ls : List (List Char)) : List Char := ls.flatMap fun line => line ++ ['\n']

theorem lines_unlines {ls : List (List Char)} (h : ∀ line ∈ ls, '\n' ∉ line) :
    lines (unlines ls) = ls.map dropCr := by
  induction ls with
  | nil => rfl
  | cons line ls ih =>
    obtain ⟨hline, hrest⟩ := List.forall_mem_cons.1 h
    have hsplit : unlines (line :: ls) = line ++ '\n' :: unlines ls := by
      simp [unlines]
    rw [hsplit, lines_cons hline, ih hrest, List.map_cons]

/-! ### Numbers -/

/-- Two texts of a class, each followed by something that does not begin with a character of the
class. -/
theorem append_inj_of_class {p : Char → Bool} {a b rest rest' : List Char}
    (ha : ∀ c ∈ a, p c = true) (hb : ∀ c ∈ b, p c = true)
    (hrest : rest.head?.all (!p ·) = true) (hrest' : rest'.head?.all (!p ·) = true)
    (h : a ++ rest = b ++ rest') : a = b ∧ rest = rest' := by
  have htake {rest : List Char} (hrest : rest.head?.all (!p ·) = true) :
      rest.takeWhile p = [] := by
    cases rest with
    | nil => rfl
    | cons c rest => exact List.takeWhile_cons_of_neg (by simpa using hrest)
  have hab : a = b := by
    have := congrArg (List.takeWhile p) h
    rwa [List.takeWhile_append_of_pos ha, List.takeWhile_append_of_pos hb, htake hrest,
      htake hrest', List.append_nil, List.append_nil] at this
  subst hab
  exact ⟨rfl, List.append_cancel_left h⟩

theorem isDigit_of_mem_toString {n : ℕ} {c : Char} (h : c ∈ (toString n).toList) :
    c.isDigit = true := by
  rw [Nat.toString_eq_ofList_toDigits, String.toList_ofList] at h
  exact Nat.isDigit_of_mem_toDigits (by decide) (by decide) h

theorem toString_append_inj {m n : ℕ} {rest rest' : List Char}
    (hrest : rest.head?.all (!Char.isDigit ·) = true)
    (hrest' : rest'.head?.all (!Char.isDigit ·) = true)
    (h : (toString m).toList ++ rest = (toString n).toList ++ rest') : m = n ∧ rest = rest' := by
  obtain ⟨hnum, hrest⟩ := append_inj_of_class (fun _ => isDigit_of_mem_toString)
    (fun _ => isDigit_of_mem_toString) hrest hrest' h
  rw [Nat.toString_eq_ofList_toDigits, Nat.toString_eq_ofList_toDigits, String.toList_ofList,
    String.toList_ofList] at hnum
  have hvalue := congrArg (fun ds => Nat.ofDigitChars 10 ds 0) hnum
  simp only [Nat.ofDigitChars_ten_toDigits] at hvalue
  exact ⟨hvalue, hrest⟩

end Text

end Lib
