import Switchback.Lib.Machine
import Mathlib.Data.List.Infix

/-!
# Streams that open once and close once

The letters of a stream play roles: some open it, some close it, some speak.  A transducer that
answers each letter with a block of letters keeps the life cycle of a stream when each block
plays the role of its letter.
-/

namespace Lib

/-- What a letter does in a stream.  Letters that speak have to wait for the opening; letters that
utter are not to follow the closing. -/
structure Roles (α : Type*) where
  opens : α → Bool
  speaks : α → Bool
  utters : α → Bool
  closes : α → Bool

namespace Roles

section Life

variable {α : Type*} (R : Roles α)

/-- At most one letter opens, and none speaks before it; when one does, at most one closes and
none utters after it. -/
structure Orderly (l : List α) : Prop where
  opens_once : l.countP R.opens ≤ 1
  opens_first : ∀ x ∈ l.takeWhile fun x => !R.opens x, R.speaks x = false
  closes_once : (∃ x ∈ l, R.opens x = true) → l.countP R.closes ≤ 1
  closes_last : (∃ x ∈ l, R.opens x = true) →
    l.Pairwise fun x y => R.closes x = true → R.utters y = false

/-- The stream that opens also closes, once. -/
structure Once (l : List α) : Prop extends R.Orderly l where
  closes : (∃ x ∈ l, R.opens x = true) → ∃ x ∈ l, R.closes x = true

end Life

section Blocks

variable {α β : Type*} {R : Roles α} {Q : Roles β}

/-- The block `b` plays the role of the letter `a`: it opens with its first letter, and nothing in
it utters after it closed. -/
structure Block (R : Roles α) (Q : Roles β) (a : α) (b : List β) : Prop where
  opens : b.countP Q.opens = (R.opens a).toNat
  first : R.opens a = true → ∀ x ∈ b.head?, Q.opens x = true
  speaks : b.any Q.speaks = R.speaks a
  utters : b.any Q.utters = R.utters a
  closes : b.countP Q.closes = (R.closes a).toNat
  last : b.Pairwise fun x y => Q.closes x = true → Q.utters y = false

namespace Block

variable {a : α} {b : List β}

/-- A block made of what opens, what goes between and what closes. -/
theorem of_parts {o m c : List β}
    (hopens : o.countP Q.opens = (R.opens a).toNat)
    (hclosed : c.countP Q.closes = (R.closes a).toNat)
    (hspeaks : m.any Q.speaks = R.speaks a) (hutters : m.any Q.utters = R.utters a)
    (ho : ∀ x ∈ o, Q.opens x = true ∧ Q.speaks x = false ∧ Q.utters x = false ∧
      Q.closes x = false)
    (hm : ∀ x ∈ m, Q.opens x = false ∧ Q.closes x = false)
    (hc : ∀ x ∈ c, Q.opens x = false ∧ Q.speaks x = false ∧ Q.utters x = false) :
    Block R Q a (o ++ m ++ c) where
  opens := by
    have hzero : (m ++ c).countP Q.opens = 0 := by
      rw [List.countP_eq_zero]
      intro x hx
      rcases List.mem_append.1 hx with hx | hx
      · simp [(hm x hx).1]
      · simp [(hc x hx).1]
    rw [List.append_assoc, List.countP_append, hopens, hzero, Nat.add_zero]
  first := by
    intro ha x hx
    cases o with
    | nil => simp [ha] at hopens
    | cons y o =>
      obtain rfl : y = x := by simpa using hx
      exact (ho y List.mem_cons_self).1
  speaks := by
    have h1 : o.any Q.speaks = false := List.any_eq_false.2 fun x hx => by simp [(ho x hx).2.1]
    have h2 : c.any Q.speaks = false := List.any_eq_false.2 fun x hx => by simp [(hc x hx).2.1]
    rw [List.any_append, List.any_append, h1, h2, hspeaks, Bool.false_or, Bool.or_false]
  utters := by
    have h1 : o.any Q.utters = false := List.any_eq_false.2 fun x hx => by simp [(ho x hx).2.2.1]
    have h2 : c.any Q.utters = false := List.any_eq_false.2 fun x hx => by simp [(hc x hx).2.2]
    rw [List.any_append, List.any_append, h1, h2, hutters, Bool.false_or, Bool.or_false]
  closes := by
    have hzero : (o ++ m).countP Q.closes = 0 := by
      rw [List.countP_eq_zero]
      intro x hx
      rcases List.mem_append.1 hx with hx | hx
      · simp [(ho x hx).2.2.2]
      · simp [(hm x hx).2]
    rw [List.countP_append, hclosed, hzero, Nat.zero_add]
  last := by
    -- only the last part closes, and nothing in it utters
    rw [List.pairwise_append]
    refine ⟨?_, ?_, fun x _ y hy _ => (hc y hy).2.2⟩
    · refine List.Pairwise.imp_of_mem (fun {x y} hx _ _ hclose => ?_)
        (List.pairwise_of_forall (R := fun _ _ => True) fun _ _ => trivial)
      rcases List.mem_append.1 hx with hx | hx
      · simp [(ho x hx).2.2.2] at hclose
      · simp [(hm x hx).2] at hclose
    · exact List.Pairwise.imp_of_mem (fun {x y} _ hy _ _ => (hc y hy).2.2)
        (List.pairwise_of_forall (R := fun _ _ => True) fun _ _ => trivial)

/-- A letter in between alone. -/
theorem of_quiet {m : List β} (hopens : R.opens a = false) (hcloses : R.closes a = false)
    (hspeaks : m.any Q.speaks = R.speaks a) (hutters : m.any Q.utters = R.utters a)
    (hm : ∀ x ∈ m, Q.opens x = false ∧ Q.closes x = false) : Block R Q a m := by
  have h := of_parts (R := R) (Q := Q) (a := a) (o := []) (m := m) (c := []) (by simp [hopens])
    (by simp [hcloses]) hspeaks hutters (by simp) hm (by simp)
  simpa using h

/-- Does the block hold a letter of a role that its letter counts? -/
theorem exists_mem_iff {p : Bool} {q : β → Bool} (h : b.countP q = p.toNat) :
    (∃ x ∈ b, q x = true) ↔ p = true := by
  rw [← List.countP_pos_iff, h]
  cases p <;> simp

theorem not_opens (h : Block R Q a b) (ha : R.opens a = false) : ∀ x ∈ b, Q.opens x = false := by
  have hzero := h.opens
  rw [ha, Bool.toNat_false, List.countP_eq_zero] at hzero
  simpa using hzero

theorem takeWhile_eq_nil (h : Block R Q a b) (ha : R.opens a = true) (rest : List β) :
    ((b ++ rest).takeWhile fun x => !Q.opens x) = [] := by
  obtain ⟨x, hx, -⟩ := (exists_mem_iff h.opens).2 ha
  cases b with
  | nil => simp at hx
  | cons y b =>
    have hy := h.first ha y rfl
    simp [hy]

end Block

variable {f : α → List β} {l : List α}

theorem countP_flatMap_eq {p : α → Bool} {q : β → Bool}
    (h : ∀ a ∈ l, (f a).countP q = (p a).toNat) : (l.flatMap f).countP q = l.countP p := by
  induction l with
  | nil => rfl
  | cons a l ih =>
    obtain ⟨ha, hl⟩ := List.forall_mem_cons.1 h
    rw [List.flatMap_cons, List.countP_append, ha, ih hl, List.countP_cons, Nat.add_comm]
    cases p a <;> rfl

theorem opens_first_iff (tail : List β) (h : ∀ a ∈ l, Block R Q a (f a))
    (htail : ∀ x ∈ tail, Q.speaks x = false) :
    (∀ x ∈ (l.flatMap f ++ tail).takeWhile fun x => !Q.opens x, Q.speaks x = false) ↔
      ∀ a ∈ l.takeWhile fun a => !R.opens a, R.speaks a = false := by
  induction l with
  | nil =>
    refine ⟨fun _ => by simp, fun _ x hx => htail x ?_⟩
    exact (List.takeWhile_subset _) hx
  | cons a l ih =>
    obtain ⟨ha, hl⟩ := List.forall_mem_cons.1 h
    rw [List.flatMap_cons, List.append_assoc]
    cases hopens : R.opens a with
    | true => simp [ha.takeWhile_eq_nil hopens, hopens]
    | false =>
      have hquiet : ∀ x ∈ f a, (!Q.opens x) = true := fun x hx => by simp [ha.not_opens hopens x hx]
      rw [List.takeWhile_append_of_pos hquiet, List.takeWhile_cons_of_pos (by simp [hopens]),
        List.forall_mem_append, List.forall_mem_cons, ih hl, ← ha.speaks]
      simp

theorem closes_last_iff (tail : List β) (h : ∀ a ∈ l, Block R Q a (f a))
    (htail : ∀ x ∈ tail, Q.utters x = false) :
    ((l.flatMap f ++ tail).Pairwise fun x y => Q.closes x = true → Q.utters y = false) ↔
      l.Pairwise fun a b => R.closes a = true → R.utters b = false := by
  have hquiet : tail.Pairwise fun x y => Q.closes x = true → Q.utters y = false :=
    List.Pairwise.imp_of_mem (fun _ hy _ _ => htail _ hy)
      (List.pairwise_of_forall fun _ _ => trivial)
  induction l with
  | nil => simpa using hquiet
  | cons a l ih =>
    obtain ⟨ha, hl⟩ := List.forall_mem_cons.1 h
    have hrest := ih hl
    rw [List.flatMap_cons, List.append_assoc, List.pairwise_append, List.pairwise_cons]
    have hafter : (∀ x ∈ f a, ∀ y ∈ l.flatMap f ++ tail, Q.closes x = true → Q.utters y = false) ↔
        ∀ b ∈ l, R.closes a = true → R.utters b = false := by
      constructor
      · intro hall b hb hclose
        obtain ⟨x, hx, hxc⟩ := (Block.exists_mem_iff ha.closes).2 hclose
        rw [← (hl b hb).utters, List.any_eq_false]
        intro y hy
        have := hall x hx y (List.mem_append_left _ (List.mem_flatMap.2 ⟨b, hb, hy⟩)) hxc
        simp [this]
      · intro hall x hx y hy hclose
        have hca := (Block.exists_mem_iff ha.closes).1 ⟨x, hx, hclose⟩
        rcases List.mem_append.1 hy with hy | hy
        · obtain ⟨b, hb, hyb⟩ := List.mem_flatMap.1 hy
          have hub := hall b hb hca
          rw [← (hl b hb).utters, List.any_eq_false] at hub
          simpa using hub y hyb
        · exact htail y hy
    constructor
    · exact fun hp => ⟨hafter.1 hp.2.2, hrest.1 hp.2.1⟩
    · exact fun hp => ⟨ha.last, hrest.2 hp.2, hafter.2 hp.1⟩

/-- **Blocks with an answer to the end.**  When the stream answers its end with one closing letter
exactly if it was opened and not closed, it lives once iff the letters are orderly. -/
theorem once_flatMap_append_iff {tail : List β} (h : ∀ a ∈ l, Block R Q a (f a))
    (hquiet : ∀ x ∈ tail, Q.opens x = false ∧ Q.speaks x = false ∧ Q.utters x = false)
    (hclose : (∃ a ∈ l, R.opens a = true) → tail.countP Q.closes = 1 - l.countP R.closes) :
    Q.Once (l.flatMap f ++ tail) ↔ R.Orderly l := by
  have hcount : (l.flatMap f ++ tail).countP Q.opens = l.countP R.opens := by
    have htail : tail.countP Q.opens = 0 :=
      List.countP_eq_zero.2 fun x hx => by simp [(hquiet x hx).1]
    rw [List.countP_append, countP_flatMap_eq fun a ha => (h a ha).opens, htail, Nat.add_zero]
  have hopened : (∃ x ∈ l.flatMap f ++ tail, Q.opens x = true) ↔ ∃ a ∈ l, R.opens a = true := by
    rw [← List.countP_pos_iff, hcount, List.countP_pos_iff]
  have hcloses : (l.flatMap f ++ tail).countP Q.closes =
      l.countP R.closes + tail.countP Q.closes := by
    rw [List.countP_append, countP_flatMap_eq fun a ha => (h a ha).closes]
  have hfirst := opens_first_iff tail h fun x hx => (hquiet x hx).2.1
  have hlast := closes_last_iff tail h fun x hx => (hquiet x hx).2.2
  constructor
  · intro ho
    refine ⟨hcount ▸ ho.opens_once, hfirst.1 ho.opens_first, fun hex => ?_, fun hex => ?_⟩
    · have := ho.closes_once (hopened.2 hex)
      omega
    · exact hlast.1 (ho.closes_last (hopened.2 hex))
  · intro ho
    refine ⟨⟨hcount ▸ ho.opens_once, hfirst.2 ho.opens_first, fun hex => ?_, fun hex => ?_⟩,
      fun hex => ?_⟩
    · have := ho.closes_once (hopened.1 hex)
      have := hclose (hopened.1 hex)
      omega
    · exact hlast.2 (ho.closes_last (hopened.1 hex))
    · have := hclose (hopened.1 hex)
      rw [← List.countP_pos_iff]
      omega

/-- **Blocks alone.** -/
theorem once_flatMap_iff (h : ∀ a ∈ l, Block R Q a (f a)) : Q.Once (l.flatMap f) ↔ R.Once l := by
  have hcount := countP_flatMap_eq fun a ha => (h a ha).opens
  have hcloses := countP_flatMap_eq fun a ha => (h a ha).closes
  have hopened : (∃ x ∈ l.flatMap f, Q.opens x = true) ↔ ∃ a ∈ l, R.opens a = true := by
    rw [← List.countP_pos_iff, hcount, List.countP_pos_iff]
  have hclosed : (∃ x ∈ l.flatMap f, Q.closes x = true) ↔ ∃ a ∈ l, R.closes a = true := by
    rw [← List.countP_pos_iff, hcloses, List.countP_pos_iff]
  have hfirst := opens_first_iff [] h (by simp)
  have hlast := closes_last_iff [] h (by simp)
  rw [List.append_nil] at hfirst hlast
  constructor
  · intro ho
    exact ⟨⟨hcount ▸ ho.opens_once, hfirst.1 ho.opens_first,
      fun hex => hcloses ▸ ho.closes_once (hopened.2 hex),
      fun hex => hlast.1 (ho.closes_last (hopened.2 hex))⟩,
      fun hex => hclosed.1 (ho.closes (hopened.2 hex))⟩
  · intro ho
    exact ⟨⟨hcount ▸ ho.opens_once, hfirst.2 ho.opens_first,
      fun hex => hcloses ▸ ho.closes_once (hopened.1 hex),
      fun hex => hlast.2 (ho.closes_last (hopened.1 hex))⟩,
      fun hex => hclosed.2 (ho.closes (hopened.1 hex))⟩

end Blocks

end Roles

/-! ### Machines, block by block -/

/-- Each letter beside the letters before it. -/
def timeline {ι : Type*} (before : List ι) : List ι → List (List ι × ι)
  | [] => []
  | i :: inputs => (before, i) :: timeline (before ++ [i]) inputs

theorem map_snd_timeline {ι : Type*} (before inputs : List ι) :
    (timeline before inputs).map Prod.snd = inputs := by
  induction inputs generalizing before with
  | nil => rfl
  | cons i inputs ih => rw [timeline, List.map_cons, ih]

theorem fst_ne_nil_of_mem_timeline {ι : Type*} {before inputs : List ι} (h : before ≠ [])
    {p : List ι × ι} (hp : p ∈ timeline before inputs) : p.1 ≠ [] := by
  induction inputs generalizing before with
  | nil => simp [timeline] at hp
  | cons i inputs ih =>
    rw [timeline, List.mem_cons] at hp
    rcases hp with rfl | hp
    · exact h
    · exact ih (by simp) hp

theorem Roles.orderly_timeline_iff {ι : Type*} {R : Roles (List ι × ι)}
    (hopens : ∀ p, R.opens p = p.1.isEmpty) (inputs : List ι) :
    R.Orderly (timeline [] inputs) ↔
      (timeline [] inputs).countP R.closes ≤ 1 ∧
        (timeline [] inputs).Pairwise fun p q => R.closes p = true → R.utters q = false := by
  cases inputs with
  | nil => exact ⟨fun _ => by simp [timeline], fun _ => by constructor <;> simp [timeline]⟩
  | cons i inputs =>
    have hopen : R.opens ([], i) = true := hopens _
    have hexists : ∃ p ∈ timeline [] (i :: inputs), R.opens p = true :=
      ⟨([], i), List.mem_cons_self, hopen⟩
    have hrest : (timeline [i] inputs).countP R.opens = 0 := by
      rw [List.countP_eq_zero]
      intro p hp
      have hne := fst_ne_nil_of_mem_timeline (List.cons_ne_nil i []) hp
      simpa [hopens] using hne
    constructor
    · exact fun h => ⟨h.closes_once hexists, h.closes_last hexists⟩
    · intro h
      refine ⟨?_, ?_, fun _ => h.1, fun _ => h.2⟩
      · rw [timeline, List.countP_cons, List.nil_append, hrest, hopen]
        simp
      · simp [timeline, hopen]

section Timeline

variable {σ ι ω : Type*} (step : σ → ι → σ × List ω)

/-- **The outputs of a run**, one block for each input. -/
theorem run_eq_flatMap_timeline (s : σ) (before inputs : List ι) :
    (Machine.run step (Machine.run step s before).1 inputs).2 =
      (timeline before inputs).flatMap fun p =>
        (step (Machine.run step s p.1).1 p.2).2 := by
  induction inputs generalizing before with
  | nil => rfl
  | cons i inputs ih =>
    have hnext : (Machine.run step s (before ++ [i])).1 =
        (step (Machine.run step s before).1 i).1 := by
      rw [Machine.run_append]
      rfl
    rw [timeline, List.flatMap_cons, ← ih, hnext, Machine.run]

variable {step}

/-- A flag that some inputs raise and none lowers. -/
theorem run_flag (p : σ → Bool) (q : ι → Bool) (h : ∀ s i, p (step s i).1 = (p s || q i)) (s : σ)
    (inputs : List ι) : p (Machine.run step s inputs).1 = (p s || inputs.any q) := by
  induction inputs generalizing s with
  | nil => simp [Machine.run]
  | cons i inputs ih => rw [Machine.run, ih, h, List.any_cons, Bool.or_assoc]

/-- A function that follows the recursion of a run and answers its end. -/
theorem run_append_finish {drain : σ → List ι → List ω} {finish : σ → List ω}
    (hnil : ∀ s, drain s [] = finish s)
    (hcons : ∀ s i inputs, drain s (i :: inputs) = (step s i).2 ++ drain (step s i).1 inputs)
    (s : σ) (inputs : List ι) :
    drain s inputs = (Machine.run step s inputs).2 ++ finish (Machine.run step s inputs).1 := by
  induction inputs generalizing s with
  | nil => rw [hnil, Machine.run, List.nil_append]
  | cons i inputs ih => rw [hcons, ih, Machine.run, List.append_assoc]

end Timeline

end Lib
