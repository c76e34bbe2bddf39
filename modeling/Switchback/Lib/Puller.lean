import Mathlib.Algebra.Order.Ring.Int
import Mathlib.Data.List.Flatten

/-!
# Decoders that are pulled

A decoder takes an outcome from the front of a buffer, or asks for more.  An outcome may be an
error; what an error leaves of the buffer may depend on what has arrived.
-/

namespace Lib

/-- A decoder.  Taking an outcome makes the buffer shorter, and bytes that arrive later do not
change the outcome, nor, unless it is an error, what it takes. -/
structure Puller (β ο : Type*) where
  pull : List β → Option (ο × List β)
  isErr : ο → Bool
  shrinks : ∀ {buf o rest}, pull buf = some (o, rest) → rest.length < buf.length
  stable : ∀ {buf o rest} (more), pull buf = some (o, rest) →
    ∃ rest', pull (buf ++ more) = some (o, rest') ∧ (isErr o = false → rest' = rest ++ more)

namespace Puller

variable {β ο : Type*} (d : Puller β ο)

theorem induct {P : List β → Prop} (hnone : ∀ buf, d.pull buf = none → P buf)
    (hsome : ∀ buf o rest, d.pull buf = some (o, rest) → P rest → P buf) (buf : List β) :
    P buf := by
  induction hn : buf.length using Nat.strongRecOn generalizing buf with
  | _ n ih =>
    cases hp : d.pull buf with
    | none => exact hnone buf hp
    | some p => exact hsome buf p.1 p.2 hp (ih _ (hn ▸ d.shrinks hp) p.2 rfl)

/-- At most so many outcomes. -/
def drainLoop : ℕ → List β → List ο × List β
  | 0, buf => ([], buf)
  | n + 1, buf =>
      match d.pull buf with
      | none => ([], buf)
      | some (o, rest) => (o :: (drainLoop n rest).1, (drainLoop n rest).2)

/-- The outcomes of a buffer, and what is left of it. -/
def drain (buf : List β) : List ο × List β := d.drainLoop buf.length buf

theorem drainLoop_of_le {n m : ℕ} {buf : List β} (hn : buf.length ≤ n) (hm : buf.length ≤ m) :
    d.drainLoop n buf = d.drainLoop m buf := by
  induction n generalizing m buf with
  | zero =>
    cases m with
    | zero => rfl
    | succ m =>
      have hpull : d.pull buf = none := by
        rw [Option.eq_none_iff_forall_ne_some]
        rintro ⟨o, rest⟩ hp
        have := d.shrinks hp
        omega
      rw [drainLoop, drainLoop, hpull]
  | succ n ih =>
    cases m with
    | zero =>
      have hpull : d.pull buf = none := by
        rw [Option.eq_none_iff_forall_ne_some]
        rintro ⟨o, rest⟩ hp
        have := d.shrinks hp
        omega
      rw [drainLoop, drainLoop, hpull]
    | succ m =>
      rw [drainLoop, drainLoop]
      cases hp : d.pull buf with
      | none => rfl
      | some p =>
        have := d.shrinks hp
        dsimp only
        rw [ih (m := m) (by omega) (by omega)]

theorem drain_of_none {buf : List β} (h : d.pull buf = none) : d.drain buf = ([], buf) := by
  unfold drain
  cases buf.length with
  | zero => rfl
  | succ n => rw [drainLoop, h]

theorem drain_of_some {buf rest : List β} {o : ο} (h : d.pull buf = some (o, rest)) :
    d.drain buf = (o :: (d.drain rest).1, (d.drain rest).2) := by
  have hlt := d.shrinks h
  unfold drain
  obtain ⟨n, hn⟩ : ∃ n, buf.length = n + 1 := ⟨buf.length - 1, by omega⟩
  rw [hn, drainLoop, h]
  dsimp only
  rw [d.drainLoop_of_le (n := n) (m := rest.length) (by omega) le_rfl]

theorem pull_drain (buf : List β) : d.pull (d.drain buf).2 = none := by
  induction buf using d.induct with
  | hnone buf hp => rwa [d.drain_of_none hp]
  | hsome buf o rest hp ih => rwa [d.drain_of_some hp]

/-- Append every chunk to the buffer and drain it. -/
def feed (buf : List β) : List (List β) → List ο × List β
  | [] => ([], buf)
  | chunk :: chunks =>
      let now := d.drain (buf ++ chunk)
      ((now.1 ++ (feed now.2 chunks).1), (feed now.2 chunks).2)

/-- The outcomes up to the first error, which is the last of them. -/
def upTo : List ο → List ο
  | [] => []
  | o :: l => if d.isErr o then [o] else o :: upTo l

/-- No outcome is an error. -/
def Good (outcomes : List ο) : Prop := ∀ o ∈ outcomes, d.isErr o = false

theorem upTo_append_of_good {l : List ο} (h : d.Good l) (m : List ο) :
    d.upTo (l ++ m) = l ++ d.upTo m := by
  induction l with
  | nil => rfl
  | cons o l ih =>
    obtain ⟨ho, hl⟩ := List.forall_mem_cons.1 h
    rw [List.cons_append, upTo, if_neg (by rw [ho]; exact Bool.false_ne_true), ih hl,
      List.cons_append]

theorem upTo_of_good {l : List ο} (h : d.Good l) : d.upTo l = l := by
  have := d.upTo_append_of_good h []
  rwa [List.append_nil, upTo, List.append_nil] at this

theorem good_of_upTo {l : List ο} (h : d.Good (d.upTo l)) : d.Good l := by
  induction l with
  | nil => exact h
  | cons o l ih =>
    rw [upTo] at h
    by_cases ho : d.isErr o = true
    · rw [if_pos ho] at h
      rw [h o List.mem_cons_self] at ho
      exact absurd ho Bool.false_ne_true
    · rw [if_neg ho] at h
      obtain ⟨ho, hl⟩ := List.forall_mem_cons.1 h
      exact List.forall_mem_cons.2 ⟨ho, ih hl⟩

theorem upTo_append_of_not_good {l : List ο} (h : ¬ d.Good l) (m : List ο) :
    d.upTo (l ++ m) = d.upTo l := by
  induction l with
  | nil => exact absurd (fun _ ho => by cases ho) h
  | cons o l ih =>
    rw [List.cons_append, upTo, upTo]
    by_cases ho : d.isErr o = true
    · rw [if_pos ho, if_pos ho]
    · have hl : ¬ d.Good l := fun hl =>
        h (List.forall_mem_cons.2 ⟨Bool.eq_false_iff.2 ho, hl⟩)
      rw [if_neg ho, if_neg ho, ih hl]

/-- **Draining may stop anywhere** before the first error. -/
theorem drain_append (x y : List β) :
    (d.Good (d.drain x).1 → d.drain (x ++ y) =
        ((d.drain x).1 ++ (d.drain ((d.drain x).2 ++ y)).1, (d.drain ((d.drain x).2 ++ y)).2)) ∧
      (¬ d.Good (d.drain x).1 → d.upTo (d.drain (x ++ y)).1 = d.upTo (d.drain x).1) := by
  induction x using d.induct with
  | hnone x hp =>
    rw [d.drain_of_none hp]
    exact ⟨fun _ => rfl, fun h => absurd (fun _ ho => by cases ho) h⟩
  | hsome x o rest hp ih =>
    obtain ⟨rest', hp', hrest⟩ := d.stable y hp
    rw [d.drain_of_some hp, d.drain_of_some hp']
    by_cases ho : d.isErr o = true
    · refine ⟨fun h => ?_, fun _ => ?_⟩
      · rw [h o List.mem_cons_self] at ho
        exact absurd ho Bool.false_ne_true
      · rw [upTo, if_pos ho, upTo, if_pos ho]
    · rw [Bool.not_eq_true] at ho
      obtain ⟨ihgood, ihbad⟩ := ih
      rw [hrest ho]
      refine ⟨fun h => ?_, fun h => ?_⟩
      · rw [ihgood (List.forall_mem_cons.1 h).2, List.cons_append]
      · have hbad : ¬ d.Good (d.drain rest).1 :=
          fun hg => h (List.forall_mem_cons.2 ⟨ho, hg⟩)
        have hne : ¬ d.isErr o = true := by rw [ho]; exact Bool.false_ne_true
        rw [upTo, if_neg hne, upTo, if_neg hne, ihbad hbad]

/-- **The outcomes up to the first error do not depend on the chunks.** -/
theorem feed_upTo {buf : List β} (h : d.pull buf = none) (chunks : List (List β)) :
    d.upTo (d.feed buf chunks).1 = d.upTo (d.drain (buf ++ chunks.flatten)).1 := by
  induction chunks generalizing buf with
  | nil => rw [List.flatten_nil, List.append_nil, d.drain_of_none h, feed]
  | cons chunk chunks ih =>
    obtain ⟨hgood, hbad⟩ := d.drain_append (buf ++ chunk) chunks.flatten
    rw [feed, List.flatten_cons, ← List.append_assoc]
    by_cases hg : d.Good (d.drain (buf ++ chunk)).1
    · rw [hgood hg, d.upTo_append_of_good hg, d.upTo_append_of_good hg, ih (d.pull_drain _)]
    · rw [hbad hg, d.upTo_append_of_not_good hg]

theorem feed_of_good {buf : List β} (h : d.pull buf = none) (chunks : List (List β))
    (hg : d.Good (d.drain (buf ++ chunks.flatten)).1) :
    d.feed buf chunks = d.drain (buf ++ chunks.flatten) := by
  induction chunks generalizing buf with
  | nil => rw [List.flatten_nil, List.append_nil, d.drain_of_none h, feed]
  | cons chunk chunks ih =>
    obtain ⟨hgood, hbad⟩ := d.drain_append (buf ++ chunk) chunks.flatten
    rw [List.flatten_cons, ← List.append_assoc] at hg ⊢
    by_cases hnow : d.Good (d.drain (buf ++ chunk)).1
    · rw [hgood hnow] at hg ⊢
      have hrest := ih (d.pull_drain _) fun o ho => hg o (List.mem_append_right _ ho)
      rw [feed, hrest]
    · have hsame := hbad hnow
      rw [d.upTo_of_good hg] at hsame
      exact absurd (d.good_of_upTo (hsame ▸ hg)) hnow

/-- The outcomes of a buffer that is put together of pieces which are one outcome each. -/
theorem drain_flatMap {α : Type*} {encode : α → List β} {outcome : α → ο} {l : List α}
    (hpull : ∀ a ∈ l, ∀ rest, d.pull (encode a ++ rest) = some (outcome a, rest))
    (hnil : d.pull [] = none) : d.drain (l.flatMap encode) = (l.map outcome, []) := by
  induction l with
  | nil => exact d.drain_of_none hnil
  | cons a l ih =>
    obtain ⟨ha, hl⟩ := List.forall_mem_cons.1 hpull
    rw [List.flatMap_cons, d.drain_of_some (ha _), ih hl, List.map_cons]

end Puller

end Lib
