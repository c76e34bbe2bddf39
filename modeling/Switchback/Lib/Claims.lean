import Mathlib.Algebra.Order.Ring.Int
import Mathlib.Data.List.Basic
import Mathlib.Data.List.Induction
import Mathlib.Logic.Function.Basic
import Mathlib.Tactic.Tauto

/-!
# Claims on exclusive keys

Owners file records; a record has a key, and of a strong key at most one owner should hold a granted
record.  Within a list of claims the first claimant of a key gets it.
-/

namespace Lib

namespace Claims

variable {ι ρ κ : Type*}

/-- What each owner has on file, and whether it is granted. -/
abbrev Book (ι ρ : Type*) := ι → List (ρ × Bool)

variable (key : ρ → κ) (strong : κ → Prop)

def Has (b : Book ι ρ) (i : ι) (r : ρ) : Prop := ∃ g, (r, g) ∈ b i

def Holds (b : Book ι ρ) (i : ι) (k : κ) : Prop := ∃ r, key r = k ∧ (r, true) ∈ b i

/-- No strong key is held by two owners. -/
def Exclusive (b : Book ι ρ) : Prop :=
  ∀ i j k, strong k → Holds key b i k → Holds key b j k → i = j

variable {key strong}

theorem Holds.mono {b b' : Book ι ρ} {i : ι} {k : κ} (h : Holds key b i k)
    (hsub : ∀ e ∈ b i, e ∈ b' i) : Holds key b' i k := by
  obtain ⟨r, hr, hmem⟩ := h
  exact ⟨r, hr, hsub _ hmem⟩

theorem exclusive_congr {b b' : Book ι ρ} (h : ∀ i e, e ∈ b i ↔ e ∈ b' i) :
    Exclusive key strong b ↔ Exclusive key strong b' := by
  have hholds (i : ι) (k : κ) : Holds key b i k ↔ Holds key b' i k := by
    unfold Holds
    simp only [h]
  unfold Exclusive
  simp only [hholds]

/-! ### Claims -/

section Claimants

variable [DecidableEq κ]
variable (key strong)

/-- The owner that claims a key first. -/
def firstClaimant (claims : List (ι × ρ)) (k : κ) : Option ι :=
  (claims.find? fun c => key c.2 = k).map Prod.fst

variable {key strong}

theorem firstClaimant_concat (claims : List (ι × ρ)) (c : ι × ρ) (k : κ) :
    firstClaimant key (claims ++ [c]) k =
      (firstClaimant key claims k).or (if key c.2 = k then some c.1 else none) := by
  unfold firstClaimant
  rw [List.find?_append]
  by_cases hc : key c.2 = k
  · cases claims.find? fun c => key c.2 = k <;> simp [hc]
  · cases claims.find? fun c => key c.2 = k <;> simp [hc]

theorem firstClaimant_isSome {claims : List (ι × ρ)} {c : ι × ρ} (h : c ∈ claims) :
    (firstClaimant key claims (key c.2)).isSome := by
  unfold firstClaimant
  rw [Option.isSome_map, List.find?_isSome]
  exact ⟨c, h, by simp⟩

/-- What a list of claims does to a book. -/
structure Filed (key : ρ → κ) (strong : κ → Prop) (b b' : Book ι ρ) (claims : List (ι × ρ)) :
    Prop where
  kept : ∀ i, ∀ e ∈ b i, e ∈ b' i
  filed : ∀ c ∈ claims, Has b' c.1 c.2
  new : ∀ i r g, (r, g) ∈ b' i → (r, g) ∈ b i ∨ ¬Has b i r ∧ (i, r) ∈ claims ∧
    (strong (key r) → (g = true ↔ firstClaimant key claims (key r) = some i))

/-- **The exact condition for claims.**  Claims keep a book exclusive exactly when nobody else holds
a key whose first claimant files something new under it. -/
theorem Filed.exclusive_iff {b b' : Book ι ρ} {claims : List (ι × ρ)}
    (h : Filed key strong b b' claims) (hb : Exclusive key strong b) :
    Exclusive key strong b' ↔ ∀ c ∈ claims, strong (key c.2) →
      firstClaimant key claims (key c.2) = some c.1 → ¬Has b c.1 c.2 →
        ∀ j, Holds key b j (key c.2) → j = c.1 := by
  constructor
  · intro hb' c hc hs hfirst hnew j hj
    obtain ⟨g, hg⟩ := h.filed c hc
    rcases h.new c.1 c.2 g hg with hin | ⟨-, -, hgrant⟩
    · exact absurd ⟨g, hin⟩ hnew
    · have hholds : Holds key b' c.1 (key c.2) := by
        obtain rfl := (hgrant hs).2 hfirst
        exact ⟨c.2, rfl, hg⟩
      exact hb' j c.1 _ hs (hj.mono (h.kept j)) hholds
  · rintro hok i j k hs ⟨r, rfl, hr⟩ ⟨r', hkey, hr'⟩
    rcases h.new i r true hr with hold | ⟨hnew, hmem, hgrant⟩ <;>
      rcases h.new j r' true hr' with hold' | ⟨hnew', hmem', hgrant'⟩
    · exact hb i j (key r) hs ⟨r, rfl, hold⟩ ⟨r', hkey, hold'⟩
    · rw [hkey] at hgrant'
      refine hok _ hmem' (hkey ▸ hs) (hkey ▸ (hgrant' hs).1 rfl) hnew' i ?_
      exact ⟨r, hkey.symm, hold⟩
    · refine (hok _ hmem hs ((hgrant hs).1 rfl) hnew j ?_).symm
      exact ⟨r', hkey, hold'⟩
    · rw [hkey] at hgrant'
      have hsome := ((hgrant hs).1 rfl).symm.trans ((hgrant' hs).1 rfl)
      exact Option.some.inj hsome

end Claimants

section File

variable [DecidableEq ι] [DecidableEq ρ] [DecidableEq κ] [DecidablePred strong]
variable (key strong)

/-- A strong key that another owner claimed before is not granted. -/
def granted (first : κ → Option ι) (i : ι) (r : ρ) : Bool :=
  !decide (strong (key r)) || (first (key r)).all fun j => j = i

/-- The first claim on a strong key counts. -/
def register (first : κ → Option ι) (i : ι) (r : ρ) : κ → Option ι :=
  if strong (key r) then Function.update first (key r) ((first (key r)).or (some i)) else first

/-- File a record for an owner, unless it is on file. -/
def file (s : Book ι ρ × (κ → Option ι)) (c : ι × ρ) : Book ι ρ × (κ → Option ι) :=
  (if c.2 ∈ (s.1 c.1).map Prod.fst then s.1
    else Function.update s.1 c.1 (s.1 c.1 ++ [(c.2, granted key strong s.2 c.1 c.2)]),
    register key strong s.2 c.1 c.2)

variable {key strong}

theorem file_update (b : Book ι ρ) (first : κ → Option ι) (i : ι) (l : List (ρ × Bool)) (r : ρ) :
    file key strong (Function.update b i l, first) (i, r) =
      (Function.update b i
          (if r ∈ l.map Prod.fst then l else l ++ [(r, granted key strong first i r)]),
        register key strong first i r) := by
  unfold file
  simp only [Function.update_self, Function.update_idem]
  split_ifs <;> rfl

theorem foldl_file_snd (b : Book ι ρ) (claims : List (ι × ρ)) {k : κ} (hk : strong k) :
    (claims.foldl (file key strong) (b, fun _ => none)).2 k = firstClaimant key claims k := by
  induction claims using List.reverseRecOn with
  | nil => rfl
  | append_singleton claims c ih =>
    rw [List.foldl_concat, firstClaimant_concat]
    show register key strong _ c.1 c.2 k = _
    unfold register
    by_cases hc : key c.2 = k
    · subst hc
      rw [if_pos hk, Function.update_self, ih, if_pos rfl]
    · rw [if_neg hc, Option.or_none, ← ih]
      split_ifs
      · rw [Function.update_of_ne (Ne.symm hc)]
      · rfl

theorem foldl_file (b : Book ι ρ) (claims : List (ι × ρ)) :
    Filed key strong b (claims.foldl (file key strong) (b, fun _ => none)).1 claims := by
  induction claims using List.reverseRecOn with
  | nil => exact ⟨fun i e he => he, fun c hc => (by cases hc), fun i r g hg => Or.inl hg⟩
  | append_singleton claims c ih =>
    have howner {k : κ} (hk : strong k) := @foldl_file_snd _ _ _ key strong _ _ _ _ b claims k hk
    rw [List.foldl_concat]
    revert ih howner
    generalize claims.foldl (file key strong) (b, fun _ => none) = s
    intro ih howner
    obtain ⟨i₀, r₀⟩ := c
    -- an entry that is not of this claim is judged as before
    have hold {i : ι} {r : ρ} {g : Bool} (hg : (r, g) ∈ s.1 i) : (r, g) ∈ b i ∨ ¬Has b i r ∧
        (i, r) ∈ claims ++ [(i₀, r₀)] ∧ (strong (key r) →
          (g = true ↔ firstClaimant key (claims ++ [(i₀, r₀)]) (key r) = some i)) := by
      rcases ih.new i r g hg with hin | ⟨hnew, hmem, hgrant⟩
      · exact Or.inl hin
      · refine Or.inr ⟨hnew, List.mem_append_left _ hmem, fun hs => ?_⟩
        rw [hgrant hs, firstClaimant_concat]
        obtain ⟨j, hj⟩ := Option.isSome_iff_exists.1 (@firstClaimant_isSome _ _ _ key _ _ _ hmem)
        rw [hj, Option.some_or]
    unfold file
    by_cases hin : r₀ ∈ (s.1 i₀).map Prod.fst
    · dsimp only
      rw [if_pos hin]
      refine ⟨ih.kept, fun c hc => ?_, fun i r g hg => hold hg⟩
      rcases List.mem_append.1 hc with hc | hc
      · exact ih.filed c hc
      · obtain rfl := List.mem_singleton.1 hc
        obtain ⟨⟨r, g⟩, hmem, rfl⟩ := List.mem_map.1 hin
        exact ⟨g, hmem⟩
    · dsimp only
      rw [if_neg hin]
      have hmono (i : ι) (e : ρ × Bool) (he : e ∈ s.1 i) :
          e ∈ Function.update s.1 i₀ (s.1 i₀ ++ [(r₀, granted key strong s.2 i₀ r₀)]) i := by
        by_cases hi : i = i₀
        · subst hi
          rw [Function.update_self]
          exact List.mem_append_left _ he
        · rwa [Function.update_of_ne hi]
      refine ⟨fun i e he => hmono i e (ih.kept i e he), fun c hc => ?_, fun i r g hg => ?_⟩
      · rcases List.mem_append.1 hc with hc | hc
        · obtain ⟨g, hg⟩ := ih.filed c hc
          exact ⟨g, hmono _ _ hg⟩
        · obtain rfl := List.mem_singleton.1 hc
          refine ⟨granted key strong s.2 i₀ r₀, ?_⟩
          rw [Function.update_self]
          exact List.mem_append_right _ (List.mem_singleton_self _)
      · by_cases hi : i = i₀
        · subst hi
          rw [Function.update_self] at hg
          rcases List.mem_append.1 hg with hg | hg
          · exact hold hg
          · obtain ⟨rfl, rfl⟩ := Prod.mk.inj (List.mem_singleton.1 hg)
            refine Or.inr ⟨?_, List.mem_append_right _ (List.mem_singleton_self _), fun hs => ?_⟩
            · rintro ⟨g, hg⟩
              exact hin (List.mem_map.2 ⟨_, ih.kept i _ hg, rfl⟩)
            · rw [firstClaimant_concat, ← howner hs, granted, if_pos rfl]
              cases hfirst : s.2 (key r) with
              | none => simp
              | some j => simp [hs]
        · rw [Function.update_of_ne hi] at hg
          exact hold hg

end File

/-! ### Taking over and splitting off -/

/-- `into` gets what `source` has on file, granted; `source` keeps it. -/
structure Absorbed (b b' : Book ι ρ) (source into : ι) : Prop where
  mem_into : ∀ e, e ∈ b' into ↔ e ∈ b into ∨ ∃ e' ∈ b source, e = (e'.1, true)
  mem_other : ∀ i, i ≠ into → ∀ e, e ∈ b' i ↔ e ∈ b i

/-- **The exact condition for taking over.** -/
theorem Absorbed.exclusive_iff {b b' : Book ι ρ} {source into : ι} (h : Absorbed b b' source into)
    (hb : Exclusive key strong b) :
    Exclusive key strong b' ↔ ∀ r, Has b source r → strong (key r) →
      ∀ j, Holds key b j (key r) → j = into := by
  have hkept (i : ι) (e : ρ × Bool) (he : e ∈ b i) : e ∈ b' i := by
    by_cases hi : i = into
    · subst hi
      exact (h.mem_into e).2 (Or.inl he)
    · exact (h.mem_other i hi e).2 he
  have hcases {i : ι} {k : κ} (hi : Holds key b' i k) :
      Holds key b i k ∨ i = into ∧ ∃ r, Has b source r ∧ key r = k := by
    obtain ⟨r, hr, hmem⟩ := hi
    by_cases hinto : i = into
    · subst hinto
      rcases (h.mem_into _).1 hmem with hmem | ⟨⟨r', g⟩, hmem, heq⟩
      · exact Or.inl ⟨r, hr, hmem⟩
      · obtain rfl : r = r' := congrArg Prod.fst heq
        exact Or.inr ⟨rfl, r, ⟨g, hmem⟩, hr⟩
    · exact Or.inl ⟨r, hr, (h.mem_other i hinto _).1 hmem⟩
  constructor
  · rintro hb' r ⟨g, hg⟩ hs j hj
    refine hb' j into _ hs (hj.mono (hkept j)) ⟨r, rfl, ?_⟩
    exact (h.mem_into _).2 (Or.inr ⟨(r, g), hg, rfl⟩)
  · intro hok i j k hs hi hj
    rcases hcases hi with hi | ⟨rfl, r, hr, hrk⟩ <;> rcases hcases hj with hj | ⟨rfl, r', hr', hrk'⟩
    · exact hb i j k hs hi hj
    · exact hok r' hr' (hrk' ▸ hs) i (hrk' ▸ hi)
    · exact (hok r hr (hrk ▸ hs) j (hrk ▸ hj)).symm
    · rfl

/-- A new owner gets a part of what another one has. -/
structure Detached (b b' : Book ι ρ) (p : ρ → Prop) (owner new : ι) : Prop where
  fresh : new ≠ owner ∧ b new = []
  mem_owner : ∀ e, e ∈ b' owner ↔ e ∈ b owner ∧ ¬p e.1
  mem_new : ∀ e, e ∈ b' new ↔ e ∈ b owner ∧ p e.1
  mem_other : ∀ i, i ≠ owner → i ≠ new → ∀ e, e ∈ b' i ↔ e ∈ b i

/-- **The exact condition for splitting off.** -/
theorem Detached.exclusive_iff {b b' : Book ι ρ} {p : ρ → Prop} {owner new : ι}
    (h : Detached b b' p owner new) (hb : Exclusive key strong b) :
    Exclusive key strong b' ↔ ∀ r r', strong (key r) → key r = key r' → (r, true) ∈ b owner →
      (r', true) ∈ b owner → p r → p r' := by
  have hcases {i : ι} {k : κ} (hi : Holds key b' i k) :
      (i = owner ∧ ∃ r, key r = k ∧ (r, true) ∈ b owner ∧ ¬p r) ∨
      (i = new ∧ ∃ r, key r = k ∧ (r, true) ∈ b owner ∧ p r) ∨
      (i ≠ owner ∧ i ≠ new ∧ Holds key b i k) := by
    obtain ⟨r, hr, hmem⟩ := hi
    by_cases howner : i = owner
    · subst howner
      have hr' := (h.mem_owner _).1 hmem
      exact Or.inl ⟨rfl, r, hr, hr'.1, hr'.2⟩
    · by_cases hnew : i = new
      · subst hnew
        have hr' := (h.mem_new _).1 hmem
        exact Or.inr (Or.inl ⟨rfl, r, hr, hr'.1, hr'.2⟩)
      · exact Or.inr (Or.inr ⟨howner, hnew, r, hr, (h.mem_other i howner hnew _).1 hmem⟩)
  constructor
  · intro hb' r r' hs hkey hr hr' hp
    by_contra hp'
    have howner : Holds key b' owner (key r) :=
      ⟨r', hkey.symm, (h.mem_owner _).2 ⟨hr', hp'⟩⟩
    have hnew : Holds key b' new (key r) := ⟨r, rfl, (h.mem_new _).2 ⟨hr, hp⟩⟩
    exact h.fresh.1 (hb' new owner _ hs hnew howner)
  · intro hok i j k hs hi hj
    rcases hcases hi with ⟨rfl, r, hr, hmem, hp⟩ | ⟨rfl, r, hr, hmem, hp⟩ | ⟨hio, hin, hi⟩ <;>
      rcases hcases hj with ⟨rfl, r', hr', hmem', hp'⟩ | ⟨rfl, r', hr', hmem', hp'⟩ |
        ⟨hjo, hjn, hj⟩
    · rfl
    · exact absurd (hok r' r (hr'.symm ▸ hs) (hr'.trans hr.symm) hmem' hmem hp') hp
    · exact hb _ _ k hs ⟨r, hr, hmem⟩ hj
    · exact absurd (hok r r' (hr.symm ▸ hs) (hr.trans hr'.symm) hmem hmem' hp) hp'
    · rfl
    · exact absurd (hb _ j k hs ⟨r, hr, hmem⟩ hj).symm hjo
    · exact hb i _ k hs hi ⟨r', hr', hmem'⟩
    · exact absurd (hb i _ k hs hi ⟨r', hr', hmem'⟩) hio
    · exact hb i j k hs hi hj

end Claims

end Lib
