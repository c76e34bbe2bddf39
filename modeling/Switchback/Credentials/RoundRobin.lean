import Switchback.Credentials.Resolver
import Switchback.Lib.Rotation

/-!
# Sticky round robin

A provider's accounts take turns, `sticky` picks at a time, and accounts that are not available are
skipped.
-/

namespace Switchback

open Lib Rotation

namespace RrState

/-- Move on to the next account once the current one was picked `sticky` times. -/
def advance (st : RrState) (sticky : ℕ) : RrState :=
  if st.count ≥ max sticky 1 then { cursor := (st.cursor + 1) % 2 ^ 64, count := 0 } else st

/-- One pick. -/
def pick (st : RrState) (n : ℕ) (available : List ℕ) (sticky : ℕ) : ℕ × RrState :=
  let st := st.advance sticky
  let start := st.cursor % n
  match firstFrom n start fun i => i ∈ available with
  | some off =>
      let idx := (start + off) % n
      let count := if off ≠ 0 then 0 else st.count
      (idx, { cursor := idx, count := count + 1 })
  | none => (available.headD 0, st)

/-- The picks from a list of sets of available accounts, and what is left of the cursor. -/
def run (n sticky : ℕ) (st : RrState) : List (List ℕ) → List ℕ × RrState
  | [] => ([], st)
  | available :: rest =>
      let (i, next) := st.pick n available sticky
      let (picks, last) := run n sticky next rest
      (i :: picks, last)

end RrState

namespace CredentialResolver

theorem pickRoundRobin_eq (r : CredentialResolver) (providerId : String) (n : ℕ)
    (available : List ℕ) (sticky : ℕ) :
    r.pickRoundRobin providerId n available sticky =
      let (i, st) := ((r.rr.get providerId).getD {}).pick n available sticky
      (i, { r with rr := r.rr.insert providerId st }) := by
  unfold pickRoundRobin RrState.pick RrState.advance firstFrom
  dsimp only
  generalize List.find? _ _ = found
  cases found <;> rfl

/-- Picks of several providers in turn, each with its accounts and its stickiness. -/
def runPicks (n sticky : String → ℕ) (r : CredentialResolver) :
    List (String × List ℕ) → List (String × ℕ)
  | [] => []
  | (providerId, available) :: rest =>
      let (i, next) := r.pickRoundRobin providerId (n providerId) available (sticky providerId)
      (providerId, i) :: runPicks n sticky next rest

end CredentialResolver

/-- What belongs to one provider. -/
def ofProvider {α : Type} (providerId : String) (l : List (String × α)) : List α :=
  (l.filter fun c => c.1 = providerId).map Prod.snd

/-- **The picks of a provider depend on its own cursor only.** -/
theorem runPicks_run (n sticky : String → ℕ) (r : CredentialResolver) (providerId : String)
    (calls : List (String × List ℕ)) :
    ofProvider providerId (r.runPicks n sticky calls) =
      (((r.rr.get providerId).getD {}).run (n providerId) (sticky providerId)
        (ofProvider providerId calls)).1 := by
  induction calls generalizing r with
  | nil => rfl
  | cons call calls ih =>
    obtain ⟨p, available⟩ := call
    rw [CredentialResolver.runPicks, CredentialResolver.pickRoundRobin_eq]
    dsimp only
    unfold ofProvider at ih ⊢
    by_cases hp : p = providerId
    · subst hp
      rw [List.filter_cons_of_pos (by simp), List.filter_cons_of_pos (by simp), List.map_cons,
        List.map_cons, ih, RrState.run]
      simp
    · rw [List.filter_cons_of_neg (by simpa using hp), List.filter_cons_of_neg (by simpa using hp),
        ih]
      have hother (st : RrState) : (r.rr.insert p st).get providerId = r.rr.get providerId := by
        rw [OrdMap.get_insert, if_neg (Ne.symm hp)]
      rw [hother]

/-! ### One pick -/

/-- What one pick among `available` does. -/
structure PickLaw (st : RrState) (n : ℕ) (available : List ℕ) (sticky : ℕ) (i : ℕ)
    (next : RrState) : Prop where
  mem : i ∈ available
  cursor : next.cursor = i
  /-- Nobody available is passed over, unless the run of the current account is unfinished. -/
  fair : ∀ a ∈ available, ahead n (st.cursor + 1) a < ahead n (st.cursor + 1) i →
    st.count < sticky ∧ i = st.cursor

section Pick

variable {st : RrState} {n sticky : ℕ} {available : List ℕ}

theorem advance_of_lt (hs : 1 ≤ sticky) (h : st.count < sticky) : st.advance sticky = st := by
  unfold RrState.advance
  rw [if_neg (by omega)]

theorem advance_of_le (hs : 1 ≤ sticky) (hn : n ≤ 2 ^ 64) (hc : st.cursor < n)
    (h : sticky ≤ st.count) :
    (st.advance sticky).cursor % n = (st.cursor + 1) % n ∧ (st.advance sticky).count = 0 := by
  unfold RrState.advance
  rw [if_pos (by omega)]
  refine ⟨?_, rfl⟩
  dsimp only
  rcases Nat.lt_or_ge (st.cursor + 1) (2 ^ 64) with hlt | hge
  · rw [Nat.mod_eq_of_lt hlt]
  · -- the cursor wraps where the places do
    obtain rfl : n = 2 ^ 64 := by omega
    have hsum : st.cursor + 1 = 2 ^ 64 := by omega
    rw [hsum, Nat.mod_self, Nat.zero_mod]

theorem pick_eq {off : ℕ}
    (h : firstFrom n ((st.advance sticky).cursor % n) (fun i => i ∈ available) = some off) :
    st.pick n available sticky =
      (((st.advance sticky).cursor % n + off) % n,
        { cursor := ((st.advance sticky).cursor % n + off) % n
          count := (if off ≠ 0 then 0 else (st.advance sticky).count) + 1 }) := by
  unfold RrState.pick
  dsimp only
  rw [h]

/-- **One pick.** -/
theorem pick_law (hs : 1 ≤ sticky) (hn : n ≤ 2 ^ 64) (hc : st.cursor < n) (hne : available ≠ [])
    (hlt : ∀ a ∈ available, a < n) :
    PickLaw st n available sticky (st.pick n available sticky).1
      (st.pick n available sticky).2 := by
  obtain ⟨a, ha⟩ := List.exists_mem_of_ne_nil _ hne
  obtain ⟨off, hoff⟩ := @exists_firstFrom _ ((st.advance sticky).cursor % n) _
    (fun i => i ∈ available) (hlt a ha) (by simpa using ha)
  obtain ⟨hoffn, hmem⟩ := firstFrom_spec hoff
  rw [decide_eq_true_eq] at hmem
  rw [pick_eq hoff]
  refine ⟨hmem, rfl, fun b hb hpassed => ?_⟩
  have hbest : off ≤ ahead n (st.advance sticky).cursor b :=
    firstFrom_le hoff (hlt b hb) (by simpa using hb)
  have hahead := ahead_add (c := (st.advance sticky).cursor) hoffn
  dsimp only at hpassed ⊢
  rcases Nat.lt_or_ge st.count sticky with hrun | hrun
  · -- the run is unfinished, so the search starts at the current account
    rw [advance_of_lt hs hrun] at hbest hahead hpassed ⊢
    refine ⟨hrun, ?_⟩
    by_contra hi
    have hin : (st.cursor % n + off) % n < n := Nat.mod_lt _ (by omega)
    have hstep := ahead_succ hc hin hi
    by_cases hbc : b = st.cursor
    · -- then the current account is available and picked
      subst hbc
      have hzero : ahead n st.cursor st.cursor = 0 := by
        unfold ahead
        rw [Nat.mod_eq_of_lt hc, Nat.add_sub_cancel_left, Nat.mod_self]
      have hoff0 : off = 0 := by omega
      rw [hoff0, Nat.add_zero, Nat.mod_mod, Nat.mod_eq_of_lt hc] at hi
      exact hi rfl
    · have hstepb := ahead_succ hc (hlt b hb) hbc
      omega
  · -- the run is finished, so the search starts at the next account
    exfalso
    obtain ⟨hcursor, -⟩ := advance_of_le hs hn hc hrun
    have hsame (i : ℕ) : ahead n (st.advance sticky).cursor i = ahead n (st.cursor + 1) i := by
      unfold ahead
      rw [hcursor]
    rw [hsame] at hbest hahead
    omega

/-- Where the cursor is before pick `k` while everyone is available. -/
def OnTurn (n sticky k : ℕ) (st : RrState) : Prop :=
  match k with
  | 0 => st = {}
  | k + 1 => st.cursor = turn n sticky k ∧ st.count = k % sticky + 1

/-- **While everyone is available, pick `k` is turn `k`.** -/
theorem OnTurn.pick {k : ℕ} (hs : 1 ≤ sticky) (hn0 : 0 < n) (hn : n ≤ 2 ^ 64)
    (hall : ∀ i < n, i ∈ available) (h : OnTurn n sticky k st) :
    (st.pick n available sticky).1 = turn n sticky k ∧
      OnTurn n sticky (k + 1) (st.pick n available sticky).2 := by
  have hstart : (st.advance sticky).cursor % n = turn n sticky k ∧
      (st.advance sticky).count = k % sticky := by
    cases k with
    | zero =>
      obtain rfl : st = {} := h
      rw [advance_of_lt hs (by exact hs)]
      refine ⟨?_, (Nat.zero_mod _).symm⟩
      unfold turn
      rw [Nat.zero_div]
    | succ k =>
      obtain ⟨hcursor, hcount⟩ := h
      have hlt := Nat.mod_lt k hs
      rw [turn_succ]
      by_cases hdvd : sticky ∣ k + 1
      · -- the run of the account ends here
        rw [if_pos hdvd]
        have hfull := (dvd_succ_iff hs k).1 hdvd
        obtain ⟨hmoved, hzero⟩ := advance_of_le hs hn (hcursor.trans_lt (turn_lt hn0 _ _))
          (hcount.trans hfull).ge
        exact ⟨by rw [hmoved, hcursor], by rw [hzero, Nat.mod_eq_zero_of_dvd hdvd]⟩
      · rw [if_neg hdvd]
        have hnot : k % sticky + 1 ≠ sticky := fun heq => hdvd ((dvd_succ_iff hs k).2 heq)
        rw [advance_of_lt hs (by omega), hcursor, hcount]
        refine ⟨Nat.mod_eq_of_lt (turn_lt hn0 _ _), ?_⟩
        have hsum : (k % sticky + 1) % sticky = (k + 1) % sticky := Nat.mod_add_mod _ _ _
        exact (Nat.mod_eq_of_lt (by omega)).symm.trans hsum
  obtain ⟨hcursor, hcount⟩ := hstart
  have hturn := turn_lt hn0 sticky k
  have hfirst : firstFrom n ((st.advance sticky).cursor % n) (fun i => i ∈ available) = some 0 := by
    obtain ⟨off, hoff⟩ := @exists_firstFrom _ ((st.advance sticky).cursor % n) _
      (fun i => i ∈ available) hturn (by simpa using hall _ hturn)
    have hbest := firstFrom_le hoff hturn (by simpa using hall _ hturn)
    have hzero := ahead_add (c := (st.advance sticky).cursor) hn0
    rw [Nat.add_zero, Nat.mod_mod, hcursor] at hzero
    rw [hoff]
    congr 1
    omega
  rw [pick_eq hfirst, Nat.add_zero, Nat.mod_mod, hcursor, hcount]
  exact ⟨rfl, rfl, rfl⟩

end Pick

/-! ### All picks -/

section Run

variable {n sticky : ℕ} (st : RrState) (avails : List (List ℕ))

/-- The cursor before each pick. -/
def RrState.before (n sticky : ℕ) (st : RrState) (avails : List (List ℕ)) (k : ℕ) : RrState :=
  (st.run n sticky (avails.take k)).2

theorem run_succ (available : List ℕ) (k : ℕ) :
    st.before n sticky (available :: avails) (k + 1) =
      (st.pick n available sticky).2.before n sticky avails k := rfl

theorem before_succ {available : List ℕ} {k : ℕ} (h : avails[k]? = some available) :
    st.before n sticky avails (k + 1) =
      ((st.before n sticky avails k).pick n available sticky).2 := by
  induction avails generalizing st k with
  | nil => cases h
  | cons first avails ih =>
    cases k with
    | zero =>
      obtain rfl : first = available := Option.some.inj h
      rw [run_succ]
      rfl
    | succ k =>
      rw [run_succ, run_succ]
      exact ih _ h

theorem run_getElem (k : ℕ) :
    (st.run n sticky avails).1[k]? =
      avails[k]?.map fun available => ((st.before n sticky avails k).pick n available sticky).1 := by
  induction avails generalizing st k with
  | nil => rfl
  | cons available avails ih =>
    cases k with
    | zero => rfl
    | succ k =>
      rw [run_succ, List.getElem?_cons_succ, ← ih]
      rfl

theorem before_cursor_lt (hs : 1 ≤ sticky) (hn : n ≤ 2 ^ 64) (hc : st.cursor < n)
    (hav : ∀ available ∈ avails, available ≠ [] ∧ ∀ a ∈ available, a < n) (k : ℕ) :
    (st.before n sticky avails k).cursor < n := by
  induction avails generalizing st k with
  | nil =>
    unfold RrState.before
    rw [List.take_nil]
    exact hc
  | cons available avails ih =>
    obtain ⟨⟨hne, hlt⟩, hrest⟩ := List.forall_mem_cons.1 hav
    cases k with
    | zero => exact hc
    | succ k =>
      have hlaw := pick_law hs hn hc hne hlt
      exact ih _ (hlaw.cursor.trans_lt (hlt _ hlaw.mem)) hrest k

theorem before_onTurn (hs : 1 ≤ sticky) (hn0 : 0 < n) (hn : n ≤ 2 ^ 64) {j : ℕ}
    (hst : OnTurn n sticky j st) (hall : ∀ available ∈ avails, ∀ i < n, i ∈ available) {k : ℕ}
    (hk : k ≤ avails.length) : OnTurn n sticky (j + k) (st.before n sticky avails k) := by
  induction avails generalizing st j k with
  | nil =>
    obtain rfl : k = 0 := Nat.le_zero.1 hk
    exact hst
  | cons available avails ih =>
    obtain ⟨hfirst, hrest⟩ := List.forall_mem_cons.1 hall
    cases k with
    | zero => exact hst
    | succ k =>
      rw [run_succ, Nat.add_succ, ← Nat.succ_add]
      exact ih _ (hst.pick hs hn0 hn hfirst).2 hrest (Nat.le_of_succ_le_succ hk)

end Run

/-- **Sticky round robin is fair and safe.**  Of the picks for a provider with `n` accounts, from a
fresh cursor and among picks for other providers, each is one of its available accounts; while all
are available, pick `k` is `(k / sticky) % n`, and every window of `n * sticky` picks has each
account `sticky` times; and nobody available is passed over, in the order from the current account
on, unless the run of the current account is unfinished and it is picked again. -/
theorem sticky_round_robin (n sticky : String → ℕ) (r : CredentialResolver) (providerId : String)
    (calls : List (String × List ℕ)) (hfresh : r.rr.get providerId = none)
    (hs : 1 ≤ sticky providerId) (hn : n providerId ≤ 2 ^ 64)
    (hav : ∀ available ∈ ofProvider providerId calls,
      available ≠ [] ∧ ∀ a ∈ available, a < n providerId) :
    let avails := ofProvider providerId calls
    let picks := ofProvider providerId (r.runPicks n sticky calls)
    let before := RrState.before (n providerId) (sticky providerId) {} avails
    picks.length = avails.length ∧
      (∀ (k : ℕ) (available : List ℕ) (i : ℕ), avails[k]? = some available → picks[k]? = some i →
        i ∈ available ∧ (before (k + 1)).cursor = i ∧
          ∀ a ∈ available,
            ahead (n providerId) ((before k).cursor + 1) a <
                ahead (n providerId) ((before k).cursor + 1) i →
              (before k).count < sticky providerId ∧ i = (before k).cursor) ∧
      ((∀ available ∈ avails, ∀ i < n providerId, i ∈ available) →
        (∀ k < avails.length, picks[k]? = some (k / sticky providerId % n providerId)) ∧
          ∀ w, w + n providerId * sticky providerId ≤ avails.length → ∀ i < n providerId,
            ((Finset.Ico w (w + n providerId * sticky providerId)).filter fun k =>
              picks[k]? = some i).card = sticky providerId) := by
  intro avails picks before
  have hpicks (k : ℕ) : picks[k]? = avails[k]?.map fun available =>
      ((before k).pick (n providerId) available (sticky providerId)).1 := by
    have hrun : picks = _ := runPicks_run n sticky r providerId calls
    rw [hfresh, Option.getD_none] at hrun
    rw [hrun]
    exact run_getElem _ _ k
  refine ⟨?_, ?_, fun hall => ?_⟩
  · refine le_antisymm ?_ ?_
    · rw [← List.getElem?_eq_none_iff, hpicks, List.getElem?_eq_none le_rfl, Option.map_none]
    · have hnone := hpicks picks.length
      rw [List.getElem?_eq_none le_rfl, eq_comm, Option.map_eq_none_iff] at hnone
      exact List.getElem?_eq_none_iff.1 hnone
  · intro k available i havail hi
    obtain ⟨hne, hlt⟩ := hav available (List.mem_of_getElem? havail)
    obtain ⟨a, ha⟩ := List.exists_mem_of_ne_nil _ hne
    have hc := before_cursor_lt {} avails hs hn (Nat.zero_lt_of_lt (hlt a ha)) hav k
    have hlaw := pick_law hs hn hc hne hlt
    rw [hpicks, havail] at hi
    obtain rfl := Option.some.inj hi
    refine ⟨hlaw.mem, ?_, hlaw.fair⟩
    show (RrState.before _ _ {} avails (k + 1)).cursor = _
    rw [before_succ {} avails havail]
    exact hlaw.cursor
  · have hturn : ∀ k < avails.length,
        picks[k]? = some (turn (n providerId) (sticky providerId) k) := by
      intro k hk
      have havail : avails[k]? = some avails[k] := List.getElem?_eq_getElem hk
      obtain ⟨hne, hlt⟩ := hav _ (List.mem_of_getElem? havail)
      obtain ⟨a, ha⟩ := List.exists_mem_of_ne_nil _ hne
      have hn0 : 0 < n providerId := Nat.zero_lt_of_lt (hlt a ha)
      have hst := before_onTurn {} avails hs hn0 hn (j := 0) rfl hall hk.le
      rw [Nat.zero_add] at hst
      rw [hpicks, havail]
      exact congrArg some (hst.pick hs hn0 hn (hall _ (List.mem_of_getElem? havail))).1
    refine ⟨hturn, fun w hw i hi => ?_⟩
    have hsame : ((Finset.Ico w (w + n providerId * sticky providerId)).filter fun k =>
          picks[k]? = some i) =
        (Finset.Ico w (w + n providerId * sticky providerId)).filter fun k =>
          turn (n providerId) (sticky providerId) k = i := by
      refine Finset.filter_congr fun k hk => ?_
      rw [hturn k ((Finset.mem_Ico.1 hk).2.trans_le hw), Option.some.injEq]
    rw [hsame]
    exact card_turn hs w hi

/-- Two accounts, two picks each. -/
theorem sticky_round_robin_two :
    ofProvider "openai" (CredentialResolver.runPicks (fun _ => 2) (fun _ => 2)
        (.new OrdMap.empty {}) (List.replicate 8 ("openai", [0, 1]))) =
      [0, 0, 1, 1, 0, 0, 1, 1] ∧
    ∀ k < 8, (ofProvider "openai" (CredentialResolver.runPicks (fun _ => 2) (fun _ => 2)
        (.new OrdMap.empty {}) (List.replicate 8 ("openai", [0, 1]))))[k]? = some (k / 2 % 2) :=
  ⟨by decide, ((sticky_round_robin (fun _ => 2) (fun _ => 2) (.new OrdMap.empty {}) "openai"
    (List.replicate 8 ("openai", [0, 1])) rfl (by decide) (by decide) (by decide)).2.2
      (by decide)).1⟩

/-! ### Waiting -/

section Waiting

variable {st : RrState} {n sticky a : ℕ} {available : List ℕ}

/-- How many picks can pass before it is the turn of `a`. -/
def waiting (n sticky a : ℕ) (st : RrState) : ℕ :=
  ahead n (st.cursor + 1) a * sticky + (sticky - st.count)

theorem waiting_le (ha : a < n) (st : RrState) : waiting n sticky a st ≤ n * sticky := by
  have hlt := ahead_lt (Nat.zero_lt_of_lt ha) (st.cursor + 1) a
  have hmul := Nat.mul_le_mul_right sticky (Nat.succ_le_of_lt hlt)
  rw [Nat.succ_mul] at hmul
  unfold waiting
  omega

theorem count_pick (hc : st.cursor < n) (ha : a ∈ available) (hlt : a < n) :
    1 ≤ (st.pick n available sticky).2.count ∧
      (1 ≤ sticky → st.count < sticky → (st.pick n available sticky).1 = st.cursor →
        (st.pick n available sticky).2.count = st.count + 1) := by
  obtain ⟨off, hoff⟩ := @exists_firstFrom _ ((st.advance sticky).cursor % n) _
    (fun i => i ∈ available) hlt (by simpa using ha)
  rw [pick_eq hoff]
  refine ⟨Nat.le_add_left _ _, fun hs hrun hstay => ?_⟩
  have hahead := ahead_add (c := (st.advance sticky).cursor) (firstFrom_spec hoff).1
  dsimp only at hstay ⊢
  rw [advance_of_lt hs hrun] at hstay hahead ⊢
  rw [hstay, ahead_eq hc, Nat.mod_eq_of_lt hc, if_pos le_rfl, Nat.sub_self] at hahead
  rw [← hahead, if_neg (not_not.2 rfl)]

/-- **Each pick of another account is one less to wait for.** -/
theorem waiting_pick (hs : 1 ≤ sticky) (hn : n ≤ 2 ^ 64) (hc : st.cursor < n)
    (hlt : ∀ i ∈ available, i < n) (ha : a ∈ available)
    (hother : (st.pick n available sticky).1 ≠ a) :
    waiting n sticky a (st.pick n available sticky).2 < waiting n sticky a st := by
  have hlaw := pick_law hs hn hc (List.ne_nil_of_mem ha) hlt
  obtain ⟨hone, hmore⟩ := @count_pick st n sticky a available hc ha (hlt a ha)
  unfold waiting
  rw [hlaw.cursor]
  by_cases hstay : st.count < sticky ∧ (st.pick n available sticky).1 = st.cursor
  · rw [hmore hs hstay.1 hstay.2, hstay.2]
    omega
  · have hnear := not_lt.1 fun h => hstay (hlaw.fair a ha h)
    have hway := ahead_trans (hlt _ hlaw.mem) (hlt a ha) hother hnear
    have hless : ahead n ((st.pick n available sticky).1 + 1) a + 1 ≤
        ahead n (st.cursor + 1) a := by omega
    have hmul := Nat.mul_le_mul_right sticky hless
    rw [Nat.succ_mul] at hmul
    omega

end Waiting

/-- **Nobody starves.**  An account that stays available is picked within `n * sticky` further picks
for its provider, whatever else is available and whoever is picked for other providers. -/
theorem picked_within (n sticky : String → ℕ) (r : CredentialResolver) (providerId : String)
    (calls : List (String × List ℕ)) (hfresh : r.rr.get providerId = none)
    (hs : 1 ≤ sticky providerId) (hn : n providerId ≤ 2 ^ 64)
    (hav : ∀ available ∈ ofProvider providerId calls,
      available ≠ [] ∧ ∀ a ∈ available, a < n providerId) {a w : ℕ}
    (hstays : ∀ k ≤ n providerId * sticky providerId, ∀ available,
      (ofProvider providerId calls)[w + k]? = some available → a ∈ available)
    (hlen : w + n providerId * sticky providerId < (ofProvider providerId calls).length) :
    ∃ k ≤ n providerId * sticky providerId,
      (ofProvider providerId (r.runPicks n sticky calls))[w + k]? = some a := by
  rw [runPicks_run, hfresh, Option.getD_none]
  generalize hN : n providerId = N at *
  generalize hS : sticky providerId = S at *
  generalize ofProvider providerId calls = avails at *
  by_contra hnone
  push Not at hnone
  have hget (k : ℕ) (hk : k ≤ N * S) : ∃ available, avails[w + k]? = some available ∧
      a ∈ available ∧ ∀ i ∈ available, i < N := by
    have hsome := List.getElem?_eq_getElem (show w + k < avails.length by omega)
    exact ⟨_, hsome, hstays k hk _ hsome, (hav _ (List.getElem_mem _)).2⟩
  obtain ⟨first, -, hfirst, hlt⟩ := hget 0 (Nat.zero_le _)
  -- each pick that passes is one less to wait for
  have hwait : ∀ k ≤ N * S + 1, waiting N S a (RrState.before N S {} avails (w + k)) + k ≤
      waiting N S a (RrState.before N S {} avails w) := by
    intro k hk
    induction k with
    | zero => exact le_rfl
    | succ k ih =>
      obtain ⟨available, havail, ha, hbound⟩ := hget k (by omega)
      have hpick := hnone k (by omega)
      rw [run_getElem, havail, Option.map_some, Ne, Option.some.injEq] at hpick
      have hc := before_cursor_lt {} avails hs hn (Nat.zero_lt_of_lt (hlt a hfirst)) hav (w + k)
      have hless := waiting_pick hs hn hc hbound ha hpick
      rw [← before_succ {} avails havail] at hless
      have hrest := ih (by omega)
      rw [← Nat.add_assoc w k 1]
      omega
  have hall := hwait (N * S + 1) le_rfl
  have hbound := @waiting_le N S a (hlt a hfirst) (RrState.before N S {} avails w)
  omega

theorem picked_within_two :
    ∃ k ≤ 2 * 2, (ofProvider "openai" (CredentialResolver.runPicks (fun _ => 2) (fun _ => 2)
      (.new OrdMap.empty {}) (List.replicate 5 ("openai", [0, 1]))))[0 + k]? = some 1 :=
  picked_within (fun _ => 2) (fun _ => 2) (.new OrdMap.empty {}) "openai"
    (List.replicate 5 ("openai", [0, 1])) rfl (by decide) (by decide) (by decide)
    (fun k hk available h => by
      have hmem := List.mem_of_getElem? h
      rw [show ofProvider "openai" (List.replicate 5 ("openai", [0, 1])) =
        List.replicate 5 [0, 1] from rfl, List.mem_replicate] at hmem
      rw [hmem.2]
      decide) (by decide)

end Switchback
