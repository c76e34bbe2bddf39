import Switchback.Lib.Machine
import Switchback.Lib.Provenance

/-!
# OAuth tokens

The access token of an account is refreshed with a refresh token that the endpoint may replace at
each refresh.  Every snapshot has a coordinator of its own, built from the vault.
-/

namespace Switchback

namespace Refresh

open Lib

/-! ### One coordinator -/

/-- A token response, without what the coordinator does not read. -/
structure TokenResponse where
  accessToken : String
  expiresInSecs : Option ℕ
  refreshToken : Option String

/-- How a fetch of a token fails. -/
inductive TokenFetchError where
  | unauthorized
  | retryable (message : String)
  | fatal (message : String)

def TokenFetchError.isRetryable : TokenFetchError → Bool
  | .retryable _ => true
  | .unauthorized | .fatal _ => false

def TokenFetchError.text : TokenFetchError → String
  | .unauthorized => "oauth refresh unauthorized"
  | .retryable message | .fatal message => message

/-- Of where a rotated refresh token is written, only whether it is. -/
structure OauthRegistration where
  accessToken : Option String := none
  refreshToken : Option String := none
  refreshPersist : Bool := false
  tokenUrl : Option String := none
  clientId : Option String := none
  clientSecret : Option String := none

/-- The tokens that a coordinator keeps in memory. -/
structure OauthState where
  accessToken : Option String
  expiresAt : Option ℕ
  refreshToken : Option String
  refreshPersist : Bool
  tokenUrl : Option String
  clientId : Option String
  clientSecret : Option String
  deriving DecidableEq

/-- Times are in milliseconds. -/
def skew : ℕ := 60 * 1000

/-- The state at registration. -/
def register (reg : OauthRegistration) : OauthState where
  accessToken := reg.accessToken
  expiresAt := none
  refreshToken := reg.refreshToken
  refreshPersist := reg.refreshPersist
  tokenUrl := reg.tokenUrl
  clientId := reg.clientId
  clientSecret := reg.clientSecret

/-- What a refresh sends to the token endpoint. -/
structure RefreshRequest where
  tokenUrl : String
  clientId : Option String
  clientSecret : Option String
  refreshToken : String

/-- A token with this expiry has run out. -/
def RunOut (now : ℕ) (expiresAt : Option ℕ) : Prop :=
  ∃ expiry, expiresAt = some expiry ∧ expiry ≤ now + skew

/-- The access token that needs no refresh. -/
def OauthState.cached (now : ℕ) (s : OauthState) : Option String :=
  match s.accessToken, s.expiresAt with
  | some token, some expiry => if now + skew < expiry then some token else none
  | some token, none => some token
  | none, _ => none

/-- What a caller is told: a result, or a request to send. -/
inductive Lookup where
  | returned (result : Except String String)
  | refresh (request : RefreshRequest)

/-- `ensure_fresh` up to the refresh. -/
def ensureFresh (now : ℕ) (s : OauthState) : Lookup :=
  match s.cached now with
  | some token => .returned (.ok token)
  | none =>
    match s.refreshToken with
    | none => .returned (.error "no access token and no refresh token")
    | some refresh =>
      match s.tokenUrl with
      | none => .returned (.error "oauth refresh requires token_url")
      | some url => .refresh ⟨url, s.clientId, s.clientSecret, refresh⟩

/-- What a write to the vault comes to: one that fails after the file has been replaced has written
the token all the same. -/
inductive Stored where
  | ok
  | failed (error : String) (written : Bool)
  deriving DecidableEq

/-- Whether the vault has the new token. -/
def Stored.written : Stored → Bool
  | .ok => true
  | .failed _ written => written

/-- What storing a rotated token returns. -/
def persist : Stored → Except String Unit
  | .ok => .ok ()
  | .failed error _ => .error s!"persist rotated refresh token to vault: {error}"

/-- `ensure_fresh` from the answer on. -/
def receive (startedAt : ℕ) (resp : TokenResponse) (stored : Stored) (s : OauthState) :
    OauthState × Except String String :=
  let s := { s with
    accessToken := some resp.accessToken
    expiresAt := resp.expiresInSecs.map fun secs => startedAt + secs * 1000 }
  match resp.refreshToken with
  | none => (s, .ok resp.accessToken)
  | some rotated =>
    match if s.refreshPersist then persist stored else .ok () with
    | .error e => (s, .error e)
    | .ok () => ({ s with refreshToken := some rotated }, .ok resp.accessToken)

/-! ### The coordinators of an account -/

/-- A refresh that a call waits for with the account's lock. -/
structure InFlight where
  request : RefreshRequest
  startedAt : ℕ
  answer : Option TokenResponse := none

/-- One provider's refresher. -/
structure Coordinator where
  state : OauthState
  inFlight : Option InFlight := none

/-- The coordinators in the order of their snapshots, the vault's entry for the account, and how
many requests the endpoint may still serve that no call waits for. -/
structure World where
  now : ℕ
  vault : String
  coordinators : List Coordinator
  orphans : ℕ

/-- What can happen to a world. -/
inductive Action where
  | tick (ms : ℕ)
  /-- A snapshot is built from a config and the vault. -/
  | publish (token tokenUrl clientId clientSecret : Option String)
  /-- A call takes the lock of the account. -/
  | access (i : ℕ)
  /-- The endpoint serves the refresh of a coordinator. -/
  | answer (i : ℕ) (resp : TokenResponse)
  /-- The answer reaches the call. -/
  | receive (i : ℕ) (stored : Stored)
  /-- The refresh fails for the call, served or not. -/
  | fail (i : ℕ) (error : TokenFetchError)
  /-- The call is dropped while it waits. -/
  | drop (i : ℕ)
  /-- The endpoint serves a request that no call waits for. -/
  | orphan (rotated : Option String)

/-- What an observer of the network and of the callers sees. -/
inductive Event where
  | sent (i : ℕ) (request : RefreshRequest)
  | returned (i : ℕ) (result : Except String String)

/-- What `from_config` registers for an account whose refresh token is in the vault. -/
def registration (vault : String) (token tokenUrl clientId clientSecret : Option String) :
    OauthRegistration where
  accessToken := token
  refreshToken := some vault
  refreshPersist := true
  tokenUrl := tokenUrl
  clientId := clientId
  clientSecret := clientSecret

namespace World

def start (configured : String) : World := ⟨0, configured, [], 0⟩

def setCoordinator (w : World) (i : ℕ) (c : Coordinator) : World :=
  { w with coordinators := w.coordinators.set i c }

/-- The refresh that a coordinator waits for. -/
def inFlight (w : World) (i : ℕ) : Option InFlight := (w.coordinators[i]?).bind Coordinator.inFlight

/-- The call ends and its lock is free; the endpoint may still serve the request. -/
def abandon (w : World) (i : ℕ) (pending : Bool) : World :=
  match w.coordinators[i]? with
  | some ⟨state, some flight⟩ =>
    { w.setCoordinator i ⟨state, none⟩ with
      orphans := if flight.answer.isNone && pending then w.orphans + 1 else w.orphans }
  | _ => w

def step (w : World) : Action → World × List Event
  | .tick ms => ({ w with now := w.now + ms }, [])
  | .publish token tokenUrl clientId clientSecret =>
    let reg := registration w.vault token tokenUrl clientId clientSecret
    ({ w with coordinators := w.coordinators ++ [{ state := register reg }] }, [])
  | .access i =>
    match w.coordinators[i]? with
    | some ⟨state, none⟩ =>
      match ensureFresh w.now state with
      | .returned result => (w, [.returned i result])
      | .refresh request =>
        (w.setCoordinator i ⟨state, some { request := request, startedAt := w.now }⟩,
          [.sent i request])
    | _ => (w, [])
  | .answer i resp =>
    match w.coordinators[i]? with
    | some ⟨state, some ⟨request, startedAt, none⟩⟩ =>
      (w.setCoordinator i ⟨state, some ⟨request, startedAt, some resp⟩⟩, [])
    | _ => (w, [])
  | .receive i stored =>
    match w.coordinators[i]? with
    | some ⟨state, some ⟨_, startedAt, some resp⟩⟩ =>
      let next := Refresh.receive startedAt resp stored state
      let vault := match resp.refreshToken with
        | some rotated =>
          if state.refreshPersist && stored.written then rotated else w.vault
        | none => w.vault
      ({ w.setCoordinator i ⟨next.1, none⟩ with vault := vault }, [.returned i next.2])
    | _ => (w, [])
  | .fail i error =>
    match w.inFlight i with
    | some _ => (w.abandon i error.isRetryable, [.returned i (.error error.text)])
    | none => (w, [])
  | .drop i => (w.abandon i true, [])
  | .orphan _ => ({ w with orphans := w.orphans - 1 }, [])

end World

/-! ### What is known of the account -/

/-- Where a refresh token may be. -/
inductive Place where
  | vault
  | coordinator (i : ℕ)
  | answer (i : ℕ)
  deriving DecidableEq

/-- The refresh token that lies at a place. -/
def World.tokenAt (w : World) : Place → Option String
  | .vault => some w.vault
  | .coordinator i => (w.coordinators[i]?).bind fun c => c.state.refreshToken
  | .answer i => (w.inFlight i).bind fun f => f.answer.bind TokenResponse.refreshToken

open Provenance (Move)

/-- How a received token spreads. -/
def received (i : ℕ) (stored : Stored) : Place → Option Place
  | .vault => if stored.written then some (.answer i) else some .vault
  | .coordinator j => if j = i ∧ stored = .ok then some (.answer i) else some (.coordinator j)
  | .answer j => if j = i then none else some (.answer j)

/-- How a step moves refresh tokens. -/
def move (w : World) : Action → Move Place String
  | .publish .. =>
    .copy fun p => some (if p = .coordinator w.coordinators.length then .vault else p)
  | .answer i resp =>
    match w.inFlight i, resp.refreshToken with
    | some ⟨_, _, none⟩, some rotated => .issue rotated (some (.answer i))
    | _, _ => .copy some
  | .receive i stored =>
    match w.inFlight i with
    | some ⟨_, _, some ⟨_, _, some _⟩⟩ => .copy (received i stored)
    | _ => .copy some
  | .fail i _ | .drop i => .copy fun p => if p = .answer i then none else some p
  | .orphan (some rotated) => if w.orphans = 0 then .copy some else .issue rotated none
  | .tick _ | .access _ | .orphan none => .copy some

/-- The refresh tokens that the endpoint has issued, last first; the places that hold the last of
them; the expiries of the access tokens obtained, with their coordinators; how many refreshes have
been sent; and how many of them have ended without a token. -/
structure History where
  issued : List String
  holds : Place → Bool
  obtained : List (ℕ × Option ℕ)
  sent : ℕ
  ended : ℕ

def Event.isSent : Event → Bool
  | .sent .. => true
  | .returned .. => false

namespace History

def start (configured : String) : History := ⟨[configured], fun p => p = .vault, [], 0, 0⟩

/-- Tokens that come in with an action. -/
def gained (w : World) : Action → List (ℕ × Option ℕ)
  | .receive i _ =>
    match w.inFlight i with
    | some ⟨_, startedAt, some resp⟩ =>
      [(i, resp.expiresInSecs.map fun secs => startedAt + secs * 1000)]
    | _ => []
  | _ => []

/-- Answers that an action loses. -/
def lost (w : World) : Action → ℕ
  | .fail i _ | .drop i => if (w.inFlight i).isSome then 1 else 0
  | _ => 0

def step (w : World) (h : History) (a : Action) : History where
  issued := (move w a).issued h.issued
  holds := (move w a).holds h.holds
  obtained := gained w a ++ h.obtained
  sent := h.sent + (w.step a).2.countP Event.isSent
  ended := h.ended + lost w a

end History

/-- A run with its history. -/
structure Traced where
  world : World
  history : History

def Traced.start (configured : String) : Traced := ⟨.start configured, .start configured⟩

def Traced.step (t : Traced) (a : Action) : Traced :=
  ⟨(t.world.step a).1, t.history.step t.world a⟩

/-- What a refresh sends is the token issued last, and every refresh sent before it has obtained an
access token that has run out. -/
def Single (t : Traced) (a : Action) : Prop :=
  ∀ i request, .sent i request ∈ (t.world.step a).2 →
    t.history.issued.head? = some request.refreshToken ∧
      t.history.sent = t.history.obtained.length ∧
      ∀ j expiresAt, (j, expiresAt) ∈ t.history.obtained → RunOut t.world.now expiresAt

/-- The call that sends a refresh is made on a coordinator that the token issued last has reached,
while no other coordinator waits for a refresh or has obtained a token that has not run out, and
after no refresh that failed or was dropped. -/
def Orderly (t : Traced) (a : Action) : Prop :=
  ∀ i request, .sent i request ∈ (t.world.step a).2 →
    t.history.holds (.coordinator i) = true ∧
      (∀ j, j ≠ i → t.world.inFlight j = none) ∧
      (∀ j expiresAt, j ≠ i → (j, expiresAt) ∈ t.history.obtained →
        RunOut t.world.now expiresAt) ∧
      t.history.ended = 0

/-- The endpoint issues no token twice. -/
def OneTime (t : Traced) (a : Action) : Prop :=
  ∀ token place, move t.world a = .issue token place → token ∉ t.history.issued

/-! ### One step -/

namespace World

variable {w : World}

theorem coordinators_setCoordinator (i : ℕ) (c : Coordinator) :
    (w.setCoordinator i c).coordinators = w.coordinators.set i c := rfl

theorem getElem?_setCoordinator {i : ℕ} {c : Coordinator} (hc : w.coordinators[i]? = some c)
    (c' : Coordinator) (j : ℕ) :
    (w.setCoordinator i c').coordinators[j]? = if j = i then some c' else w.coordinators[j]? := by
  obtain ⟨hi, -⟩ := List.getElem?_eq_some_iff.1 hc
  rw [coordinators_setCoordinator, List.getElem?_set]
  by_cases hj : j = i
  · rw [if_pos hj.symm, if_pos hj, if_pos hi]
  · rw [if_neg (Ne.symm hj), if_neg hj]

theorem inFlight_of_getElem? {i : ℕ} {c : Coordinator} (hc : w.coordinators[i]? = some c) :
    w.inFlight i = c.inFlight := by
  unfold inFlight
  rw [hc]
  rfl

theorem sent_cases {a : Action} {i : ℕ} {request : RefreshRequest}
    (h : .sent i request ∈ (w.step a).2) :
    a = .access i ∧ ∃ state, w.coordinators[i]? = some ⟨state, none⟩ ∧
      ensureFresh w.now state = .refresh request := by
  have hreturned {j : ℕ} {result : Except String String}
      (hmem : Event.sent i request ∈ [Event.returned j result]) : False := by
    cases List.mem_singleton.1 hmem
  cases a with
  | access j =>
    unfold step at h
    dsimp only at h
    split at h
    · rename_i state hstate
      split at h
      · exact (hreturned h).elim
      · rename_i request' hrequest
        cases List.mem_singleton.1 h
        exact ⟨rfl, state, hstate, hrequest⟩
    · cases h
  | receive j stored =>
    unfold step at h
    dsimp only at h
    split at h
    · exact (hreturned h).elim
    · cases h
  | fail j error =>
    unfold step at h
    dsimp only at h
    split at h
    · exact (hreturned h).elim
    · cases h
  | answer j resp =>
    unfold step at h
    dsimp only at h
    split at h <;> cases h
  | _ => cases h

/-- What a step does to the coordinators: the world after it, the access tokens obtained, and how
many refreshes are sent, and end without a token. -/
inductive Happens (w : World) : World → List (ℕ × Option ℕ) → ℕ → ℕ → Prop
  | idle {now orphans : ℕ} (h : w.now ≤ now) :
      Happens w { w with now := now, orphans := orphans } [] 0 0
  | publish {state : OauthState} (h : state.refreshPersist = true) :
      Happens w { w with coordinators := w.coordinators ++ [⟨state, none⟩] } [] 0 0
  | sent {i : ℕ} {state : OauthState} {request : RefreshRequest}
      (hc : w.coordinators[i]? = some ⟨state, none⟩)
      (h : ensureFresh w.now state = .refresh request) :
      Happens w (w.setCoordinator i ⟨state, some { request := request, startedAt := w.now }⟩)
        [] 1 0
  | answered {i : ℕ} {state : OauthState} {request : RefreshRequest} {startedAt : ℕ}
      (hc : w.coordinators[i]? = some ⟨state, some ⟨request, startedAt, none⟩⟩)
      (resp : TokenResponse) :
      Happens w (w.setCoordinator i ⟨state, some ⟨request, startedAt, some resp⟩⟩) [] 0 0
  | received {i : ℕ} {state : OauthState} {request : RefreshRequest} {startedAt : ℕ}
      {resp : TokenResponse}
      (hc : w.coordinators[i]? = some ⟨state, some ⟨request, startedAt, some resp⟩⟩)
      (stored : Stored) (vault : String) :
      Happens w
        { w.setCoordinator i ⟨(Refresh.receive startedAt resp stored state).1, none⟩ with
          vault := vault }
        [(i, resp.expiresInSecs.map fun secs => startedAt + secs * 1000)] 0 0
  | ended {i : ℕ} {state : OauthState} {flight : InFlight}
      (hc : w.coordinators[i]? = some ⟨state, some flight⟩) (orphans : ℕ) :
      Happens w { w.setCoordinator i ⟨state, none⟩ with orphans := orphans } [] 0 1

theorem happens_abandon (i : ℕ) (pending : Bool) :
    Happens w (w.abandon i pending) [] 0 (if (w.inFlight i).isSome then 1 else 0) := by
  unfold abandon
  cases hc : w.coordinators[i]? with
  | none =>
    unfold inFlight
    rw [hc]
    exact .idle le_rfl
  | some c =>
    obtain ⟨state, flight⟩ := c
    rw [inFlight_of_getElem? hc]
    cases flight with
    | none => exact .idle le_rfl
    | some flight => exact .ended hc _

theorem happens (w : World) (a : Action) :
    Happens w (w.step a).1 (History.gained w a) ((w.step a).2.countP Event.isSent)
      (History.lost w a) := by
  cases a with
  | tick ms => exact .idle (Nat.le_add_right _ _)
  | publish token tokenUrl clientId clientSecret => exact .publish rfl
  | access i =>
    unfold step
    dsimp only
    cases hc : w.coordinators[i]? with
    | none => exact .idle le_rfl
    | some c =>
      obtain ⟨state, flight⟩ := c
      cases flight with
      | some flight => exact .idle le_rfl
      | none =>
        dsimp only
        cases hf : ensureFresh w.now state with
        | returned result => exact .idle le_rfl
        | refresh request => exact .sent hc hf
  | answer i resp =>
    unfold step
    dsimp only
    cases hc : w.coordinators[i]? with
    | none => exact .idle le_rfl
    | some c =>
      obtain ⟨state, flight⟩ := c
      cases flight with
      | none => exact .idle le_rfl
      | some flight =>
        obtain ⟨request, startedAt, answer⟩ := flight
        cases answer with
        | none => exact .answered hc resp
        | some resp => exact .idle le_rfl
  | receive i stored =>
    unfold step History.gained
    dsimp only
    cases hc : w.coordinators[i]? with
    | none =>
      unfold inFlight
      rw [hc]
      exact .idle le_rfl
    | some c =>
      obtain ⟨state, flight⟩ := c
      rw [inFlight_of_getElem? hc]
      cases flight with
      | none => exact .idle le_rfl
      | some flight =>
        obtain ⟨request, startedAt, answer⟩ := flight
        cases answer with
        | none => exact .idle le_rfl
        | some resp => exact .received hc stored _
  | fail i error =>
    unfold step History.lost
    dsimp only
    cases hf : w.inFlight i with
    | none => exact .idle le_rfl
    | some flight =>
      have h := happens_abandon (w := w) i error.isRetryable
      rw [hf] at h
      exact h
  | drop i => exact happens_abandon i true
  | orphan rotated => exact .idle le_rfl

/-! ### Where the tokens go -/

theorem tokenAt_coordinator {i : ℕ} {c : Coordinator} (hc : w.coordinators[i]? = some c)
    (c' : Coordinator) (j : ℕ) :
    (w.setCoordinator i c').tokenAt (.coordinator j) =
      if j = i then c'.state.refreshToken else w.tokenAt (.coordinator j) := by
  unfold tokenAt
  dsimp only
  rw [getElem?_setCoordinator hc]
  split_ifs <;> rfl

theorem tokenAt_answer {i : ℕ} {c : Coordinator} (hc : w.coordinators[i]? = some c)
    (c' : Coordinator) (j : ℕ) :
    (w.setCoordinator i c').tokenAt (.answer j) =
      if j = i then c'.inFlight.bind fun f => f.answer.bind TokenResponse.refreshToken
      else w.tokenAt (.answer j) := by
  unfold tokenAt inFlight
  dsimp only
  rw [getElem?_setCoordinator hc]
  split_ifs <;> rfl

theorem tokenAt_self {i : ℕ} {c : Coordinator} (hc : w.coordinators[i]? = some c) :
    w.tokenAt (.coordinator i) = c.state.refreshToken ∧
      w.tokenAt (.answer i) =
        c.inFlight.bind fun f => f.answer.bind TokenResponse.refreshToken := by
  unfold tokenAt inFlight
  dsimp only
  rw [hc]
  exact ⟨rfl, rfl⟩

/-- A coordinator with the same token and the same answer changes nothing. -/
theorem tokenAt_setCoordinator_same {i : ℕ} {c c' : Coordinator}
    (hc : w.coordinators[i]? = some c) (htoken : c'.state.refreshToken = c.state.refreshToken)
    (hanswer : (c'.inFlight.bind fun f => f.answer.bind TokenResponse.refreshToken) =
      c.inFlight.bind fun f => f.answer.bind TokenResponse.refreshToken) :
    (w.setCoordinator i c').tokenAt = w.tokenAt := by
  funext p
  cases p with
  | vault => rfl
  | coordinator j =>
    rw [tokenAt_coordinator hc]
    by_cases hj : j = i
    · rw [if_pos hj, hj, (tokenAt_self hc).1, htoken]
    · rw [if_neg hj]
  | answer j =>
    rw [tokenAt_answer hc]
    by_cases hj : j = i
    · rw [if_pos hj, hj, (tokenAt_self hc).2, hanswer]
    · rw [if_neg hj]

theorem tokenAt_abandon (i : ℕ) (pending : Bool) :
    (w.abandon i pending).tokenAt =
      (Move.copy fun p => if p = .answer i then none else some p).values w.tokenAt := by
  funext p
  unfold abandon
  have hnone (hw : w.tokenAt (.answer i) = none) :
      w.tokenAt p = (if p = .answer i then none else some p).bind w.tokenAt := by
    by_cases hp : p = .answer i
    · rw [if_pos hp, hp, hw]
      rfl
    · rw [if_neg hp]
      rfl
  cases hc : w.coordinators[i]? with
  | none =>
    refine hnone ?_
    unfold tokenAt inFlight
    dsimp only
    rw [hc]
    rfl
  | some c =>
    obtain ⟨state, flight⟩ := c
    cases flight with
    | none => exact hnone (tokenAt_self hc).2
    | some flight =>
      change (w.setCoordinator i ⟨state, none⟩).tokenAt p = _
      cases p with
      | vault => rfl
      | coordinator j =>
        rw [tokenAt_coordinator hc]
        by_cases hj : j = i
        · rw [if_pos hj, hj]
          exact (tokenAt_self hc).1.symm
        · rw [if_neg hj]
          rfl
      | answer j =>
        rw [tokenAt_answer hc]
        by_cases hj : j = i
        · rw [if_pos hj, hj]
          simp [Move.values]
        · rw [if_neg hj]
          simp [Move.values, hj]

theorem receive_refreshToken {startedAt : ℕ} {resp : TokenResponse} {stored : Stored}
    {s : OauthState} (hp : s.refreshPersist = true) :
    (Refresh.receive startedAt resp stored s).1.refreshToken =
      if stored = .ok ∧ resp.refreshToken.isSome then resp.refreshToken else s.refreshToken := by
  unfold Refresh.receive
  cases resp.refreshToken with
  | none => exact (if_neg fun h => Bool.false_ne_true h.2).symm
  | some rotated =>
    dsimp only
    rw [if_pos hp]
    cases stored with
    | ok => rfl
    | failed error written => rfl

/-- A token that is received goes to the vault, if it is written, and to the coordinator. -/
theorem tokenAt_receive (hp : ∀ c ∈ w.coordinators, c.state.refreshPersist = true) (i : ℕ)
    (stored : Stored) :
    (w.step (.receive i stored)).1.tokenAt = (move w (.receive i stored)).values w.tokenAt := by
  unfold step move
  dsimp only
  cases hc : w.coordinators[i]? with
  | none =>
    unfold inFlight
    rw [hc]
    rfl
  | some c =>
    obtain ⟨state, flight⟩ := c
    rw [inFlight_of_getElem? hc]
    cases flight with
    | none => rfl
    | some flight =>
      obtain ⟨request, startedAt, answer⟩ := flight
      cases answer with
      | none => rfl
      | some resp =>
        obtain ⟨accessToken, expiresInSecs, refreshToken⟩ := resp
        have hpersist : state.refreshPersist = true := hp _ (List.mem_of_getElem? hc)
        have htoken := @receive_refreshToken startedAt ⟨accessToken, expiresInSecs, refreshToken⟩
          stored state hpersist
        dsimp only at htoken ⊢
        cases refreshToken with
        | none =>
          rw [if_neg fun h => Bool.false_ne_true h.2] at htoken
          exact tokenAt_setCoordinator_same hc htoken rfl
        | some rotated =>
          dsimp only
          have hanswer : w.tokenAt (.answer i) = some rotated := (tokenAt_self hc).2
          funext p
          cases p with
          | vault =>
            unfold tokenAt Move.values received
            dsimp only
            rw [hpersist, Bool.true_and]
            cases stored.written with
            | true => exact hanswer.symm
            | false => rfl
          | coordinator j =>
            refine (tokenAt_coordinator hc _ j).trans ?_
            unfold Move.values received
            dsimp only
            by_cases hj : j = i
            · rw [if_pos hj, htoken]
              by_cases hok : stored = .ok
              · rw [if_pos ⟨hok, rfl⟩, if_pos ⟨hj, hok⟩]
                exact hanswer.symm
              · rw [if_neg fun h => hok h.1, if_neg fun h => hok h.2, hj]
                exact (tokenAt_self hc).1.symm
            · rw [if_neg hj, if_neg fun h => hj h.1]
              rfl
          | answer j =>
            refine (tokenAt_answer hc _ j).trans ?_
            unfold Move.values received
            dsimp only
            by_cases hj : j = i
            · rw [if_pos hj, if_pos hj]
              rfl
            · rw [if_neg hj, if_neg hj]
              rfl

theorem tokenAt_publish (token tokenUrl clientId clientSecret : Option String) :
    (w.step (.publish token tokenUrl clientId clientSecret)).1.tokenAt =
      (move w (.publish token tokenUrl clientId clientSecret)).values w.tokenAt := by
  have hget (c : Coordinator) (j : ℕ) : (w.coordinators ++ [c])[j]? =
      if j = w.coordinators.length then some c else w.coordinators[j]? := by
    by_cases hj : j = w.coordinators.length
    · rw [if_pos hj, hj, List.getElem?_concat_length]
    · rw [if_neg hj]
      rcases lt_or_gt_of_ne hj with hlt | hgt
      · exact List.getElem?_append_left hlt
      · rw [List.getElem?_eq_none (by simp; omega), List.getElem?_eq_none hgt.le]
  have hlast : w.coordinators[w.coordinators.length]? = none := List.getElem?_eq_none le_rfl
  funext p
  cases p with
  | vault => rfl
  | coordinator j =>
    unfold step tokenAt move Move.values
    dsimp only
    rw [hget]
    by_cases hj : j = w.coordinators.length
    · rw [if_pos hj, hj, if_pos rfl]
      rfl
    · rw [if_neg hj, if_neg (by simpa using hj)]
      rfl
  | answer j =>
    unfold step tokenAt move Move.values inFlight
    dsimp only
    rw [hget]
    by_cases hj : j = w.coordinators.length
    · rw [if_pos hj, hj, if_neg (by simp)]
      change none = ((w.coordinators[w.coordinators.length]?).bind Coordinator.inFlight).bind
        fun f => f.answer.bind TokenResponse.refreshToken
      rw [hlast]
      rfl
    · rw [if_neg hj, if_neg (by simp)]
      rfl

theorem receive_access (startedAt : ℕ) (resp : TokenResponse) (stored : Stored) (s : OauthState) :
    (Refresh.receive startedAt resp stored s).1.refreshPersist = s.refreshPersist ∧
      (Refresh.receive startedAt resp stored s).1.accessToken = some resp.accessToken ∧
      (Refresh.receive startedAt resp stored s).1.expiresAt =
        resp.expiresInSecs.map fun secs => startedAt + secs * 1000 := by
  unfold Refresh.receive
  cases resp.refreshToken with
  | none => exact ⟨rfl, rfl, rfl⟩
  | some rotated =>
    dsimp only
    cases (if s.refreshPersist = true then persist stored else .ok ()) <;> exact ⟨rfl, rfl, rfl⟩

/-- **The tokens move as it is followed.** -/
theorem tokenAt_step (hp : ∀ c ∈ w.coordinators, c.state.refreshPersist = true) (a : Action) :
    (w.step a).1.tokenAt = (move w a).values w.tokenAt := by
  cases a with
  | tick ms => rfl
  | publish token tokenUrl clientId clientSecret =>
    exact tokenAt_publish token tokenUrl clientId clientSecret
  | access i =>
    unfold step
    dsimp only
    cases hc : w.coordinators[i]? with
    | none => rfl
    | some c =>
      obtain ⟨state, flight⟩ := c
      cases flight with
      | some flight => rfl
      | none =>
        dsimp only
        cases hf : ensureFresh w.now state with
        | returned result => rfl
        | refresh request => exact tokenAt_setCoordinator_same hc rfl rfl
  | answer i resp =>
    unfold step move
    dsimp only
    cases hc : w.coordinators[i]? with
    | none =>
      unfold inFlight
      rw [hc]
      rfl
    | some c =>
      obtain ⟨state, flight⟩ := c
      rw [inFlight_of_getElem? hc]
      cases flight with
      | none => rfl
      | some flight =>
        obtain ⟨request, startedAt, answer⟩ := flight
        cases answer with
        | some resp => rfl
        | none =>
          dsimp only
          cases hrotated : resp.refreshToken with
          | none => exact tokenAt_setCoordinator_same hc rfl hrotated
          | some rotated =>
            funext p
            cases p with
            | vault => rfl
            | coordinator j =>
              rw [tokenAt_coordinator hc]
              by_cases hj : j = i
              · rw [if_pos hj, hj]
                exact (tokenAt_self hc).1.symm
              · rw [if_neg hj]
                rfl
            | answer j =>
              rw [tokenAt_answer hc]
              by_cases hj : j = i
              · rw [if_pos hj, hj]
                simp [Move.values, hrotated]
              · rw [if_neg hj]
                simp [Move.values, Ne.symm hj]
  | receive i stored => exact tokenAt_receive hp i stored
  | fail i error =>
    unfold step
    dsimp only
    cases hf : w.inFlight i with
    | none =>
      have h := tokenAt_abandon (w := w) i true
      have hsame : w.abandon i true = w := by
        unfold abandon
        cases hc : w.coordinators[i]? with
        | none => rfl
        | some c =>
          rw [inFlight_of_getElem? hc] at hf
          obtain ⟨state, flight⟩ := c
          cases hf
          rfl
      rw [hsame] at h
      exact h
    | some flight => exact tokenAt_abandon i error.isRetryable
  | drop i => exact tokenAt_abandon i true
  | orphan rotated =>
    cases rotated with
    | none => rfl
    | some rotated =>
      unfold move
      dsimp only
      split_ifs <;> rfl

/-! ### What a step keeps -/

variable {w' : World} {gained : List (ℕ × Option ℕ)} {sent lost : ℕ}

theorem Happens.now_le (h : Happens w w' gained sent lost) : w.now ≤ w'.now := by
  cases h with
  | idle h => exact h
  | _ => exact le_rfl

theorem mem_setCoordinator {i : ℕ} {c c' : Coordinator}
    (h : c' ∈ (w.setCoordinator i c).coordinators) : c' ∈ w.coordinators ∨ c' = c :=
  List.mem_or_eq_of_mem_set h

theorem Happens.persist (h : Happens w w' gained sent lost)
    (hp : ∀ c ∈ w.coordinators, c.state.refreshPersist = true) :
    ∀ c ∈ w'.coordinators, c.state.refreshPersist = true := by
  have hset {i : ℕ} {c c' : Coordinator} (hc : w.coordinators[i]? = some c)
      (hsame : c'.state.refreshPersist = c.state.refreshPersist) :
      ∀ d ∈ (w.setCoordinator i c').coordinators, d.state.refreshPersist = true := by
    intro d hd
    rcases mem_setCoordinator hd with hd | rfl
    · exact hp d hd
    · exact hsame.trans (hp c (List.mem_of_getElem? hc))
  cases h with
  | idle => exact hp
  | publish h =>
    intro c hc
    rcases List.mem_append.1 hc with hc | hc
    · exact hp c hc
    · rw [List.mem_singleton.1 hc]
      exact h
  | sent hc => exact hset hc rfl
  | answered hc => exact hset hc rfl
  | received hc stored vault =>
    exact hset hc (receive_access _ _ stored _).1
  | ended hc => exact hset hc rfl

theorem countP_setCoordinator {i : ℕ} {c : Coordinator} (hc : w.coordinators[i]? = some c)
    (c' : Coordinator) (p : Coordinator → Bool) :
    (w.setCoordinator i c').coordinators.countP p + (if p c then 1 else 0) =
      w.coordinators.countP p + (if p c' then 1 else 0) := by
  obtain ⟨hi, hget⟩ := List.getElem?_eq_some_iff.1 hc
  rw [coordinators_setCoordinator, List.countP_set hi, hget]
  have hle := List.boole_getElem_le_countP (p := p) (l := w.coordinators) (i := i) hi
  rw [hget] at hle
  omega

def waiting (c : Coordinator) : Bool := c.inFlight.isSome

/-- A refresh that is sent is under way, has obtained a token or has ended without one. -/
theorem Happens.count (h : Happens w w' gained sent lost) :
    w'.coordinators.countP waiting + gained.length + lost =
      w.coordinators.countP waiting + sent := by
  cases h with
  | idle => rfl
  | publish =>
    dsimp only
    rw [List.countP_append]
    rfl
  | @sent i state request hc h =>
    have hset := countP_setCoordinator hc
      ⟨state, some { request := request, startedAt := w.now }⟩ waiting
    simpa [waiting] using hset
  | @answered i state request startedAt hc resp =>
    have hset := countP_setCoordinator hc ⟨state, some ⟨request, startedAt, some resp⟩⟩ waiting
    simpa [waiting] using hset
  | @received i state request startedAt resp hc stored vault =>
    have hset := countP_setCoordinator hc
      ⟨(Refresh.receive startedAt resp stored state).1, none⟩ waiting
    simpa [waiting] using hset
  | @ended i state flight hc orphans =>
    have hset := countP_setCoordinator hc ⟨state, none⟩ waiting
    simpa [waiting] using hset

/-- An access token that was obtained has run out, or is the one that its coordinator has, which
waits for nothing. -/
def Current (w : World) (j : ℕ) (expiresAt : Option ℕ) : Prop :=
  RunOut w.now expiresAt ∨
    ∃ state, w.coordinators[j]? = some ⟨state, none⟩ ∧ state.accessToken.isSome = true ∧
      state.expiresAt = expiresAt

theorem runOut_mono {now now' : ℕ} {expiresAt : Option ℕ} (h : RunOut now expiresAt)
    (hle : now ≤ now') : RunOut now' expiresAt := by
  obtain ⟨expiry, hexpiry, hlt⟩ := h
  exact ⟨expiry, hexpiry, by omega⟩

theorem runOut_of_refresh {now : ℕ} {state : OauthState} {request : RefreshRequest}
    (h : ensureFresh now state = .refresh request) (htoken : state.accessToken.isSome = true) :
    RunOut now state.expiresAt := by
  obtain ⟨token, htoken⟩ := Option.isSome_iff_exists.1 htoken
  have hcached : state.cached now = none := by
    cases hcached : state.cached now with
    | none => rfl
    | some token =>
      unfold ensureFresh at h
      rw [hcached] at h
      cases h
  unfold OauthState.cached at hcached
  rw [htoken] at hcached
  cases hexpiry : state.expiresAt with
  | none =>
    rw [hexpiry] at hcached
    cases hcached
  | some expiry =>
    rw [hexpiry] at hcached
    dsimp only at hcached
    exact ⟨expiry, rfl, not_lt.1 fun hlt => by simp [hlt] at hcached⟩

theorem refreshToken_of_refresh {now : ℕ} {state : OauthState} {request : RefreshRequest}
    (h : ensureFresh now state = .refresh request) :
    state.refreshToken = some request.refreshToken := by
  unfold ensureFresh at h
  cases hcached : state.cached now with
  | some token =>
    rw [hcached] at h
    cases h
  | none =>
    rw [hcached] at h
    cases hrefresh : state.refreshToken with
    | none =>
      rw [hrefresh] at h
      cases h
    | some refresh =>
      rw [hrefresh] at h
      cases hurl : state.tokenUrl with
      | none =>
        rw [hurl] at h
        cases h
      | some url =>
        rw [hurl] at h
        cases h
        rfl

theorem Happens.current (h : Happens w w' gained sent lost) {j : ℕ} {expiresAt : Option ℕ}
    (hc : Current w j expiresAt) : Current w' j expiresAt := by
  have hnow := h.now_le
  rcases hc with hout | ⟨state, hstate, htoken, hexpires⟩
  · exact Or.inl (runOut_mono hout hnow)
  have hother {i : ℕ} {c : Coordinator} (hi : w.coordinators[i]? = some c) (hne : c ≠ ⟨state, none⟩)
      (c' : Coordinator) : (w.setCoordinator i c').coordinators[j]? = some ⟨state, none⟩ := by
    rw [getElem?_setCoordinator hi, if_neg, hstate]
    rintro rfl
    rw [hstate] at hi
    exact hne (Option.some.inj hi).symm
  cases h with
  | idle => exact Or.inr ⟨state, hstate, htoken, hexpires⟩
  | publish =>
    refine Or.inr ⟨state, ?_, htoken, hexpires⟩
    obtain ⟨hj, -⟩ := List.getElem?_eq_some_iff.1 hstate
    exact (List.getElem?_append_left hj).trans hstate
  | @sent i state' request hi hf =>
    by_cases hsame : state' = state
    · subst hsame
      exact Or.inl (hexpires ▸ runOut_of_refresh hf htoken)
    · refine Or.inr ⟨state, hother hi (fun heq => ?_) _, htoken, hexpires⟩
      cases heq
      exact hsame rfl
  | answered hi => exact Or.inr ⟨state, hother hi (fun heq => by cases heq) _, htoken, hexpires⟩
  | received hi => exact Or.inr ⟨state, hother hi (fun heq => by cases heq) _, htoken, hexpires⟩
  | ended hi => exact Or.inr ⟨state, hother hi (fun heq => by cases heq) _, htoken, hexpires⟩

theorem Happens.current_gained (h : Happens w w' gained sent lost) :
    ∀ p ∈ gained, Current w' p.1 p.2 := by
  cases h with
  | @received i state request startedAt resp hc stored vault =>
    intro p hp
    obtain rfl := List.mem_singleton.1 hp
    obtain ⟨-, htoken, hexpires⟩ := receive_access startedAt resp stored state
    refine Or.inr ⟨_, (getElem?_setCoordinator hc _ i).trans (if_pos rfl), ?_, hexpires⟩
    rw [htoken]
    rfl
  | _ => exact fun p hp => by cases hp

end World

/-! ### Runs -/

/-- What holds of a run so far. -/
structure Sound (t : Traced) : Prop where
  persist : ∀ c ∈ t.world.coordinators, c.state.refreshPersist = true
  tracked : Provenance.Tracked t.world.tokenAt t.history.issued t.history.holds
  current : ∀ p ∈ t.history.obtained, t.world.Current p.1 p.2
  count : t.history.sent =
    t.history.obtained.length + t.history.ended + t.world.coordinators.countP World.waiting

theorem sound_start (configured : String) : Sound (Traced.start configured) where
  persist := fun c hc => by cases hc
  tracked := ⟨fun p hp => by
    obtain rfl := of_decide_eq_true hp
    rfl⟩
  current := fun p hp => by cases hp
  count := rfl

theorem Sound.step {t : Traced} (h : Sound t) (a : Action) : Sound (t.step a) := by
  have hstep := World.happens t.world a
  refine ⟨hstep.persist h.persist, ?_, fun p hp => ?_, ?_⟩
  · have hmove := h.tracked.move (move t.world a)
    rw [← World.tokenAt_step h.persist] at hmove
    exact hmove
  · rcases List.mem_append.1 hp with hp | hp
    · exact hstep.current_gained p hp
    · exact hstep.current (h.current p hp)
  · have hcount := hstep.count
    have hbefore := h.count
    change t.history.sent + _ = (History.gained t.world a ++ t.history.obtained).length +
      (t.history.ended + History.lost t.world a) + _
    rw [List.length_append]
    change _ = _ + (t.world.step a).1.coordinators.countP World.waiting
    omega

/-- **An orderly call** presents the token issued last, and no other refresh has been sent since the
last expiry. -/
theorem Sound.single {t : Traced} (h : Sound t) {a : Action} (ho : Orderly t a) : Single t a := by
  intro i request hsent
  obtain ⟨hholds, hothers, hout, hended⟩ := ho i request hsent
  obtain ⟨rfl, state, hc, hf⟩ := World.sent_cases hsent
  refine ⟨?_, ?_, ?_⟩
  · rw [← h.tracked.newest _ hholds, (World.tokenAt_self hc).1]
    exact World.refreshToken_of_refresh hf
  · have hwaiting : t.world.coordinators.countP World.waiting = 0 := by
      rw [List.countP_eq_zero]
      intro c hmem
      obtain ⟨j, hj⟩ := List.mem_iff_getElem?.1 hmem
      have hnone : t.world.inFlight j = none := by
        by_cases hji : j = i
        · rw [hji, World.inFlight_of_getElem? hc]
        · exact hothers j hji
      rw [World.inFlight_of_getElem? hj] at hnone
      unfold World.waiting
      rw [hnone]
      exact Bool.false_ne_true
    have hcount := h.count
    omega
  · intro j expiresAt hmem
    by_cases hji : j = i
    · rcases h.current _ hmem with hrun | ⟨state', hstate, htoken, hexpires⟩
      · exact hrun
      · dsimp only at hstate hexpires
        rw [hji, hc] at hstate
        cases hstate
        exact hexpires ▸ World.runOut_of_refresh hf htoken
    · exact hout j expiresAt hji hmem

/-- Where the endpoint issues no token twice, a coordinator that has the token issued last is one
that it has reached. -/
theorem Sound.orderly {t : Traced} (h : Sound t)
    (he : Provenance.Exact t.world.tokenAt t.history.issued t.history.holds) {a : Action}
    (hs : Single t a) : Orderly t a := by
  intro i request hsent
  obtain ⟨hnewest, hcount, hout⟩ := hs i request hsent
  obtain ⟨rfl, state, hc, hf⟩ := World.sent_cases hsent
  have hsum := h.count
  refine ⟨he.held _ ?_, fun j _ => ?_, fun j expiresAt _ hmem => hout j expiresAt hmem, by omega⟩
  · rw [(World.tokenAt_self hc).1, World.refreshToken_of_refresh hf, hnewest]
  · have hwaiting : t.world.coordinators.countP World.waiting = 0 := by omega
    rw [List.countP_eq_zero] at hwaiting
    cases hj : t.world.coordinators[j]? with
    | none =>
      unfold World.inFlight
      rw [hj]
      rfl
    | some c =>
      rw [World.inFlight_of_getElem? hj]
      exact Option.not_isSome_iff_eq_none.1 (hwaiting c (List.mem_of_getElem? hj))

section Runs

variable (configured : String) (actions : List Action)

theorem sound_visited :
    ∀ v ∈ Machine.visited Traced.step (Traced.start configured) actions, Sound v.1 :=
  Machine.visited_inv (C := fun _ _ => True) (fun _ a _ h => h.step a) (sound_start configured)
    fun _ _ => trivial

theorem exact_visited (h : ∀ v ∈ Machine.visited Traced.step (Traced.start configured) actions,
      OneTime v.1 v.2) :
    ∀ v ∈ Machine.visited Traced.step (Traced.start configured) actions,
      Provenance.Exact v.1.world.tokenAt v.1.history.issued v.1.history.holds := by
  have hboth := @Machine.visited_inv _ _ Traced.step OneTime
    (fun t => Sound t ∧ Provenance.Exact t.world.tokenAt t.history.issued t.history.holds)
    (fun t a hone ht => by
      refine ⟨ht.1.step a, ?_⟩
      have hmove := ht.2.move (m := move t.world a) fun token place heq => hone token place heq
      rw [← World.tokenAt_step ht.1.persist] at hmove
      exact hmove)
    (Traced.start configured) ⟨sound_start configured, List.cons_ne_nil _ _, ?_, ?_⟩ actions h
  · exact fun v hv => (hboth v hv).2
  · intro p token hp
    cases p with
    | vault => exact Option.some.inj hp ▸ List.mem_cons_self
    | coordinator j => cases hp
    | answer j => cases hp
  · intro p hp
    cases p with
    | vault => rfl
    | coordinator j => cases hp
    | answer j => cases hp

/-- A run whose calls are all orderly presents the token issued last at each refresh, and sends one
refresh at most from expiry to expiry; and where the endpoint issues no token twice, the calls of
such a run are all orderly. -/
theorem presents_newest_iff :
    ((∀ v ∈ Machine.visited Traced.step (Traced.start configured) actions, Orderly v.1 v.2) →
      ∀ v ∈ Machine.visited Traced.step (Traced.start configured) actions, Single v.1 v.2) ∧
    ((∀ v ∈ Machine.visited Traced.step (Traced.start configured) actions, OneTime v.1 v.2) →
      (∀ v ∈ Machine.visited Traced.step (Traced.start configured) actions, Single v.1 v.2) →
        ∀ v ∈ Machine.visited Traced.step (Traced.start configured) actions,
          Orderly v.1 v.2) := by
  have hsound := sound_visited configured actions
  refine ⟨fun horderly v hv => (hsound v hv).single (horderly v hv), fun hone hsingle v hv => ?_⟩
  exact (hsound v hv).orderly (exact_visited configured actions hone v hv) (hsingle v hv)

end Runs

/-- A rotated token that is not written to the vault is lost: the old one is presented again. -/
theorem presents_superseded :
    ¬ ∀ v ∈ Machine.visited Traced.step (Traced.start "r0")
      [.publish none (some "https://auth.example/token") none none, .access 0,
        .answer 0 ⟨"a1", some 0, some "r1"⟩, .receive 0 (.failed "disk full" false), .access 0],
      Single v.1 v.2 := by
  intro h
  have hlast := h _ (List.mem_of_getElem? (i := 4) rfl) 0
    ⟨"https://auth.example/token", none, none, "r0"⟩ List.mem_cons_self
  exact absurd hlast.1 (by decide)

end Refresh

end Switchback
