import Switchback.Lib.Text
import Switchback.Lib.Url

/-!
# The guard against private networks

Every outbound URL of a hosted gateway passes the same check: the host that a splitter reads in the
text, then the host that the URL parser reads, then the addresses that its name resolves to.  The
URL parser and the resolver are parameters.
-/

namespace Switchback

namespace NetGuard

open Lib Ip

inductive NetworkUrlKind where
  | providerUpstream
  | oauthToken
  | serviceAccountToken
  | proxy

def NetworkUrlKind.label : NetworkUrlKind → String
  | .providerUpstream => "provider upstream"
  | .oauthToken => "OAuth token endpoint"
  | .serviceAccountToken => "service-account token endpoint"
  | .proxy => "proxy"

inductive NetworkGuardError where
  | invalidUrl (message : String)
  | resolveFailed (message : String)
  | blockedPrivate (message : String)
  deriving DecidableEq

/-! ### The literal check -/

def privateIpReason (ip : IpAddr) : Option String :=
  let blocked : Bool :=
    match ip with
    | .v4 a =>
      match a.octets with
      | [o₀, o₁, _, _] =>
        (o₀ = 10 || (o₀ = 172 && 16 ≤ o₁ && o₁ ≤ 31) || (o₀ = 192 && o₁ = 168)) ||
          o₀ = 127 || (o₀ = 169 && o₁ = 254) || a.val = 0 || (o₀ = 169 && o₁ = 254)
      | _ => false
    | .v6 a =>
      let first := a.firstSegment
      a.val = 1 || a.val = 0 || first &&& 0xfe00 = 0xfc00 || first &&& 0xffc0 = 0xfe80
  if blocked then some "private or local IP" else none

/-- The host that a splitter reads in the text of a URL. -/
def hostFromUrl (url : String) : Option String := do
  let (_, rest) ← Text.splitOnceList "://".toList url.toList
  let authority := rest.takeWhile fun c => !(c = '/' || c = '?' || c = '#')
  let hostPort := (authority.reverse.takeWhile (· ≠ '@')).reverse
  if hostPort.head? = some '[' then
    (Text.splitOnceList [']'] hostPort).map fun p => String.ofList (p.1.dropWhile (· = '['))
  else
    let host := hostPort.takeWhile (· ≠ ':')
    if host = [] then none else some (String.ofList host)

def privateUrlReason (url : String) : Option String :=
  (hostFromUrl url).bind fun host =>
    let lower := Text.toAsciiLowercase host
    if lower = "localhost" ∨ (Text.stripSuffix ".localhost" lower).isSome then some "localhost host"
    else
      (parse lower.toList).bind fun ip =>
        (privateIpReason ip).map fun _ => s!"private or local IP host `{host}`"

/-! ### The guard -/

/-- `Host::to_string`. -/
def hostStr : Url.Host → String
  | .domain name => String.ofList name
  | .ipv4 a => String.ofList (dotted a)
  | .ipv6 a => String.ofList ('[' :: compressed a ++ [']'])

def portOrKnownDefault (u : Url) : Option ℕ := u.port.or (Url.defaultPort u.scheme)

/-- What the guard calls: the URL parser, and the resolver of names. -/
structure Net where
  parseUrl : String → Except String Url
  lookupHost : String → ℕ → Except String (List IpAddr)

def guardLiteralUrl (net : Net) (url : String) (kind : NetworkUrlKind) :
    Except NetworkGuardError (String × ℕ) :=
  match privateUrlReason url with
  | some reason =>
    .error (.blockedPrivate s!"blocked private-network {kind.label} URL `{url}`: {reason}")
  | none =>
    match net.parseUrl url with
    | .error e => .error (.invalidUrl s!"invalid {kind.label} URL `{url}`: {e}")
    | .ok parsed =>
      match parsed.host with
      | none => .error (.invalidUrl s!"{kind.label} URL `{url}` has no host")
      | some host => .ok (hostStr host, (portOrKnownDefault parsed).getD 443)

/-- The common shape of the two guards. -/
def guardWith (net : Net) (url : String) (kind : NetworkUrlKind) (blockPrivateNetworks : Bool) :
    Except NetworkGuardError Unit :=
  if !blockPrivateNetworks then .ok ()
  else
    guardLiteralUrl net url kind >>= fun p =>
    if (parse p.1.toList).isSome then .ok ()
    else
      match net.lookupHost p.1 p.2 with
      | .error e => .error (.resolveFailed s!"resolve {kind.label} host `{p.1}`: {e}")
      | .ok resolved =>
        match resolved.find? fun addr => (privateIpReason addr).isSome with
        | some addr =>
          .error (.blockedPrivate
            (s!"blocked {kind.label} host `{p.1}` resolving to private/local IP " ++
              s!"`{String.ofList addr.print}`"))
        | none => .ok ()

/-- With the resolver of the runtime. -/
def guardUrl (net : Net) (url : String) (kind : NetworkUrlKind) (blockPrivateNetworks : Bool) :
    Except NetworkGuardError Unit :=
  guardWith net url kind blockPrivateNetworks

/-- With the resolver of the standard library. -/
def guardUrlBlocking (net : Net) (url : String) (kind : NetworkUrlKind)
    (blockPrivateNetworks : Bool) : Except NetworkGuardError Unit :=
  guardWith net url kind blockPrivateNetworks

/-! ### Where a client goes -/

/-- Loopback, private, link-local and unspecified addresses. -/
def LocalV4 (a : V4) : Prop :=
  a.val / 2 ^ 24 = 127 ∨ a.val / 2 ^ 24 = 10 ∨ a.val / 2 ^ 20 = 172 * 16 + 1 ∨
    a.val / 2 ^ 16 = 192 * 256 + 168 ∨ a.val / 2 ^ 16 = 169 * 256 + 254 ∨ a.val = 0

/-- Loopback, unspecified, unique-local and link-local addresses. -/
def LocalV6 (a : V6) : Prop :=
  a.val = 1 ∨ a.val = 0 ∨ a.val / 2 ^ 121 = 0xfc / 2 ∨ a.val / 2 ^ 118 = 0xfe80 / 2 ^ 6

/-- An address of a local range, as it is written. -/
def Local : IpAddr → Prop
  | .v4 a => LocalV4 a
  | .v6 a => LocalV6 a

/-- An IPv4-mapped address of a local one. -/
def LocalMapped : IpAddr → Prop
  | .v4 _ => False
  | .v6 a => ∃ b, a.toMapped = some b ∧ LocalV4 b

/-- An address outside of every local range, also when it is the mapped form of another. -/
def Public (ip : IpAddr) : Prop := ¬ Local ip ∧ ¬ LocalMapped ip

/-- The addresses that a client of the URL parser connects to. -/
def connects (net : Net) (url : String) : List IpAddr :=
  match net.parseUrl url with
  | .error _ => []
  | .ok u =>
    match u.host with
    | none => []
    | some (.ipv4 a) => [.v4 a]
    | some (.ipv6 a) => [.v6 a]
    | some (.domain name) =>
      match parse name with
      | some ip => [ip]
      | none =>
        match net.lookupHost (String.ofList name) ((portOrKnownDefault u).getD 443) with
        | .error _ => []
        | .ok resolved => resolved

theorem privateIpReason_v4_isSome_iff (a : V4) :
    (privateIpReason (.v4 a)).isSome = true ↔ LocalV4 a := by
  have ha := a.isLt
  unfold privateIpReason LocalV4
  simp only [V4.octets, apply_ite Option.isSome, Option.isSome_some, Option.isSome_none,
    Bool.if_false_right, Bool.and_true, Bool.or_eq_true, Bool.and_eq_true, decide_eq_true_eq]
  omega

theorem mask_eq_iff (n k m high : ℕ) (hn : n / 2 ^ k < 2 ^ m) :
    n &&& ((2 ^ m - 1) * 2 ^ k) = high * 2 ^ k ↔ n / 2 ^ k = high := by
  have hdiv : (n &&& ((2 ^ m - 1) * 2 ^ k)) / 2 ^ k = n / 2 ^ k := by
    rw [Nat.and_div_two_pow, Nat.mul_div_cancel _ (Nat.two_pow_pos k),
      Nat.and_two_pow_sub_one_eq_mod, Nat.mod_eq_of_lt hn]
  have hmod : (n &&& ((2 ^ m - 1) * 2 ^ k)) % 2 ^ k = 0 := by
    rw [Nat.and_mod_two_pow, Nat.mul_mod_left, Nat.and_zero]
  have hpos := Nat.two_pow_pos k
  constructor
  · intro h
    rw [h, Nat.mul_div_cancel _ hpos] at hdiv
    exact hdiv.symm
  · intro h
    have := Nat.div_add_mod (n &&& ((2 ^ m - 1) * 2 ^ k)) (2 ^ k)
    rw [hdiv, hmod, h, Nat.add_zero, Nat.mul_comm] at this
    exact this.symm

theorem privateIpReason_v6_isSome_iff (a : V6) :
    (privateIpReason (.v6 a)).isSome = true ↔ LocalV6 a := by
  have ha := a.isLt
  have hfirst : a.firstSegment < 2 ^ 16 := by
    unfold V6.firstSegment
    omega
  have hunique := mask_eq_iff a.firstSegment 9 7 126 (by omega)
  have hlink := mask_eq_iff a.firstSegment 6 10 1018 (by omega)
  simp only [Nat.reducePow, Nat.reduceSub, Nat.reduceMul] at hunique hlink
  unfold privateIpReason LocalV6
  simp only [apply_ite Option.isSome, Option.isSome_some, Option.isSome_none,
    Bool.if_false_right, Bool.and_true, Bool.or_eq_true, decide_eq_true_eq, hunique, hlink]
  unfold V6.firstSegment
  omega

/-- **What the checks refuse** are the local addresses, mapped forms apart. -/
theorem privateIpReason_isSome_iff (ip : IpAddr) :
    (privateIpReason ip).isSome = true ↔ Local ip := by
  cases ip with
  | v4 a => exact privateIpReason_v4_isSome_iff a
  | v6 a => exact privateIpReason_v6_isSome_iff a

/-! ### When what passes stays public -/

/-- The address that the host of a URL is taken for. -/
def spelled : Url.Host → Option IpAddr
  | .ipv4 a => some (.v4 a)
  | .ipv6 _ => none
  | .domain name => parse name

/-- The splitter reads a local host: `localhost`, a name under it, or the text of a local
address. -/
def SplitsLocal (url : String) : Prop :=
  ∃ host, hostFromUrl url = some host ∧
    (Text.toAsciiLowercase host = "localhost" ∨
      (Text.stripSuffix ".localhost" (Text.toAsciiLowercase host)).isSome = true ∨
      ∃ ip, parse (Text.toAsciiLowercase host).toList = some ip ∧ Local ip)

/-- An answer with a local address. -/
def AnswersLocal (resolved : List IpAddr) : Prop := ∃ ip ∈ resolved, Local ip

/-- Where the URL parser reads a host that leads to a local address, the splitter reads a local
host, or the name or the bracketed text resolves to a local address. -/
structure ReadAlike (net : Net) (url : String) (u : Url) : Prop where
  literal : ∀ host ip, u.host = some host → spelled host = some ip → ¬ Public ip → SplitsLocal url
  answers : ∀ name resolved, u.host = some (.domain name) → parse name = none →
    net.lookupHost (String.ofList name) ((portOrKnownDefault u).getD 443) = .ok resolved →
      ∀ ip ∈ resolved, LocalMapped ip → SplitsLocal url ∨ AnswersLocal resolved
  bracketed : ∀ a resolved, u.host = some (.ipv6 a) →
    net.lookupHost (hostStr (.ipv6 a)) ((portOrKnownDefault u).getD 443) = .ok resolved →
      ¬ Public (.v6 a) → SplitsLocal url ∨ AnswersLocal resolved

theorem privateUrlReason_eq_none_iff (url : String) :
    privateUrlReason url = none ↔ ¬ SplitsLocal url := by
  unfold privateUrlReason SplitsLocal
  cases hostFromUrl url with
  | none => simp
  | some host =>
    simp only [Option.bind_some, Option.some.injEq, exists_eq_left', not_or]
    split_ifs with hlocal
    · simp only [false_iff]
      rintro ⟨hname, hunder, -⟩
      exact hlocal.elim hname hunder
    · rw [not_or] at hlocal
      rw [and_iff_right hlocal.1, and_iff_right hlocal.2]
      cases parse (Text.toAsciiLowercase host).toList with
      | none => simp
      | some ip =>
        simp only [Option.bind_some, Option.map_eq_none_iff, Option.some.injEq, exists_eq_left']
        rw [← privateIpReason_isSome_iff, Bool.not_eq_true, Option.isSome_eq_false_iff,
          Option.isNone_iff_eq_none]

/-- The guard lets a text through exactly when the splitter finds nothing local in it and the host
that the parser reads is taken for an address or resolves to none that is refused. -/
theorem guardWith_ok_iff (net : Net) (url : String) (kind : NetworkUrlKind) :
    guardWith net url kind true = .ok () ↔
      ¬ SplitsLocal url ∧ ∃ u host, net.parseUrl url = .ok u ∧ u.host = some host ∧
        ((parse (hostStr host).toList).isSome = true ∨
          ∃ resolved,
            net.lookupHost (hostStr host) ((portOrKnownDefault u).getD 443) = .ok resolved ∧
              ¬ AnswersLocal resolved) := by
  rw [← privateUrlReason_eq_none_iff]
  unfold guardWith guardLiteralUrl AnswersLocal
  simp only [← privateIpReason_isSome_iff, not_exists, not_and, Bool.not_eq_true]
  cases hreason : privateUrlReason url with
  | some reason => simp [Bind.bind, Except.bind]
  | none =>
    cases hparse : net.parseUrl url with
    | error e => simp [Bind.bind, Except.bind]
    | ok u =>
      cases hhost : u.host with
      | none => simp [hhost, Bind.bind, Except.bind]
      | some host =>
        by_cases hip : (parse (hostStr host).toList).isSome = true
        · simp [hhost, hip, Bind.bind, Except.bind]
        · cases hlookup : net.lookupHost (hostStr host) ((portOrKnownDefault u).getD 443) with
          | error e => simp [hhost, hip, hlookup, Bind.bind, Except.bind]
          | ok resolved =>
            cases hfind : resolved.find? fun addr => (privateIpReason addr).isSome with
            | none =>
              have hnone := List.find?_eq_none.1 hfind
              simp only [Bool.not_eq_true] at hnone
              simpa [hhost, hip, hlookup, hfind, Bind.bind, Except.bind] using hnone
            | some addr =>
              have hmem := List.mem_of_find?_eq_some hfind
              have hbad := List.find?_some hfind
              have hrefused : ∃ ip ∈ resolved, ¬ privateIpReason ip = none :=
                ⟨addr, hmem, Option.isSome_iff_ne_none.1 hbad⟩
              simpa [hhost, hip, hlookup, hfind, Bind.bind, Except.bind] using hrefused

theorem parse_hostStr_ipv4 (a : V4) : parse (hostStr (.ipv4 a)).toList = some (.v4 a) := by
  simpa [hostStr] using parse_dotted a

theorem parse_hostStr_ipv6 (a : V6) : parse (hostStr (.ipv6 a)).toList = none := by
  simpa [hostStr] using parse_bracket (compressed a ++ [']'])

theorem parse_hostStr_domain (name : Url.Text) :
    parse (hostStr (.domain name)).toList = parse name := by
  simp [hostStr]

theorem readAlike_of_law {net : Net} {url : String} {kind : NetworkUrlKind}
    (hlaw : guardWith net url kind true = .ok () → ∀ ip ∈ connects net url, Public ip)
    {u : Url} (hparse : net.parseUrl url = .ok u) : ReadAlike net url u := by
  by_cases hsplit : SplitsLocal url
  · exact ⟨fun _ _ _ _ _ => hsplit, fun _ _ _ _ _ _ _ _ => .inl hsplit,
      fun _ _ _ _ _ => .inl hsplit⟩
  -- the guard lets the text through by its host or by the answer
  have hpass : ∀ host, u.host = some host →
      ((parse (hostStr host).toList).isSome = true ∨ ∃ resolved,
        net.lookupHost (hostStr host) ((portOrKnownDefault u).getD 443) = .ok resolved ∧
          ¬ AnswersLocal resolved) →
      ∀ ip ∈ connects net url, Public ip := by
    intro host hhost hrest
    exact hlaw ((guardWith_ok_iff net url kind).2 ⟨hsplit, u, host, hparse, hhost, hrest⟩)
  constructor
  · intro host ip hhost hspelled hlocal
    refine absurd ?_ hlocal
    cases host with
    | ipv4 a =>
      obtain rfl := Option.some.inj hspelled
      apply hpass _ hhost (.inl (by rw [parse_hostStr_ipv4]; rfl))
      simp [connects, hparse, hhost]
    | ipv6 a => cases hspelled
    | domain name =>
      have hname : parse name = some ip := hspelled
      apply hpass _ hhost (.inl (by rw [parse_hostStr_domain, hname]; rfl))
      simp [connects, hparse, hhost, hname]
  · intro name resolved hhost hname hlookup ip hip hmapped
    by_contra hneither
    have hall := hpass _ hhost (.inr ⟨resolved, hlookup, fun h => hneither (.inr h)⟩)
    simp only [connects, hparse, hhost, hname, hlookup] at hall
    exact (hall ip hip).2 hmapped
  · intro a resolved hhost hlookup hlocal
    by_contra hneither
    refine hlocal (hpass _ hhost (.inr ⟨resolved, hlookup, fun h => hneither (.inr h)⟩) _ ?_)
    simp [connects, hparse, hhost]

theorem law_of_readAlike {net : Net} {url : String} {kind : NetworkUrlKind}
    (h : ∀ u, net.parseUrl url = .ok u → ReadAlike net url u)
    (hok : guardWith net url kind true = .ok ()) : ∀ ip ∈ connects net url, Public ip := by
  obtain ⟨hsplit, u, host, hparse, hhost, hrest⟩ := (guardWith_ok_iff net url kind).1 hok
  have hreads := h u hparse
  have hliteral : ∀ ip, spelled host = some ip → Public ip := fun ip hip => by
    by_contra hlocal
    exact hsplit (hreads.literal host ip hhost hip hlocal)
  cases host with
  | ipv4 a => simpa [connects, hparse, hhost] using hliteral _ rfl
  | ipv6 a =>
    rw [parse_hostStr_ipv6] at hrest
    obtain hfalse | ⟨resolved, hlookup, hpassed⟩ := hrest
    · cases hfalse
    · have hpublic : Public (.v6 a) := by
        by_contra hlocal
        exact (hreads.bracketed a resolved hhost hlookup hlocal).elim hsplit hpassed
      simpa [connects, hparse, hhost] using hpublic
  | domain name =>
    rw [parse_hostStr_domain] at hrest
    cases hname : parse name with
    | some ip => simpa [connects, hparse, hhost, hname] using hliteral ip hname
    | none =>
      rw [hname] at hrest
      obtain hfalse | ⟨resolved, hlookup, hpassed⟩ := hrest
      · cases hfalse
      · have hlookup' : net.lookupHost (String.ofList name) ((portOrKnownDefault u).getD 443) =
            .ok resolved := hlookup
        simp only [connects, hparse, hhost, hname, hlookup']
        intro ip hip
        refine ⟨fun hlocal => hpassed ⟨ip, hip, hlocal⟩, fun hmapped => ?_⟩
        exact (hreads.answers name resolved hhost hname hlookup' ip hip hmapped).elim hsplit hpassed

/-- **The guard keeps clients on public addresses** exactly when, wherever the host that the URL
parser reads leads to a local address, the splitter reads a local host in the text, or the name
resolves to an address that is local as it is written. -/
theorem guard_public_iff (net : Net) (url : String) (kind : NetworkUrlKind) :
    ((guardUrl net url kind true = .ok () → ∀ ip ∈ connects net url, Public ip) ↔
      ∀ u, net.parseUrl url = .ok u → ReadAlike net url u) ∧
    ((guardUrlBlocking net url kind true = .ok () → ∀ ip ∈ connects net url, Public ip) ↔
      ∀ u, net.parseUrl url = .ok u → ReadAlike net url u) := by
  have hiff : (guardWith net url kind true = .ok () → ∀ ip ∈ connects net url, Public ip) ↔
      ∀ u, net.parseUrl url = .ok u → ReadAlike net url u :=
    ⟨fun hlaw u hparse => readAlike_of_law hlaw hparse, law_of_readAlike⟩
  exact ⟨hiff, hiff⟩

/-- The parser of the standard over ASCII names and without files, and a resolver that knows
nothing. -/
def standardNet : Net where
  parseUrl url :=
    let parser : Url.Parser :=
      { host := Url.readHost fun name => some (Url.lower name)
        file := fun _ _ => none
        file_scheme := Url.no_file }
    match parser.parse url.toList with
    | some u => .ok u
    | none => .error "invalid URL"
  lookupHost _ _ := .error "no such host"

/-- The decimal spelling of 127.0.0.1 passes the guard. -/
theorem decimal_loopback_passes :
    ¬ ∀ (net : Net) (url : String) (kind : NetworkUrlKind),
      guardUrl net url kind true = .ok () → ∀ ip ∈ connects net url, Public ip := by
  intro h
  have hok : guardUrl standardNet "http://2130706433/" .providerUpstream true = .ok () := by
    decide +kernel
  have hconnects : connects standardNet "http://2130706433/" =
      [.v4 (V4.ofOctets [127, 0, 0, 1])] := by
    decide +kernel
  have hpublic := h _ _ _ hok (.v4 (V4.ofOctets [127, 0, 0, 1])) (by rw [hconnects]; simp)
  have hlocal : LocalV4 (V4.ofOctets [127, 0, 0, 1]) := .inl (by decide)
  exact hpublic.1 hlocal

end NetGuard

end Switchback
