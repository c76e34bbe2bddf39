import Switchback.Server.Idempotency

/-!
# Inbound API keys

An entry of `api_keys` names its secret in one of three ways: as text, by an environment variable,
or by its hash.  A presented key is compared with the entries one by one, and the last match wins.
-/

namespace Switchback

namespace ApiKeys

open Lib
open Tenancy (ApiKeyRole)

/-! ### The configuration -/

structure ApiKeyConfig where
  key : Option String
  key_env : Option String
  key_hash : Option String
  prefix_text : Option String
  tenant : String
  project : Option String
  role : ApiKeyRole

/-- The ids of the tenants, the keys, and the problems of all other sections. -/
structure Config where
  tenants : List String
  api_keys : List ApiKeyConfig
  elsewhere : List String

/-- A digit of a hash. -/
def isHashDigit (c : Char) : Bool := ('0' ≤ c ∧ c ≤ '9') ∨ ('a' ≤ c ∧ c ≤ 'f')

def normalizeSha256Hash (hash : String) : Option String :=
  (Text.stripLit "sha256:" hash).filter fun digits =>
    Text.len digits = 64 ∧ digits.toList.all isHashDigit

def nonEmpty (value : Option String) : Bool := value.any fun v => !(Text.trim v).isEmpty

/-- The value is there and blank. -/
def blank (value : Option String) : Bool := value.any fun v => (Text.trim v).isEmpty

namespace ApiKeyConfig

variable (k : ApiKeyConfig)

/-- The secret as text. -/
def inlineKey : Option String := k.key.filter fun v => !v.isEmpty

/-- The name of the variable that holds the secret. -/
def envName : Option String := k.key_env.filter fun v => !v.isEmpty

/-- The digits of the secret's hash. -/
def hashDigits : Option String := k.key_hash.bind normalizeSha256Hash

/-- The secret that a variable holds. -/
def envValue (env : String → Option String) : Option String :=
  (k.envName.bind env).filter fun v => !v.isEmpty

end ApiKeyConfig

/-- A message, if the check fails. -/
def report (bad : Bool) (message : String) : List String := if bad then [message] else []

/-- The ids that a key may name. -/
def tenantIds (cfg : Config) : List String := cfg.tenants.filter fun id => !(Text.trim id).isEmpty

/-- The problems of the tenant ids. -/
def tenantProblems : ℕ → List String → List String → List String
  | _, _, [] => []
  | i, seen, id :: ids =>
    if (Text.trim id).isEmpty then
      s!"tenants[{i}].id is empty" :: tenantProblems (i + 1) seen ids
    else
      report (seen.contains id) s!"tenants[{i}].id duplicates `{id}`" ++
        tenantProblems (i + 1) (id :: seen) ids

/-- The problems of one key. -/
def keyProblems (tenant_ids : List String) (i : ℕ) (k : ApiKeyConfig) : List String :=
  report (([k.key, k.key_env, k.key_hash].filter nonEmpty).length ≠ 1)
      s!"api_keys[{i}] must set exactly one of key, key_env, key_hash" ++
    report (blank k.key) s!"api_keys[{i}].key is empty" ++
    report (blank k.key_env) s!"api_keys[{i}].key_env is empty" ++
    report (k.key_hash.any fun hash => (normalizeSha256Hash hash).isNone)
      s!"api_keys[{i}].key_hash must be sha256:<64 hex chars>" ++
    report (blank k.prefix_text) s!"api_keys[{i}].prefix is empty" ++
    (if (Text.trim k.tenant).isEmpty then [s!"api_keys[{i}].tenant is empty"]
      else report (!tenant_ids.contains k.tenant)
        s!"api_keys[{i}].tenant `{k.tenant}` does not match a tenant id")

/-- The keys that repeat an earlier one, within each of the three ways. -/
def duplicateProblems : ℕ → List String → List String → List String → List ApiKeyConfig →
    List String
  | _, _, _, _, [] => []
  | i, values, envs, hashes, k :: keys =>
    report (k.inlineKey.any values.contains)
        s!"api_keys[{i}].key duplicates a previous API key" ++
      report (k.envName.any envs.contains)
        s!"api_keys[{i}].key_env duplicates a previous API key env reference" ++
      report (k.hashDigits.any hashes.contains)
        s!"api_keys[{i}].key_hash duplicates a previous API key hash" ++
      duplicateProblems (i + 1) (k.inlineKey.toList ++ values) (k.envName.toList ++ envs)
        (k.hashDigits.toList ++ hashes) keys

def semanticProblems (cfg : Config) : List String :=
  cfg.elsewhere ++ tenantProblems 0 [] cfg.tenants ++
    (cfg.api_keys.zipIdx.flatMap fun p => keyProblems (tenantIds cfg) p.2 p.1) ++
    duplicateProblems 0 [] [] [] cfg.api_keys

/-! ### Resolving a key -/

variable (sha256 : ByteArray → List UInt8) (env : String → Option String)

def constantTimeSecretEq (expected presented : String) : Bool :=
  sha256 expected.toUTF8 = sha256 presented.toUTF8

def sha256Hex (text : String) : String := Hex.hex (sha256 text.toUTF8)

def apiKeyMatches (presented : String) (k : ApiKeyConfig) : Bool :=
  (k.inlineKey.any fun expected => constantTimeSecretEq sha256 expected presented) ||
    ((k.envValue env).any fun expected => constantTimeSecretEq sha256 expected presented) ||
    (k.hashDigits.any fun expected =>
      constantTimeSecretEq sha256 expected (sha256Hex sha256 presented))

def principalForKey (keys : List ApiKeyConfig) (presented : String) :
    Option (String × Option String × ApiKeyRole) :=
  keys.foldl (fun matched k =>
    if apiKeyMatches sha256 env presented k then some (k.tenant, k.project, k.role) else matched)
    none

variable {sha256 env}

theorem constantTimeSecretEq_iff (hsha : Function.Injective sha256) {a b : String} :
    constantTimeSecretEq sha256 a b = true ↔ a = b := by
  rw [constantTimeSecretEq, decide_eq_true_eq, hsha.eq_iff, String.toUTF8_eq_toByteArray,
    String.toUTF8_eq_toByteArray, String.toByteArray_inj]

theorem any_secretEq_iff (hsha : Function.Injective sha256) {o : Option String} {b : String} :
    (o.any fun a => constantTimeSecretEq sha256 a b) = true ↔ o = some b := by
  cases o with
  | none => simp
  | some a => rw [Option.any_some, constantTimeSecretEq_iff hsha, Option.some_inj]

theorem apiKeyMatches_iff (hsha : Function.Injective sha256) {presented : String}
    {k : ApiKeyConfig} :
    apiKeyMatches sha256 env presented k = true ↔
      k.inlineKey = some presented ∨ k.envValue env = some presented ∨
        k.hashDigits = some (sha256Hex sha256 presented) := by
  rw [apiKeyMatches, Bool.or_eq_true, Bool.or_eq_true, any_secretEq_iff hsha,
    any_secretEq_iff hsha, any_secretEq_iff hsha, or_assoc]

theorem principalForKey_eq (keys : List ApiKeyConfig) (presented : String) :
    principalForKey sha256 env keys presented =
      ((keys.filter (apiKeyMatches sha256 env presented)).getLast?).map fun k =>
        (k.tenant, k.project, k.role) := by
  unfold principalForKey
  induction keys using List.reverseRecOn with
  | nil => rfl
  | append_singleton keys k ih =>
    rw [List.foldl_append, List.filter_append, List.foldl_cons, List.foldl_nil]
    by_cases hk : apiKeyMatches sha256 env presented k = true
    · rw [if_pos hk, List.filter_cons_of_pos hk, List.filter_nil, List.getLast?_concat,
        Option.map_some]
    · rw [if_neg hk, List.filter_cons_of_neg hk, List.filter_nil, List.append_nil, ih]

theorem principalForKey_perm {keys keys' : List ApiKeyConfig} {presented : String}
    (hone : keys.countP (apiKeyMatches sha256 env presented) ≤ 1) (hperm : keys'.Perm keys) :
    principalForKey sha256 env keys' presented = principalForKey sha256 env keys presented := by
  rw [principalForKey_eq, principalForKey_eq]
  have hfilter := hperm.filter (apiKeyMatches sha256 env presented)
  rw [List.countP_eq_length_filter] at hone
  generalize keys.filter (apiKeyMatches sha256 env presented) = l at *
  cases l with
  | nil => rw [hfilter.eq_nil]
  | cons k rest =>
    cases rest with
    | nil => rw [List.perm_singleton.1 hfilter]
    | cons k' rest =>
      simp only [List.length_cons] at hone
      omega

/-! ### A checked configuration -/

theorem report_eq_nil_iff {bad : Bool} {message : String} :
    report bad message = [] ↔ bad = false := by
  cases bad <;> simp [report]

/-- What a configuration without problems says of its keys. -/
structure Checked (keys : List ApiKeyConfig) : Prop where
  one_source : ∀ k ∈ keys, ([k.key, k.key_env, k.key_hash].filter nonEmpty).length = 1
  key_given : ∀ k ∈ keys, blank k.key = false
  env_given : ∀ k ∈ keys, blank k.key_env = false
  keys_nodup : (keys.filterMap ApiKeyConfig.inlineKey).Nodup
  hashes_nodup : (keys.filterMap ApiKeyConfig.hashDigits).Nodup

theorem nodup_of_duplicateProblems {i : ℕ} {values envs hashes : List String}
    {keys : List ApiKeyConfig} (h : duplicateProblems i values envs hashes keys = []) :
    ((keys.filterMap ApiKeyConfig.inlineKey).Nodup ∧
      ∀ v ∈ keys.filterMap ApiKeyConfig.inlineKey, v ∉ values) ∧
    ((keys.filterMap ApiKeyConfig.hashDigits).Nodup ∧
      ∀ v ∈ keys.filterMap ApiKeyConfig.hashDigits, v ∉ hashes) := by
  -- the values of one way, given those of the keys before
  have hcons (f : ApiKeyConfig → Option String) (k : ApiKeyConfig) (keys : List ApiKeyConfig)
      (seen : List String) (hk : (f k).any seen.contains = false)
      (hnodup : (keys.filterMap f).Nodup)
      (hnew : ∀ v ∈ keys.filterMap f, v ∉ (f k).toList ++ seen) :
      ((k :: keys).filterMap f).Nodup ∧ ∀ v ∈ (k :: keys).filterMap f, v ∉ seen := by
    cases hf : f k with
    | none =>
      rw [List.filterMap_cons_none hf]
      rw [hf] at hnew
      exact ⟨hnodup, hnew⟩
    | some v =>
      rw [List.filterMap_cons_some hf]
      rw [hf] at hnew hk
      refine ⟨List.nodup_cons.2 ⟨fun hv => hnew v hv List.mem_cons_self, hnodup⟩, ?_⟩
      rw [List.forall_mem_cons]
      refine ⟨?_, fun w hw hseen => hnew w hw (List.mem_cons_of_mem _ hseen)⟩
      simpa using hk
  induction keys generalizing i values envs hashes with
  | nil => simp
  | cons k keys ih =>
    rw [duplicateProblems, List.append_eq_nil_iff, List.append_eq_nil_iff,
      List.append_eq_nil_iff] at h
    obtain ⟨⟨⟨hkey, -⟩, hhash⟩, hrest⟩ := h
    obtain ⟨⟨hkeys, hkeysNew⟩, hhashes, hhashesNew⟩ := ih hrest
    exact ⟨hcons _ k keys values (report_eq_nil_iff.1 hkey) hkeys hkeysNew,
      hcons _ k keys hashes (report_eq_nil_iff.1 hhash) hhashes hhashesNew⟩

theorem checked_of_no_problems {cfg : Config} (h : semanticProblems cfg = []) :
    Checked cfg.api_keys := by
  rw [semanticProblems, List.append_eq_nil_iff, List.append_eq_nil_iff] at h
  obtain ⟨⟨-, hkeys⟩, hduplicates⟩ := h
  obtain ⟨⟨hkeysNodup, -⟩, hhashesNodup, -⟩ := nodup_of_duplicateProblems hduplicates
  have hkey (k : ApiKeyConfig) (hk : k ∈ cfg.api_keys) :
      ∃ i, keyProblems (tenantIds cfg) i k = [] := by
    obtain ⟨i, hi⟩ := List.mem_iff_getElem?.1 hk
    exact ⟨i, List.flatMap_eq_nil_iff.1 hkeys (k, i) (List.mk_mem_zipIdx_iff_getElem?.2 hi)⟩
  have hparts (k : ApiKeyConfig) (hk : k ∈ cfg.api_keys) :
      ([k.key, k.key_env, k.key_hash].filter nonEmpty).length = 1 ∧ blank k.key = false ∧
        blank k.key_env = false := by
    obtain ⟨i, hi⟩ := hkey k hk
    simp only [keyProblems, List.append_eq_nil_iff, report_eq_nil_iff, decide_eq_false_iff_not,
      not_not] at hi
    exact ⟨hi.1.1.1.1.1, hi.1.1.1.1.2, hi.1.1.1.2⟩
  exact ⟨fun k hk => (hparts k hk).1, fun k hk => (hparts k hk).2.1, fun k hk => (hparts k hk).2.2,
    hkeysNodup, hhashesNodup⟩

/-- The ways that an entry does not use are empty. -/
structure OneSource (k : ApiKeyConfig) : Prop where
  key_env : k.inlineKey = none ∨ k.envName = none
  key_hash : k.inlineKey = none ∨ k.hashDigits = none
  env_hash : k.envName = none ∨ k.hashDigits = none

theorem nonEmpty_of_filter {o : Option String} (hblank : blank o = false)
    (h : (o.filter fun v => !v.isEmpty) ≠ none) : nonEmpty o = true := by
  cases o with
  | none => exact absurd rfl h
  | some v => simpa [blank, nonEmpty] using hblank

theorem nonEmpty_of_hash {o : Option String} (h : o.bind normalizeSha256Hash ≠ none) :
    nonEmpty o = true := by
  cases o with
  | none => exact absurd rfl h
  | some hash =>
    cases hstrip : Text.stripLit "sha256:" hash with
    | none => simp [normalizeSha256Hash, hstrip] at h
    | some digits =>
      rw [Text.stripLit, Option.map_eq_some_iff] at hstrip
      obtain ⟨rest, hrest, -⟩ := hstrip
      have hmem : 's' ∈ hash.toList := by
        rw [Text.stripPrefixList_eq_some hrest]
        exact List.mem_append_left _ (by decide)
      simpa [nonEmpty, String.isEmpty_iff] using Text.trim_ne_empty hmem (by decide)

theorem Checked.oneSource {keys : List ApiKeyConfig} (h : Checked keys) {k : ApiKeyConfig}
    (hk : k ∈ keys) : OneSource k := by
  have hone := h.one_source k hk
  have hkey := @nonEmpty_of_filter k.key (h.key_given k hk)
  have henv := @nonEmpty_of_filter k.key_env (h.env_given k hk)
  have hhash := @nonEmpty_of_hash k.key_hash
  constructor
  · by_contra hboth
    obtain ⟨h1, h2⟩ := not_or.1 hboth
    rw [List.filter_cons_of_pos (hkey h1), List.filter_cons_of_pos (henv h2)] at hone
    simp at hone
  · by_contra hboth
    obtain ⟨h1, h3⟩ := not_or.1 hboth
    rw [List.filter_cons_of_pos (hkey h1), List.length_cons, Nat.add_eq_right,
      List.length_eq_zero_iff, List.filter_eq_nil_iff] at hone
    exact hone k.key_hash (by simp) (hhash h3)
  · by_contra hboth
    obtain ⟨h2, h3⟩ := not_or.1 hboth
    have hlist : ([k.key_env, k.key_hash].filter nonEmpty).length = 2 := by
      rw [List.filter_cons_of_pos (henv h2), List.filter_cons_of_pos (hhash h3)]
      rfl
    rw [List.filter_cons] at hone
    split_ifs at hone with hkey
    · rw [List.length_cons] at hone
      omega
    · omega

/-! ### Counting the entries that match -/

theorem count_filterMap_cons (f : ApiKeyConfig → Option String) (k : ApiKeyConfig)
    (keys : List ApiKeyConfig) (v : String) :
    ((k :: keys).filterMap f).count v =
      (keys.filterMap f).count v + if f k = some v then 1 else 0 := by
  cases hf : f k with
  | none => simp [List.filterMap_cons_none hf]
  | some w =>
    rw [List.filterMap_cons_some hf, List.count_cons]
    simp

theorem OneSource.matches_eq (hsha : Function.Injective sha256) {k : ApiKeyConfig}
    (h : OneSource k) (presented : String) :
    (if apiKeyMatches sha256 env presented k then 1 else 0) =
      (if k.inlineKey = some presented then 1 else 0) +
        (if k.envValue env = some presented then 1 else 0) +
        if k.hashDigits = some (sha256Hex sha256 presented) then 1 else 0 := by
  obtain ⟨hke, hkh, heh⟩ := h
  have hvalue (hname : k.envName = none) : k.envValue env = none := by
    rw [ApiKeyConfig.envValue, hname]
    rfl
  rw [if_congr (apiKeyMatches_iff hsha) rfl rfl]
  cases hkey : k.inlineKey with
  | some v => simp [hvalue (hke.resolve_left (by simp [hkey])), hkh.resolve_left (by simp [hkey])]
  | none =>
    cases hname : k.envName with
    | some name => simp [heh.resolve_left (by simp [hname])]
    | none => simp [hvalue hname]

/-- **The entries that match a key**, counted by the three ways. -/
theorem countP_matches (hsha : Function.Injective sha256) {keys : List ApiKeyConfig}
    (h : ∀ k ∈ keys, OneSource k) (presented : String) :
    keys.countP (apiKeyMatches sha256 env presented) =
      (keys.filterMap ApiKeyConfig.inlineKey).count presented +
        (keys.filterMap fun k => k.envValue env).count presented +
        (keys.filterMap ApiKeyConfig.hashDigits).count (sha256Hex sha256 presented) := by
  induction keys with
  | nil => rfl
  | cons k keys ih =>
    rw [List.forall_mem_cons] at h
    rw [List.countP_cons, ih h.2, h.1.matches_eq hsha, count_filterMap_cons,
      count_filterMap_cons, count_filterMap_cons]
    omega

/-- The secrets that the configuration or the environment holds as text. -/
def plainSecrets (env : String → Option String) (keys : List ApiKeyConfig) : List String :=
  keys.filterMap ApiKeyConfig.inlineKey ++ keys.filterMap fun k => k.envValue env

/-- **When an inbound key means one principal**: no secret that is there as text is also there by
its hash. -/
theorem one_principal_iff (hsha : Function.Injective sha256) {cfg : Config}
    (hproblems : semanticProblems cfg = [])
    (hdistinct : (cfg.api_keys.filterMap fun k => k.envValue env).Nodup)
    (hinline : ∀ v ∈ cfg.api_keys.filterMap fun k => k.envValue env,
      v ∉ cfg.api_keys.filterMap ApiKeyConfig.inlineKey) :
    (∀ presented,
      cfg.api_keys.countP (apiKeyMatches sha256 env presented) ≤ 1 ∧
        ∀ keys', keys'.Perm cfg.api_keys →
          principalForKey sha256 env keys' presented =
            principalForKey sha256 env cfg.api_keys presented) ↔
      ∀ v ∈ plainSecrets env cfg.api_keys,
        sha256Hex sha256 v ∉ cfg.api_keys.filterMap ApiKeyConfig.hashDigits := by
  have hchecked := checked_of_no_problems hproblems
  have hcount := @countP_matches sha256 env hsha cfg.api_keys fun k hk => hchecked.oneSource hk
  have hplain (v : String) : (plainSecrets env cfg.api_keys).count v ≤ 1 := by
    refine List.nodup_iff_count_le_one.1
      (List.nodup_append.2 ⟨hchecked.keys_nodup, hdistinct, ?_⟩) v
    rintro v hkey w henv rfl
    exact hinline v henv hkey
  simp only [plainSecrets, List.count_append] at hplain
  constructor
  · intro hone v hv hhash
    have hle := (hone v).1
    have hpos := List.count_pos_iff.2 hv
    have hhashPos := List.count_pos_iff.2 hhash
    rw [plainSecrets, List.count_append] at hpos
    rw [hcount] at hle
    omega
  · intro hapart presented
    have hle : cfg.api_keys.countP (apiKeyMatches sha256 env presented) ≤ 1 := by
      have hhash := List.nodup_iff_count_le_one.1 hchecked.hashes_nodup
        (sha256Hex sha256 presented)
      have hsecret := hplain presented
      rw [hcount]
      by_cases hmem : presented ∈ plainSecrets env cfg.api_keys
      · have hzero := List.count_eq_zero.2 (hapart presented hmem)
        omega
      · rw [plainSecrets, ← List.count_eq_zero, List.count_append] at hmem
        omega
    exact ⟨hle, fun keys' hperm => principalForKey_perm hle hperm⟩

/-- A key of each kind, of two tenants. -/
def teams : Config where
  tenants := ["acme", "globex"]
  api_keys :=
    [⟨some "sk-web", none, none, none, "acme", none, .client⟩,
      ⟨none, some "OPS_KEY", none, none, "acme", some "ops", .operator⟩,
      ⟨none, none,
        some "sha256:46db358cf47822ef17fa2cea371f2dd33512fb20ae94b092a5efb955d515b410", none,
        "globex", none, .admin⟩]
  elsewhere := []

/-- The environment of `teams`. -/
def teamsEnv (name : String) : Option String := if name = "OPS_KEY" then some "sk-ops" else none

theorem teams_checked : semanticProblems teams = [] := by
  decide +kernel

theorem one_principal_teams :
    (∀ presented,
      teams.api_keys.countP (apiKeyMatches Idempotency.knownSha256 teamsEnv presented) ≤ 1 ∧
        ∀ keys', keys'.Perm teams.api_keys →
          principalForKey Idempotency.knownSha256 teamsEnv keys' presented =
            principalForKey Idempotency.knownSha256 teamsEnv teams.api_keys presented) ↔
      ∀ v ∈ plainSecrets teamsEnv teams.api_keys,
        sha256Hex Idempotency.knownSha256 v ∉ teams.api_keys.filterMap ApiKeyConfig.hashDigits :=
  one_principal_iff Idempotency.knownSha256_injective teams_checked (by decide +kernel)
    (by decide +kernel)

/-- A tenant's key as text, and the same key by its hash, for another tenant. -/
def shared : Config where
  tenants := ["acme", "globex"]
  api_keys :=
    [⟨some "aaaaaaaaaaaaaaaaaaaaaaaaaaaaaaaa", none, none, none, "acme", none, .client⟩,
      ⟨none, none,
        some "sha256:3ba3f5f43b92602683c19aee62a20342b084dd5971ddd33808d81a328879a547", none,
        "globex", none, .admin⟩]
  elsewhere := []

/-- The role that the shared key gets is the role of the entry that comes last. -/
theorem shared_key_two_principals :
    ¬ ∀ (sha256 : ByteArray → List UInt8) (env : String → Option String) (cfg : Config),
      Function.Injective sha256 → semanticProblems cfg = [] →
      (cfg.api_keys.filterMap fun k => k.envValue env).Nodup →
      (∀ v ∈ cfg.api_keys.filterMap fun k => k.envValue env,
        v ∉ cfg.api_keys.filterMap ApiKeyConfig.inlineKey) →
      ∀ presented keys', keys'.Perm cfg.api_keys →
        principalForKey sha256 env keys' presented =
          principalForKey sha256 env cfg.api_keys presented := by
  intro h
  have heq := h Idempotency.knownSha256 (fun _ => none) shared Idempotency.knownSha256_injective
    (by decide +kernel) (by decide +kernel) (by decide +kernel) "aaaaaaaaaaaaaaaaaaaaaaaaaaaaaaaa"
    shared.api_keys.reverse (List.reverse_perm _)
  revert heq
  decide +kernel

end ApiKeys

end Switchback
