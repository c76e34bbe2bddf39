import Switchback.Lib.Hex
import Switchback.Lib.Split
import Switchback.Server.Tenancy

/-!
# Idempotency keys

A client key is stored under a hash of the endpoint, the tenant, the project and the key itself.
-/

namespace Switchback

namespace Idempotency

open Lib
open Tenancy (Principal ApiKeyRole)

variable (sha256 : ByteArray → List UInt8)

def hexSha256 (material : String) : String := "v2:" ++ Hex.hex (sha256 material.toUTF8)

def scopedKey (raw_key : String) (principal : Principal) (endpoint : String) : String :=
  let tenant := principal.tenant.getD "-"
  let project := principal.project.getD "-"
  hexSha256 sha256 (endpoint ++ "\x00" ++ tenant ++ "\x00" ++ project ++ "\x00" ++ raw_key)

/-- What a stored key is made of. -/
structure Scope where
  endpoint : String
  tenant : Option String
  project : Option String
  raw_key : String

/-- The stored key of a scope, for a caller of some role. -/
def Scope.stored (x : Scope) (role : ApiKeyRole) : String :=
  scopedKey sha256 x.raw_key ⟨x.tenant, x.project, role⟩ x.endpoint

/-- The character between two parts. -/
def nul : Char := '\x00'

/-- The text that is hashed. -/
def Scope.material (x : Scope) : List Char :=
  x.endpoint.toList ++ nul :: ((x.tenant.getD "-").toList ++
    nul :: ((x.project.getD "-").toList ++ nul :: x.raw_key.toList))

/-- No part before the key has the separator in it, and no name is the placeholder. -/
structure Scope.Separable (x : Scope) : Prop where
  endpoint : nul ∉ x.endpoint.toList
  tenant : nul ∉ (x.tenant.getD "-").toList
  project : nul ∉ (x.project.getD "-").toList
  tenant_ne : x.tenant ≠ some "-"
  project_ne : x.project ≠ some "-"

/-- Tenant and project are given, and no part has the separator in it. -/
structure Scope.Unambiguous (x : Scope) : Prop extends x.Separable where
  tenant_some : x.tenant ≠ none
  project_some : x.project ≠ none
  raw_key : nul ∉ x.raw_key.toList

variable {sha256}

variable {x y : Scope}

/-- Stored keys are the same exactly where the hashed texts are. -/
theorem stored_eq_iff (hsha : Function.Injective sha256) {role role' : ApiKeyRole} :
    x.stored sha256 role = y.stored sha256 role' ↔ x.material = y.material := by
  have htext (z : Scope) (r : ApiKeyRole) : z.stored sha256 r =
      "v2:" ++ Hex.hex (sha256 (String.ofList z.material).toUTF8) := by
    rw [Scope.stored, scopedKey, hexSha256]
    congr 4
    apply String.toList_injective
    simp [Scope.material, nul]
  rw [htext, htext]
  constructor
  · intro h
    have hhex := Hex.hex_injective (String.append_right_inj _ |>.1 h)
    have hbytes := hsha hhex
    rw [String.toUTF8_eq_toByteArray, String.toUTF8_eq_toByteArray, String.toByteArray_inj] at hbytes
    exact String.ofList_injective hbytes
  · intro h
    rw [h]

/-- A name that is not the placeholder is told from a missing one. -/
theorem getD_inj {a b : Option String} (ha : a ≠ some "-") (hb : b ≠ some "-")
    (h : (a.getD "-").toList = (b.getD "-").toList) : a = b := by
  have h := String.toList_injective h
  cases a with
  | none =>
    cases b with
    | none => rfl
    | some t => exact absurd (congrArg some h.symm) hb
  | some s =>
    cases b with
    | none => exact absurd (congrArg some h) ha
    | some t => exact congrArg some h

/-- **The parts of a joined text.**  Where no part before the key has the separator in it, the text
tells the parts. -/
theorem parts_of_material (hx : nul ∉ x.endpoint.toList)
    (hx' : nul ∉ (x.tenant.getD "-").toList) (hx'' : nul ∉ (x.project.getD "-").toList)
    (hy : nul ∉ y.endpoint.toList) (hy' : nul ∉ (y.tenant.getD "-").toList)
    (hy'' : nul ∉ (y.project.getD "-").toList) (h : x.material = y.material) :
    x.endpoint = y.endpoint ∧ (x.tenant.getD "-").toList = (y.tenant.getD "-").toList ∧
      (x.project.getD "-").toList = (y.project.getD "-").toList ∧ x.raw_key = y.raw_key := by
  obtain ⟨hendpoint, h⟩ := Text.append_cons_inj_of_notMem hx hy h
  obtain ⟨htenant, h⟩ := Text.append_cons_inj_of_notMem hx' hy' h
  obtain ⟨hproject, hraw⟩ := Text.append_cons_inj_of_notMem hx'' hy'' h
  exact ⟨String.toList_injective hendpoint, htenant, hproject, String.toList_injective hraw⟩

theorem Scope.Separable.material_inj (hx : x.Separable) (hy : y.Separable)
    (h : x.material = y.material) : x = y := by
  obtain ⟨hendpoint, htenant, hproject, hraw⟩ := parts_of_material hx.endpoint hx.tenant hx.project
    hy.endpoint hy.tenant hy.project h
  have htenant := getD_inj hx.tenant_ne hy.tenant_ne htenant
  have hproject := getD_inj hx.project_ne hy.project_ne hproject
  cases x
  cases y
  simp_all

theorem count_material (x : Scope) : x.material.count nul =
    x.endpoint.toList.count nul + (x.tenant.getD "-").toList.count nul +
      (x.project.getD "-").toList.count nul + x.raw_key.toList.count nul + 3 := by
  simp only [Scope.material, List.count_append, List.count_cons_self]
  omega

theorem Scope.Unambiguous.material_inj (hx : x.Unambiguous)
    (h : x.material = y.material) : x = y := by
  -- the text has three separators, so none of them is inside a part of the other scope
  have hcount := count_material y
  rw [← h, count_material x, List.count_eq_zero_of_not_mem hx.endpoint,
    List.count_eq_zero_of_not_mem hx.tenant, List.count_eq_zero_of_not_mem hx.project,
    List.count_eq_zero_of_not_mem hx.raw_key] at hcount
  have hnot (l : List Char) (hl : l.count nul = 0) : nul ∉ l := List.count_eq_zero.1 hl
  obtain ⟨hendpoint, htenant, hproject, hraw⟩ := parts_of_material hx.endpoint hx.tenant hx.project
    (hnot y.endpoint.toList (by omega)) (hnot (y.tenant.getD "-").toList (by omega))
    (hnot (y.project.getD "-").toList (by omega)) h
  have hgiven {a b : Option String} (ha : a ≠ none) (ha' : a ≠ some "-")
      (hab : (a.getD "-").toList = (b.getD "-").toList) : a = b := by
    cases a with
    | none => exact absurd rfl ha
    | some s =>
      refine getD_inj ha' ?_ hab
      rintro rfl
      exact ha' (congrArg some (String.toList_injective hab))
  have htenant := hgiven hx.tenant_some hx.tenant_ne htenant
  have hproject := hgiven hx.project_some hx.project_ne hproject
  cases x
  cases y
  simp_all

/-! ### Collisions -/

/-- Text before and after a separator that a part has in it. -/
theorem exists_cut {s : String} (h : nul ∈ s.toList) :
    ∃ a b : String, s.toList = a.toList ++ nul :: b.toList ∧ a ≠ s := by
  obtain ⟨a, b, hab⟩ := List.append_of_mem h
  refine ⟨String.ofList a, String.ofList b, by simpa using hab, ?_⟩
  rintro rfl
  have := congrArg List.length hab
  simp at this

/-- **A scope that can be mistaken.**  A missing name is stored like the placeholder, and a
separator inside a part moves to the border of another. -/
theorem unambiguous_of_unique (h : ∀ y : Scope, x.material = y.material → x = y) :
    x.Unambiguous := by
  have htenant : ∀ t, x.tenant = t → t ≠ none ∧ t ≠ some "-" := by
    rintro t rfl
    constructor
    · intro hnone
      have heq := h { x with tenant := some "-" } (by simp [Scope.material, hnone])
      rw [heq] at hnone
      cases hnone
    · intro hdash
      have heq := h { x with tenant := none } (by simp [Scope.material, hdash])
      rw [heq] at hdash
      cases hdash
  have hproject : ∀ p, x.project = p → p ≠ none ∧ p ≠ some "-" := by
    rintro p rfl
    constructor
    · intro hnone
      have heq := h { x with project := some "-" } (by simp [Scope.material, hnone])
      rw [heq] at hnone
      cases hnone
    · intro hdash
      have heq := h { x with project := none } (by simp [Scope.material, hdash])
      rw [heq] at hdash
      cases hdash
  -- the parts behind the cut move one place to the right
  have hendpoint : nul ∉ x.endpoint.toList := by
    intro hmem
    obtain ⟨a, b, hcut, hne⟩ := exists_cut hmem
    have heq := h ⟨a, some b, some (x.tenant.getD "-"),
      String.ofList ((x.project.getD "-").toList ++ nul :: x.raw_key.toList)⟩
      (by simp [Scope.material, hcut])
    exact hne (congrArg Scope.endpoint heq).symm
  have hname : nul ∉ (x.tenant.getD "-").toList := by
    intro hmem
    obtain ⟨a, b, hcut, hne⟩ := exists_cut hmem
    have heq := h ⟨x.endpoint, some a, some b,
      String.ofList ((x.project.getD "-").toList ++ nul :: x.raw_key.toList)⟩
      (by simp [Scope.material, hcut])
    exact hne (by rw [congrArg Scope.tenant heq]; rfl)
  have hlabel : nul ∉ (x.project.getD "-").toList := by
    intro hmem
    obtain ⟨a, b, hcut, hne⟩ := exists_cut hmem
    have heq := h ⟨x.endpoint, x.tenant, some a,
      String.ofList (b.toList ++ nul :: x.raw_key.toList)⟩
      (by simp [Scope.material, hcut])
    exact hne (by rw [congrArg Scope.project heq]; rfl)
  have hraw : nul ∉ x.raw_key.toList := by
    intro hmem
    obtain ⟨a, b, hcut, hne⟩ := exists_cut hmem
    have heq := h ⟨x.endpoint, x.tenant,
      some (String.ofList ((x.project.getD "-").toList ++ nul :: a.toList)), b⟩
      (by simp [Scope.material, hcut])
    have hlen := congrArg (fun z : Scope => z.raw_key.toList.length) heq
    simp only [hcut, List.length_append, List.length_cons] at hlen
    omega
  exact ⟨⟨hendpoint, hname, hlabel, (htenant _ rfl).2, (hproject _ rfl).2⟩, (htenant _ rfl).1,
    (hproject _ rfl).1, hraw⟩

/-- **Stored keys.**  No other scope has the stored key of a scope exactly when its tenant and its
project are given and no part has the separator or is the placeholder; and among scopes without the
separator in a name and without the placeholder as a name, no two share a stored key. -/
theorem scopedKey_injective_iff (hsha : Function.Injective sha256) :
    (∀ (x : Scope) (role : ApiKeyRole),
      (∀ (y : Scope) (role' : ApiKeyRole), x.stored sha256 role = y.stored sha256 role' → x = y) ↔
        x.Unambiguous) ∧
    ∀ x y : Scope, x.Separable → y.Separable → ∀ role role' : ApiKeyRole,
      x.stored sha256 role = y.stored sha256 role' → x = y := by
  refine ⟨fun x role => ⟨fun h => ?_, fun h y role' hkey => ?_⟩, fun x y hx hy role role' hkey => ?_⟩
  · exact unambiguous_of_unique fun y hy => h y role ((stored_eq_iff hsha).2 hy)
  · exact h.material_inj ((stored_eq_iff hsha).1 hkey)
  · exact hx.material_inj hy ((stored_eq_iff hsha).1 hkey)

/-- Texts with their SHA-256 digests. -/
def digests : List (String × ℕ) :=
  [("/v1/chat/completions\x00acme\x00web\x00key-1",
      0xbda914c6f559e46dba8e6258fd1033314b5deb6c96b8e20cd42c99e8b75e22b7),
    ("/v1/chat/completions\x00-\x00-\x00key-1",
      0x9dd8b5ed06a75c3400e16bdf687a24c5935ea2ee25cca6cda7a066e110243e41),
    ("sk-web",
      0x4b3bc1de5ca5cd1f74cf4704c5adec1818080396b5f22c547f8971c849d5c3d0),
    ("sk-ops",
      0xc391959605db2757d87bf45d5f4c9bda42b68e95dcd157bf4f2473516c2bc9bb),
    ("sk-admin",
      0x46db358cf47822ef17fa2cea371f2dd33512fb20ae94b092a5efb955d515b410),
    ("46db358cf47822ef17fa2cea371f2dd33512fb20ae94b092a5efb955d515b410",
      0x6511c2a6429e61c9d042dfa667a11835569565cc2154ed3b141080b7fe1cc140),
    ("aaaaaaaaaaaaaaaaaaaaaaaaaaaaaaaa",
      0x3ba3f5f43b92602683c19aee62a20342b084dd5971ddd33808d81a328879a547),
    ("3ba3f5f43b92602683c19aee62a20342b084dd5971ddd33808d81a328879a547",
      0x0fa0a56f2844de0b7166fa09f32c4ada91861fa68c2c00c7367d2a89566a525d)]

/-- The 32 bytes of a digest, the most significant first. -/
def digestBytes (digest : ℕ) : List UInt8 :=
  (List.range 32).reverse.map fun i => UInt8.ofNat (digest / 256 ^ i)

/-- A hash without collisions, which is SHA-256 at the texts of `digests`. -/
def knownSha256 (b : ByteArray) : List UInt8 :=
  match digests.find? fun e => e.1.toUTF8.data = b.data with
  | some e => digestBytes e.2
  | none => b.data.toList ++ List.replicate 33 0

theorem knownSha256_injective : Function.Injective knownSha256 := by
  have hnodup : (digests.map fun e => digestBytes e.2).Nodup := by decide +kernel
  have hlength (digest : ℕ) (b : ByteArray) :
      digestBytes digest ≠ b.data.toList ++ List.replicate 33 0 := by
    intro h
    have hlen := congrArg List.length h
    simp [digestBytes] at hlen
  have hkey {b : ByteArray} {e : String × ℕ}
      (h : digests.find? (fun e => e.1.toUTF8.data = b.data) = some e) :
      e ∈ digests ∧ e.1.toUTF8 = b :=
    ⟨List.mem_of_find?_eq_some h, ByteArray.ext (by simpa using List.find?_some h)⟩
  intro a b h
  unfold knownSha256 at h
  split at h
  · rename_i e he
    split at h
    · rename_i e' he'
      have hsame : e = e' := List.inj_on_of_nodup_map hnodup (hkey he).1 (hkey he').1 h
      rw [← (hkey he).2, ← (hkey he').2, hsame]
    · exact absurd h (hlength _ _)
  · split at h
    · exact absurd h.symm (hlength _ _)
    · exact ByteArray.ext (Array.toList_inj.1 (List.append_cancel_right h))

/-- A request of a tenant's project. -/
def tenantRequest : Scope := ⟨"/v1/chat/completions", some "acme", some "web", "key-1"⟩

theorem scopedKey_injective_tenant :
    Function.Injective knownSha256 ∧
      ((∀ (y : Scope) (role : ApiKeyRole),
        tenantRequest.stored knownSha256 .client = y.stored knownSha256 role → tenantRequest = y) ↔
          tenantRequest.Unambiguous) :=
  ⟨knownSha256_injective, (scopedKey_injective_iff knownSha256_injective).1 tenantRequest .client⟩

/-- A caller without a tenant and a tenant that is called like the placeholder share their keys. -/
theorem placeholder_shares_key :
    ¬ ∀ hash : ByteArray → List UInt8, Function.Injective hash →
      ∀ (x y : Scope) (role role' : ApiKeyRole),
        x.stored hash role = y.stored hash role' → x = y := by
  intro h
  have heq := h knownSha256 knownSha256_injective ⟨"/v1/chat/completions", none, none, "key-1"⟩
    ⟨"/v1/chat/completions", some "-", none, "key-1"⟩ .admin .client
    ((stored_eq_iff knownSha256_injective).2 rfl)
  cases heq

end Idempotency

end Switchback
