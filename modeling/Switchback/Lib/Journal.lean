import Mathlib.Algebra.Order.Ring.Int
import Mathlib.Data.List.Infix

/-!
# Append-only journals

A journal is a sequence of self-delimiting frames, of which the last may be cut short by a crash.
A format is given by `next`, which reads one frame off the front of the bytes or says that they
end there, that they are the torn start of a frame, or that they are damaged.
-/

namespace Lib

namespace Journal

variable {ε α : Type*}

/-- What the front of the bytes is. -/
inductive Next (ε α : Type*)
  | done
  | torn (reason : ε)
  | bad (reason : ε)
  | frame (a : α) (rest : List UInt8)

/-- Read frames until the bytes end or are torn. -/
def scan (next : List UInt8 → Next ε α) :
    ℕ → List UInt8 → Except ε (List α × Option (ε × List UInt8))
  | 0, _ => .ok ([], none)
  | fuel + 1, bytes =>
    match next bytes with
    | .done => .ok ([], none)
    | .torn e => .ok ([], some (e, bytes))
    | .bad e => .error e
    | .frame a rest =>
      match scan next fuel rest with
      | .error e => .error e
      | .ok (frames, tail) => .ok (a :: frames, tail)

/-- The bytes `b` are the frame `a`. -/
structure Encodes (next : List UInt8 → Next ε α) (a : α) (b : List UInt8) : Prop where
  nonempty : b ≠ []
  whole : ∀ rest, next (b ++ rest) = .frame a rest
  part : ∀ p, p <+: b → p ≠ [] → p ≠ b → ∃ e, next p = .torn e

section Scan

variable {next : List UInt8 → Next ε α}

theorem scan_append {frames : List (α × List UInt8)} (h : ∀ f ∈ frames, Encodes next f.1 f.2)
    {rest : List UInt8} {as : List α} {tail : Option (ε × List UInt8)} {fuel : ℕ}
    (hrest : ∀ n, rest.length < n → scan next n rest = .ok (as, tail))
    (hfuel : ((frames.map Prod.snd).flatten ++ rest).length < fuel) :
    scan next fuel ((frames.map Prod.snd).flatten ++ rest) =
      .ok (frames.map Prod.fst ++ as, tail) := by
  induction frames generalizing fuel with
  | nil => simpa using hrest fuel (by simpa using hfuel)
  | cons f frames ih =>
    obtain ⟨hne, hwhole, -⟩ := h f List.mem_cons_self
    have hpos : 0 < f.2.length := List.length_pos_iff.2 hne
    cases fuel with
    | zero => simp at hfuel
    | succ fuel =>
      simp only [List.map_cons, List.flatten_cons, List.append_assoc, List.length_append]
        at hfuel ⊢
      simp only [scan, hwhole]
      rw [ih (fun g hg => h g (List.mem_cons_of_mem _ hg))
        (by simp only [List.length_append]; omega)]
      rfl

/-- **What was written is read back.** -/
theorem scan_flatten (hdone : next [] = .done) {frames : List (α × List UInt8)}
    (h : ∀ f ∈ frames, Encodes next f.1 f.2) {fuel : ℕ}
    (hfuel : (frames.map Prod.snd).flatten.length < fuel) :
    scan next fuel (frames.map Prod.snd).flatten = .ok (frames.map Prod.fst, none) := by
  have hrest (n : ℕ) (hn : ([] : List UInt8).length < n) : scan next n [] = .ok ([], none) := by
    cases n with
    | zero => rfl
    | succ n => simp only [scan, hdone]
  have := scan_append h hrest (by simpa using hfuel)
  simpa using this

/-- **A torn frame is found as such**, behind the frames that were written whole. -/
theorem scan_torn {frames : List (α × List UInt8)} (h : ∀ f ∈ frames, Encodes next f.1 f.2)
    {a : α} {b p : List UInt8} (hb : Encodes next a b) (hp : p <+: b) (hne : p ≠ [])
    (hpart : p ≠ b) {fuel : ℕ} (hfuel : ((frames.map Prod.snd).flatten ++ p).length < fuel) :
    ∃ e, scan next fuel ((frames.map Prod.snd).flatten ++ p) =
      .ok (frames.map Prod.fst, some (e, p)) := by
  obtain ⟨e, he⟩ := hb.part p hp hne hpart
  refine ⟨e, ?_⟩
  have hrest (n : ℕ) (hn : p.length < n) : scan next n p = .ok ([], some (e, p)) := by
    cases n with
    | zero => omega
    | succ n => simp only [scan, he]
  have := scan_append h hrest hfuel
  simpa using this

end Scan

/-! ### Cuts -/

section Cuts

variable {encode : α → List UInt8}

/-- The frames that end within the first `n` bytes. -/
def within (encode : α → List UInt8) : ℕ → List α → List α
  | _, [] => []
  | n, a :: as =>
    if (encode a).length ≤ n then a :: within encode (n - (encode a).length) as else []

theorem within_prefix (n : ℕ) (as : List α) : within encode n as <+: as := by
  induction as generalizing n with
  | nil => exact List.nil_prefix
  | cons a as ih =>
    rw [within]
    split_ifs with h
    · exact List.prefix_cons_inj a |>.2 (ih _)
    · exact List.nil_prefix

/-- **A cut journal** is the frames that it leaves whole, and a part of the next one. -/
theorem take_flatten (n : ℕ) (as : List α) :
    ∃ p, ((as.map encode).flatten).take n = ((within encode n as).map encode).flatten ++ p ∧
      (p ≠ [] → ∃ a ∈ as, p <+: encode a ∧ p ≠ encode a) := by
  induction as generalizing n with
  | nil => exact ⟨[], by simp [within], fun h => absurd rfl h⟩
  | cons a as ih =>
    rw [within, List.map_cons, List.flatten_cons]
    split_ifs with h
    · obtain ⟨p, heq, hp⟩ := ih (n - (encode a).length)
      refine ⟨p, ?_, fun hne => ?_⟩
      · rw [List.take_append, List.take_of_length_le h, heq, List.map_cons, List.flatten_cons,
          List.append_assoc]
      · obtain ⟨b, hb, hpart⟩ := hp hne
        exact ⟨b, List.mem_cons_of_mem _ hb, hpart⟩
    · -- the cut stands inside the first frame
      rw [not_le] at h
      refine ⟨(encode a).take n, ?_, fun _ => ⟨a, List.mem_cons_self, List.take_prefix _ _, ?_⟩⟩
      · rw [List.take_append_of_le_length h.le]
        rfl
      · intro hwhole
        have hlen := congrArg List.length hwhole
        rw [List.length_take] at hlen
        omega

end Cuts

/-! ### Big-endian numbers -/

/-- The number `n` in `w` bytes, most significant first. -/
def toBe : ℕ → ℕ → List UInt8
  | 0, _ => []
  | w + 1, n => toBe w (n / 256) ++ [UInt8.ofNat (n % 256)]

/-- The number that bytes spell, most significant first. -/
def fromBe (bytes : List UInt8) : ℕ := bytes.foldl (fun n b => n * 256 + b.toNat) 0

@[simp] theorem length_toBe (w n : ℕ) : (toBe w n).length = w := by
  induction w generalizing n with
  | zero => rfl
  | succ w ih => simp [toBe, ih]

theorem fromBe_toBe {w n : ℕ} (h : n < 256 ^ w) : fromBe (toBe w n) = n := by
  induction w generalizing n with
  | zero => rw [pow_zero, Nat.lt_one_iff] at h; subst h; rfl
  | succ w ih =>
    have hdiv : n / 256 < 256 ^ w := by
      rw [pow_succ] at h
      exact Nat.div_lt_of_lt_mul (by omega)
    have hlast : (UInt8.ofNat (n % 256)).toNat = n % 256 := by
      rw [UInt8.toNat_ofNat']
      omega
    rw [toBe, fromBe, List.foldl_append, ← fromBe, ih hdiv, List.foldl_cons, List.foldl_nil, hlast]
    omega

end Journal

end Lib
