import Switchback.Core.Ir
import Switchback.Lib.Utf8Cut

/-!
# What the judge is shown of a request

The texts of a request are fed to a head and a tail of bounded size.  A request that does not fit is
shown as the beginning of the one, a marker, and the end of the other.
-/

namespace Switchback

namespace Quality

open Lib Utf8

abbrev Bytes := List UInt8

def truncationMarker : String := "\n[... CONTEXT TRUNCATED ...]\n"

def appendPrefix (dst src : Bytes) (cap : ℕ) : Bytes :=
  let remaining := cap - dst.length
  if remaining = 0 then dst else dst ++ src.take (validEnd src (min src.length remaining))

def appendTail (dst src : Bytes) (cap : ℕ) : Bytes :=
  if cap = 0 then []
  else if cap ≤ src.length then dropToValid (src.drop (src.length - cap))
  else
    let overflow := dst.length + src.length - cap
    (if 0 < overflow then dropToValid (dst.drop overflow) else dst) ++ src

def roleTag : Role → String
  | .system => "[system]\n"
  | .user => "[user]\n"
  | .assistant => "[assistant]\n"
  | .tool => "[tool]\n"

def partText : ContentPart → Option String
  | .text text => some text
  | _ => none

def messageFeeds (m : Message) : Option (List String) :=
  (m.content.mapM partText).map fun texts => roleTag m.role :: (texts ++ ["\n"])

/-- The texts that are fed, in order; none where a part is no text. -/
def feeds (req : AiRequest) : Option (List String) :=
  (req.messages.mapM messageFeeds).map fun messages =>
    (match req.system with
      | some system => ["[system]\n", system, "\n"]
      | none => []) ++ messages.flatten

structure Ends where
  head : Bytes := []
  tail : Bytes := []
  total : ℕ := 0

def feed (max : ℕ) (s : Ends) (text : String) : Ends where
  head := appendPrefix s.head (encode text.toList) max
  tail := appendTail s.tail (encode text.toList) max
  total := s.total + (encode text.toList).length

def fromBytes (bytes : Bytes) (max : ℕ) : Option Bytes :=
  if max < bytes.length ∨ ¬ Valid bytes then none else some bytes

def renderRequest (req : AiRequest) (max : ℕ) : Option Bytes :=
  (feeds req).bind fun texts =>
    let s := texts.foldl (feed max) {}
    let marker := encode truncationMarker.toList
    if s.total ≤ max then fromBytes s.head max
    else if max < marker.length then fromBytes (marker.take (validEnd marker max)) max
    else
      let payload := max - marker.length
      let headCap := payload / 2
      let tailCap := payload - headCap
      fromBytes (appendPrefix [] s.head headCap ++ marker ++
        dropToValid (s.tail.drop (s.tail.length - tailCap))) max

/-- The full rendering of a request: the texts behind their roles. -/
def fullText (req : AiRequest) : List Char := ((feeds req).getD []).flatMap String.toList

/-! ### Head and tail -/

section Ends

variable {max : ℕ} {text : List Char}

/-- The head begins with a beginning of the text, which is all of it or, of a text that does not
fit, leaves no room for a character. -/
def Head (max : ℕ) (text : List Char) (head : Bytes) : Prop :=
  ∃ p q rest, text = p ++ q ∧ head = encode p ++ rest ∧
    (q = [] ∧ rest = [] ∨ max < (encode p).length + 4 ∧ max < (encode text).length)

/-- The tail is an end of the text, which is all of it or leaves no room for a character. -/
def Tail (max : ℕ) (text : List Char) (tail : Bytes) : Prop :=
  ∃ r s, text = r ++ s ∧ tail = encode s ∧ (encode s).length ≤ max ∧
    (r = [] ∨ max < (encode s).length + 4)

theorem Head.append {head : Bytes} (h : Head max text head) (t : List Char) :
    Head max (text ++ t) (appendPrefix head (encode t) max) := by
  obtain ⟨p, q, rest, rfl, rfl, hcase⟩ := h
  unfold appendPrefix
  dsimp only
  rcases hcase with ⟨rfl, rfl⟩ | ⟨hfull, hlong⟩
  · rw [List.append_nil, List.append_nil]
    split_ifs with hroom
    · refine ⟨p, t, [], rfl, by rw [List.append_nil], ?_⟩
      rcases Nat.eq_zero_or_pos (encode t).length with hnone | hsome
      · exact .inl ⟨by rw [← lossy_encode t, List.length_eq_zero_iff.1 hnone]; rfl, rfl⟩
      · rw [encode_append, List.length_append]
        exact .inr (by omega)
    · obtain ⟨p', q', rfl, htake, hle, hnear⟩ := @validEnd_spec t [] _
        (min_le_left _ (max - (encode p).length))
      rw [List.append_nil] at htake
      rw [htake, ← encode_append]
      refine ⟨p ++ p', q', [], by rw [List.append_assoc], by rw [List.append_nil], ?_⟩
      by_cases hfits : (encode (p' ++ q')).length ≤ max - (encode p).length
      · -- What fits is valid and taken whole.
        left
        rw [min_eq_left hfits] at htake
        have hall := @le_validEnd (encode (p' ++ q')) _ _ le_rfl
          (by rw [List.take_length]; exact valid_encode _)
        rw [List.take_of_length_le hall, encode_append] at htake
        have hq' : encode q' = [] := List.append_right_eq_self.1 htake
        rw [← lossy_encode q', hq']
        exact ⟨rfl, rfl⟩
      · rw [min_eq_right (by omega)] at hnear
        rw [encode_append p p', encode_append p, List.length_append, List.length_append]
        exact .inr (by omega)
  · have hlong' : max < (encode (p ++ q ++ t)).length := by
      rw [encode_append, List.length_append]
      omega
    refine ⟨p, q ++ t, ?_⟩
    split_ifs
    · exact ⟨rest, List.append_assoc .., rfl, .inr ⟨hfull, hlong'⟩⟩
    · exact ⟨_, List.append_assoc .., List.append_assoc .., .inr ⟨hfull, hlong'⟩⟩

theorem Tail.append {tail : Bytes} (h : Tail max text tail) (t : List Char) :
    Tail max (text ++ t) (appendTail tail (encode t) max) := by
  obtain ⟨r, s, rfl, rfl, hle, hcase⟩ := h
  unfold appendTail
  dsimp only
  split_ifs with hzero hlong hover
  · exact ⟨r ++ s ++ t, [], by rw [List.append_nil], rfl, by simp [encode], .inr (by simp [hzero])⟩
  · obtain ⟨r', s', rfl, hdrop, hle', hnear⟩ := @dropToValid_spec t
      ((encode t).length - max) (Nat.sub_le _ _)
    rw [hdrop]
    exact ⟨r ++ s ++ r', s', by simp only [List.append_assoc], rfl, by omega, .inr (by omega)⟩
  · obtain ⟨r', s', rfl, hdrop, hle', hnear⟩ := @dropToValid_spec s
      ((encode s).length + (encode t).length - max) (by omega)
    rw [hdrop, ← encode_append]
    refine ⟨r ++ r', s' ++ t, by simp only [List.append_assoc], rfl, ?_, .inr ?_⟩ <;>
      rw [encode_append, List.length_append] <;> omega
  · rw [← encode_append]
    refine ⟨r, s ++ t, List.append_assoc .., rfl, ?_, hcase.imp_right fun hfull => ?_⟩ <;>
      rw [encode_append, List.length_append] <;> omega

theorem foldl_feed (max : ℕ) (texts : List String) :
    Head max (texts.flatMap String.toList) (texts.foldl (feed max) {}).head ∧
      Tail max (texts.flatMap String.toList) (texts.foldl (feed max) {}).tail ∧
        (texts.foldl (feed max) {}).total = (encode (texts.flatMap String.toList)).length := by
  induction texts using List.reverseRecOn with
  | nil =>
    exact ⟨⟨[], [], [], rfl, rfl, .inl ⟨rfl, rfl⟩⟩, ⟨[], [], rfl, rfl, Nat.zero_le _, .inl rfl⟩, rfl⟩
  | append_singleton texts t ih =>
    obtain ⟨hhead, htail, htotal⟩ := ih
    rw [List.foldl_append, List.foldl_cons, List.foldl_nil, List.flatMap_append,
      List.flatMap_singleton]
    refine ⟨hhead.append _, htail.append _, ?_⟩
    rw [feed, htotal, encode_append, List.length_append]

end Ends

/-! ### The rendering -/

theorem length_truncationMarker : (encode truncationMarker.toList).length = 29 := by decide

theorem fromBytes_encode {cs : List Char} {max : ℕ} (h : (encode cs).length ≤ max) :
    fromBytes (encode cs) max = some (encode cs) :=
  if_neg (by simp [valid_encode, h])

theorem feeds_isSome {req : AiRequest}
    (h : ∀ m ∈ req.messages, ∀ part ∈ m.content, ∃ text, part = .text text) :
    ∃ texts, feeds req = some texts := by
  have hmapM {α β : Type} (f : α → Option β) (l : List α) (hl : ∀ a ∈ l, ∃ b, f a = some b) :
      ∃ bs, l.mapM f = some bs := by
    induction l with
    | nil => exact ⟨[], rfl⟩
    | cons a l ih =>
      obtain ⟨b, hb⟩ := hl a List.mem_cons_self
      obtain ⟨bs, hbs⟩ := ih fun a ha => hl a (List.mem_cons_of_mem _ ha)
      exact ⟨b :: bs, by rw [List.mapM_cons, hb, hbs]; rfl⟩
  obtain ⟨messages, hmessages⟩ := hmapM messageFeeds req.messages fun m hm => by
    obtain ⟨texts, htexts⟩ := hmapM partText m.content fun part hpart => by
      obtain ⟨text, rfl⟩ := h m hm part hpart
      exact ⟨text, rfl⟩
    exact ⟨_, by rw [messageFeeds, htexts]; rfl⟩
  exact ⟨_, by rw [feeds, hmessages]; rfl⟩

/-- **A true head and a true tail.**  A text that fits is shown whole; of one that does not, what is
shown begins and ends as the text does, is cut between characters, fits, and wastes at most three
bytes at either cut. -/
theorem renderRequest_spec {req : AiRequest} {max : ℕ} (hmax : 29 ≤ max)
    (htext : ∀ m ∈ req.messages, ∀ part ∈ m.content, ∃ text, part = .text text) :
    ((encode (fullText req)).length ≤ max → renderRequest req max = some (encode (fullText req))) ∧
      (max < (encode (fullText req)).length →
        ∃ p q r s, fullText req = p ++ q ∧ fullText req = r ++ s ∧
          renderRequest req max = some (encode (p ++ truncationMarker.toList ++ s)) ∧
          (encode (p ++ truncationMarker.toList ++ s)).length ≤ max ∧
          (max - 29) / 2 < (encode p).length + 4 ∧
          (max - 29) - (max - 29) / 2 < (encode s).length + 4) := by
  obtain ⟨texts, htexts⟩ := feeds_isSome htext
  have hfull : fullText req = texts.flatMap String.toList := by
    rw [fullText, htexts]
    rfl
  obtain ⟨hhead, htail, htotal⟩ := foldl_feed max texts
  rw [← hfull] at hhead htail htotal
  unfold renderRequest
  rw [htexts, Option.bind_some]
  dsimp only
  rw [htotal, length_truncationMarker]
  obtain ⟨p, q, rest, hpq, hp, hcase⟩ := hhead
  have hparts : (encode (fullText req)).length = (encode p).length + (encode q).length := by
    rw [hpq, encode_append, List.length_append]
  constructor
  · intro hfits
    rw [if_pos hfits, hp]
    rcases hcase with ⟨rfl, rfl⟩ | ⟨-, hlong⟩
    · rw [List.append_nil] at hpq ⊢
      rw [hpq] at hfits ⊢
      exact fromBytes_encode hfits
    · omega
  · intro hlong
    obtain ⟨r, s, hrs, hs, hsle, hscase⟩ := htail
    have hends : max < (encode p).length + 4 ∧ max < (encode s).length + 4 := by
      constructor
      · rcases hcase with ⟨rfl, -⟩ | ⟨hroom, -⟩
        · rw [List.append_nil] at hpq
          rw [← hpq]
          omega
        · exact hroom
      · rcases hscase with rfl | hroom
        · rw [List.nil_append] at hrs
          rw [← hrs]
          omega
        · exact hroom
    rw [if_neg (by omega), if_neg (by omega), hp, hs]
    obtain ⟨p', q', rfl, htake, hple, hpnear⟩ := @validEnd_spec p rest
      ((max - 29) / 2) (by omega)
    obtain ⟨r', s', rfl, hdrop, hsle', hsnear⟩ := @dropToValid_spec s
      ((encode s).length - (max - 29 - (max - 29) / 2)) (by omega)
    have hfront : appendPrefix [] (encode (p' ++ q') ++ rest) ((max - 29) / 2) = encode p' := by
      unfold appendPrefix
      dsimp only
      rw [List.length_nil, Nat.sub_zero, List.nil_append, List.length_append,
        min_eq_right (by omega), htake]
      split_ifs with hzero
      · rw [List.length_eq_zero_iff.1 (by omega : (encode p').length = 0)]
      · rfl
    have hlength : (encode (p' ++ truncationMarker.toList ++ s')).length ≤ max := by
      rw [encode_append, encode_append, List.length_append, List.length_append,
        length_truncationMarker]
      omega
    refine ⟨p', q' ++ q, r ++ r', s', by rw [hpq, List.append_assoc],
      by rw [hrs, List.append_assoc], ?_, hlength, by omega, by omega⟩
    rw [hfront, hdrop, ← encode_append, ← encode_append]
    exact fromBytes_encode hlength

def helloRequest : AiRequest where
  id := "r1"
  model := "mock/echo"
  messages := [{ role := .user, content := [.text "hello, is anybody there to answer me?"] }]

theorem renderRequest_spec_hello :
    ∃ p q r s, fullText helloRequest = p ++ q ∧ fullText helloRequest = r ++ s ∧
      renderRequest helloRequest 40 = some (encode (p ++ truncationMarker.toList ++ s)) ∧
      (encode (p ++ truncationMarker.toList ++ s)).length ≤ 40 ∧
      (40 - 29) / 2 < (encode p).length + 4 ∧ 40 - 29 - (40 - 29) / 2 < (encode s).length + 4 :=
  (renderRequest_spec (by decide) (by simp [helloRequest])).2 (by decide)

example : renderRequest helloRequest 40 =
    some (encode "[user\n[... CONTEXT TRUNCATED ...]\nr me?\n".toList) := by decide

end Quality

end Switchback
