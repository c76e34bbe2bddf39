import Switchback.Lib.HttpResponse
import Switchback.Server.ProxyRequests

/-!
# What the client of the proxy reads

Every request of an intercepted connection is to be answered with one message.
-/

namespace Switchback

namespace Proxy

open Lib Http

/-- The responses that have no body whatever their fields say. -/
def bodyless (method : Text) (status : ℕ) : Bool :=
  method = "HEAD".toList ∨ (100 ≤ status ∧ status < 200) ∨ status = 204 ∨ status = 304 ∨
    (method = "CONNECT".toList ∧ 200 ≤ status ∧ status < 300)

section Parts

variable {nobody : ℕ → Bool}

theorem trimOws_digits (n : ℕ) : trimOws (' ' :: Nat.toDigits 10 n) = Nat.toDigits 10 n := by
  have hows : ∀ c ∈ Nat.toDigits 10 n, isOws c = false := by
    intro c hc
    have hd : c.isDigit = true := Nat.isDigit_of_mem_toDigits (by decide) (by decide) hc
    rw [← Bool.not_eq_true]
    intro h
    rcases isOws_cases h with rfl | rfl
    · exact absurd hd (by decide)
    · exact absurd hd (by decide)
  have hdrop : ∀ t : Text, (∀ c ∈ t, isOws c = false) → t.dropWhile isOws = t := by
    intro t ht
    cases t with
    | nil => rfl
    | cons c t => simp [ht c List.mem_cons_self]
  have hsp : isOws ' ' = true := by decide
  rw [trimOws, List.dropWhile_cons, if_pos hsp, hdrop _ hows, hdrop, List.reverse_reverse]
  simpa using hows

theorem receive_simpleHead {status : ℕ} (hs : 100 ≤ status ∧ status < 1000) (body : String) :
    receive nobody (simpleHead status body) =
      afterHead nobody status ⟨false, some (bytes body.toList).length⟩ := by
  have hstatus : (bytes ("HTTP/1.1 ".toList ++ toDecimal status ++ " Error".toList) ++ crlf).foldl
      (feed nobody) (.line .status []) = .line (.field status ⟨false, none⟩) [] :=
    feed_status hs (forall_chars rfl)
  have hlength : (bytes ("content-length: ".toList ++ toDecimal (bytes body.toList).length) ++
      crlf).foldl (feed nobody) (.line (.field status ⟨false, none⟩) []) =
        .line (.field status ⟨false, some (bytes body.toList).length⟩) [] := by
    have hadd : (⟨false, none⟩ : BodyInfo).add (lower "content-length".toList)
        (trimOws (' ' :: toDecimal (bytes body.toList).length)) =
          some ⟨false, some (bytes body.toList).length⟩ := by
      rw [toDecimal, trimOws_digits, BodyInfo.add, if_neg (by decide), if_pos (by decide),
        decimal_toDigits]
    exact feed_field (by decide) (forall_chars rfl) (printable_decimal _) hadd
  have htype : (bytes "content-type: text/plain".toList ++ crlf).foldl (feed nobody)
      (.line (.field status ⟨false, some (bytes body.toList).length⟩) []) =
        .line (.field status ⟨false, some (bytes body.toList).length⟩) [] := by
    show (bytes ("content-type".toList ++ ": ".toList ++ "text/plain".toList) ++ crlf).foldl _ _ = _
    exact feed_field (by decide) (forall_chars rfl) (forall_chars rfl) rfl
  have hparts : simpleHead status body =
      (bytes ("HTTP/1.1 ".toList ++ toDecimal status ++ " Error".toList) ++ crlf) ++
        ((bytes ("content-length: ".toList ++ toDecimal (bytes body.toList).length) ++ crlf) ++
          ((bytes "content-type: text/plain".toList ++ crlf) ++ crlf)) := by
    simp only [simpleHead, List.append_assoc]
  rw [receive, hparts, List.foldl_append, hstatus, List.foldl_append, hlength, List.foldl_append,
    htype, feed_headEnd]

theorem receive_responseHead (resp : UpstreamResponse) :
    receive nobody (responseHead resp) = afterHead nobody resp.status ⟨true, none⟩ := by
  have hvisible : ∀ t : Text, (∀ c ∈ t, isVisible c = true) → Printable t := by
    intro t ht c hc
    have := ht c hc
    simp only [isVisible, decide_eq_true_eq] at this
    exact this
  have hstatus : (bytes ("HTTP/1.1 ".toList ++ toDecimal resp.status ++ ' ' :: resp.reason) ++
      crlf).foldl (feed nobody) (.line .status []) = .line (.field resp.status ⟨false, none⟩) [] :=
    feed_status resp.status_range (hvisible _ resp.reason_visible)
  -- no header that is passed on says anything about the body
  have hheaders : ∀ hs : List (Text × Option Text), (∀ h ∈ hs, h ∈ resp.headers) →
      ((hs.filter fun h => !isHopByHop h.1).flatMap fun h =>
        bytes (h.1 ++ ": ".toList ++ h.2.getD []) ++ crlf).foldl (feed nobody)
          (.line (.field resp.status ⟨false, none⟩) []) =
            .line (.field resp.status ⟨false, none⟩) [] := by
    intro hs hmem
    induction hs with
    | nil => rfl
    | cons h hs ih =>
      obtain ⟨hh, hrest⟩ := List.forall_mem_cons.1 hmem
      rw [List.filter_cons]
      split_ifs with hhop
      · have hname := resp.name_token h hh
        have hnot : lower h.1 ∉ hopByHop := by simpa [isHopByHop] using hhop
        have hadd : (⟨false, none⟩ : BodyInfo).add (lower h.1) (trimOws (' ' :: h.2.getD [])) =
            some ⟨false, none⟩ := by
          rw [BodyInfo.add, if_neg, if_neg]
          · exact fun hcl => hnot (by rw [hcl]; decide)
          · exact fun hte => hnot (by rw [hte]; decide)
        have hvalue : Printable (h.2.getD []) := by
          cases hv : h.2 with
          | none => exact fun c hc => absurd hc (by simp)
          | some v => exact hvisible v (resp.value_visible h hh v hv)
        rw [List.flatMap_cons, List.foldl_append, feed_field hname.1 hname.2 hvalue hadd]
        exact ih hrest
      · exact ih hrest
  have hchunked : (bytes "transfer-encoding: chunked".toList ++ crlf).foldl (feed nobody)
      (.line (.field resp.status ⟨false, none⟩) []) =
        .line (.field resp.status ⟨true, none⟩) [] := by
    show (bytes ("transfer-encoding".toList ++ ": ".toList ++ "chunked".toList) ++ crlf).foldl _ _ = _
    exact feed_field (by decide) (forall_chars rfl) (forall_chars rfl) rfl
  have hparts : responseHead resp =
      (bytes ("HTTP/1.1 ".toList ++ toDecimal resp.status ++ ' ' :: resp.reason) ++ crlf) ++
        (((resp.headers.filter fun h => !isHopByHop h.1).flatMap fun h =>
          bytes (h.1 ++ ": ".toList ++ h.2.getD []) ++ crlf) ++
        ((bytes "transfer-encoding: chunked".toList ++ crlf) ++ crlf)) := by
    simp only [responseHead, List.append_assoc]
  rw [receive, hparts, List.foldl_append, hstatus, List.foldl_append, hheaders _ fun _ h => h,
    List.foldl_append, hchunked, feed_headEnd]

theorem feed_chunks (chunks : List Bytes) :
    ((chunks.filter fun chunk => chunk ≠ []).flatMap chunkBytes).foldl (feed nobody)
      (.line .size []) = .line .size [] := by
  induction chunks with
  | nil => rfl
  | cons chunk chunks ih =>
    rw [List.filter_cons]
    split_ifs with hne
    · have hne' : chunk ≠ [] := by simpa using hne
      rw [List.flatMap_cons, List.foldl_append, chunkBytes, toHex, feed_chunk hne', ih]
    · exact ih

end Parts

/-! ### One round -/

/-- What the answer to a request opens with. -/
def headSent (r : ParsedRequest) (upstream : Upstream) : Bytes :=
  if isChunked r then simpleHead 501 "chunked request bodies are not supported"
  else
    match upstream with
    | .failed _ => simpleHead 502 "forward proxy upstream request failed"
    | .answered resp => responseHead resp

/-- The status that the client is told. -/
def statusSent (r : ParsedRequest) (upstream : Upstream) : ℕ :=
  if isChunked r then 501
  else
    match upstream with
    | .failed _ => 502
    | .answered resp => resp.status

/-- The request was passed on, and the body of the response was cut short. -/
def CutShort (r : ParsedRequest) (upstream : Upstream) : Prop :=
  isChunked r = false ∧ bodyless r.method (statusSent r upstream) = false ∧
    ∃ resp e, upstream = .answered resp ∧ resp.error = some e

/-- **One complete message for each request**, but for the last, which may have been cut short; a
body that the upstream cut short does not make a complete message. -/
def OnePerRequest (exchange : ℕ → Exchange) : ℕ → List (ParsedRequest × Bytes) → Prop
  | _, [] => True
  | i, (r, out) :: rest =>
    (Complete (bodyless r.method) out ∧ ¬ CutShort r (exchange i).upstream ∧
        OnePerRequest exchange (i + 1) rest) ∨
      (Truncated (bodyless r.method) out ∧ rest = [])

/-- The client hangs up within so many bytes of the answer. -/
def HangsUpWithin (ex : Exchange) (k : ℕ) : Prop := ∃ n, ex.hangs_up = some n ∧ n ≤ k

/-- A round in which the proxy keeps to HTTP: the response has a body, since the proxy always
sends one, and the upstream does not cut it short, or the client does not stay to see. -/
structure Sound (r : ParsedRequest) (ex : Exchange) : Prop where
  has_body : bodyless r.method (statusSent r ex.upstream) = true →
    HangsUpWithin ex (headSent r ex.upstream).length
  whole : CutShort r ex.upstream → HangsUpWithin ex (forwardInterceptedRequest ex.upstream).1.length

/-- The message of a round is complete, or it is cut short. -/
def RoundOk (r : ParsedRequest) (ex : Exchange) (out : Bytes) : Prop :=
  (Complete (bodyless r.method) out ∧ ¬ CutShort r ex.upstream) ∨ Truncated (bodyless r.method) out

theorem deliver_within {ex : Exchange} {g x : Bytes} (h : HangsUpWithin ex g.length) (hx : x ≠ []) :
    ∃ p q, g = p ++ q ∧ deliver ex (g ++ x) = (p, false) := by
  obtain ⟨n, hn, hle⟩ := h
  have hpos := List.length_pos_of_ne_nil hx
  refine ⟨g.take n, g.drop n, (List.take_append_drop n g).symm, ?_⟩
  rw [deliver, hn]
  dsimp only
  rw [if_neg (by rw [List.length_append]; omega), List.take_append_of_le_length hle]

theorem deliver_beyond {ex : Exchange} {g x : Bytes} (h : ¬ HangsUpWithin ex g.length)
    (hx : x ≠ []) : ∃ y, y ≠ [] ∧ y <+: x ∧ (deliver ex (g ++ x)).1 = g ++ y := by
  cases hn : ex.hangs_up with
  | none => exact ⟨x, hx, List.prefix_refl _, by rw [deliver, hn]⟩
  | some n =>
    have hlt : g.length < n := by
      by_contra hle
      exact h ⟨n, hn, by omega⟩
    by_cases hall : (g ++ x).length ≤ n
    · refine ⟨x, hx, List.prefix_refl _, ?_⟩
      rw [deliver, hn]
      dsimp only
      rw [if_pos hall]
    · refine ⟨x.take (n - g.length), ?_, List.take_prefix _ _, ?_⟩
      · intro hnil
        rcases List.take_eq_nil_iff.1 hnil with h0 | h0
        · omega
        · exact hx h0
      · rw [deliver, hn]
        dsimp only
        rw [if_neg hall, List.take_append, List.take_of_length_le (by omega)]

variable (r : ParsedRequest)

theorem answer_head (upstream : Upstream) :
    ∃ x, x ≠ [] ∧ answer r upstream = headSent r upstream ++ x := by
  unfold answer headSent
  split_ifs with hc
  · exact ⟨bytes "chunked request bodies are not supported".toList, by decide, rfl⟩
  · cases upstream with
    | failed e => exact ⟨bytes "forward proxy upstream request failed".toList, by decide, rfl⟩
    | answered resp =>
      cases he : resp.error with
      | none =>
        refine ⟨(resp.chunks.filter fun chunk => chunk ≠ []).flatMap chunkBytes ++
          (bytes "0".toList ++ crlf ++ crlf), by simp [crlf], ?_⟩
        simp only [forwardInterceptedRequest, he, List.append_assoc]
      | some e =>
        refine ⟨(resp.chunks.filter fun chunk => chunk ≠ []).flatMap chunkBytes ++
          simpleResponse 502 "forward proxy upstream request failed", by simp [simpleResponse,
            simpleHead, crlf], ?_⟩
        simp only [forwardInterceptedRequest, he, List.append_assoc]

theorem receive_headSent (upstream : Upstream) (nobody : ℕ → Bool)
    (h : nobody (statusSent r upstream) = true) : Complete nobody (headSent r upstream) := by
  unfold Complete
  unfold statusSent at h
  unfold headSent
  split_ifs at h ⊢ with hc
  · rw [receive_simpleHead (by decide), afterHead, if_pos h]
  · cases upstream with
    | failed e => rw [receive_simpleHead (by decide), afterHead, if_pos h]
    | answered resp => rw [receive_responseHead, afterHead, if_pos h]

theorem complete_simpleResponse {nobody : ℕ → Bool} {status : ℕ}
    (hs : 100 ≤ status ∧ status < 1000) (h : nobody status = false) (body : String) :
    Complete nobody (simpleResponse status body) := by
  unfold Complete
  rw [simpleResponse, receive_append, receive_simpleHead hs, afterHead, h]
  exact feed_body _

theorem receive_sent {nobody : ℕ → Bool} (resp : UpstreamResponse)
    (h : nobody resp.status = false) :
    receive nobody (responseHead resp ++
      (resp.chunks.filter fun chunk => chunk ≠ []).flatMap chunkBytes) = .line .size [] := by
  rw [receive_append, receive_responseHead, afterHead, h]
  exact feed_chunks resp.chunks

theorem complete_answer {r : ParsedRequest} {upstream : Upstream}
    (h : bodyless r.method (statusSent r upstream) = false) (hcut : ¬ CutShort r upstream) :
    Complete (bodyless r.method) (answer r upstream) := by
  cases hc : isChunked r with
  | true =>
    simp only [statusSent, hc, if_true] at h
    simp only [answer, hc, if_true]
    exact complete_simpleResponse (by decide) h _
  | false =>
    have hstatus := h
    simp only [statusSent, hc, Bool.false_eq_true, if_false] at hstatus
    cases upstream with
    | failed e =>
      simp only [answer, hc, Bool.false_eq_true, if_false, forwardInterceptedRequest,
        List.nil_append]
      have h502 : bodyless r.method 502 = false := hstatus
      exact complete_simpleResponse (by decide) h502 _
    | answered resp =>
      cases he : resp.error with
      | some e => exact absurd ⟨hc, h, resp, e, rfl, he⟩ hcut
      | none =>
        unfold Complete
        simp only [answer, hc, Bool.false_eq_true, if_false, forwardInterceptedRequest, he]
        rw [List.append_assoc _ (bytes "0".toList), List.append_assoc _ _ crlf]
        rw [receive_append, receive_sent resp hstatus]
        exact feed_last

theorem deliver_cases (ex : Exchange) (out : Bytes) :
    deliver ex out = (out, true) ∨ ∃ p q, out = p ++ q ∧ q ≠ [] ∧ deliver ex out = (p, false) := by
  cases hn : ex.hangs_up with
  | none => exact Or.inl (by rw [deliver, hn])
  | some n =>
    by_cases hall : out.length ≤ n
    · refine Or.inl ?_
      rw [deliver, hn]
      dsimp only
      rw [if_pos hall]
    · refine Or.inr ⟨out.take n, out.drop n, (List.take_append_drop n out).symm, ?_, ?_⟩
      · simp only [ne_eq, List.drop_eq_nil_iff]
        exact hall
      · rw [deliver, hn]
        dsimp only
        rw [if_neg hall]

theorem answer_cutShort {r : ParsedRequest} {upstream : Upstream} (h : CutShort r upstream) :
    answer r upstream = (forwardInterceptedRequest upstream).1 ++
        simpleResponse 502 "forward proxy upstream request failed" ∧
      receive (bodyless r.method) (forwardInterceptedRequest upstream).1 = .line .size [] := by
  obtain ⟨hc, hstatus, resp, e, rfl, he⟩ := h
  simp only [statusSent, hc, Bool.false_eq_true, if_false] at hstatus
  simp only [answer, hc, Bool.false_eq_true, if_false, forwardInterceptedRequest, he]
  exact ⟨trivial, receive_sent resp hstatus⟩

/-- **The rounds that keep to HTTP.** -/
theorem roundOk_iff (ex : Exchange) :
    RoundOk r ex (deliver ex (answer r ex.upstream)).1 ↔ Sound r ex := by
  have hlost : ∀ bs, receive (bodyless r.method) bs = .bad → ¬ RoundOk r ex bs := by
    rintro bs hbad (⟨hdone, -⟩ | ⟨-, hnot⟩)
    · unfold Complete at hdone
      rw [hbad] at hdone
      cases hdone
    · exact hnot hbad
  by_cases hbody : bodyless r.method (statusSent r ex.upstream) = true
  · -- the message ends with its head, and what follows spoils it
    obtain ⟨x, hx, hans⟩ := answer_head r ex.upstream
    have hcomp := receive_headSent r ex.upstream _ hbody
    have hcut : ¬ CutShort r ex.upstream := fun h => by simp [h.2.1] at hbody
    rw [hans]
    constructor
    · intro hok
      refine ⟨fun _ => ?_, fun h => absurd h hcut⟩
      by_contra hnot
      obtain ⟨y, hy, -, hd⟩ := deliver_beyond hnot hx
      rw [hd] at hok
      exact hlost _ (hcomp.lost hy) hok
    · intro hs
      obtain ⟨p, q, hg, hd⟩ := deliver_within (hs.has_body hbody) hx
      rw [hd]
      rw [hg] at hcomp
      by_cases hq : q = []
      · rw [hq, List.append_nil] at hcomp
        exact Or.inl ⟨hcomp, hcut⟩
      · exact Or.inr (hcomp.truncated hq)
  · have hbody' : bodyless r.method (statusSent r ex.upstream) = false := by simpa using hbody
    by_cases hcut : CutShort r ex.upstream
    · -- the made-up response begins where the size of a chunk is due
      obtain ⟨hans, hsize⟩ := answer_cutShort hcut
      have hfirst : simpleResponse 502 "forward proxy upstream request failed" =
          72 :: (simpleResponse 502 "forward proxy upstream request failed").tail := by
        decide
      have hx : simpleResponse 502 "forward proxy upstream request failed" ≠ [] := by
        rw [hfirst]
        simp
      have hfull : Complete (bodyless r.method)
          ((forwardInterceptedRequest ex.upstream).1 ++ (bytes "0".toList ++ crlf ++ crlf)) := by
        unfold Complete
        rw [receive_append, hsize]
        exact feed_last
      rw [hans]
      constructor
      · intro hok
        refine ⟨fun h => absurd h hbody, fun _ => ?_⟩
        by_contra hnot
        obtain ⟨y, hy, hyx, hd⟩ := deliver_beyond hnot hx
        obtain ⟨b, y, rfl⟩ := List.exists_cons_of_ne_nil hy
        rw [hfirst] at hyx
        obtain rfl := (List.cons_prefix_cons.1 hyx).1
        rw [hd] at hok
        refine hlost _ ?_ hok
        rw [receive_append, hsize]
        exact foldl_feed_bad y
      · intro hs
        obtain ⟨p, q, hg, hd⟩ := deliver_within (hs.whole hcut) hx
        rw [hd]
        rw [hg, List.append_assoc] at hfull
        exact Or.inr (hfull.truncated (by simp [crlf]))
    · have hcomp := complete_answer hbody' hcut
      refine ⟨fun _ => ⟨fun h => absurd h hbody, fun h => absurd h hcut⟩, fun _ => ?_⟩
      rcases deliver_cases ex (answer r ex.upstream) with hd | ⟨p, q, hpq, hq, hd⟩
      · rw [hd]
        exact Or.inl ⟨hcomp, hcut⟩
      · rw [hd]
        rw [hpq] at hcomp
        exact Or.inr (hcomp.truncated hq)

theorem not_truncated_answer (upstream : Upstream) :
    ¬ Truncated (bodyless r.method) (answer r upstream) := by
  rintro ⟨hdone, hbad⟩
  -- to a client that stays, the round is sound or spoilt
  by_cases hs : Sound r ⟨upstream, none⟩
  · by_cases hcut : CutShort r upstream
    · obtain ⟨n, hn, -⟩ := hs.whole hcut
      cases hn
    · by_cases hbody : bodyless r.method (statusSent r upstream) = true
      · obtain ⟨n, hn, -⟩ := hs.has_body hbody
        cases hn
      · exact hdone (complete_answer (by simpa using hbody) hcut)
  · exact hs ((roundOk_iff r ⟨upstream, none⟩).1 (Or.inr ⟨hdone, hbad⟩))

section Connection

variable {exchange : ℕ → Exchange}

/-- **A connection carries one message for each request exactly if its rounds are sound.** -/
theorem onePerRequest_iff (fuel round : ℕ) (input : Bytes) :
    OnePerRequest exchange round (handleCapturedRequests exchange fuel round input).rounds ↔
      ∀ i r, ((handleCapturedRequests exchange fuel round input).rounds.map Prod.fst)[i]? = some r →
        Sound r (exchange (round + i)) := by
  induction fuel generalizing round input with
  | zero => simp [handleCapturedRequests, Trace.empty, OnePerRequest]
  | succ fuel ih =>
    cases hhead : readHttpHead input with
    | closed => simp [handleCapturedRequests, hhead, Trace.empty, OnePerRequest]
    | failed e => simp [handleCapturedRequests, hhead, Trace.empty, OnePerRequest]
    | got head rest =>
      cases hbody : readHttpRequestFromHead head rest with
      | closed => simp [handleCapturedRequests, hhead, hbody, Trace.empty, OnePerRequest]
      | failed e => simp [handleCapturedRequests, hhead, hbody, Trace.empty, OnePerRequest]
      | got r rest' =>
        rw [handle_of_read hhead hbody]
        have hround := roundOk_iff r (exchange round)
        have hlater : OnePerRequest exchange (round + 1) (next exchange fuel round r rest').rounds ↔
            ∀ i r', ((next exchange fuel round r rest').rounds.map Prod.fst)[i]? = some r' →
              Sound r' (exchange (round + 1 + i)) := by
          unfold next
          split_ifs
          · exact ih (round + 1) rest'
          · simp [Trace.empty, OnePerRequest]
        simp only [Trace.cons, OnePerRequest, List.map_cons]
        constructor
        · intro hok i r' hr'
          cases i with
          | zero =>
            obtain rfl := Option.some.inj hr'
            refine hround.1 ?_
            rcases hok with ⟨hc, hcut, -⟩ | ⟨ht, -⟩
            · exact Or.inl ⟨hc, hcut⟩
            · exact Or.inr ht
          | succ i =>
            rw [show round + (i + 1) = round + 1 + i by omega]
            rcases hok with ⟨-, -, hrest⟩ | ⟨-, hnil⟩
            · exact hlater.1 hrest i r' hr'
            · rw [hnil] at hr'
              cases hr'
        · intro hs
          have hfirst : Sound r (exchange round) := hs 0 r rfl
          have hrest : OnePerRequest exchange (round + 1)
              (next exchange fuel round r rest').rounds := hlater.2 fun i r' hr' => by
            have := hs (i + 1) r' hr'
            rwa [show round + (i + 1) = round + 1 + i by omega] at this
          rcases hround.2 hfirst with ⟨hc, hcut⟩ | ht
          · exact Or.inl ⟨hc, hcut, hrest⟩
          · -- a message that was cut short was the last thing on the connection
            refine Or.inr ⟨ht, ?_⟩
            rcases deliver_cases (exchange round) (answer r (exchange round).upstream) with
              hd | ⟨p, q, -, -, hd⟩
            · rw [hd] at ht
              exact absurd ht (not_truncated_answer r _)
            · simp [next, hd, Trace.empty]

end Connection

/-- **When the client gets one message for each request**: exactly if in every round the response
is one with a body and the upstream does not cut it short, unless the client hung up before it
could notice. -/
theorem responses_framed_iff (exchange : ℕ → Exchange) (input : Bytes) :
    OnePerRequest exchange 0 (serve exchange input).rounds ↔
      ∀ i r, ((serve exchange input).rounds.map Prod.fst)[i]? = some r → Sound r (exchange i) := by
  have hall := @onePerRequest_iff exchange (input.length + 1) 0 input
  simp only [Nat.zero_add] at hall
  exact hall

/-- An upstream that answers, sends one chunk and breaks off. -/
def brokenResponse : UpstreamResponse where
  status := 200
  reason := "OK".toList
  headers := []
  chunks := [[104, 105]]
  error := some "connection reset"
  status_range := by decide
  reason_visible := forall_chars rfl
  name_token := by decide
  value_visible := by simp

/-- The proxy starts a response inside the chunked body of another. -/
theorem status_line_in_chunked_body :
    ∃ sent, receive (bodyless "GET".toList) sent = .line .size [] ∧
      (serve (fun _ => ⟨.answered brokenResponse, none⟩) getRequest.wire).written =
        sent ++ simpleResponse 502 "forward proxy upstream request failed" ∧
      ¬ ∀ exchange input, OnePerRequest exchange 0 (serve exchange input).rounds := by
  refine ⟨(forwardInterceptedRequest (.answered brokenResponse)).1, by decide +kernel,
    by decide +kernel, fun h => ?_⟩
  have hone := h (fun _ => ⟨.answered brokenResponse, none⟩) getRequest.wire
  have hrounds : ∀ p ∈ (serve (fun _ => ⟨.answered brokenResponse, none⟩) getRequest.wire).rounds,
      ¬ Complete (bodyless p.1.method) p.2 ∧ ¬ Truncated (bodyless p.1.method) p.2 := by
    decide +kernel
  have hne : (serve (fun _ => ⟨.answered brokenResponse, none⟩) getRequest.wire).rounds ≠ [] := by
    decide +kernel
  obtain ⟨p, rest, hp⟩ := List.exists_cons_of_ne_nil hne
  rw [hp] at hone hrounds
  obtain ⟨hc, ht⟩ := hrounds p List.mem_cons_self
  rcases hone with ⟨hdone, -, -⟩ | ⟨htrunc, -⟩
  · exact hc hdone
  · exact ht htrunc

end Proxy

end Switchback
