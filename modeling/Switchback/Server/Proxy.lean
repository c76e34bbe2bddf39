import Switchback.Lib.Http

/-!
# The intercepting proxy

The keep-alive loop of an intercepted connection: read a request, refuse it or pass it on, answer,
and read the next one.
-/

namespace Switchback

namespace Proxy

open Lib Http

def maxHeaderBytes : ℕ := 64 * 1024

def maxBufferedRequestBytes : ℕ := 64 * 1024 * 1024

/-! ### Reading -/

/-- The end of a head. -/
def headEnd : Bytes := crlf ++ crlf

/-- What reading from the stream gives: nothing more to come, a failure, or something and the rest
of the stream. -/
inductive Read (α : Type)
  | closed
  | failed (error : String)
  | got (a : α) (rest : Bytes)

/-- `read_header_block`, byte by byte, behind what was read so far. -/
def readHeaderBlock (buf : Bytes) : Bytes → Read Bytes
  | [] => if buf = [] then .closed else .failed "connection closed while reading http head"
  | b :: rest =>
    if (buf ++ [b]).length > maxHeaderBytes then .failed "http head exceeded 65536 bytes"
    else if headEnd <:+ buf ++ [b] then .got (buf ++ [b]) rest
    else readHeaderBlock (buf ++ [b]) rest

/-- `str::split("\r\n")`. -/
def splitCrlf : Text → List Text
  | [] => [[]]
  | '\r' :: '\n' :: t => [] :: splitCrlf t
  | c :: t =>
    match splitCrlf t with
    | [] => [[c]]
    | line :: rest => (c :: line) :: rest

def splitWhitespace (t : Text) : List Text :=
  (t.splitOnP Text.isWhiteSpace).filter fun w => w ≠ []

def trim (t : Text) : Text := Text.trimEndList (Text.trimStartList t)

structure HttpHead where
  method : Text
  target : Text
  headers : List (Text × Text)

/-- The header that a line of a head is, if it has a colon. -/
def headerOf (line : Text) : Option (Text × Text) :=
  if line = [] then none
  else (Text.splitOnceList [':'] line).map fun p => (trim p.1, trim p.2)

/-- The text part of `read_http_head`. -/
def parseHead (text : Text) : Except String HttpHead :=
  match splitCrlf text with
  | [] => .error "empty http head"
  | first :: lines =>
    match splitWhitespace first with
    | [] => .error "missing method"
    | [_] => .error "missing target"
    | method :: target :: _ => .ok ⟨method, target, lines.filterMap headerOf⟩

def readHttpHead (input : Bytes) : Read HttpHead :=
  match readHeaderBlock [] input with
  | .closed => .closed
  | .failed e => .failed e
  | .got block rest =>
    if Utf8.encode (Utf8.lossy block) ≠ block then .failed "http head is not utf-8"
    else
      match parseHead (Utf8.lossy block) with
      | .error e => .failed e
      | .ok head => .got head rest

/-- `ParsedRequest`.  The model name is read off the body for the capture only. -/
structure ParsedRequest where
  method : Text
  target : Text
  headers : List (Text × Text)
  body : Bytes
  content_type : Option Text

/-- `str::parse::<usize>`. -/
def parseUsize (t : Text) : Option ℕ :=
  let digits := if t.head? = some '+' then t.tail else t
  (decimal digits).filter fun n => n < 2 ^ 64

/-- The value of the first header with a name. -/
def headerValue (name : Text) (headers : List (Text × Text)) : Option Text :=
  (headers.find? fun h => lower h.1 = name).map Prod.snd

/-- The length of the body: what the first `content-length` says, or nothing. -/
def contentLength (head : HttpHead) : ℕ :=
  ((headerValue "content-length".toList head.headers).bind parseUsize).getD 0

def readHttpRequestFromHead (head : HttpHead) (input : Bytes) : Read ParsedRequest :=
  if contentLength head > maxBufferedRequestBytes then
    .failed "request body too large for forward proxy buffer"
  else if input.length < contentLength head then .failed "early eof"
  else
    .got
      { method := head.method
        target := head.target
        headers := head.headers
        body := input.take (contentLength head)
        content_type := headerValue "content-type".toList head.headers }
      (input.drop (contentLength head))

/-- The request says that its body is chunked. -/
def isChunked (r : ParsedRequest) : Bool :=
  r.headers.any fun h => lower h.1 = "transfer-encoding".toList ∧ lower h.2 = "chunked".toList

/-! ### Answering -/

def hopByHop : List Text :=
  ["host", "content-length", "connection", "keep-alive", "proxy-connection", "proxy-authorization",
    "transfer-encoding", "te", "trailer", "upgrade"].map String.toList

def isHopByHop (name : Text) : Bool := hopByHop.contains (lower name)

/-- The characters that a header value shows as text. -/
def isVisible (c : Char) : Bool := c = '\t' ∨ (' ' ≤ c ∧ c ≤ '~')

/-- A response of the upstream: its status, the reason phrase that belongs to it, its headers with
the text of those values that are text, and the chunks of its body, of which the last may be
followed by an error. -/
structure UpstreamResponse where
  status : ℕ
  reason : Text
  headers : List (Text × Option Text)
  chunks : List Bytes
  error : Option String
  status_range : 100 ≤ status ∧ status < 1000
  reason_visible : ∀ c ∈ reason, isVisible c = true
  name_token : ∀ h ∈ headers, h.1 ≠ [] ∧ ∀ c ∈ h.1, isTokenChar c = true
  value_visible : ∀ h ∈ headers, ∀ v, h.2 = some v → ∀ c ∈ v, isVisible c = true

/-- What the upstream does with a request. -/
inductive Upstream
  | failed (error : String)
  | answered (response : UpstreamResponse)

/-- One round of the loop from outside: the upstream, and after how many bytes of the answer the
client hangs up, if it does. -/
structure Exchange where
  upstream : Upstream
  hangs_up : Option ℕ

/-- A number in lower-case hexadecimal. -/
def toHex (n : ℕ) : Text := Nat.toDigits 16 n

/-- A number in decimal. -/
def toDecimal (n : ℕ) : Text := Nat.toDigits 10 n

/-- The head that `write_simple_response` writes. -/
def simpleHead (status : ℕ) (body : String) : Bytes :=
  bytes ("HTTP/1.1 ".toList ++ toDecimal status ++ " Error".toList) ++ crlf ++
    bytes ("content-length: ".toList ++ toDecimal (bytes body.toList).length) ++ crlf ++
    bytes "content-type: text/plain".toList ++ crlf ++ crlf

/-- `write_simple_response`. -/
def simpleResponse (status : ℕ) (body : String) : Bytes :=
  simpleHead status body ++ bytes body.toList

/-- The head that `forward_intercepted_request` writes: the body will be chunked. -/
def responseHead (resp : UpstreamResponse) : Bytes :=
  bytes ("HTTP/1.1 ".toList ++ toDecimal resp.status ++ ' ' :: resp.reason) ++ crlf ++
    ((resp.headers.filter fun h => !isHopByHop h.1).flatMap fun h =>
      bytes (h.1 ++ ": ".toList ++ h.2.getD []) ++ crlf) ++
    bytes "transfer-encoding: chunked".toList ++ crlf ++ crlf

/-- A chunk as it is written. -/
def chunkBytes (chunk : Bytes) : Bytes :=
  bytes (toHex chunk.length) ++ crlf ++ chunk ++ crlf

/-- `forward_intercepted_request`: the bytes it writes, and the error of the upstream that ended
it.  An empty chunk is skipped. -/
def forwardInterceptedRequest : Upstream → Bytes × Option String
  | .failed e => ([], some e)
  | .answered resp =>
    let sent := responseHead resp ++
      (resp.chunks.filter fun chunk => chunk ≠ []).flatMap chunkBytes
    match resp.error with
    | some e => (sent, some e)
    | none => (sent ++ bytes "0".toList ++ crlf ++ crlf, none)

/-- What the loop writes for one request while the client listens. -/
def answer (r : ParsedRequest) (upstream : Upstream) : Bytes :=
  if isChunked r then simpleResponse 501 "chunked request bodies are not supported"
  else
    match forwardInterceptedRequest upstream with
    | (sent, none) => sent
    | (sent, some _) => sent ++ simpleResponse 502 "forward proxy upstream request failed"

/-- What the client gets of it, and whether the loop goes on: a write to a client that hung up ends
the connection. -/
def deliver (ex : Exchange) (out : Bytes) : Bytes × Bool :=
  match ex.hangs_up with
  | none => (out, true)
  | some n => if out.length ≤ n then (out, true) else (out.take n, false)

/-! ### The loop -/

/-- What a connection did: the heads that were parsed, with the number of bytes that were still to
come where each began, the requests that were read, each with the bytes that were written for it,
and the requests that were captured and passed on. -/
structure Trace where
  heads : List (ℕ × HttpHead)
  rounds : List (ParsedRequest × Bytes)
  forwarded : List (ℕ × ParsedRequest)

def Trace.empty : Trace := ⟨[], [], []⟩

/-- The bytes that were written on the connection. -/
def Trace.written (t : Trace) : Bytes := t.rounds.flatMap Prod.snd

/-- One more round before the rounds of a trace. -/
def Trace.cons (n : ℕ) (head : HttpHead) (r : ParsedRequest) (out : Bytes) (t : Trace) : Trace where
  heads := (n, head) :: t.heads
  rounds := (r, out) :: t.rounds
  forwarded := if isChunked r then t.forwarded else (n, r) :: t.forwarded

/-- `handle_captured_requests` on an intercepted connection, with an exchange for each round. -/
def handleCapturedRequests (exchange : ℕ → Exchange) : ℕ → ℕ → Bytes → Trace
  | 0, _, _ => .empty
  | fuel + 1, round, input =>
    match readHttpHead input with
    | .closed => .empty
    | .failed _ => .empty
    | .got head rest =>
      match readHttpRequestFromHead head rest with
      | .closed => { Trace.empty with heads := [(input.length, head)] }
      | .failed _ => { Trace.empty with heads := [(input.length, head)] }
      | .got r rest' =>
        match deliver (exchange round) (answer r (exchange round).upstream) with
        | (out, false) => .cons input.length head r out .empty
        | (out, true) =>
          .cons input.length head r out (handleCapturedRequests exchange fuel (round + 1) rest')

/-- The trace of a connection on which these bytes arrive: every head takes bytes, so there are
fewer rounds than bytes. -/
def serve (exchange : ℕ → Exchange) (input : Bytes) : Trace :=
  handleCapturedRequests exchange (input.length + 1) 0 input

end Proxy

end Switchback
