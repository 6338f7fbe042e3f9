import Httplib.Http.Message

/-! The keep-alive loop of `server::impl::do_session`. One pass parses a request header, hands
upgrades and CONNECT off, reads the body when a handler is registered, routes, negotiates the
content coding, prepares the payload and writes the response. Beast's request parser and the
router are parameters; a pass reads the unconsumed input, the `flat_buffer` followed by the
bytes still unread on the socket.
-/

namespace Httplib.Session

open Httplib.Http Httplib.Util

/-- Why an `http::async_read_some` loop stopped: the stream failed (end of stream, timeout,
socket error) or the parser rejected the bytes.
-/
inductive ReadError
  | stream
  | malformed
  deriving DecidableEq, Repr

/-- Beast's `http::request_parser` driven by `async_read_some` over the unconsumed input: the
header phase (`is_header_done`) and the body phase (`is_done`) return what they parsed and the
input they left.
-/
structure RequestParser (α β : Type) where
  readHeader : List α → Except ReadError (RequestHeader × List α)
  readBody : RequestHeader → List α → Except ReadError (β × List α)

/-- A request as sent: its header and body, and the bytes of each on the wire. -/
structure WireRequest (α β : Type) where
  header : RequestHeader
  body : β
  headerBytes : List α
  bodyBytes : List α

/-- The bytes of a request on the wire. -/
def WireRequest.bytes (r : WireRequest α β) : List α :=
  r.headerBytes ++ r.bodyBytes

/-- The parser delimits a request: the header phase stops at the end of its header and the body
phase at the end of its body (Content-Length or chunked framing), whatever follows.
-/
def RequestParser.Delimits (P : RequestParser α β) (r : WireRequest α β) : Prop :=
  ∀ rest, P.readHeader (r.bytes ++ rest) = .ok (r.header, r.bodyBytes ++ rest)
    ∧ P.readBody r.header (r.bodyBytes ++ rest) = .ok (r.body, rest)

/-- Decoded query parameters, in order. -/
abbrev QueryParams := List (List Char × List Char)

/-- `httplib::request`: the header, the body when one was read, and what `do_session` fills. -/
structure Request (β : Type) where
  header : RequestHeader
  body : Option β
  path : List Char := []
  queryParams : QueryParams := []

/-- The router's two entry points the loop calls: `has_handler` on the method and the raw
target, and `routing`, which may update the request and the response and returns normally.
-/
structure Router (β : Type) where
  hasHandler : Verb → List Char → Bool
  routing : Request β → Response → Request β × Response

/-- What a session runs against: the request parser, `router_`, and the helpers not under src/
(`util::url_decode`, `html::parse_http_query_params` with `none` for an invalid query, and the
compressor factory's `is_supported_encoding`).
-/
structure Collaborators (α β : Type) where
  parser : RequestParser α β
  router : Router β
  urlDecode : List Char → List Char
  parseHttpQueryParams : List Char → Option QueryParams
  isSupportedEncoding : List Char → Bool

/-- How one pass of the loop ends. -/
inductive Pass (α : Type)
  /-- handed to `handle_websocket`; the session returns -/
  | upgrade (header : RequestHeader)
  /-- handed to `handle_connect`; the session returns -/
  | connect (header : RequestHeader)
  /-- a header or body read failed; the session returns -/
  | readFailed (e : ReadError)
  /-- `set_empty_content` put this status on the response, then the session returned -/
  | dropped (status : Nat)
  /-- `prepare_payload` threw; the `catch` of `do_session` ends the session -/
  | threw
  /-- `http::async_write` of the response; the next pass reads from `rest` -/
  | written (resp : Response) (rest : List α)

/-- `detail::make_respone`: a 404 with the request's version and keep-alive, empty body. -/
def makeRespone (h : RequestHeader) : Response :=
  { result := 404, version := h.version, keepAlive := h.keepAlive, fields := {},
    payloadSize := some 0 }

/-- The content-coding loop: the first Accept-Encoding token the factory supports becomes the
Content-Encoding and the response is made chunked.
-/
def negotiateEncoding (isSupported : List Char → Bool) (acceptEncoding : List Char)
    (resp : Response) : Response :=
  match (split acceptEncoding ',').find? isSupported with
  | some encoding =>
      ({ resp with fields := { resp.fields with contentEncoding := some encoding } }).chunked true
  | none => resp

/-- Negotiation, then `prepare_payload` unless a Content-Length is present. -/
def prepareResponse (isSupported : List Char → Bool) (acceptEncoding : List Char)
    (resp : Response) : Except String Response :=
  let resp := negotiateEncoding isSupported acceptEncoding resp
  if resp.hasContentLength then .ok resp else resp.preparePayload

/-- The request once a handler matched: GET, HEAD, TRACE and CONNECT release the header alone,
every other method runs the body parser on the input.
-/
def readRequest (P : RequestParser α β) (h : RequestHeader) (input : List α)
    : Except ReadError (Request β × List α) :=
  match h.method with
  | .get | .head | .trace | .connect => .ok ({ header := h, body := none }, input)
  | _ =>
      match P.readBody h input with
      | .ok (body, rest) => .ok ({ header := h, body := some body }, rest)
      | .error e => .error e

/-- The target cut at '?' into the decoded path and the query; `none` for more than two pieces
or an invalid query.
-/
def initRequest (C : Collaborators α β) (req : Request β) : Option (Request β) :=
  let tokens := split req.header.target '?'
  if tokens.isEmpty ∨ 2 < tokens.length then none
  else
    let req := { req with path := C.urlDecode (tokens.headD []) }
    if 2 ≤ tokens.length then
      (C.parseHttpQueryParams (tokens.getD 1 [])).map fun q => { req with queryParams := q }
    else some req

/-- The end of a pass that reaches the write. -/
def respond (C : Collaborators α β) (acceptEncoding : List Char) (resp : Response)
    (rest : List α) : Pass α :=
  match prepareResponse C.isSupportedEncoding acceptEncoding resp with
  | .ok resp => .written resp rest
  | .error _ => .threw

/-- One pass of the keep-alive loop over the unconsumed input. Without a handler the request
stays the default one, whose Accept-Encoding is empty.
-/
def sessionPass (C : Collaborators α β) (input : List α) : Pass α :=
  match C.parser.readHeader input with
  | .error e => .readFailed e
  | .ok (header, rest) =>
      if header.upgrade then .upgrade header
      else if header.method = .connect then .connect header
      else if C.router.hasHandler header.method header.target then
        match readRequest C.parser header rest with
        | .error e => .readFailed e
        | .ok (req, rest) =>
            match initRequest C req with
            | none => .dropped 400
            | some req =>
                let (req, resp) := C.router.routing req (makeRespone header)
                respond C req.header.acceptEncoding resp rest
      else respond C RequestHeader.empty.acceptEncoding (makeRespone header) rest

/-- The input at the head of the `k`-th pass, when every earlier pass wrote a keep-alive
response; a failed write or a response without keep-alive ends the loop.
-/
def loopHead (C : Collaborators α β) (input : List α) : Nat → Option (List α)
  | 0 => some input
  | k + 1 => (loopHead C input k).bind fun head =>
      match sessionPass C head with
      | .written resp rest => if resp.keepAlive then some rest else none
      | _ => none

-----------------------------------------------------------------------------------------
-- What each branch of a pass does
-----------------------------------------------------------------------------------------

section Branches

variable {C : Collaborators α β} {input rest : List α} {header : RequestHeader}

@[simp] theorem negotiateEncoding_keepAlive (isSupported : List Char → Bool) (ae : List Char)
    (resp : Response) : (negotiateEncoding isSupported ae resp).keepAlive = resp.keepAlive := by
  unfold negotiateEncoding; split <;> rfl

@[simp] theorem negotiateEncoding_result (isSupported : List Char → Bool) (ae : List Char)
    (resp : Response) : (negotiateEncoding isSupported ae resp).result = resp.result := by
  unfold negotiateEncoding; split <;> rfl

@[simp] theorem negotiateEncoding_version (isSupported : List Char → Bool) (ae : List Char)
    (resp : Response) : (negotiateEncoding isSupported ae resp).version = resp.version := by
  unfold negotiateEncoding; split <;> rfl

@[simp] theorem negotiateEncoding_payloadSize (isSupported : List Char → Bool) (ae : List Char)
    (resp : Response)
    : (negotiateEncoding isSupported ae resp).payloadSize = resp.payloadSize := by
  unfold negotiateEncoding; split <;> rfl

/-- Negotiation and `prepare_payload` leave keep-alive alone. -/
theorem prepareResponse_keepAlive {isSupported : List Char → Bool} {ae : List Char}
    {resp resp' : Response} (h : prepareResponse isSupported ae resp = .ok resp')
    : resp'.keepAlive = resp.keepAlive := by
  unfold prepareResponse at h
  dsimp only at h
  split at h
  · cases h; simp
  · rw [Response.preparePayload_keepAlive h, negotiateEncoding_keepAlive]

/-- The 404 of `make_respone` passes `prepare_payload`: its body is empty and known. -/
theorem prepareResponse_makeRespone (isSupported : List Char → Bool) (ae : List Char)
    (h : RequestHeader)
    : ∃ resp, prepareResponse isSupported ae (makeRespone h) = .ok resp
      ∧ resp.keepAlive = h.keepAlive := by
  have hcl : (negotiateEncoding isSupported ae (makeRespone h)).hasContentLength = false := by
    unfold negotiateEncoding; split <;> rfl
  have h404 : bodilessStatus (negotiateEncoding isSupported ae (makeRespone h)).result = false := by
    rw [negotiateEncoding_result]; exact (rfl : bodilessStatus 404 = false)
  refine ⟨(negotiateEncoding isSupported ae (makeRespone h)).contentLength (some 0), ?_, ?_⟩
  · simp only [prepareResponse, hcl, Bool.false_eq_true, if_false]
    exact Response.preparePayload_known h404 (by simp [makeRespone])
  · simp [makeRespone]

/-- A response written at the end of a pass keeps the keep-alive it had after routing. -/
theorem respond_written {ae : List Char} {resp resp' : Response} {rest' : List α}
    (h : respond C ae resp rest = .written resp' rest')
    : rest' = rest ∧ resp'.keepAlive = resp.keepAlive := by
  unfold respond at h
  split at h
  · rename_i hp; cases h; exact ⟨rfl, prepareResponse_keepAlive hp⟩
  · cases h

/-- The 404 of `make_respone` always reaches the write. -/
theorem respond_makeRespone (ae : List Char) (h : RequestHeader)
    : ∃ resp, respond C ae (makeRespone h) rest = .written resp rest
      ∧ resp.keepAlive = h.keepAlive := by
  obtain ⟨resp, hp, hk⟩ := prepareResponse_makeRespone C.isSupportedEncoding ae h
  exact ⟨resp, by simp [respond, hp], hk⟩

/-- A pass on a header without a handler answers it without reading the body. -/
theorem sessionPass_unrouted (hh : C.parser.readHeader input = .ok (header, rest))
    (hu : header.upgrade = false) (hc : header.method ≠ .connect)
    (hr : C.router.hasHandler header.method header.target = false)
    : sessionPass C input = respond C [] (makeRespone header) rest := by
  simp [sessionPass, hh, hu, hc, hr, RequestHeader.empty]

/-- A pass on a header with a handler reads the request, checks the target, then routes. -/
theorem sessionPass_routed (hh : C.parser.readHeader input = .ok (header, rest))
    (hu : header.upgrade = false) (hc : header.method ≠ .connect)
    (hr : C.router.hasHandler header.method header.target = true)
    : sessionPass C input =
      match readRequest C.parser header rest with
      | .error e => .readFailed e
      | .ok (req, rest) =>
          match initRequest C req with
          | none => .dropped 400
          | some req =>
              let (req, resp) := C.router.routing req (makeRespone header)
              respond C req.header.acceptEncoding resp rest := by
  simp [sessionPass, hh, hu, hc, hr]

/-- A written pass resumes where the request read stopped: after the header alone when no
handler matched or the method carries no body, after the body otherwise.
-/
theorem sessionPass_written_rest {resp : Response} {rest' : List α}
    (hh : C.parser.readHeader input = .ok (header, rest))
    (h : sessionPass C input = .written resp rest')
    : (C.router.hasHandler header.method header.target = false ∧ rest' = rest)
      ∨ header.method ≠ .connect
        ∧ ∃ req, readRequest C.parser header rest = .ok (req, rest') := by
  unfold sessionPass at h
  rw [hh] at h
  simp only at h
  split_ifs at h with hu hc hr
  · split at h
    · cases h
    · rename_i req rest'' hread
      split at h
      · cases h
      · exact .inr ⟨hc, req, (respond_written h).1 ▸ hread⟩
  · exact .inl ⟨by simpa using hr, (respond_written h).1⟩

end Branches

-----------------------------------------------------------------------------------------
-- A concrete wire for the parser contract
-----------------------------------------------------------------------------------------

/-- A wire whose header blocks are single tokens and whose bodies are bytes closed by a last
chunk, with the parser that reads it; it instantiates the parser contract in witnesses.
-/
inductive Token
  | header (h : RequestHeader)
  | byte (b : UInt8)
  | lastChunk
  deriving DecidableEq, Repr

/-- The body phase over tokens: bytes up to the last chunk. -/
def readChunked : List Token → Except ReadError (List UInt8 × List Token)
  | [] => .error .stream
  | .lastChunk :: rest => .ok ([], rest)
  | .byte b :: rest =>
      match readChunked rest with
      | .ok (bs, rest) => .ok (b :: bs, rest)
      | .error e => .error e
  | .header _ :: _ => .error .malformed

/-- The parser of the token wire. -/
def tokenParser : RequestParser Token (List UInt8) where
  readHeader
    | .header h :: rest => .ok (h, rest)
    | [] => .error .stream
    | _ :: _ => .error .malformed
  readBody _ := readChunked

/-- A request on the token wire with a body. -/
def tokenRequest (h : RequestHeader) (body : List UInt8) : WireRequest Token (List UInt8) :=
  ⟨h, body, [.header h], body.map .byte ++ [.lastChunk]⟩

/-- The token parser delimits every request with a body, by induction on the body. -/
theorem tokenParser_delimits (h : RequestHeader) (body : List UInt8)
    : tokenParser.Delimits (tokenRequest h body) := by
  intro rest
  refine ⟨rfl, ?_⟩
  show readChunked _ = _
  induction body with
  | nil => rfl
  | cons b bs ih => simp [tokenRequest, readChunked] at ih ⊢; rw [ih]

end Httplib.Session
