import Httplib.Util.String

/-! Beast's HTTP messages as far as the session loop reads and writes them: the request header
it dispatches on, and the response fields that frame the payload. The payload operations follow
Beast's documented semantics of `chunked`, `content_length`, `has_content_length` and
`prepare_payload`; the body itself is seen only through `payload_size`.
-/

namespace Httplib.Http

open Httplib.Util

/-- `http::verb`, with `unknown` for a default-constructed request. -/
inductive Verb
  | unknown | delete | get | head | post | put | connect | options | trace | patch
  deriving DecidableEq, Repr

/-- The parts of a parsed request header that `do_session` reads. -/
structure RequestHeader where
  method : Verb
  target : List Char
  version : Nat
  /-- `keep_alive()`, from the version and the Connection field. -/
  keepAlive : Bool
  /-- `websocket::is_upgrade(header)`. -/
  upgrade : Bool
  /-- The Accept-Encoding field, empty when absent. -/
  acceptEncoding : List Char
  deriving DecidableEq, Repr

/-- A default-constructed `http::request`: HTTP/1.1, no method, no target and no fields. -/
def RequestHeader.empty : RequestHeader :=
  ⟨.unknown, [], 11, true, false, []⟩

/-- The response fields that frame the payload. -/
structure Fields where
  contentLength : Option Nat := none
  /-- The Transfer-Encoding tokens, `[]` when the field is absent. -/
  transferEncoding : List (List Char) := []
  contentEncoding : Option (List Char) := none
  deriving DecidableEq, Repr

/-- `httplib::response`, a `http::response<any_body>`. -/
structure Response where
  result : Nat
  version : Nat
  keepAlive : Bool
  fields : Fields
  /-- `payload_size()`: the body's size when the body knows it. -/
  payloadSize : Option Nat
  deriving DecidableEq, Repr

/-- The last Transfer-Encoding token is `chunked`, up to case. -/
def lastIsChunked (te : List (List Char)) : Bool :=
  match te.getLast? with
  | some token => iequals token "chunked".toList
  | none => false

/-- `basic_fields::set_chunked_impl` on the Transfer-Encoding tokens: append `chunked` unless it
is already the last token, or filter it from the last position (an emptied field is erased).
-/
def setChunkedTokens (te : List (List Char)) (value : Bool) : List (List Char) :=
  if value then
    if lastIsChunked te then te else te ++ ["chunked".toList]
  else if lastIsChunked te then te.dropLast
  else te

/-- `basic_fields::set_chunked_impl`. -/
def Fields.setChunkedImpl (f : Fields) (value : Bool) : Fields :=
  { f with transferEncoding := setChunkedTokens f.transferEncoding value }

/-- `basic_fields::set_content_length_impl`: set or erase Content-Length. -/
def Fields.setContentLengthImpl (f : Fields) (value : Option Nat) : Fields :=
  { f with contentLength := value }

/-- `header::chunked()`. -/
def Response.isChunked (r : Response) : Bool :=
  lastIsChunked r.fields.transferEncoding

/-- `header::has_content_length()`: the field is present; the body is not looked at. -/
def Response.hasContentLength (r : Response) : Bool :=
  r.fields.contentLength.isSome

/-- `message::chunked(value)`: set or clear `chunked`; Content-Length is erased
unconditionally.
-/
def Response.chunked (r : Response) (value : Bool) : Response :=
  { r with fields := (r.fields.setChunkedImpl value).setContentLengthImpl none }

/-- `message::content_length(value)`: set or erase Content-Length, then clear a last
`chunked`.
-/
def Response.contentLength (r : Response) (value : Option Nat) : Response :=
  { r with fields := (r.fields.setContentLengthImpl value).setChunkedImpl false }

/-- 1xx, 204 and 304: the statuses whose body must be empty. -/
def bodilessStatus (result : Nat) : Bool :=
  result / 100 = 1 || result = 204 || result = 304

/-- `message::prepare_payload` for a response: a 1xx, 204 or 304 response must have an empty
body (`std::invalid_argument` otherwise); a body of known size gets its Content-Length; an
HTTP/1.1 body of unknown size is chunked.
-/
def Response.preparePayload (r : Response) : Except String Response :=
  if bodilessStatus r.result then
    match r.payloadSize with
    | some 0 => .ok ((r.contentLength none).chunked false)
    | _ => .error "invalid response body"
  else
    match r.payloadSize with
    | some n => .ok (r.contentLength (some n))
    | none => .ok (r.chunked (r.version = 11))

@[simp] theorem Fields.setChunkedImpl_contentLength (f : Fields) (v : Bool)
    : (f.setChunkedImpl v).contentLength = f.contentLength := rfl

@[simp] theorem Fields.setChunkedImpl_transferEncoding (f : Fields) (v : Bool)
    : (f.setChunkedImpl v).transferEncoding = setChunkedTokens f.transferEncoding v := rfl

@[simp] theorem Fields.setChunkedImpl_contentEncoding (f : Fields) (v : Bool)
    : (f.setChunkedImpl v).contentEncoding = f.contentEncoding := rfl

@[simp] theorem Fields.setContentLengthImpl_contentLength (f : Fields) (v : Option Nat)
    : (f.setContentLengthImpl v).contentLength = v := rfl

@[simp] theorem Fields.setContentLengthImpl_transferEncoding (f : Fields) (v : Option Nat)
    : (f.setContentLengthImpl v).transferEncoding = f.transferEncoding := rfl

@[simp] theorem Fields.setContentLengthImpl_contentEncoding (f : Fields) (v : Option Nat)
    : (f.setContentLengthImpl v).contentEncoding = f.contentEncoding := rfl

@[simp] theorem Response.chunked_keepAlive (r : Response) (v : Bool)
    : (r.chunked v).keepAlive = r.keepAlive := rfl

@[simp] theorem Response.contentLength_keepAlive (r : Response) (v : Option Nat)
    : (r.contentLength v).keepAlive = r.keepAlive := rfl

@[simp] theorem Response.chunked_hasContentLength (r : Response) (v : Bool)
    : (r.chunked v).hasContentLength = false := by
  simp [Response.hasContentLength, Response.chunked]

@[simp] theorem Response.contentLength_hasContentLength (r : Response) (v : Option Nat)
    : (r.contentLength v).hasContentLength = v.isSome := by
  simp [Response.hasContentLength, Response.contentLength]

/-- Outside 1xx, 204 and 304, a body of known size gets that size as Content-Length. -/
theorem Response.preparePayload_known {r : Response} {n : Nat}
    (hs : bodilessStatus r.result = false) (hn : r.payloadSize = some n)
    : r.preparePayload = .ok (r.contentLength (some n)) := by
  simp only [Response.preparePayload, hs, hn, Bool.false_eq_true, if_false]

/-- Outside 1xx, 204 and 304, an HTTP/1.1 body of unknown size is made chunked. -/
theorem Response.preparePayload_unknown {r : Response} (hs : bodilessStatus r.result = false)
    (hn : r.payloadSize = none) (hv : r.version = 11)
    : r.preparePayload = .ok (r.chunked true) := by
  simp only [Response.preparePayload, hs, hn, hv, Bool.false_eq_true, if_false, decide_True]

/-- `prepare_payload` leaves keep-alive alone. -/
theorem Response.preparePayload_keepAlive {r r' : Response} (h : r.preparePayload = .ok r')
    : r'.keepAlive = r.keepAlive := by
  unfold Response.preparePayload at h
  split at h
  · split at h <;> first | cases h; rfl | cases h
  · split at h <;> cases h <;> rfl

end Httplib.Http
