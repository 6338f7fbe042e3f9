import Httplib.Session.Loop

/-! The framing of the response a pass writes: the content-coding loop, then `prepare_payload`
when no Content-Length is present (`server.cpp` lines 277-287), on Beast's documented semantics
of the fields.
-/

namespace Httplib.Session

open Httplib.Http Httplib.Util

variable {α β : Type} {C : Collaborators α β}

-----------------------------------------------------------------------------------------
-- The last `chunked` token
-----------------------------------------------------------------------------------------

theorem lastIsChunked_append_chunked (te : List (List Char))
    : lastIsChunked (te ++ ["chunked".toList]) = true := by
  rw [lastIsChunked, List.getLast?_concat]
  rfl

@[simp] theorem lastIsChunked_setChunkedTokens_true (te : List (List Char))
    : lastIsChunked (setChunkedTokens te true) = true := by
  rw [setChunkedTokens, if_pos rfl]
  split
  · assumption
  · exact lastIsChunked_append_chunked te

/-- Clearing `chunked` leaves a last `chunked` only where there was one. -/
theorem lastIsChunked_of_clear {te : List (List Char)}
    (h : lastIsChunked (setChunkedTokens te false) = true) : lastIsChunked te = true := by
  by_contra hc
  simp [setChunkedTokens, hc] at h

/-- Setting and then clearing `chunked` leaves a last `chunked` only where there was one. -/
theorem lastIsChunked_of_set_clear {te : List (List Char)}
    (h : lastIsChunked (setChunkedTokens (setChunkedTokens te true) false) = true)
    : lastIsChunked te = true := by
  by_contra hc
  have hset : setChunkedTokens te true = te ++ ["chunked".toList] := by simp [setChunkedTokens, hc]
  rw [hset, setChunkedTokens, if_neg Bool.false_ne_true, if_pos (lastIsChunked_append_chunked te),
    List.dropLast_concat] at h
  exact hc h

@[simp] theorem Response.chunked_true_isChunked (r : Response)
    : (r.chunked true).isChunked = true := by
  simp [Response.chunked, Response.isChunked]

-----------------------------------------------------------------------------------------
-- `prepare_payload`
-----------------------------------------------------------------------------------------

/-- A Content-Length that `prepare_payload` leaves next to a last `chunked` was set over a
Transfer-Encoding whose `chunked` survived the clearing.
-/
theorem Response.preparePayload_both {r r' : Response} (h : r.preparePayload = .ok r')
    (hl : r'.hasContentLength = true) (hc : r'.isChunked = true)
    : lastIsChunked (setChunkedTokens r.fields.transferEncoding false) = true := by
  unfold Response.preparePayload at h
  split at h
  · split at h
    · cases h; simp at hl
    · cases h
  · split at h <;> cases h
    · simpa [Response.isChunked, Response.contentLength] using hc
    · simp at hl

theorem Response.preparePayload_contentEncoding {r r' : Response} (h : r.preparePayload = .ok r')
    : r'.fields.contentEncoding = r.fields.contentEncoding := by
  unfold Response.preparePayload at h
  split at h
  · split at h <;> cases h
    rfl
  · split at h <;> cases h <;> rfl

-----------------------------------------------------------------------------------------
-- The written response
-----------------------------------------------------------------------------------------

theorem negotiateEncoding_some {isSupported : List Char → Bool} {ae enc : List Char}
    (resp : Response) (h : (split ae ',').find? isSupported = some enc)
    : negotiateEncoding isSupported ae resp
      = ({ resp with fields := { resp.fields with contentEncoding := some enc } }).chunked true := by
  simp only [negotiateEncoding, h]

theorem negotiateEncoding_none {isSupported : List Char → Bool} {ae : List Char}
    (resp : Response) (h : (split ae ',').find? isSupported = none)
    : negotiateEncoding isSupported ae resp = resp := by
  simp only [negotiateEncoding, h]

/-- The written response carries a Content-Length next to a last `chunked` only when the
router's response already ended its Transfer-Encoding in `chunked`.
-/
theorem prepareResponse_both {isSupported : List Char → Bool} {ae : List Char}
    {resp resp' : Response} (h : prepareResponse isSupported ae resp = .ok resp')
    (hl : resp'.hasContentLength = true) (hc : resp'.isChunked = true) : resp.isChunked = true := by
  unfold prepareResponse at h
  dsimp only at h
  cases hf : (split ae ',').find? isSupported with
  | none =>
      rw [negotiateEncoding_none resp hf] at h
      split at h
      · cases h; exact hc
      · exact lastIsChunked_of_clear (Response.preparePayload_both h hl hc)
  | some enc =>
      rw [negotiateEncoding_some resp hf] at h
      split at h
      · cases h; simp at hl
      · have hboth := Response.preparePayload_both h hl hc
        exact lastIsChunked_of_set_clear (by simpa [Response.chunked] using hboth)

/-- What a pass writes: a Content-Length next to a last `chunked` only when the router's
response already ended its Transfer-Encoding in `chunked`; with a codec chosen, that
Content-Encoding, chunked without Content-Length for an HTTP/1.1 body of unknown size, and the
body's own size as Content-Length when it is known.
-/
theorem respond_framing {ae : List Char} {resp resp' : Response} {rest rest' : List α}
    (h : respond C ae resp rest = .written resp' rest')
    : (resp'.hasContentLength = true → resp'.isChunked = true → resp.isChunked = true)
      ∧ ∀ enc, (split ae ',').find? C.isSupportedEncoding = some enc →
        resp'.fields.contentEncoding = some enc
        ∧ (resp.payloadSize = none → resp.version = 11 → bodilessStatus resp.result = false →
            resp'.isChunked = true ∧ resp'.hasContentLength = false)
        ∧ ∀ n, resp.payloadSize = some n → bodilessStatus resp.result = false →
            resp'.fields.contentLength = some n := by
  unfold respond at h
  cases hp : prepareResponse C.isSupportedEncoding ae resp with
  | error e => rw [hp] at h; cases h
  | ok _ =>
    rw [hp] at h
    cases h
    refine ⟨prepareResponse_both hp, fun enc hf => ?_⟩
    have hneg : (negotiateEncoding C.isSupportedEncoding ae resp).hasContentLength = false := by
      rw [negotiateEncoding_some resp hf]; exact Response.chunked_hasContentLength _ _
    have hpp : (negotiateEncoding C.isSupportedEncoding ae resp).preparePayload = .ok resp' := by
      simpa [prepareResponse, hneg] using hp
    refine ⟨?_, fun hs hv hb => ?_, fun n hs hb => ?_⟩
    · rw [Response.preparePayload_contentEncoding hpp, negotiateEncoding_some resp hf]
      rfl
    · rw [Response.preparePayload_unknown (by simpa using hb) (by simpa using hs)
        (by simpa using hv)] at hpp
      cases hpp
      exact ⟨Response.chunked_true_isChunked _, Response.chunked_hasContentLength _ _⟩
    · rw [Response.preparePayload_known (by simpa using hb) (by simpa using hs)] at hpp
      cases hpp
      rfl

-----------------------------------------------------------------------------------------
-- A compressed body framed by its uncompressed length
-----------------------------------------------------------------------------------------

/-- With a codec chosen for a body of known size `n` outside 1xx, 204 and 304, and no `chunked`
from the router, the pass writes that Content-Encoding framed by Content-Length `n`, the size
before compression, and without `chunked`: `prepare_payload` undoes the `chunked(true)` of the
encoding loop.
-/
theorem respond_compressed_by_length {ae enc : List Char} {resp : Response} {n : Nat}
    (rest : List α) (hf : (split ae ',').find? C.isSupportedEncoding = some enc)
    (hn : resp.payloadSize = some n) (hb : bodilessStatus resp.result = false)
    (hc : resp.isChunked = false)
    : ∃ resp', respond C ae resp rest = .written resp' rest
      ∧ resp'.fields.contentEncoding = some enc ∧ resp'.fields.contentLength = some n
      ∧ resp'.isChunked = false := by
  have hp : prepareResponse C.isSupportedEncoding ae resp
      = .ok ((({ resp with fields := { resp.fields with contentEncoding := some enc } }).chunked
          true).contentLength (some n)) := by
    simp only [prepareResponse, negotiateEncoding_some resp hf, Response.chunked_hasContentLength,
      Bool.false_eq_true, if_false]
    exact Response.preparePayload_known hb hn
  refine ⟨_, by rw [respond, hp], rfl, rfl, ?_⟩
  cases h : Response.isChunked _
  · rfl
  · have hset := @lastIsChunked_of_set_clear resp.fields.transferEncoding
      (by simpa [Response.isChunked, Response.contentLength, Response.chunked] using h)
    simp [Response.isChunked, hset] at hc


/-- A router with a handler for every request, answering a 200 of five bytes of known size. -/
def fiveByteRouter : Router (List UInt8) :=
  ⟨fun _ _ => true, fun req resp => (req, { resp with result := 200, payloadSize := some 5 })⟩

/-- The token wire with that router and gzip the one supported encoding. -/
def gzipTokens : Collaborators Token (List UInt8) :=
  ⟨tokenParser, fiveByteRouter, id, fun _ => some [], fun e => e == "gzip".toList⟩

/-- `GET / HTTP/1.1` with `Accept-Encoding: gzip`. -/
def getGzip : RequestHeader :=
  ⟨.get, "/".toList, 11, true, false, "gzip".toList⟩

/-- The 200 of five bytes that router answers `getGzip` with. -/
def fiveByteResponse : Response :=
  (fiveByteRouter.routing ⟨getGzip, none, [], []⟩ (makeRespone getGzip)).2

/-- `Accept-Encoding: gzip` on the five-byte response: `Content-Encoding: gzip` with
`Content-Length: 5` and no `chunked`.
-/
theorem respond_compressed_fiveBytes
    : (split "gzip".toList ',').find? gzipTokens.isSupportedEncoding = some "gzip".toList
      ∧ fiveByteResponse.payloadSize = some 5 ∧ bodilessStatus fiveByteResponse.result = false
      ∧ fiveByteResponse.isChunked = false
      ∧ ∃ resp', respond gzipTokens "gzip".toList fiveByteResponse [] = .written resp' []
        ∧ resp'.fields.contentEncoding = some "gzip".toList ∧ resp'.fields.contentLength = some 5
        ∧ resp'.isChunked = false :=
  ⟨rfl, rfl, rfl, rfl, respond_compressed_by_length [] rfl rfl rfl rfl⟩

/-- The whole pass on the token wire writes that response. -/
example : sessionPass gzipTokens [.header getGzip]
    = .written ⟨200, 11, true, ⟨some 5, [], some "gzip".toList⟩, some 5⟩ [] :=
  rfl

/-- A 200 over HTTP/1.1 whose body size is unknown. -/
def unknownSizeOk : Response :=
  ⟨200, 11, true, {}, none⟩

/-- The same response chunked with `Content-Encoding: gzip`. -/
def chunkedGzip : Response :=
  ⟨200, 11, true, ⟨none, ["chunked".toList], some "gzip".toList⟩, none⟩

theorem respond_framing_unknown_size
    : respond gzipTokens "gzip".toList unknownSizeOk [] = .written chunkedGzip []
      ∧ (chunkedGzip.hasContentLength = true → chunkedGzip.isChunked = true →
          unknownSizeOk.isChunked = true)
      ∧ ∀ enc, (split "gzip".toList ',').find? gzipTokens.isSupportedEncoding = some enc →
        chunkedGzip.fields.contentEncoding = some enc
        ∧ (unknownSizeOk.payloadSize = none → unknownSizeOk.version = 11 →
            bodilessStatus unknownSizeOk.result = false →
            chunkedGzip.isChunked = true ∧ chunkedGzip.hasContentLength = false)
        ∧ ∀ n, unknownSizeOk.payloadSize = some n → bodilessStatus unknownSizeOk.result = false →
            chunkedGzip.fields.contentLength = some n :=
  ⟨rfl, @respond_framing _ _ gzipTokens _ _ _ [] [] rfl⟩

end Httplib.Session
