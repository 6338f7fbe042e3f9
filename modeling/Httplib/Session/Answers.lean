import Httplib.Session.Framing

/-! Which passes of the keep-alive loop answer their request. A pass writes at most one
response by construction; here is when it writes none. Parser rejections are handled like
stream failures: the session ends without a response.
-/

namespace Httplib.Session

open Httplib.Http

/-- The response a pass builds for a parsed request, the Accept-Encoding it is negotiated
against, and the input after the request. Without a handler: the 404 of `make_respone`, the
default request's empty Accept-Encoding, the input after the header. With one: the response of the
routing call on the request read and checked, and the routed request's Accept-Encoding.
-/
inductive Builds (C : Collaborators α β) (header : RequestHeader) (rest : List α)
    : List Char → Response → List α → Prop
  | unrouted (hr : C.router.hasHandler header.method header.target = false)
      : Builds C header rest RequestHeader.empty.acceptEncoding (makeRespone header) rest
  | routed {req checked : Request β} {rest' : List α}
      (hr : C.router.hasHandler header.method header.target = true)
      (hread : readRequest C.parser header rest = .ok (req, rest'))
      (hinit : initRequest C req = some checked)
      : Builds C header rest (C.router.routing checked (makeRespone header)).1.header.acceptEncoding
          (C.router.routing checked (makeRespone header)).2 rest'

/-- How a pass over a parsed request, neither an upgrade nor a CONNECT, can end without a
write: the body read failed, `prepare_payload` threw on the response built for the request, or a
handler matched and the target or query check failed.
-/
def Unanswered (C : Collaborators α β) (header : RequestHeader) (rest : List α) (p : Pass α)
    : Prop :=
  (∃ e, readRequest C.parser header rest = .error e ∧ p = .readFailed e)
  ∨ (∃ ae resp rest' msg, Builds C header rest ae resp rest'
      ∧ prepareResponse C.isSupportedEncoding ae resp = .error msg ∧ p = .threw)
  ∨ (C.router.hasHandler header.method header.target = true
      ∧ (∃ req rest', readRequest C.parser header rest = .ok (req, rest') ∧ initRequest C req = none)
      ∧ p = .dropped 400)

/-- The end of a pass writes the prepared response or throws. -/
theorem respond_cases (C : Collaborators α β) (ae : List Char) (resp : Response) (rest : List α)
    : (∃ w, prepareResponse C.isSupportedEncoding ae resp = .ok w
        ∧ respond C ae resp rest = .written w rest)
      ∨ ∃ msg, prepareResponse C.isSupportedEncoding ae resp = .error msg
        ∧ respond C ae resp rest = .threw := by
  unfold respond
  split
  · next w hp => exact .inl ⟨w, hp, rfl⟩
  · next msg hp => exact .inr ⟨msg, hp, rfl⟩

/-- A pass over a parsed request that is neither an upgrade nor a CONNECT writes, once, the
response built for the request after negotiation and `prepare_payload`, or ends as `Unanswered`
says; a header read error ends the session without a response.
-/
theorem sessionPass_answers (C : Collaborators α β) (input : List α)
    : (∀ header rest, C.parser.readHeader input = .ok (header, rest) → header.upgrade = false →
        header.method ≠ .connect →
        (∃ ae resp rest' w, Builds C header rest ae resp rest'
          ∧ prepareResponse C.isSupportedEncoding ae resp = .ok w
          ∧ sessionPass C input = .written w rest')
        ∨ Unanswered C header rest (sessionPass C input))
      ∧ ∀ e, C.parser.readHeader input = .error e → sessionPass C input = .readFailed e := by
  refine ⟨fun header rest hh hu hc => ?_, fun e he => by simp [sessionPass, he]⟩
  have hend : ∀ {ae resp rest'}, Builds C header rest ae resp rest' →
      sessionPass C input = respond C ae resp rest' →
      (∃ ae resp rest' w, Builds C header rest ae resp rest'
        ∧ prepareResponse C.isSupportedEncoding ae resp = .ok w
        ∧ sessionPass C input = .written w rest')
      ∨ Unanswered C header rest (sessionPass C input) := fun {ae resp rest'} hb hp => by
    rw [hp]
    rcases respond_cases C ae resp rest' with ⟨w, hw, hr⟩ | ⟨msg, hm, hr⟩
    · exact .inl ⟨ae, resp, rest', w, hb, hw, hr⟩
    · exact .inr (.inr (.inl ⟨ae, resp, rest', msg, hb, hm, hr⟩))
  cases hr : C.router.hasHandler header.method header.target with
  | false => exact hend (.unrouted hr) (sessionPass_unrouted hh hu hc hr)
  | true =>
      have hrouted := sessionPass_routed hh hu hc hr
      cases hread : readRequest C.parser header rest with
      | error e => exact .inr (.inl ⟨e, hread, by rw [hrouted, hread]⟩)
      | ok read =>
          obtain ⟨req, rest'⟩ := read
          cases hinit : initRequest C req with
          | none =>
              exact .inr (.inr (.inr ⟨hr, ⟨req, rest', hread, hinit⟩,
                by rw [hrouted, hread]; simp [hinit]⟩))
          | some checked =>
              exact hend (.routed hr hread hinit) (by rw [hrouted, hread]; simp [hinit])

/-- A header the parser rejects gets no response: the pass ends the session as a read failure.
-/
theorem sessionPass_malformed_header
    : sessionPass unroutedTokens [.byte 0] = .readFailed .malformed := rfl

end Httplib.Session
