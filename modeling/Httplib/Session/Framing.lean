import Httplib.Session.Loop

/-! Request framing across the passes of the keep-alive loop. A pass that reads the body its
request carries leaves the input at the next request's first byte; a pass that answers a
request without a handler leaves the body bytes in front of the next header parse.
-/

namespace Httplib.Session

open Httplib.Http

/-- Requests sent back to back on one connection. -/
def wire : List (WireRequest α β) → List α
  | [] => []
  | r :: rs => r.bytes ++ wire rs

/-- The loop reads whatever body the request carries: the parser delimits it, and it has no
body bytes when its method is read without a body or when no handler matches it.
-/
structure BodyRead (C : Collaborators α β) (r : WireRequest α β) : Prop where
  delimits : C.parser.Delimits r
  bodyless : r.header.method ∈ [.get, .head, .trace] → r.bodyBytes = []
  unrouted : C.router.hasHandler r.header.method r.header.target = false → r.bodyBytes = []

/-- A body-reading pass over a request resumes exactly behind it. -/
theorem BodyRead.written_rest {C : Collaborators α β} {r : WireRequest α β} {rest rest' : List α}
    {resp : Response} (hr : BodyRead C r) (h : sessionPass C (r.bytes ++ rest) = .written resp rest')
    : rest' = rest := by
  have hh := (hr.delimits rest).1
  rcases sessionPass_written_rest hh h with ⟨hu, rfl⟩ | ⟨hc, req, hread⟩
  · rw [hr.unrouted hu, List.nil_append]
  · unfold readRequest at hread
    split at hread
    case h_4 => exact absurd ‹_› hc
    case h_5 => rw [(hr.delimits rest).2] at hread; cases hread; rfl
    all_goals cases hread; rw [hr.bodyless (by simp [*]), List.nil_append]

/-- While the loop reads every body, the head of its `k`-th pass is the `k`-th request sent,
by induction on the passes.
-/
theorem loopHead_wire {C : Collaborators α β} {reqs : List (WireRequest α β)}
    (hreqs : ∀ r ∈ reqs, BodyRead C r) {k : Nat} (hk : k ≤ reqs.length) {head : List α}
    (h : loopHead C (wire reqs) k = some head) : head = wire (reqs.drop k) := by
  induction k generalizing head with
  | zero => cases h; rfl
  | succ k ih =>
      obtain ⟨prev, hprev, hstep⟩ := Option.bind_eq_some.mp h
      have hprev := ih (by omega) hprev
      obtain ⟨r, rs, hdrop⟩ : ∃ r rs, reqs.drop k = r :: rs := by
        cases hd : reqs.drop k with
        | nil => simp [List.drop_eq_nil_iff] at hd; omega
        | cons r rs => exact ⟨r, rs, rfl⟩
      have hr : BodyRead C r := hreqs r (List.mem_of_mem_drop (hdrop ▸ List.mem_cons_self r rs))
      rw [hprev, hdrop] at hstep
      rw [← List.drop_drop, hdrop, List.drop_one, List.tail_cons]
      split at hstep
      · rename_i resp rest hpass
        split at hstep
        · cases hstep; exact hr.written_rest hpass
        · cases hstep
      · cases hstep

/-- A server with a handler for every request, over the token wire. -/
def routedTokens : Collaborators Token (List UInt8) :=
  ⟨tokenParser, ⟨fun _ _ => true, fun req resp => (req, resp)⟩, id, fun _ => some [],
    fun _ => false⟩

/-- `PUT /notes HTTP/1.1` with keep-alive. -/
def putNotes : RequestHeader :=
  ⟨.put, "/notes".toList, 11, true, false, []⟩

/-- Two uploads with bodies, back to back. -/
def twoPuts : List (WireRequest Token (List UInt8)) :=
  [tokenRequest putNotes [104, 105], tokenRequest putNotes [33]]

theorem loopHead_wire_twoPuts
    : (∀ r ∈ twoPuts, BodyRead routedTokens r) ∧ 1 ≤ twoPuts.length
      ∧ loopHead routedTokens (wire twoPuts) 1 = some [.header putNotes, .byte 33, .lastChunk]
      ∧ [.header putNotes, .byte 33, .lastChunk] = wire (twoPuts.drop 1) :=
  have hreqs : ∀ r ∈ twoPuts, BodyRead routedTokens r := fun r hr => by
    simp only [twoPuts, List.mem_cons, List.not_mem_nil, or_false] at hr
    rcases hr with rfl | rfl <;> exact ⟨tokenParser_delimits _ _, by decide, by decide⟩
  have h : loopHead routedTokens (wire twoPuts) 1 = some [.header putNotes, .byte 33, .lastChunk] :=
    rfl
  ⟨hreqs, by decide, h, loopHead_wire hreqs (by decide) h⟩

/-- A keep-alive request with body bytes and no handler is answered with a 404 and its body
is left unread: the next pass parses a header from the body bytes.
-/
theorem loopHead_unrouted_body (C : Collaborators α β) (r : WireRequest α β) (rest : List α)
    (hd : C.parser.Delimits r) (hu : r.header.upgrade = false) (hc : r.header.method ≠ .connect)
    (hr : C.router.hasHandler r.header.method r.header.target = false)
    (hk : r.header.keepAlive = true)
    : loopHead C (r.bytes ++ rest) 1 = some (r.bodyBytes ++ rest) := by
  obtain ⟨resp, hw, hrk⟩ := @respond_makeRespone α β C (r.bodyBytes ++ rest) [] r.header
  simp [loopHead, sessionPass_unrouted (hd rest).1 hu hc hr, hw, hrk, hk]

/-- A server without handlers over the token wire. -/
def unroutedTokens : Collaborators Token (List UInt8) :=
  ⟨tokenParser, ⟨fun _ _ => false, fun req resp => (req, resp)⟩, id, fun _ => some [],
    fun _ => false⟩

/-- `POST /upload HTTP/1.1` with keep-alive. -/
def postUpload : RequestHeader :=
  ⟨.post, "/upload".toList, 11, true, false, []⟩

/-- `GET / HTTP/1.1` with keep-alive. -/
def getRoot : RequestHeader :=
  ⟨.get, "/".toList, 11, true, false, []⟩

/-- `POST /upload` with body "hi" and then `GET /` on one connection: the second pass starts at
the body, not at `GET /`.
-/
theorem loopHead_unrouted_upload
    : tokenParser.Delimits (tokenRequest postUpload [104, 105])
      ∧ loopHead unroutedTokens ((tokenRequest postUpload [104, 105]).bytes ++ [.header getRoot]) 1
        = some ([.byte 104, .byte 105, .lastChunk, .header getRoot]) :=
  ⟨tokenParser_delimits _ _,
    loopHead_unrouted_body unroutedTokens _ _ (tokenParser_delimits _ _) rfl (by decide) rfl rfl⟩

end Httplib.Session
