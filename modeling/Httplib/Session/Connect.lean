import Httplib.Session.Loop

/-! `server::impl::handle_connect`, where `do_session` hands a CONNECT request. The target is cut
at its first ':' into host and port, which are resolved and dialled; only then is a 200
"Connection Established" written and the tunnel started. Every failure returns without a reply.
-/

namespace Httplib.Session

open Httplib.Http

/-- `target.find(":")`, then `substr(0, pos)` and `substr(pos + 1)`; `none` for `npos`. -/
def splitHostPort (target : List Char) : Option (List Char × List Char) :=
  match target.findIdx? (· = ':') with
  | none => none
  | some pos => some (target.take pos, target.drop (pos + 1))

/-- The upstream side of the tunnel: `tcp::resolver::async_resolve(host, port)`, with `none` for
an error, and `net::async_connect` over the endpoints it found.
-/
structure Dialer (ε : Type) where
  resolve : List Char → List Char → Option ε
  connect : ε → Bool

/-- How `handle_connect` ends. -/
inductive ConnectEnd
  /-- the target has no ':' -/
  | noPort
  | resolveFailed (host port : List Char)
  | connectFailed (host port : List Char)
  /-- `http::async_write` of the reply, then `proxy_conn::run` when the write succeeds -/
  | replied (resp : Response) (reason : List Char) (host port : List Char)
  deriving DecidableEq, Repr

/-- The reply: `make_respone` of the request with the result set to 200. -/
def connectReply (h : RequestHeader) : Response :=
  { makeRespone h with result := 200 }

/-- `handle_connect` on a CONNECT request header. -/
def handleConnect (D : Dialer ε) (h : RequestHeader) : ConnectEnd :=
  match splitHostPort h.target with
  | none => .noPort
  | some (host, port) =>
      match D.resolve host port with
      | none => .resolveFailed host port
      | some endpoints =>
          if D.connect endpoints then
            .replied (connectReply h) "Connection Established".toList host port
          else .connectFailed host port

-----------------------------------------------------------------------------------------
-- The target split
-----------------------------------------------------------------------------------------

/-- The first ':' of a target that has one sits after a host without ':'. -/
theorem findIdx?_colon_append {host port : List Char} (hhost : ':' ∉ host)
    : (host ++ ':' :: port).findIdx? (· = ':') = some host.length := by
  have hnone : host.findIdx? (fun c => decide (c = ':')) = none :=
    List.findIdx?_eq_none_iff.mpr fun c hc => by
      simpa using fun h : c = ':' => hhost (h ▸ hc)
  simp [List.findIdx?_append, hnone]

/-- The split is the decomposition at the first ':': it returns `(host, port)` exactly when the
target is `host ++ ":" ++ port` with no ':' in `host`.
-/
theorem splitHostPort_eq_some {target host port : List Char}
    : splitHostPort target = some (host, port) ↔ target = host ++ ':' :: port ∧ ':' ∉ host := by
  constructor
  · intro h
    unfold splitHostPort at h
    split at h
    · cases h
    · next pos hpos =>
      obtain ⟨hlt, hcolon, hbefore⟩ := List.findIdx?_eq_some_iff_getElem.mp hpos
      simp only [Option.some.injEq, Prod.mk.injEq] at h
      obtain ⟨rfl, rfl⟩ := h
      refine ⟨?_, fun hmem => ?_⟩
      · calc target = target.take pos ++ target.drop pos := (List.take_append_drop _ _).symm
          _ = target.take pos ++ ':' :: target.drop (pos + 1) := by
            rw [← List.getElem_cons_drop _ _ hlt, of_decide_eq_true hcolon]
      · obtain ⟨j, hj, hget⟩ := List.getElem_of_mem hmem
        have hjpos : j < pos := lt_of_lt_of_le hj (List.length_take_le _ _)
        exact hbefore j hjpos (by simpa [List.getElem_take] using hget)
  · rintro ⟨rfl, hhost⟩
    simp [splitHostPort, findIdx?_colon_append hhost]

/-- A bracketed IPv6 literal `[pre:post]:port`, with `pre` its part before the first ':', is cut
inside the brackets.
-/
theorem splitHostPort_bracketed {pre post port : List Char} (hpre : ':' ∉ pre)
    : splitHostPort ('[' :: pre ++ ':' :: post ++ ']' :: ':' :: port)
      = some ('[' :: pre, post ++ ']' :: ':' :: port) :=
  splitHostPort_eq_some.mpr ⟨by simp, by simpa using hpre⟩

-----------------------------------------------------------------------------------------
-- What handle_connect dials and writes
-----------------------------------------------------------------------------------------

/-- The host and port handed to `async_resolve`, if any. -/
def ConnectEnd.dialled : ConnectEnd → Option (List Char × List Char)
  | .noPort => none
  | .resolveFailed host port | .connectFailed host port | .replied _ _ host port => some (host, port)

/-- `handle_connect` resolves exactly the split of the target. -/
theorem handleConnect_dialled (D : Dialer ε) (h : RequestHeader)
    : (handleConnect D h).dialled = splitHostPort h.target := by
  unfold handleConnect
  split
  · next hs => rw [hs]; rfl
  · next host port hs =>
    rw [hs]
    split
    · rfl
    · split <;> rfl

/-- A CONNECT to a bracketed IPv6 literal `[pre:post]:port` resolves the host `[pre` and the port
`post]:port`, never the literal and its port.
-/
theorem handleConnect_bracketed (D : Dialer ε) (h : RequestHeader) {pre post port : List Char}
    (hpre : ':' ∉ pre) (ht : h.target = '[' :: pre ++ ':' :: post ++ ']' :: ':' :: port)
    : (handleConnect D h).dialled = some ('[' :: pre, post ++ ']' :: ':' :: port) := by
  rw [handleConnect_dialled, ht, splitHostPort_bracketed hpre]

/-- `CONNECT [::1]:443 HTTP/1.1`. -/
def loopbackConnect : RequestHeader :=
  ⟨.connect, "[::1]:443".toList, 11, true, false, []⟩

/-- A dialer for which every host resolves and connects. -/
def dialAnything : Dialer Unit :=
  ⟨fun _ _ => some (), fun _ => true⟩

theorem handleConnect_loopback
    : ':' ∉ ([] : List Char)
      ∧ loopbackConnect.target = '[' :: [] ++ ':' :: [':', '1'] ++ ']' :: ':' :: "443".toList
      ∧ (handleConnect dialAnything loopbackConnect).dialled
        = some (['['], [':', '1'] ++ ']' :: ':' :: "443".toList) :=
  ⟨List.not_mem_nil _, rfl, handleConnect_bracketed _ _ (List.not_mem_nil _) rfl⟩

end Httplib.Session
