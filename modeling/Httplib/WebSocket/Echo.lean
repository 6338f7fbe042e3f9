import Httplib.WebSocket.Moves

/-! `websocket_conn::run` serving the handlers of `examples/main.cxx`: the open and close handlers
return at once, and the message handler echoes each message with `send_message` through
`hdl.lock()`. The reader spawns one handler coroutine per message, which the executor starts
later, possibly after `run()` has returned and the connection is gone. Every message read is
written back at most once, and in the order its handler ran.
-/

namespace Httplib.WebSocket

-----------------------------------------------------------------------------------------
-- The reader and the echo handlers
-----------------------------------------------------------------------------------------

/-- Where `websocket_conn::run` is suspended. -/
inductive ReaderPc
  /-- in `co_await ws_.async_accept` -/
  | accepting
  /-- in `co_await ws_.async_read`, at the head of the loop -/
  | reading
  /-- returned, after a failed handshake or a failed read -/
  | done
  deriving DecidableEq, Repr

/-- A connection run by `websocket_conn::run` with the handlers of `main.cxx`. -/
structure Echo where
  conn : Conn
  reader : ReaderPc
  /-- message handler coroutines spawned on the executor and not yet started, by spawn order -/
  pending : List Message
  /-- the messages read, in order -/
  received : List Message
  /-- each started handler's message, with whether `ws_.is_open()` held at its `send_message` -/
  calls : List (Message × Bool)
  /-- the message of a handler that found `hdl.lock()` empty and called `send_message` through
  it, which ends the process -/
  crashed : Option Message
  deriving DecidableEq, Repr

/-- The connection `handle_websocket` creates: the handshake is pending, so `ws_` is closed. -/
def Echo.init : Echo :=
  ⟨{ Conn.init with status := .closed }, .accepting, [], [], [], none⟩

/-- What may happen next. -/
inductive EchoEvent
  /-- `ws_.async_accept` completes, without error when `ok` -/
  | accept (ok : Bool)
  /-- `ws_.async_read` completes with a message -/
  | read (msg : Message)
  /-- `ws_.async_read` completes with an error: the peer closed, the stream failed or timed out -/
  | readFailed
  /-- the executor starts the `i`-th pending message handler -/
  | start (i : Nat)
  /-- a strand event of the connection -/
  | strand (e : Event)
  deriving DecidableEq, Repr

/-- Some owner keeps the connection alive. `handle_websocket` holds it until `run()` returns; a
`send_message` lambda or a `close()` coroutine captures `self`, and a writer task takes `self`
when it starts, which `co_spawn` does at once on the strand. The message handlers hold only the
`weak_ptr`.
-/
def Echo.held (s : Echo) : Bool :=
  s.reader != .done || !s.conn.strand.isEmpty || s.conn.writers.any WriterPc.live
    || s.conn.closers.any (· != .done)

/-- One event; `none` when it cannot happen. The open and close handlers of `main.cxx` return at
once; Beast fails a read on a closed or failed stream, and a failed read fails the stream. A
started handler runs `hdl.lock()->send_message(msg)`: with the connection gone, the call goes
through the empty pointer. Nothing calls `close()`.
-/
def Echo.step (s : Echo) : EchoEvent → Option Echo
  | .accept ok =>
      if s.reader = .accepting then
        some (if ok then { s with conn := { s.conn with status := .opened }, reader := .reading }
          else { s with reader := .done })
      else none
  | .read msg =>
      if s.reader = .reading ∧ s.conn.status.active then
        some { s with received := s.received ++ [msg], pending := s.pending ++ [msg] }
      else none
  | .readFailed =>
      if s.reader = .reading then
        some { s with conn := { s.conn with status := s.conn.status.fail }, reader := .done }
      else none
  | .start i =>
      match s.pending[i]? with
      | some msg =>
          if s.held then
            (s.conn.step (.sendMessage msg)).map fun conn =>
              { s with conn, pending := s.pending.eraseIdx i,
                       calls := s.calls ++ [(msg, s.conn.isOpen)] }
          else some { s with pending := s.pending.eraseIdx i, crashed := some msg }
      | none => none
  | .strand e => if e.isCall then none else (s.conn.step e).map fun conn => { s with conn }

/-- The events in order; `none` once one cannot happen, and after a crash. -/
def Echo.runEvents (s : Echo) : List EchoEvent → Option Echo
  | [] => some s
  | e :: es => if s.crashed.isSome then none else (s.step e).bind (·.runEvents es)

/-- A run goes on only while the process has not crashed. -/
theorem Echo.runEvents_cons {s s' : Echo} {e : EchoEvent} {es : List EchoEvent}
    (h : s.runEvents (e :: es) = some s')
    : s.crashed = none ∧ ∃ mid, s.step e = some mid ∧ mid.runEvents es = some s' := by
  simp only [Echo.runEvents] at h
  split at h
  · cases h
  · next hc => exact ⟨Option.not_isSome_iff_eq_none.mp hc, Option.bind_eq_some.mp h⟩

/-- The echoes whose `send_message` found `ws_` open and posted to the strand, in call order. -/
def Echo.posted (s : Echo) : List Message :=
  (s.calls.filter (·.2)).map Prod.fst

/-- The echoes whose `send_message` found `ws_` closed and returned. -/
def Echo.dropped (s : Echo) : List Message :=
  (s.calls.filter (!·.2)).map Prod.fst

/-- Where the echoes are: every message read is pending or its handler ran or crashed; the posted
echoes are the accepted messages then the strand's; the accepted ones are the popped ones then the
queue, and the popped ones are the started writes; the calls that found the stream open come
before those that found it closed, and once one found it closed it stays closed. An open stream
has its reader reading, no handler starts before the handshake, nothing calls `close()`, and a
crash comes only once `run()` has returned.
-/
structure Echo.Inv (s : Echo) : Prop where
  received : s.received.Perm (s.calls.map Prod.fst ++ s.crashed.toList ++ s.pending)
  posted : s.conn.enqueued ++ s.conn.sends = s.posted
  order : s.conn.enqueued = s.conn.popped ++ s.conn.sendQue
  started : s.conn.started = s.conn.popped
  calls : s.calls.map Prod.fst = s.posted ++ s.dropped
  closed : s.dropped ≠ [] → s.conn.isOpen = false
  opened : s.conn.isOpen = true → s.reader = .reading
  accepting : s.reader = .accepting → s.calls = [] ∧ s.pending = []
  closers : s.conn.closers = []
  crashed : s.crashed ≠ none → s.reader = .done

theorem Echo.init_inv : Echo.init.Inv :=
  ⟨.rfl, rfl, rfl, rfl, rfl, fun h => absurd rfl h, fun h => absurd h (by decide),
    fun _ => ⟨rfl, rfl⟩, rfl, fun h => absurd rfl h⟩

/-- The element at an index, then the rest: a permutation. -/
theorem perm_cons_eraseIdx {l : List Message} {i : Nat} {msg : Message} (h : l[i]? = some msg)
    : l.Perm (msg :: l.eraseIdx i) := by
  obtain ⟨hi, rfl⟩ := List.getElem?_eq_some_iff.mp h
  exact (List.perm_cons_erase (List.getElem_mem hi)).trans (.cons _ (List.erase_getElem hi))

section Invariant

variable {s s' : Echo}

/-- A handler that starts takes its message out of the pending ones. -/
theorem Echo.Inv.received_start (hs : s.Inv) (hnc : s.crashed = none) {i : Nat} {msg : Message}
    (hi : s.pending[i]? = some msg)
    : s.received.Perm (s.calls.map Prod.fst ++ msg :: s.pending.eraseIdx i) :=
  hs.received.trans (by simpa [hnc] using (perm_cons_eraseIdx hi).append_left (s.calls.map Prod.fst))

/-- A strand event keeps the invariant: one message moves along and the stream is not reopened. -/
theorem Echo.Inv.moves (hs : s.Inv) {conn : Conn} (hm : s.conn.Moves conn)
    (ho : conn.isOpen = true → s.conn.isOpen = true) (hcl : conn.closers = [])
    : ({ s with conn } : Echo).Inv :=
  have hf := (⟨hs.started, hs.order⟩ : s.conn.Fifo).moves hm
  { received := hs.received
    posted := hm.accepted.trans hs.posted
    order := hf.order
    started := hf.started
    calls := hs.calls
    closed := fun hd => by
      cases h : conn.isOpen
      · rfl
      · exact absurd (ho h) (by simp [hs.closed hd])
    opened := fun h => hs.opened (ho h)
    accepting := hs.accepting
    closers := hcl
    crashed := hs.crashed }

/-- A handler started while the connection is held keeps the invariant: its echo is posted when
the stream is open and dropped otherwise.
-/
theorem Echo.Inv.start (hs : s.Inv) (hnc : s.crashed = none) {i : Nat} {msg : Message}
    (hi : s.pending[i]? = some msg) {conn : Conn} (hc : s.conn.step (.sendMessage msg) = some conn)
    : ({ s with conn, pending := s.pending.eraseIdx i,
                calls := s.calls ++ [(msg, s.conn.isOpen)] } : Echo).Inv := by
  have hr := hs.received_start hnc hi
  have hne : s.reader ≠ .accepting := fun ha => by simp [(hs.accepting ha).2] at hi
  have hcalls := hs.calls
  have hposted := hs.posted
  simp only [Echo.posted, Echo.dropped, Conn.sends] at hcalls hposted
  cases ho : s.conn.isOpen <;> simp only [Conn.step, ho, Bool.false_eq_true, if_true, if_false,
    Option.some.injEq] at hc <;> subst hc
  · refine ⟨by simpa [hnc] using hr, ?_, hs.order, hs.started, ?_, fun _ => ho, hs.opened,
      fun ha => absurd ha hne, hs.closers, hs.crashed⟩
    · simpa [Echo.posted] using hs.posted
    · simp [Echo.posted, Echo.dropped, hcalls]
  · have hd : s.dropped = [] := by
      by_contra hd
      simp [hs.closed hd] at ho
    simp only [Echo.dropped] at hd
    refine ⟨by simpa [hnc] using hr, ?_, hs.order, hs.started, ?_,
      fun h => absurd hd (by simpa [Echo.dropped] using h), hs.opened, fun ha => absurd ha hne,
      hs.closers, hs.crashed⟩
    · simp [Conn.sends, Handler.sent, Echo.posted, ← hposted]
    · simp [Echo.posted, Echo.dropped, hcalls, hd]

/-- A handler started once nothing holds the connection crashes: `run()` has returned, so the
invariant still holds with its message as the crash's.
-/
theorem Echo.Inv.crash (hs : s.Inv) (hnc : s.crashed = none) {i : Nat} {msg : Message}
    (hi : s.pending[i]? = some msg) (hheld : s.held = false)
    : ({ s with pending := s.pending.eraseIdx i, crashed := some msg } : Echo).Inv :=
  have hdone : s.reader = .done := by simp [Echo.held] at hheld; exact hheld.1.1.1
  ⟨by simpa [hnc] using hs.received_start hnc hi, hs.posted, hs.order, hs.started, hs.calls,
    hs.closed, hs.opened, fun ha => (nomatch hdone.symm.trans ha), hs.closers, fun _ => hdone⟩

/-- Every event before a crash keeps the invariant. -/
theorem Echo.Inv.step (hs : s.Inv) (hnc : s.crashed = none) {e : EchoEvent}
    (h : s.step e = some s') : s'.Inv := by
  cases e with
  | accept ok =>
      simp only [Echo.step] at h
      split at h
      · next ha =>
        cases h
        split
        · exact ⟨hs.received, hs.posted, hs.order, hs.started, hs.calls,
            fun hd => absurd (by simp [Echo.dropped, (hs.accepting ha).1]) hd, fun _ => rfl,
            fun h => (nomatch h), hs.closers, fun h => nomatch ha.symm.trans (hs.crashed h)⟩
        · exact ⟨hs.received, hs.posted, hs.order, hs.started, hs.calls, hs.closed,
            fun h => (nomatch ha.symm.trans (hs.opened h)), fun h => (nomatch h), hs.closers,
            fun _ => rfl⟩
      · cases h
  | read msg =>
      simp only [Echo.step] at h
      split at h
      · next hr =>
        cases h
        refine ⟨?_, hs.posted, hs.order, hs.started, hs.calls, hs.closed, hs.opened,
          fun ha => (nomatch hr.1.symm.trans ha), hs.closers, hs.crashed⟩
        simpa using hs.received.append_right [msg]
      · cases h
  | readFailed =>
      simp only [Echo.step] at h
      split at h
      · cases h
        exact ⟨hs.received, hs.posted, hs.order, hs.started, hs.calls,
          fun _ => Status.isOpen_fail _, fun h => by simp [Conn.isOpen] at h, fun h => (nomatch h),
          hs.closers, fun _ => rfl⟩
      · cases h
  | start i =>
      simp only [Echo.step] at h
      split at h
      · next msg hi =>
        split at h
        · obtain ⟨conn, hc, rfl⟩ := Option.map_eq_some'.mp h
          exact hs.start hnc hi hc
        · next hheld =>
          cases h
          exact hs.crash hnc hi (by simpa using hheld)
      · cases h
  | strand e =>
      simp only [Echo.step] at h
      split at h
      · cases h
      · next hcall =>
        obtain ⟨conn, hc, rfl⟩ := Option.map_eq_some'.mp h
        have he : e.isCall = false := by simpa using hcall
        exact hs.moves (Conn.moves_step he hc) (Conn.isOpen_step hc)
          (List.length_eq_zero.mp (by rw [Conn.closers_length_step he hc, hs.closers]; rfl))

/-- Every run keeps the invariant, by induction on the events. -/
theorem Echo.Inv.runEvents (hs : s.Inv) {es : List EchoEvent} (h : s.runEvents es = some s')
    : s'.Inv := by
  induction es generalizing s with
  | nil => cases h; exact hs
  | cons e es ih =>
      obtain ⟨hnc, mid, hstep, hrest⟩ := Echo.runEvents_cons h
      exact ih (hs.step hnc hstep) hrest

end Invariant

-----------------------------------------------------------------------------------------
-- Every message read is echoed once
-----------------------------------------------------------------------------------------

/-- The echoes in the order their handlers ran: the writes started, the queue, the lambdas on
the strand, then those dropped on a closed stream.
-/
theorem Echo.Inv.calls_eq {s : Echo} (hs : s.Inv)
    : s.calls.map Prod.fst = s.conn.started ++ s.conn.sendQue ++ s.conn.sends ++ s.dropped := by
  rw [hs.calls, ← hs.posted, hs.order, hs.started]

/-- Over every run from the handshake, the echoes, in the order their handlers ran, are the
writes started on `ws_`, then `send_que_`, then the `send_message` lambdas still on the strand,
then the echoes dropped because `ws_` was no longer open while the connection was still held;
and every message read has exactly one handler, which has run, has crashed the process, or is
pending. No message is echoed twice.
-/
theorem echoes_delivered {es : List EchoEvent} {s : Echo} (h : Echo.init.runEvents es = some s)
    : s.calls.map Prod.fst = s.conn.started ++ s.conn.sendQue ++ s.conn.sends ++ s.dropped
      ∧ s.received.Perm (s.calls.map Prod.fst ++ s.crashed.toList ++ s.pending) :=
  let hs := Echo.init_inv.runEvents h
  ⟨hs.calls_eq, hs.received⟩

/-- Two messages whose handlers the executor starts in the reverse order. The read fails while
the second message's echo is being written, which keeps the connection alive, so the first
handler finds `ws_` closed and its echo is dropped.
-/
def reorderedEcho : List EchoEvent :=
  [.accept true, .read ⟨[1], .text⟩, .read ⟨[2], .binary⟩, .start 1, .strand .run,
    .strand .run, .strand .run, .readFailed, .start 0]

/-- The state after `reorderedEcho`. -/
def afterReorderedEcho : Echo :=
  (Echo.init.runEvents reorderedEcho).getD Echo.init

theorem echoes_delivered_reordered
    : Echo.init.runEvents reorderedEcho = some afterReorderedEcho
      ∧ afterReorderedEcho.calls.map Prod.fst
          = afterReorderedEcho.conn.started ++ afterReorderedEcho.conn.sendQue
            ++ afterReorderedEcho.conn.sends ++ afterReorderedEcho.dropped
      ∧ afterReorderedEcho.received.Perm
          (afterReorderedEcho.calls.map Prod.fst ++ afterReorderedEcho.crashed.toList
            ++ afterReorderedEcho.pending) :=
  have hrun : Echo.init.runEvents reorderedEcho = some afterReorderedEcho := rfl
  ⟨hrun, echoes_delivered hrun⟩

/-- The executor starts the handlers in spawn order. -/
def EchoEvent.inOrder : EchoEvent → Bool
  | .start i => i == 0
  | _ => true

/-- Starting handlers in spawn order keeps the calls in read order. -/
theorem Echo.received_step {s s' : Echo} {e : EchoEvent} (he : e.inOrder) (hnc : s.crashed = none)
    (hs : s.received = s.calls.map Prod.fst ++ s.crashed.toList ++ s.pending)
    (h : s.step e = some s') : s'.received = s'.calls.map Prod.fst ++ s'.crashed.toList ++ s'.pending := by
  cases e with
  | accept ok =>
      simp only [Echo.step] at h
      split at h <;> cases h
      split <;> exact hs
  | read msg =>
      simp only [Echo.step] at h
      split at h <;> cases h
      simp [hs]
  | readFailed =>
      simp only [Echo.step] at h
      split at h <;> cases h
      exact hs
  | start i =>
      simp only [EchoEvent.inOrder, beq_iff_eq] at he
      subst he
      simp only [Echo.step] at h
      split at h
      · next msg hget =>
        cases hp : s.pending with
        | nil => simp [hp] at hget
        | cons m rest =>
            simp only [hp, List.getElem?_cons_zero, Option.some.injEq] at hget
            subst hget
            split at h
            · obtain ⟨conn, -, rfl⟩ := Option.map_eq_some'.mp h
              simp [hs, hp, hnc]
            · cases h
              simp [hs, hp, hnc]
      · cases h
  | strand e =>
      simp only [Echo.step] at h
      split at h
      · cases h
      · obtain ⟨conn, -, rfl⟩ := Option.map_eq_some'.mp h
        exact hs

/-- Every run whose handlers start in spawn order keeps the calls in read order, by induction
on the events.
-/
theorem Echo.received_runEvents {s s' : Echo} {es : List EchoEvent} (hes : ∀ e ∈ es, e.inOrder)
    (hs : s.received = s.calls.map Prod.fst ++ s.crashed.toList ++ s.pending)
    (h : s.runEvents es = some s')
    : s'.received = s'.calls.map Prod.fst ++ s'.crashed.toList ++ s'.pending := by
  induction es generalizing s with
  | nil => cases h; exact hs
  | cons e es ih =>
      obtain ⟨hnc, mid, hstep, hrest⟩ := Echo.runEvents_cons h
      exact ih (fun e' he' => hes e' (List.mem_cons_of_mem e he'))
        (Echo.received_step (hes e (List.mem_cons_self e es)) hnc hs hstep) hrest

/-- When the executor starts handlers in spawn order, every run from the handshake echoes in read
order: the messages read are the writes started on `ws_`, then `send_que_`, then the lambdas on
the strand, then the echoes dropped on a stream no longer open, then the message of a crashed
handler, then the messages whose handler has not started.
-/
theorem echoes_in_read_order {es : List EchoEvent} (hes : ∀ e ∈ es, e.inOrder) {s : Echo}
    (h : Echo.init.runEvents es = some s)
    : s.received = s.conn.started ++ s.conn.sendQue ++ s.conn.sends ++ s.dropped
        ++ s.crashed.toList ++ s.pending := by
  rw [Echo.received_runEvents hes rfl h, (Echo.init_inv.runEvents h).calls_eq]

/-- Two messages read and echoed in order; three writes' worth of strand work. -/
def orderedEcho : List EchoEvent :=
  [.accept true, .read ⟨[1], .text⟩, .start 0, .read ⟨[2], .binary⟩, .start 0, .strand .run,
    .strand .run, .strand .run, .strand .run]

/-- The state after `orderedEcho`. -/
def afterOrderedEcho : Echo :=
  (Echo.init.runEvents orderedEcho).getD Echo.init

theorem echoes_in_read_order_ordered
    : (∀ e ∈ orderedEcho, e.inOrder) ∧ Echo.init.runEvents orderedEcho = some afterOrderedEcho
      ∧ afterOrderedEcho.received
        = afterOrderedEcho.conn.started ++ afterOrderedEcho.conn.sendQue
          ++ afterOrderedEcho.conn.sends ++ afterOrderedEcho.dropped ++ afterOrderedEcho.crashed.toList
          ++ afterOrderedEcho.pending :=
  have hes : ∀ e ∈ orderedEcho, e.inOrder := by decide
  have hrun : Echo.init.runEvents orderedEcho = some afterOrderedEcho := rfl
  ⟨hes, hrun, echoes_in_read_order hes hrun⟩

end Httplib.WebSocket
