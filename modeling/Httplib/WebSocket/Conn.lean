import Mathlib.Data.List.Basic

/-! The send side of `websocket_conn` as a state machine. `send_message` and `close` post work to
`strand_`, which runs posted handlers one at a time in posting order; every `co_await` of a
coroutine spawned on the strand is a suspension whose resumption is a strand handler. The
scheduler chooses what happens next: a caller's `send_message` or `close`, the strand running
its first handler, or the stream completing a pending write or close.
-/

namespace Httplib.WebSocket

/-- `websocket_conn::message::data_type`. -/
inductive DataType
  | text
  | binary
  deriving DecidableEq, Repr

/-- `websocket_conn::message`. -/
structure Message where
  payload : List UInt8
  type : DataType
  deriving DecidableEq, Repr

/-- Where a `process_write_data` coroutine is suspended. -/
inductive WriterPc
  /-- `co_spawn` posted its start to the strand -/
  | spawned
  /-- in `co_await net::post(strand_)` at the head of the loop -/
  | posted
  /-- in `co_await ws_.async_write` of this message -/
  | writing (msg : Message)
  /-- the write completed (`ok` when without error); the resumption is posted -/
  | wrote (ok : Bool)
  /-- returned -/
  | done
  deriving DecidableEq, Repr

/-- The coroutine has been spawned and has not returned. -/
def WriterPc.live : WriterPc → Bool
  | .done => false
  | _ => true

/-- The coroutine is suspended in `ws_.async_write`. -/
def WriterPc.isWriting : WriterPc → Bool
  | .writing _ => true
  | _ => false

/-- Where the coroutine `close()` spawns is suspended. -/
inductive CloserPc
  | spawned
  | posted
  /-- in `co_await ws_.async_close` -/
  | closing
  | done
  deriving DecidableEq, Repr

/-- The status of Beast's `websocket::stream`, which `is_open()` and every operation read. -/
inductive Status
  /-- `status::open`: after the handshake, before a close -/
  | opened
  /-- `status::closing`: `async_close` has started the close handshake -/
  | closing
  /-- `status::closed`: before the handshake, or once the close handshake is done -/
  | closed
  /-- `status::failed`: a read or a write failed -/
  | failed
  deriving DecidableEq, Repr

/-- `ws_.is_open()`. -/
def Status.isOpen : Status → Bool
  | .opened => true
  | _ => false

/-- An operation can still complete without error: Beast's `check_stop_now` aborts every read and
write once the status is closed or failed.
-/
def Status.active : Status → Bool
  | .opened | .closing => true
  | _ => false

/-- `async_close` on an open stream starts the closing handshake. -/
def Status.close : Status → Status
  | .opened => .closing
  | s => s

/-- A failed operation fails a stream still in use. -/
def Status.fail : Status → Status
  | .opened | .closing => .failed
  | s => s

@[simp] theorem Status.isOpen_close (s : Status) : s.close.isOpen = false := by cases s <;> rfl

@[simp] theorem Status.isOpen_fail (s : Status) : s.fail.isOpen = false := by cases s <;> rfl

theorem Status.active_of_isOpen {s : Status} (h : s.isOpen) : s.active := by
  cases s <;> simp_all [Status.isOpen, Status.active]

@[simp] theorem Status.active_close (s : Status) : s.close.active = s.active := by
  cases s <;> rfl

/-- A handler posted to `strand_`. -/
inductive Handler
  /-- the lambda `send_message` posts -/
  | send (msg : Message)
  /-- the resumption of `process_write_data` task `id` -/
  | writer (id : Nat)
  /-- the resumption of the coroutine of `close()` call `id` -/
  | closer (id : Nat)
  deriving DecidableEq, Repr

/-- What the connection asks of `ws_`, in order. -/
inductive WireEvent
  | writeStart (msg : Message)
  | writeDone (msg : Message) (ok : Bool)
  | closeStart
  | closeDone
  deriving DecidableEq, Repr

/-- The connection's send side, with the history of the queue: `enqueued` in strand order and
`popped` in pop order.
-/
structure Conn where
  /-- the status of `ws_` -/
  status : Status
  strand : List Handler
  /-- `send_que_`, front first -/
  sendQue : List Message
  /-- the `process_write_data` tasks, by spawn order -/
  writers : List WriterPc
  /-- the coroutines spawned by `close()`, by spawn order -/
  closers : List CloserPc
  enqueued : List Message
  popped : List Message
  wire : List WireEvent
  deriving DecidableEq, Repr

/-- `ws_.is_open()`. -/
def Conn.isOpen (c : Conn) : Bool :=
  c.status.isOpen

/-- An open connection that has sent nothing. -/
def Conn.init : Conn :=
  ⟨.opened, [], [], [], [], [], [], []⟩

/-- What may happen next. -/
inductive Event
  /-- a caller runs `send_message` -/
  | sendMessage (msg : Message)
  /-- a caller runs `close` -/
  | close
  /-- the strand runs its first handler; a resumed `net::post` completes without error -/
  | run
  /-- the strand runs its first handler, a `net::post` resumption completing with an error -/
  | runAborted
  /-- the pending `ws_.async_write` of task `id` completes -/
  | writeComplete (id : Nat) (ok : Bool)
  /-- the pending `ws_.async_close` of close call `id` completes -/
  | closeComplete (id : Nat)
  deriving DecidableEq, Repr

/-- `net::co_spawn(strand_, process_write_data(), detached)`. -/
def Conn.spawnWriter (c : Conn) : Conn :=
  { c with writers := c.writers ++ [.spawned], strand := c.strand ++ [.writer c.writers.length] }

/-- The lambda `send_message` posts: push, and spawn a writer when the queue was empty. -/
def Conn.runSend (c : Conn) (msg : Message) : Conn :=
  let sendInProcess := !c.sendQue.isEmpty
  let c := { c with sendQue := c.sendQue ++ [msg], enqueued := c.enqueued ++ [msg] }
  if sendInProcess then c else c.spawnWriter

/-- A resumption of `process_write_data` task `id`: from its start to the loop's `post`; at
the loop head, return on an empty queue or pop and start writing; after a write, return on error
or go back to the loop's `post`.
-/
def Conn.runWriter (c : Conn) (id : Nat) : Option Conn :=
  match c.writers[id]? with
  | some .spawned =>
      some { c with writers := c.writers.set id .posted, strand := c.strand ++ [.writer id] }
  | some .posted =>
      match c.sendQue with
      | [] => some { c with writers := c.writers.set id .done }
      | msg :: rest =>
          some { c with sendQue := rest, popped := c.popped ++ [msg],
                        writers := c.writers.set id (.writing msg),
                        wire := c.wire ++ [.writeStart msg] }
  | some (.wrote true) =>
      some { c with writers := c.writers.set id .posted, strand := c.strand ++ [.writer id] }
  | some (.wrote false) => some { c with writers := c.writers.set id .done }
  | _ => none

/-- A resumption of the coroutine of `close()` call `id`: from its start to its `post`, then
`ws_.async_close` with reason "normal", which leaves `is_open()` false. Beast sends the close
frame, and marks the stream closing, once a write in progress has finished; the model does both
at the call.
-/
def Conn.runCloser (c : Conn) (id : Nat) : Option Conn :=
  match c.closers[id]? with
  | some .spawned =>
      some { c with closers := c.closers.set id .posted, strand := c.strand ++ [.closer id] }
  | some .posted =>
      some { c with closers := c.closers.set id .closing, status := c.status.close,
                    wire := c.wire ++ [.closeStart] }
  | _ => none

/-- One event; `none` when it cannot happen in this state. A write completes without error only
on a stream still open or closing, and a failed write fails the stream.
-/
def Conn.step (c : Conn) : Event → Option Conn
  | .sendMessage msg =>
      some (if c.isOpen then { c with strand := c.strand ++ [.send msg] } else c)
  | .close =>
      some (if c.isOpen then
        { c with closers := c.closers ++ [.spawned],
                 strand := c.strand ++ [.closer c.closers.length] }
      else c)
  | .run =>
      match c.strand with
      | [] => none
      | .send msg :: hs => some ({ c with strand := hs }.runSend msg)
      | .writer id :: hs => { c with strand := hs }.runWriter id
      | .closer id :: hs => { c with strand := hs }.runCloser id
  | .runAborted =>
      match c.strand with
      | .writer id :: hs =>
          if c.writers[id]? = some .posted then
            some { c with strand := hs, writers := c.writers.set id .done }
          else none
      | .closer id :: hs =>
          if c.closers[id]? = some .posted then
            some { c with strand := hs, closers := c.closers.set id .done }
          else none
      | _ => none
  | .writeComplete id ok =>
      match c.writers[id]? with
      | some (.writing msg) =>
          if ok && !c.status.active then none
          else some { c with writers := c.writers.set id (.wrote ok),
                             strand := c.strand ++ [.writer id],
                             status := if ok then c.status else c.status.fail,
                             wire := c.wire ++ [.writeDone msg ok] }
      | _ => none
  | .closeComplete id =>
      match c.closers[id]? with
      | some .closing =>
          some { c with closers := c.closers.set id .done, status := .closed,
                        wire := c.wire ++ [.closeDone] }
      | _ => none

/-- The events in order; `none` once one cannot happen. -/
def Conn.runEvents (c : Conn) : List Event → Option Conn
  | [] => some c
  | e :: es => (c.step e).bind (·.runEvents es)

/-- The number of `ws_.async_write` calls of writer tasks that have not completed. -/
def Conn.writesPending (c : Conn) : Nat :=
  c.writers.countP WriterPc.isWriting

-----------------------------------------------------------------------------------------
-- What a completion does
-----------------------------------------------------------------------------------------

section Completions

variable {c c' : Conn}

/-- A write completion finds its task writing, succeeds only on a stream that can still write,
posts the task's resumption and fails the stream on an error.
-/
theorem Conn.step_writeComplete {id : Nat} {ok : Bool} (h : c.step (.writeComplete id ok) = some c')
    : ∃ msg, c.writers[id]? = some (.writing msg) ∧ (ok = true → c.status.active = true)
      ∧ c' = { c with writers := c.writers.set id (.wrote ok), strand := c.strand ++ [.writer id],
                      status := if ok then c.status else c.status.fail,
                      wire := c.wire ++ [.writeDone msg ok] } := by
  simp only [Conn.step] at h
  split at h
  · next msg hget =>
    split at h
    · cases h
    · next hok =>
      cases h
      exact ⟨msg, hget, fun hk => by simpa [hk] using hok, rfl⟩
  · cases h

/-- A close completion finds its coroutine in `async_close` and leaves the stream closed. -/
theorem Conn.step_closeComplete {id : Nat} (h : c.step (.closeComplete id) = some c')
    : c.closers[id]? = some .closing
      ∧ c' = { c with closers := c.closers.set id .done, status := .closed,
                      wire := c.wire ++ [.closeDone] } := by
  simp only [Conn.step] at h
  split at h
  · next hget => cases h; exact ⟨hget, rfl⟩
  · cases h

end Completions

end Httplib.WebSocket
