import Httplib.WebSocket.Delivery

/-! What the events of `websocket_conn` do to the messages. A call posts a `send_message` lambda
or nothing; every other event moves at most one message one place along, from the strand to
`send_que_` or from `send_que_` to `ws_`, and none reopens a closed stream.
-/

namespace Httplib.WebSocket

/-- The message a posted handler carries: that of a `send_message` lambda. -/
def Handler.sent : Handler → Option Message
  | .send msg => some msg
  | _ => none

/-- The messages of the `send_message` lambdas waiting on the strand, in posting order. -/
def Conn.sends (c : Conn) : List Message :=
  c.strand.filterMap Handler.sent

/-- A call made from outside the strand: `send_message` or `close`. -/
def Event.isCall : Event → Bool
  | .sendMessage _ | .close => true
  | _ => false

/-- What an event that is not a call can do to the messages of a connection: nothing, run a
`send_message` lambda (its message joins the queue and the history), or pop the front of the
queue and start writing it.
-/
inductive Conn.Moves (c c' : Conn) : Prop
  | stay (sends : c'.sends = c.sends) (que : c'.sendQue = c.sendQue)
      (enq : c'.enqueued = c.enqueued) (pop : c'.popped = c.popped)
      (started : c'.started = c.started)
  | push (msg : Message) (sends : c.sends = msg :: c'.sends) (que : c'.sendQue = c.sendQue ++ [msg])
      (enq : c'.enqueued = c.enqueued ++ [msg]) (pop : c'.popped = c.popped)
      (started : c'.started = c.started) (status : c'.status = c.status)
  | pop (msg : Message) (sends : c'.sends = c.sends) (que : c.sendQue = msg :: c'.sendQue)
      (enq : c'.enqueued = c.enqueued) (pop : c'.popped = c.popped ++ [msg])
      (started : c'.started = c.started ++ [msg]) (status : c'.status = c.status)

/-- The writes started are the pops, and the accepted messages are the popped ones then the
queue. Unlike `Conn.QueueAccounted`, this holds whatever fails.
-/
structure Conn.Fifo (c : Conn) : Prop where
  started : c.started = c.popped
  order : c.enqueued = c.popped ++ c.sendQue

section Moves

variable {c c' : Conn}

/-- A move keeps the queue accounting. -/
theorem Conn.Fifo.moves (hc : c.Fifo) (hm : c.Moves c') : c'.Fifo := by
  cases hm with
  | stay _ hq henq hpop hst => exact ⟨by rw [hst, hpop, hc.started], by rw [henq, hpop, hq, hc.order]⟩
  | push msg _ hq henq hpop hst =>
      exact ⟨by rw [hst, hpop, hc.started], by rw [henq, hpop, hq, hc.order, List.append_assoc]⟩
  | pop msg _ hq henq hpop hst =>
      exact ⟨by rw [hst, hpop, hc.started],
        by rw [henq, hpop, hc.order, hq, List.append_assoc, List.singleton_append]⟩

/-- A move keeps the accepted messages followed by the posted ones. -/
theorem Conn.Moves.accepted (h : c.Moves c') : c'.enqueued ++ c'.sends = c.enqueued ++ c.sends := by
  cases h with
  | stay hsends _ henq => rw [hsends, henq]
  | push msg hsends _ henq => rw [hsends, henq, List.append_assoc, List.singleton_append]
  | pop msg hsends _ henq => rw [hsends, henq]

theorem Conn.moves_runWriter {hs : List Handler} {id : Nat} (hstrand : c.strand = .writer id :: hs)
    (h : ({ c with strand := hs } : Conn).runWriter id = some c') : c.Moves c' := by
  have hsends : ∀ l : List Handler, ({ c with strand := hs ++ l } : Conn).sends
      = c.sends ++ l.filterMap Handler.sent := by
    simp [Conn.sends, hstrand, Handler.sent]
  unfold Conn.runWriter at h
  split at h
  · cases h; exact .stay (by simpa [Handler.sent] using hsends [.writer id]) rfl rfl rfl rfl
  · split at h <;> cases h
    · exact .stay (by simpa using hsends []) rfl rfl rfl rfl
    · exact .pop _ (by simpa using hsends []) ‹_› rfl rfl
        (by simp [Conn.started, WireEvent.started]) rfl
  · cases h; exact .stay (by simpa [Handler.sent] using hsends [.writer id]) rfl rfl rfl rfl
  · cases h; exact .stay (by simpa using hsends []) rfl rfl rfl rfl
  · cases h

theorem Conn.moves_runCloser {hs : List Handler} {id : Nat} (hstrand : c.strand = .closer id :: hs)
    (h : ({ c with strand := hs } : Conn).runCloser id = some c') : c.Moves c' := by
  have hsends : ∀ l : List Handler, ({ c with strand := hs ++ l } : Conn).sends
      = c.sends ++ l.filterMap Handler.sent := by
    simp [Conn.sends, hstrand, Handler.sent]
  unfold Conn.runCloser at h
  split at h <;> cases h
  · exact .stay (by simpa [Handler.sent] using hsends [.closer id]) rfl rfl rfl rfl
  · exact .stay (by simpa using hsends []) rfl rfl rfl
      (by simp [Conn.started, WireEvent.started])

theorem Conn.moves_runSend {hs : List Handler} {msg : Message} (hstrand : c.strand = .send msg :: hs)
    : c.Moves (({ c with strand := hs } : Conn).runSend msg) := by
  have hsends : c.sends = msg :: hs.filterMap Handler.sent := by
    simp [Conn.sends, hstrand, Handler.sent]
  unfold Conn.runSend; dsimp only
  split
  · exact .push msg (by rw [hsends]; rfl) rfl rfl rfl rfl rfl
  · exact .push msg (by rw [hsends]; simp [Conn.sends, Conn.spawnWriter, Handler.sent])
      rfl rfl rfl rfl rfl

/-- Every event that is not a call moves at most one message one place along. -/
theorem Conn.moves_step {e : Event} (he : e.isCall = false) (h : c.step e = some c')
    : c.Moves c' := by
  cases e with
  | sendMessage msg => cases he
  | close => cases he
  | run =>
      simp only [Conn.step] at h
      split at h
      · cases h
      · cases h; exact Conn.moves_runSend ‹_›
      · exact Conn.moves_runWriter ‹_› h
      · exact Conn.moves_runCloser ‹_› h
  | runAborted =>
      simp only [Conn.step] at h
      split at h
      · split at h <;> cases h
        exact .stay (by simp [Conn.sends, *, Handler.sent]) rfl rfl rfl rfl
      · split at h <;> cases h
        exact .stay (by simp [Conn.sends, *, Handler.sent]) rfl rfl rfl rfl
      · cases h
  | writeComplete id ok =>
      obtain ⟨msg, -, -, rfl⟩ := Conn.step_writeComplete h
      exact .stay (by simp [Conn.sends, Handler.sent]) rfl rfl rfl
        (by simp [Conn.started, WireEvent.started])
  | closeComplete id =>
      obtain ⟨-, rfl⟩ := Conn.step_closeComplete h
      exact .stay rfl rfl rfl rfl (by simp [Conn.started, WireEvent.started])

/-- Only `close()` spawns a close coroutine. -/
theorem Conn.closers_length_step {e : Event} (he : e.isCall = false) (h : c.step e = some c')
    : c'.closers.length = c.closers.length := by
  cases e with
  | sendMessage msg => cases he
  | close => cases he
  | run =>
      simp only [Conn.step] at h
      split at h
      · cases h
      · cases h; unfold Conn.runSend; dsimp only; split <;> rfl
      · unfold Conn.runWriter at h; split at h <;> (try split at h) <;> cases h <;> rfl
      · unfold Conn.runCloser at h; split at h <;> cases h <;> simp
  | runAborted =>
      simp only [Conn.step] at h
      split at h <;> (try split at h) <;> cases h <;> simp
  | writeComplete id ok => obtain ⟨msg, -, -, rfl⟩ := Conn.step_writeComplete h; rfl
  | closeComplete id => obtain ⟨-, rfl⟩ := Conn.step_closeComplete h; simp

@[simp] theorem Conn.runSend_status (c : Conn) (msg : Message)
    : (c.runSend msg).status = c.status := by
  unfold Conn.runSend; dsimp only; split <;> rfl

theorem Conn.runWriter_status {id : Nat} (h : c.runWriter id = some c') : c'.status = c.status := by
  unfold Conn.runWriter at h
  split at h <;> (try split at h) <;> cases h <;> rfl

/-- No event opens a stream that is not open: a close or a failure is never undone. -/
theorem Conn.isOpen_step {e : Event} (h : c.step e = some c') (ho : c'.isOpen = true)
    : c.isOpen = true := by
  cases e with
  | sendMessage msg => cases h; split at ho <;> exact ho
  | close => cases h; split at ho <;> exact ho
  | run =>
      simp only [Conn.step] at h
      split at h
      · cases h
      · cases h; simpa [Conn.isOpen] using ho
      · exact (congrArg Status.isOpen (Conn.runWriter_status h)).symm.trans ho
      · unfold Conn.runCloser at h
        split at h <;> cases h
        · exact ho
        · simp [Conn.isOpen] at ho
  | runAborted =>
      simp only [Conn.step] at h
      split at h <;> (try split at h) <;> cases h <;> exact ho
  | writeComplete id ok =>
      obtain ⟨msg, -, -, rfl⟩ := Conn.step_writeComplete h
      cases ok
      · simp [Conn.isOpen] at ho
      · exact ho
  | closeComplete id =>
      obtain ⟨-, rfl⟩ := Conn.step_closeComplete h
      cases ho

end Moves

-----------------------------------------------------------------------------------------
-- After the close
-----------------------------------------------------------------------------------------

/-- On a closed stream no event accepts a message: the accepted messages followed by the posted
ones stay as they are, and the stream stays closed.
-/
theorem Conn.accepted_step_closed {c c' : Conn} (hc : c.isOpen = false) {e : Event}
    (h : c.step e = some c')
    : c'.enqueued ++ c'.sends = c.enqueued ++ c.sends ∧ c'.isOpen = false := by
  have hclosed : c'.isOpen = false := by
    cases ho : c'.isOpen
    · rfl
    · simpa [hc] using Conn.isOpen_step h ho
  refine ⟨?_, hclosed⟩
  cases hcall : e.isCall
  · exact (Conn.moves_step hcall h).accepted
  · cases e with
    | sendMessage msg => cases h; simp [hc]
    | close => cases h; simp [hc]
    | _ => cases hcall

/-- Once `ws_` is closed, `send_message` never accepts a message again: over every continuation
the messages in `send_que_`'s history and on the strand stay those there at the close.
-/
theorem accepted_after_close {c c' : Conn} (hc : c.isOpen = false) {es : List Event}
    (h : c.runEvents es = some c') : c'.enqueued ++ c'.sends = c.enqueued ++ c.sends := by
  induction es generalizing c with
  | nil => cases h; rfl
  | cons e es ih =>
      obtain ⟨mid, hstep, hrest⟩ := Option.bind_eq_some.mp h
      obtain ⟨hacc, hmid⟩ := Conn.accepted_step_closed hc hstep
      exact (ih hmid hrest).trans hacc

/-- A message sent, then `close()`, run until the close handshake completes. -/
def closedAfterSend : Conn :=
  (Conn.init.runEvents [.sendMessage ⟨[1], .text⟩, .close, .run, .run, .run, .run,
    .closeComplete 0]).getD Conn.init

/-- A second message sent once the stream is closed, and the writer's next resumption. -/
def sendAfterClose : List Event :=
  [.sendMessage ⟨[2], .binary⟩, .run]

theorem accepted_after_close_closedAfterSend
    : closedAfterSend.isOpen = false
      ∧ closedAfterSend.runEvents sendAfterClose
        = some ((closedAfterSend.runEvents sendAfterClose).getD closedAfterSend)
      ∧ ((closedAfterSend.runEvents sendAfterClose).getD closedAfterSend).enqueued
          ++ ((closedAfterSend.runEvents sendAfterClose).getD closedAfterSend).sends
        = [⟨[1], .text⟩] :=
  have hclosed : closedAfterSend.isOpen = false := rfl
  have hrun : closedAfterSend.runEvents sendAfterClose
      = some ((closedAfterSend.runEvents sendAfterClose).getD closedAfterSend) := rfl
  ⟨hclosed, hrun, (accepted_after_close hclosed hrun).trans rfl⟩

end Httplib.WebSocket
