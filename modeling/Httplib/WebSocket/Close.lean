import Httplib.WebSocket.Writer

/-! `websocket_conn::close` against the send queue. The coroutine `close()` spawns starts
`ws_.async_close` as soon as it resumes on the strand after its `post`; it reads neither
`send_que_` nor the writer tasks, so messages still queued or in flight at that moment are
written after the close frame is started, if at all.
-/

namespace Httplib.WebSocket

/-- The resumption of a close coroutine after its `post` starts `async_close` whatever the queue
holds and whatever writes are pending; at that moment, over any error-free interleaving, the
accepted messages are the popped ones followed by the queue.
-/
theorem close_does_not_wait {es : List Event} (hes : ∀ e ∈ es, e.errorFree) {c : Conn}
    (h : Conn.init.runEvents es = some c) {id : Nat} {hs : List Handler}
    (hhead : c.strand = .closer id :: hs) (hpc : c.closers[id]? = some .posted)
    : ∃ c', c.step .run = some c' ∧ c'.wire = c.wire ++ [.closeStart]
      ∧ c'.sendQue = c.sendQue ∧ c'.writers = c.writers
      ∧ c'.enqueued = c'.popped ++ c'.sendQue := by
  have hc := Conn.init_queueAccounted.runEvents hes h
  refine ⟨{ c with strand := hs, closers := c.closers.set id .closing, status := c.status.close,
                    wire := c.wire ++ [.closeStart] }, ?_, rfl, rfl, rfl, hc.order⟩
  simp [Conn.step, hhead, Conn.runCloser, hpc]

/-- Two sends, then `close()` while the first message is being written. -/
def closeDuringWrite : List Event :=
  [.sendMessage ⟨[1], .text⟩, .sendMessage ⟨[2], .binary⟩, .run, .run, .run, .close, .run, .run]

/-- The connection when the close coroutine is about to resume after its `post`. -/
def closeResuming : Conn :=
  (Conn.init.runEvents closeDuringWrite).getD Conn.init

theorem close_does_not_wait_closeDuringWrite
    : (∀ e ∈ closeDuringWrite, e.errorFree)
      ∧ Conn.init.runEvents closeDuringWrite = some closeResuming
      ∧ closeResuming.strand = [.closer 0] ∧ closeResuming.closers[0]? = some .posted
      ∧ ∃ c', closeResuming.step .run = some c' ∧ c'.wire = closeResuming.wire ++ [.closeStart]
        ∧ c'.sendQue = closeResuming.sendQue ∧ c'.writers = closeResuming.writers
        ∧ c'.enqueued = c'.popped ++ c'.sendQue :=
  have hes : ∀ e ∈ closeDuringWrite, e.errorFree := by decide
  have hrun : Conn.init.runEvents closeDuringWrite = some closeResuming := rfl
  ⟨hes, hrun, rfl, rfl, close_does_not_wait hes hrun rfl rfl⟩

/-- The second message, accepted before `close()` was even called, is still queued when the
close frame is started, and the first message's write has not completed.
-/
theorem close_frame_before_queued_message
    : (Conn.init.runEvents (closeDuringWrite ++ [.run])).map (fun c => (c.enqueued, c.sendQue, c.wire))
      = some ([⟨[1], .text⟩, ⟨[2], .binary⟩], [⟨[2], .binary⟩],
          [.writeStart ⟨[1], .text⟩, .closeStart]) := rfl

end Httplib.WebSocket
