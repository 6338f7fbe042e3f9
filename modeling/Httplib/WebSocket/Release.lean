import Httplib.WebSocket.EchoDrain

/-! The echo handler of `examples/main.cxx` once the connection is gone. `handle_websocket` owns
the connection until `run()` returns, and the handlers the reader spawned hold only a `weak_ptr`,
which the echo handler locks and dereferences without a check. When the peer closes and the
connection finishes its work, nothing owns it any more, and a handler that starts then calls
`send_message` through the empty pointer.
-/

namespace Httplib.WebSocket

/-- The peer ends the connection, or the connection finishes its work: the strand runs its first
handler, or a pending write completes with an error.
-/
def EchoEvent.isTeardown : EchoEvent → Bool
  | .readFailed => true
  | .strand e => e.drains (some false)
  | _ => false

section Release

variable {s s' : Echo}

/-- A reachable state with a handler pending has read a message: its reader is reading or has
returned, and the peer closing leaves it returned.
-/
theorem Echo.Inv.closeReader (hs : s.Inv) (hnc : s.crashed = none) (hp : s.pending ≠ [])
    : ∃ pre s', (∀ e ∈ pre, e.isTeardown) ∧ s.runEvents pre = some s' ∧ s'.reader = .done
      ∧ s'.pending = s.pending ∧ s'.crashed = none := by
  cases hr : s.reader with
  | accepting => exact absurd (hs.accepting hr).2 hp
  | reading =>
      have hstep : s.runEvents [.readFailed]
          = some { s with conn := { s.conn with status := s.conn.status.fail }, reader := .done } := by
        simp [Echo.runEvents, Echo.step, hr, hnc]
      exact ⟨_, _, by simp [EchoEvent.isTeardown], hstep, rfl, rfl, hnc⟩
  | done => exact ⟨[], s, by simp, rfl, hr, rfl, hnc⟩

/-- Nothing holds the connection once `run()` has returned, the strand is empty, no write is
pending and no `close()` was called.
-/
theorem Echo.held_eq_false (hr : s.conn.Resumptions) (hdone : s.reader = .done)
    (hs : s.conn.strand = []) (hp : s.conn.writesPending = 0) (hcl : s.conn.closers = [])
    : s.held = false := by
  have hlive : s.conn.writers.any WriterPc.live = false :=
    List.any_eq_false.mpr fun pc hpc => by simp [hr.writers_quiet hs hp pc hpc, WriterPc.live]
  simp [Echo.held, hdone, hs, hlive, hcl]

end Release

/-- The first message's echo is being written and the second message's handler has not started. -/
def echoInFlight : List EchoEvent :=
  [.accept true, .read ⟨[1], .text⟩, .start 0, .read ⟨[2], .binary⟩, .strand .run, .strand .run,
    .strand .run]

/-- The state after `echoInFlight`. -/
def afterEchoInFlight : Echo :=
  (Echo.init.runEvents echoInFlight).getD Echo.init

end Httplib.WebSocket
