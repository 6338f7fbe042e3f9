import Httplib.WebSocket.Writer

/-! What reaches `ws_`: a message is handed to `async_write` exactly when a writer pops it. Over
any interleaving the writes started are the popped messages in pop order; over an error-free one
every accepted message is started once, in acceptance order, or is still queued.
-/

namespace Httplib.WebSocket

/-- The message a wire event starts writing. -/
def WireEvent.started : WireEvent → Option Message
  | .writeStart msg => some msg
  | _ => none

/-- The messages handed to `ws_.async_write`, in order. -/
def Conn.started (c : Conn) : List Message :=
  c.wire.filterMap WireEvent.started

section Delivery

variable {c c' : Conn}

@[simp] theorem Conn.runSend_wire (c : Conn) (msg : Message) : (c.runSend msg).wire = c.wire := by
  unfold Conn.runSend; dsimp only; split <;> rfl

@[simp] theorem Conn.runSend_popped (c : Conn) (msg : Message)
    : (c.runSend msg).popped = c.popped := by
  unfold Conn.runSend; dsimp only; split <;> rfl

/-- A writer resumption starts a write exactly when it pops. -/
theorem Conn.started_runWriter (hc : c.started = c.popped) {id : Nat}
    (h : c.runWriter id = some c') : c'.started = c'.popped := by
  unfold Conn.runWriter at h
  split at h
  · cases h; exact hc
  · split at h <;> cases h
    · exact hc
    · simp [Conn.started, WireEvent.started, ← hc]
  · cases h; exact hc
  · cases h; exact hc
  · cases h

theorem Conn.started_runCloser (hc : c.started = c.popped) {id : Nat}
    (h : c.runCloser id = some c') : c'.started = c'.popped := by
  unfold Conn.runCloser at h
  split at h <;> cases h
  · exact hc
  · simp [Conn.started, WireEvent.started, ← hc]

/-- Every event keeps the started writes equal to the pops. -/
theorem Conn.started_step (hc : c.started = c.popped) {e : Event} (h : c.step e = some c')
    : c'.started = c'.popped := by
  cases e with
  | sendMessage msg => cases h; split <;> exact hc
  | close => cases h; split <;> exact hc
  | run =>
      have hs : ∀ hs, ({ c with strand := hs } : Conn).started = ({ c with strand := hs }).popped :=
        fun _ => hc
      simp only [Conn.step] at h
      split at h
      · cases h
      · cases h
        simpa [Conn.started] using hc
      · exact Conn.started_runWriter (hs _) h
      · exact Conn.started_runCloser (hs _) h
  | runAborted =>
      simp only [Conn.step] at h
      split at h
      · split at h <;> cases h
        exact hc
      · split at h <;> cases h
        exact hc
      · cases h
  | writeComplete id ok =>
      obtain ⟨msg, -, -, rfl⟩ := Conn.step_writeComplete h
      simp [Conn.started, WireEvent.started, ← hc]
  | closeComplete id =>
      obtain ⟨-, rfl⟩ := Conn.step_closeComplete h
      simp [Conn.started, WireEvent.started, ← hc]

/-- Every run keeps the started writes equal to the pops, by induction on the events. -/
theorem Conn.started_runEvents (hc : c.started = c.popped) {es : List Event}
    (h : c.runEvents es = some c') : c'.started = c'.popped := by
  induction es generalizing c with
  | nil => cases h; exact hc
  | cons e es ih =>
      obtain ⟨mid, hstep, hrest⟩ := Option.bind_eq_some.mp h
      exact ih (Conn.started_step hc hstep) hrest

end Delivery

/-- Over every error-free interleaving from an open connection, the messages accepted by
`send_message` are, in acceptance order, the writes handed to `ws_` and then `send_que_`: none
is lost and none is written twice.
-/
theorem accepted_started_or_queued {es : List Event} (hes : ∀ e ∈ es, e.errorFree) {c : Conn}
    (h : Conn.init.runEvents es = some c) : c.enqueued = c.started ++ c.sendQue := by
  rw [Conn.started_runEvents rfl h]
  exact (Conn.init_queueAccounted.runEvents hes h).order

theorem accepted_started_or_queued_twoSends
    : (∀ e ∈ twoSends, e.errorFree) ∧ Conn.init.runEvents twoSends = some afterTwoSends
      ∧ afterTwoSends.enqueued = afterTwoSends.started ++ afterTwoSends.sendQue :=
  have hes : ∀ e ∈ twoSends, e.errorFree := by decide
  have hrun : Conn.init.runEvents twoSends = some afterTwoSends := rfl
  ⟨hes, hrun, accepted_started_or_queued hes hrun⟩

end Httplib.WebSocket
