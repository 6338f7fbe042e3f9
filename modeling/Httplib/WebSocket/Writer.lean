import Httplib.WebSocket.Conn

/-! The send queue of `websocket_conn`. Over every interleaving without errors, the messages
accepted by `send_message` are those popped by `process_write_data` followed by `send_que_`,
and a non-empty queue always has a live writer. The queue's emptiness is no record of a write in
flight, though: a message sent while the only writer's write is pending spawns a second writer.
-/

namespace Httplib.WebSocket

/-- No `net::post` resumes with an error and no write fails. -/
def Event.errorFree : Event → Bool
  | .runAborted => false
  | .writeComplete _ ok => ok
  | _ => true

/-- The accounting of `send_que_`: accepted messages are the popped ones then the queue, a
non-empty queue has a live writer, and no writer is returning from a failed write.
-/
structure Conn.QueueAccounted (c : Conn) : Prop where
  order : c.enqueued = c.popped ++ c.sendQue
  drained : c.sendQue ≠ [] → ∃ pc ∈ c.writers, pc.live
  noFailedWrite : WriterPc.wrote false ∉ c.writers

theorem Conn.init_queueAccounted : Conn.init.QueueAccounted :=
  ⟨rfl, fun h => absurd rfl h, by simp [Conn.init]⟩

/-- A live task put in place of an existing one is a live task of the new list. -/
theorem live_mem_set {l : List WriterPc} {id : Nat} {old pc : WriterPc} (hid : l[id]? = some old)
    (hlive : pc.live) : ∃ p ∈ l.set id pc, p.live :=
  ⟨pc, List.mem_set l id (List.getElem?_eq_some.mp hid).1 pc, hlive⟩

theorem not_mem_set {l : List WriterPc} {x pc : WriterPc} {id : Nat} (hx : x ∉ l) (hpc : pc ≠ x)
    : x ∉ l.set id pc := fun hm =>
  (List.mem_or_eq_of_mem_set hm).elim hx (fun h => hpc h.symm)

section Preservation

variable {c c' : Conn}

/-- A send handler keeps the accounting: the message joins the queue and the history, and a
writer is spawned when the queue was empty.
-/
theorem Conn.QueueAccounted.runSend (hc : c.QueueAccounted) (msg : Message)
    : (c.runSend msg).QueueAccounted := by
  unfold Conn.runSend
  cases hq : c.sendQue with
  | nil =>
      refine ⟨by simp [Conn.spawnWriter, hc.order, hq],
        fun _ => ⟨.spawned, by simp [Conn.spawnWriter], rfl⟩,
        by simpa [Conn.spawnWriter] using hc.noFailedWrite⟩
  | cons m ms =>
      refine ⟨by simp [hc.order, hq], fun _ => hc.drained (by simp [hq]), hc.noFailedWrite⟩

/-- A writer resumption keeps the accounting; a pop moves the front of the queue to the
popped history.
-/
theorem Conn.QueueAccounted.runWriter (hc : c.QueueAccounted) {id : Nat}
    (h : c.runWriter id = some c') : c'.QueueAccounted := by
  unfold Conn.runWriter at h
  split at h
  · cases h
    exact ⟨hc.order, fun _ => live_mem_set ‹_› rfl, not_mem_set hc.noFailedWrite (by decide)⟩
  · split at h
    · cases h
      exact ⟨hc.order, fun hq => absurd ‹c.sendQue = []› hq,
        not_mem_set hc.noFailedWrite (by decide)⟩
    · cases h
      rename_i hq
      exact ⟨by simp [hc.order, hq], fun _ => live_mem_set ‹_› rfl,
        not_mem_set hc.noFailedWrite (by simp)⟩
  · cases h
    exact ⟨hc.order, fun _ => live_mem_set ‹_› rfl, not_mem_set hc.noFailedWrite (by decide)⟩
  · exact absurd (List.getElem?_mem ‹_›) hc.noFailedWrite
  · cases h

/-- A close resumption touches neither the queue nor the writers. -/
theorem Conn.QueueAccounted.runCloser (hc : c.QueueAccounted) {id : Nat}
    (h : c.runCloser id = some c') : c'.QueueAccounted := by
  unfold Conn.runCloser at h
  split at h <;> cases h <;> exact ⟨hc.order, hc.drained, hc.noFailedWrite⟩

/-- Every error-free event keeps the accounting. -/
theorem Conn.QueueAccounted.step (hc : c.QueueAccounted) {e : Event} (he : e.errorFree)
    (h : c.step e = some c') : c'.QueueAccounted := by
  cases e with
  | sendMessage msg =>
      cases h; split <;> exact ⟨hc.order, hc.drained, hc.noFailedWrite⟩
  | close =>
      cases h; split <;> exact ⟨hc.order, hc.drained, hc.noFailedWrite⟩
  | run =>
      have hs : ∀ hs, ({ c with strand := hs } : Conn).QueueAccounted :=
        fun _ => ⟨hc.order, hc.drained, hc.noFailedWrite⟩
      simp only [Conn.step] at h
      split at h
      · cases h
      · cases h; exact (hs _).runSend _
      · exact (hs _).runWriter h
      · exact (hs _).runCloser h
  | runAborted => cases he
  | writeComplete id ok =>
      simp only [Event.errorFree] at he
      subst he
      obtain ⟨msg, hget, -, rfl⟩ := Conn.step_writeComplete h
      exact ⟨hc.order, fun _ => live_mem_set hget rfl, not_mem_set hc.noFailedWrite (by decide)⟩
  | closeComplete id =>
      obtain ⟨-, rfl⟩ := Conn.step_closeComplete h
      exact ⟨hc.order, hc.drained, hc.noFailedWrite⟩

/-- Every error-free run keeps the accounting, by induction on the events. -/
theorem Conn.QueueAccounted.runEvents (hc : c.QueueAccounted) {es : List Event}
    (hes : ∀ e ∈ es, e.errorFree) (h : c.runEvents es = some c') : c'.QueueAccounted := by
  induction es generalizing c with
  | nil => cases h; exact hc
  | cons e es ih =>
      obtain ⟨mid, hstep, hrest⟩ := Option.bind_eq_some.mp h
      exact ih (hc.step (hes e (List.mem_cons_self e es)) hstep)
        (fun e' he' => hes e' (List.mem_cons_of_mem e he')) hrest

end Preservation

/-- Over every error-free interleaving from an open connection, the messages accepted by
`send_message` are those popped by writer tasks followed by `send_que_`, and a non-empty queue
has a live writer.
-/
theorem sendQue_accounted {es : List Event} (hes : ∀ e ∈ es, e.errorFree) {c : Conn}
    (h : Conn.init.runEvents es = some c)
    : c.enqueued = c.popped ++ c.sendQue ∧ (c.sendQue ≠ [] → ∃ pc ∈ c.writers, pc.live) :=
  let hc := Conn.init_queueAccounted.runEvents hes h
  ⟨hc.order, hc.drained⟩

/-- Two sends, the first one popped by the writer task they spawned. -/
def twoSends : List Event :=
  [.sendMessage ⟨[1], .text⟩, .sendMessage ⟨[2], .binary⟩, .run, .run, .run, .run]

/-- The connection after `twoSends`. -/
def afterTwoSends : Conn :=
  (Conn.init.runEvents twoSends).getD Conn.init

/-- The first message is popped and the second still queued, so the queue is not empty and the
live writer the theorem promises is the task writing the first message.
-/
theorem sendQue_accounted_twoSends
    : (∀ e ∈ twoSends, e.errorFree) ∧ Conn.init.runEvents twoSends = some afterTwoSends
      ∧ afterTwoSends.enqueued = [⟨[1], .text⟩, ⟨[2], .binary⟩]
      ∧ afterTwoSends.popped = [⟨[1], .text⟩] ∧ afterTwoSends.sendQue = [⟨[2], .binary⟩]
      ∧ afterTwoSends.writers = [.writing ⟨[1], .text⟩]
      ∧ afterTwoSends.enqueued = afterTwoSends.popped ++ afterTwoSends.sendQue
      ∧ (afterTwoSends.sendQue ≠ [] → ∃ pc ∈ afterTwoSends.writers, pc.live) :=
  have hes : ∀ e ∈ twoSends, e.errorFree := by decide
  have hrun : Conn.init.runEvents twoSends = some afterTwoSends := rfl
  ⟨hes, hrun, rfl, rfl, rfl, rfl, sendQue_accounted hes hrun⟩

/-- A message sent while every writer task is in `async_write` and the queue is empty reads
the empty queue as "no writer running": it spawns a new task, which pops the message and starts
one more write.
-/
theorem writesPending_send_during_write (c : Conn) (msg : Message) (hopen : c.isOpen = true)
    (hstrand : c.strand = []) (hque : c.sendQue = [])
    : (c.runEvents [.sendMessage msg, .run, .run, .run]).map Conn.writesPending
      = some (c.writesPending + 1) := by
  simp [Conn.runEvents, Conn.step, hopen, hstrand, Conn.runSend, hque, Conn.spawnWriter,
    Conn.runWriter, Conn.writesPending, WriterPc.isWriting]

/-- The connection once a first message is being written. -/
def firstWriteInFlight : Conn :=
  (Conn.init.runEvents [.sendMessage ⟨[1], .text⟩, .run, .run, .run]).getD Conn.init

/-- A second send during the first write gives two writes in flight. -/
theorem two_writes_in_flight
    : firstWriteInFlight.isOpen = true ∧ firstWriteInFlight.strand = []
      ∧ firstWriteInFlight.sendQue = [] ∧ firstWriteInFlight.writesPending = 1
      ∧ (firstWriteInFlight.runEvents [.sendMessage ⟨[2], .binary⟩, .run, .run, .run]).map
          Conn.writesPending = some (firstWriteInFlight.writesPending + 1) :=
  ⟨rfl, rfl, rfl, rfl, writesPending_send_during_write _ _ rfl rfl rfl⟩

end Httplib.WebSocket
