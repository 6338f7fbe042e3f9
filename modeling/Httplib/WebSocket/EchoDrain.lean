import Httplib.WebSocket.Echo
import Httplib.WebSocket.Progress

/-! The echo server of `examples/main.cxx` finishes its work while the stream is open. From every
state of a run without a failed post whose stream is open, starting the pending message handlers
in spawn order and letting the connection drain writes back every message read, each once.
-/

namespace Httplib.WebSocket

/-- No strand event of the connection is a failed post or a failed write. -/
def EchoEvent.errorFree : EchoEvent → Bool
  | .strand e => e.errorFree
  | _ => true

/-- The executor starts the first pending handler, or the connection makes progress. -/
def EchoEvent.isProgress : EchoEvent → Bool
  | .start i => i == 0
  | .strand e => e.isProgress
  | _ => false

theorem EchoEvent.errorFree_of_isProgress {e : EchoEvent} (he : e.isProgress) : e.errorFree := by
  cases e <;> simp_all [EchoEvent.isProgress, EchoEvent.errorFree, Event.errorFree_of_isProgress]

theorem EchoEvent.inOrder_of_isProgress {e : EchoEvent} (he : e.isProgress) : e.inOrder := by
  cases e <;> simp_all [EchoEvent.isProgress, EchoEvent.inOrder]

theorem Echo.runEvents_append (s : Echo) (es fs : List EchoEvent)
    : s.runEvents (es ++ fs) = (s.runEvents es).bind (·.runEvents fs) := by
  induction es generalizing s with
  | nil => rfl
  | cons e es ih =>
      simp only [List.cons_append, Echo.runEvents]
      split
      · rfl
      · cases hs : s.step e <;> simp [ih]

-----------------------------------------------------------------------------------------
-- The connection inside the echo server
-----------------------------------------------------------------------------------------

/-- The accounting of `send_que_` does not read the status of `ws_`. -/
theorem Conn.QueueAccounted.setStatus {c : Conn} (hq : c.QueueAccounted) (st : Status)
    : ({ c with status := st } : Conn).QueueAccounted :=
  ⟨hq.order, hq.drained, hq.noFailedWrite⟩

theorem Conn.Resumptions.setStatus {c : Conn} (hr : c.Resumptions) (st : Status)
    : ({ c with status := st } : Conn).Resumptions :=
  ⟨hr.writers, hr.closers⟩

section Conn

variable {s s' : Echo}

/-- An echo event sets the status of `ws_` or is one event of the connection, error-free when the
echo event is.
-/
theorem Echo.step_conn {e : EchoEvent} (h : s.step e = some s')
    : (∃ st, s'.conn = { s.conn with status := st })
      ∨ ∃ ce, s.conn.step ce = some s'.conn ∧ (e.errorFree → ce.errorFree) := by
  cases e with
  | accept ok =>
      simp only [Echo.step] at h
      split at h <;> cases h
      split
      · exact .inl ⟨.opened, rfl⟩
      · exact .inl ⟨s.conn.status, rfl⟩
  | read msg =>
      simp only [Echo.step] at h
      split at h <;> cases h
      exact .inl ⟨s.conn.status, rfl⟩
  | readFailed =>
      simp only [Echo.step] at h
      split at h <;> cases h
      exact .inl ⟨s.conn.status.fail, rfl⟩
  | start i =>
      simp only [Echo.step] at h
      split at h
      · split at h
        · obtain ⟨conn, hc, rfl⟩ := Option.map_eq_some'.mp h
          exact .inr ⟨_, hc, fun _ => rfl⟩
        · cases h; exact .inl ⟨s.conn.status, rfl⟩
      · cases h
  | strand e =>
      simp only [Echo.step] at h
      split at h
      · cases h
      · obtain ⟨conn, hc, rfl⟩ := Option.map_eq_some'.mp h
        exact .inr ⟨e, hc, id⟩

/-- Every echo run keeps one posted resumption per waiting coroutine, by induction on the events. -/
theorem Echo.resumptions_runEvents {es : List EchoEvent} (hr : s.conn.Resumptions)
    (h : s.runEvents es = some s') : s'.conn.Resumptions := by
  induction es generalizing s with
  | nil => cases h; exact hr
  | cons e es ih =>
      obtain ⟨-, mid, hstep, hrest⟩ := Echo.runEvents_cons h
      refine ih ?_ hrest
      rcases Echo.step_conn hstep with ⟨st, hst⟩ | ⟨ce, hc, -⟩
      · exact hst ▸ hr.setStatus st
      · exact hr.step hc

/-- An error-free echo run keeps the accounting of `send_que_`, by induction on the events. -/
theorem Echo.queueAccounted_runEvents {es : List EchoEvent} (hes : ∀ e ∈ es, e.errorFree)
    (hq : s.conn.QueueAccounted) (h : s.runEvents es = some s') : s'.conn.QueueAccounted := by
  induction es generalizing s with
  | nil => cases h; exact hq
  | cons e es ih =>
      obtain ⟨-, mid, hstep, hrest⟩ := Echo.runEvents_cons h
      refine ih (fun e' he' => hes e' (List.mem_cons_of_mem e he')) ?_ hrest
      rcases Echo.step_conn hstep with ⟨st, hst⟩ | ⟨ce, hc, hce⟩
      · exact hst ▸ hq.setStatus st
      · exact hq.step (hce (hes e (List.mem_cons_self e es))) hc

/-- A run of connection events that are not calls is a run of the echo server. -/
theorem Echo.runEvents_strand (s : Echo) (hnc : s.crashed = none) {es : List Event}
    (hes : ∀ e ∈ es, e.isCall = false) {c : Conn} (h : s.conn.runEvents es = some c)
    : s.runEvents (es.map .strand) = some { s with conn := c } := by
  induction es generalizing s with
  | nil => cases h; rfl
  | cons e es ih =>
      obtain ⟨mid, hstep, hrest⟩ := Option.bind_eq_some.mp h
      have he : s.step (.strand e) = some { s with conn := mid } := by
        simp [Echo.step, hes e (List.mem_cons_self e es), hstep]
      rw [List.map_cons, Echo.runEvents, if_neg (by simp [hnc]), he]
      exact ih { s with conn := mid } hnc (fun e' he' => hes e' (List.mem_cons_of_mem e he')) hrest

end Conn

-----------------------------------------------------------------------------------------
-- Finishing the work
-----------------------------------------------------------------------------------------

/-- While `run()` holds the connection, the executor starts every pending handler in spawn order:
each calls `send_message` with the stream as open as it was, by induction on the pending
handlers.
-/
theorem Echo.runEvents_startAll (s : Echo) (hreader : s.reader ≠ .done) (hnc : s.crashed = none)
    : ∃ s', s.runEvents (List.replicate s.pending.length (.start 0)) = some s'
      ∧ s'.pending = [] ∧ s'.received = s.received ∧ s'.crashed = none
      ∧ s'.calls = s.calls ++ s.pending.map (·, s.conn.isOpen) ∧ s'.conn.status = s.conn.status := by
  generalize hp : s.pending = p
  induction p generalizing s with
  | nil => exact ⟨s, rfl, hp, rfl, hnc, by simp, rfl⟩
  | cons m rest ih =>
      let s1 : Echo := { s with
        conn := if s.conn.isOpen then { s.conn with strand := s.conn.strand ++ [.send m] } else s.conn,
        pending := rest, calls := s.calls ++ [(m, s.conn.isOpen)] }
      have hstep : s.step (.start 0) = some s1 := by
        simp [Echo.step, hp, Echo.held, hreader, Conn.step, s1]
      have hstatus : s1.conn.status = s.conn.status := by simp only [s1]; split <;> rfl
      obtain ⟨s', hrun, hpend, hrecv, hnc', hcalls, hst⟩ := ih s1 hreader hnc rfl
      refine ⟨s', ?_, hpend, hrecv, hnc', ?_, hst.trans hstatus⟩
      · simp [List.replicate_succ, Echo.runEvents, hnc, hstep, hrun]
      · rw [hcalls, Conn.isOpen, hstatus]; simp [s1, Conn.isOpen]

/-- From every state of a run without a failed post whose stream is open, starting the pending
handlers in spawn order and letting the strand run and `ws_` complete each write leaves nothing
pending, on the strand, in `send_que_` or in flight, with no crash and no echo dropped: every
message read has been written back once. When the handlers always started in spawn order, the
writes are in read order.
-/
theorem echoes_drain {es : List EchoEvent} (hes : ∀ e ∈ es, e.errorFree) {s : Echo}
    (h : Echo.init.runEvents es = some s) (hopen : s.conn.isOpen = true)
    : ∃ more s', (∀ e ∈ more, e.isProgress) ∧ s.runEvents more = some s'
      ∧ s'.pending = [] ∧ s'.conn.strand = [] ∧ s'.conn.sendQue = [] ∧ s'.conn.writesPending = 0
      ∧ s'.crashed = none ∧ s'.dropped = [] ∧ s'.received = s.received
      ∧ s'.received.Perm s'.conn.started
      ∧ ((∀ e ∈ es, e.inOrder) → s'.received = s'.conn.started) := by
  have hinv := Echo.init_inv.runEvents h
  have hreading := hinv.opened hopen
  have hnc : s.crashed = none := by
    by_contra hc
    exact absurd (hinv.crashed hc) (by rw [hreading]; decide)
  have hdrop : s.dropped = [] := by
    by_contra hd
    exact absurd (hinv.closed hd) (by simp [hopen])
  obtain ⟨s1, hrun1, hpend1, hrecv1, hnc1, hcalls1, hst1⟩ :=
    Echo.runEvents_startAll s (by rw [hreading]; decide) hnc
  have hstarts : ∀ e ∈ List.replicate s.pending.length (EchoEvent.start 0), e.isProgress :=
    fun _ he => by rw [List.eq_of_mem_replicate he]; rfl
  have h1 : Echo.init.runEvents (es ++ List.replicate s.pending.length (.start 0)) = some s1 := by
    rw [Echo.runEvents_append, h]; exact hrun1
  have hq1 := Echo.queueAccounted_runEvents (s := Echo.init)
    (List.forall_mem_append.mpr ⟨hes, fun e he => EchoEvent.errorFree_of_isProgress (hstarts e he)⟩)
    (Conn.init_queueAccounted.setStatus .closed) h1
  have hr1 := Echo.resumptions_runEvents (Conn.init_resumptions.setStatus .closed) h1
  obtain ⟨more, c', hmore, -, hrun, hstrand, hque, hpend⟩ :=
    Conn.drain hq1 hr1 (hst1 ▸ Status.active_of_isOpen hopen)
  have hprog : ∀ e ∈ List.replicate s.pending.length (EchoEvent.start 0) ++ more.map .strand,
      e.isProgress :=
    List.forall_mem_append.mpr ⟨hstarts, List.forall_mem_map.mpr hmore⟩
  have hfinish : s.runEvents (List.replicate s.pending.length (.start 0) ++ more.map .strand)
      = some { s1 with conn := c' } := by
    rw [Echo.runEvents_append, hrun1]
    exact Echo.runEvents_strand s1 hnc1 (fun e he => Event.isCall_of_isProgress (hmore e he)) hrun
  have h2 : Echo.init.runEvents (es ++ (List.replicate s.pending.length (.start 0)
      ++ more.map .strand)) = some { s1 with conn := c' } := by
    rw [Echo.runEvents_append, h]; exact hfinish
  have hinv2 := Echo.init_inv.runEvents h2
  have hdrop' : Echo.dropped { s1 with conn := c' } = [] := by
    simp only [Echo.dropped] at hdrop
    simp [Echo.dropped, hcalls1, hopen, hdrop, List.filter_map, Function.comp_def]
  have hcalls : s1.calls.map Prod.fst = c'.started := by
    have := hinv2.calls_eq
    rw [hdrop'] at this
    simpa [hque, Conn.sends, hstrand] using this
  refine ⟨_, _, hprog, hfinish, hpend1, hstrand, hque, hpend, hnc1, hdrop', hrecv1,
    by simpa [hpend1, hnc1, hcalls] using hinv2.received, fun hord => ?_⟩
  have hall := List.forall_mem_append.mpr
    ⟨hord, fun e he => EchoEvent.inOrder_of_isProgress (hprog e he)⟩
  have hread := Echo.received_runEvents hall rfl h2
  simpa [hpend1, hnc1, hcalls] using hread

theorem echoes_drain_ordered
    : (∀ e ∈ orderedEcho, e.errorFree) ∧ Echo.init.runEvents orderedEcho = some afterOrderedEcho
      ∧ afterOrderedEcho.conn.isOpen = true
      ∧ ∃ more s', (∀ e ∈ more, e.isProgress) ∧ afterOrderedEcho.runEvents more = some s'
        ∧ s'.pending = [] ∧ s'.conn.strand = [] ∧ s'.conn.sendQue = [] ∧ s'.conn.writesPending = 0
        ∧ s'.crashed = none ∧ s'.dropped = [] ∧ s'.received = afterOrderedEcho.received
        ∧ s'.received.Perm s'.conn.started
        ∧ ((∀ e ∈ orderedEcho, e.inOrder) → s'.received = s'.conn.started) :=
  have hes : ∀ e ∈ orderedEcho, e.errorFree := by decide
  have hrun : Echo.init.runEvents orderedEcho = some afterOrderedEcho := rfl
  have hopen : afterOrderedEcho.conn.isOpen = true := rfl
  ⟨hes, hrun, hopen, echoes_drain hes hrun hopen⟩

end Httplib.WebSocket
