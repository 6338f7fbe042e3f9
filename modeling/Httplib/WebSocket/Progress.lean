import Httplib.WebSocket.Moves
import Mathlib.Algebra.BigOperators.Group.List
import Mathlib.Algebra.Order.Ring.Nat

/-! Progress of the send side of `websocket_conn`. Each suspended coroutine that waits for the
strand has exactly one resumption posted, so the strand can always run its first handler. When
the strand runs and `ws_` completes each write, every message in `send_que_` or in a posted
`send_message` lambda is written, in order, and nothing is left to run.
-/

namespace Httplib.WebSocket

-----------------------------------------------------------------------------------------
-- One posted resumption per waiting coroutine
-----------------------------------------------------------------------------------------

/-- The writer task waits for a strand handler: its start, the loop's `post`, or the return from
`async_write`.
-/
def WriterPc.resumable : WriterPc → Bool
  | .spawned | .posted | .wrote _ => true
  | .writing _ | .done => false

/-- The coroutine of `close()` waits for a strand handler: its start or its `post`. -/
def CloserPc.resumable : CloserPc → Bool
  | .spawned | .posted => true
  | .closing | .done => false

/-- The strand holds one handler `tag id` for each task `id` that waits for one, and none for
the others.
-/
def OnePosted {α : Type} (strand : List Handler) (tag : Nat → Handler) (pcs : List α)
    (resumable : α → Bool) : Prop :=
  ∀ id, strand.count (tag id) = (pcs[id]?.any resumable).toNat

/-- Every waiting writer task and close coroutine has one resumption posted, and no other has. -/
structure Conn.Resumptions (c : Conn) : Prop where
  writers : OnePosted c.strand .writer c.writers WriterPc.resumable
  closers : OnePosted c.strand .closer c.closers CloserPc.resumable

section OnePosted

variable {α : Type} {tag : Nat → Handler} {r : α → Bool} {pcs : List α} {strand : List Handler}

/-- Only the counts of the tagged handlers matter. -/
theorem OnePosted.congr (h : OnePosted strand tag pcs r) {strand' : List Handler}
    (hc : ∀ id, strand'.count (tag id) = strand.count (tag id)) : OnePosted strand' tag pcs r :=
  fun id => (hc id).trans (h id)

/-- Task `id` moved to `new`, with the count of its handlers set to match. -/
theorem OnePosted.set (h : OnePosted strand tag pcs r) {id : Nat} (hid : id < pcs.length)
    {strand' : List Handler} {new : α}
    (hother : ∀ j, j ≠ id → strand'.count (tag j) = strand.count (tag j))
    (hself : strand'.count (tag id) = (r new).toNat) : OnePosted strand' tag (pcs.set id new) r := by
  intro j
  by_cases hj : id = j
  · subst hj; simp [hid, hself]
  · rw [List.getElem?_set_ne hj, hother j (Ne.symm hj), h j]

/-- Running the resumption of task `id` at the head of the strand, which posts the next one
exactly when the task waits again.
-/
theorem OnePosted.resume {id : Nat} {hs : List Handler} (h : OnePosted (tag id :: hs) tag pcs r)
    (htag : tag.Injective) (new : α)
    : OnePosted (hs ++ if r new then [tag id] else []) tag (pcs.set id new) r := by
  have hone := h id
  rw [List.count_cons_self] at hone
  have hid : id < pcs.length := by
    by_contra hge
    rw [List.getElem?_eq_none (by omega)] at hone
    cases hone
  have hs0 : hs.count (tag id) = 0 := by
    have := Bool.toNat_le (pcs[id]?.any r); omega
  refine h.set hid (fun j hj => ?_) ?_
  · split <;> simp [List.count_cons, htag.eq_iff, hj, Ne.symm hj]
  · split <;> simp [hs0, *]

/-- A task that waits for no handler is moved by a completion from outside the strand, which
posts its resumption exactly when it waits for one.
-/
theorem OnePosted.complete (h : OnePosted strand tag pcs r) (htag : tag.Injective) {id : Nat}
    {old : α} (hid : pcs[id]? = some old) (hold : r old = false) (new : α)
    : OnePosted (strand ++ if r new then [tag id] else []) tag (pcs.set id new) r := by
  have hs0 : strand.count (tag id) = 0 := by simpa [hid, hold] using h id
  refine h.set (List.getElem?_eq_some_iff.mp hid).1 (fun j hj => ?_) ?_
  · split <;> simp [List.count_singleton, htag.eq_iff, Ne.symm hj]
  · split <;> simp [hs0, *]

/-- `co_spawn` of a new task with its start posted. -/
theorem OnePosted.spawn (h : OnePosted strand tag pcs r) (htag : tag.Injective) {new : α}
    (hnew : r new = true) : OnePosted (strand ++ [tag pcs.length]) tag (pcs ++ [new]) r := by
  intro j
  rcases lt_trichotomy j pcs.length with hj | rfl | hj
  · simp [List.getElem?_append_left hj, h j, List.count_singleton, htag.eq_iff, hj.ne']
  · have h0 := h pcs.length
    simp only [List.getElem?_eq_none (le_refl _)] at h0
    simp [h0, hnew]
  · have h0 := h j
    rw [List.getElem?_eq_none hj.le] at h0
    rw [List.getElem?_eq_none (by simp; omega)]
    simp [h0, List.count_singleton, htag.eq_iff, hj.ne]

end OnePosted

theorem Conn.init_resumptions : Conn.init.Resumptions :=
  ⟨fun _ => rfl, fun _ => rfl⟩

section Resumptions

variable {c c' : Conn}

theorem Handler.writer_injective : Function.Injective Handler.writer := fun _ _ => Handler.writer.inj

theorem Handler.closer_injective : Function.Injective Handler.closer := fun _ _ => Handler.closer.inj

/-- A writer resumption moves the task and posts its next resumption exactly when it waits for
one.
-/
theorem Conn.runWriter_spec {id : Nat} (h : c.runWriter id = some c')
    : ∃ new, c'.writers = c.writers.set id new
      ∧ c'.strand = c.strand ++ (if new.resumable then [.writer id] else [])
      ∧ c'.closers = c.closers := by
  unfold Conn.runWriter at h
  split at h
  · cases h; exact ⟨.posted, rfl, rfl, rfl⟩
  · split at h <;> cases h
    · exact ⟨.done, rfl, by simp [WriterPc.resumable], rfl⟩
    · exact ⟨.writing _, rfl, by simp [WriterPc.resumable], rfl⟩
  · cases h; exact ⟨.posted, rfl, rfl, rfl⟩
  · cases h; exact ⟨.done, rfl, by simp [WriterPc.resumable], rfl⟩
  · cases h

theorem Conn.runCloser_spec {id : Nat} (h : c.runCloser id = some c')
    : ∃ new, c'.closers = c.closers.set id new
      ∧ c'.strand = c.strand ++ (if new.resumable then [.closer id] else [])
      ∧ c'.writers = c.writers := by
  unfold Conn.runCloser at h
  split at h <;> cases h
  · exact ⟨.posted, rfl, rfl, rfl⟩
  · exact ⟨.closing, rfl, by simp [CloserPc.resumable], rfl⟩

/-- Running the writer resumption at the head of the strand keeps one posted resumption per
waiting coroutine.
-/
theorem Conn.Resumptions.resumeWriter (hc : c.Resumptions) {id : Nat} {hs : List Handler}
    (hstrand : c.strand = .writer id :: hs) (new : WriterPc) (hw : c'.writers = c.writers.set id new)
    (hs' : c'.strand = hs ++ if new.resumable then [.writer id] else [])
    (hcl : c'.closers = c.closers) : c'.Resumptions := by
  obtain ⟨hw0, hc0⟩ := hc
  rw [hstrand] at hw0 hc0
  refine ⟨hw ▸ hs' ▸ hw0.resume Handler.writer_injective new, hcl ▸ hs' ▸ hc0.congr ?_⟩
  intro j; split <;> simp [List.count_cons]

theorem Conn.Resumptions.resumeCloser (hc : c.Resumptions) {id : Nat} {hs : List Handler}
    (hstrand : c.strand = .closer id :: hs) (new : CloserPc) (hcl : c'.closers = c.closers.set id new)
    (hs' : c'.strand = hs ++ if new.resumable then [.closer id] else [])
    (hw : c'.writers = c.writers) : c'.Resumptions := by
  obtain ⟨hw0, hc0⟩ := hc
  rw [hstrand] at hw0 hc0
  refine ⟨hw ▸ hs' ▸ hw0.congr ?_, hcl ▸ hs' ▸ hc0.resume Handler.closer_injective new⟩
  intro j; split <;> simp [List.count_cons]

/-- Every event keeps one posted resumption per waiting coroutine, errors included. -/
theorem Conn.Resumptions.step (hc : c.Resumptions) {e : Event} (h : c.step e = some c')
    : c'.Resumptions := by
  cases e with
  | sendMessage msg =>
      cases h; split
      · exact ⟨hc.writers.congr (by simp), hc.closers.congr (by simp)⟩
      · exact hc
  | close =>
      cases h; split
      · exact ⟨hc.writers.congr (by simp), hc.closers.spawn Handler.closer_injective rfl⟩
      · exact hc
  | run =>
      simp only [Conn.step] at h
      split at h
      · cases h
      · next msg hs hstrand =>
        cases h
        have hw : OnePosted hs .writer c.writers WriterPc.resumable :=
          hc.writers.congr (by simp [hstrand, List.count_cons])
        have hcl : OnePosted hs .closer c.closers CloserPc.resumable :=
          hc.closers.congr (by simp [hstrand, List.count_cons])
        unfold Conn.runSend; dsimp only
        split
        · exact ⟨hw, hcl⟩
        · exact ⟨hw.spawn Handler.writer_injective rfl, hcl.congr (by simp [Conn.spawnWriter])⟩
      · next hstrand =>
        obtain ⟨new, hw, hs', hcl⟩ := Conn.runWriter_spec h
        exact hc.resumeWriter hstrand new hw hs' hcl
      · next hstrand =>
        obtain ⟨new, hcl, hs', hw⟩ := Conn.runCloser_spec h
        exact hc.resumeCloser hstrand new hcl hs' hw
  | runAborted =>
      simp only [Conn.step] at h
      split at h
      · next hstrand =>
        split at h <;> cases h
        exact hc.resumeWriter hstrand .done rfl (by simp [WriterPc.resumable]) rfl
      · next hstrand =>
        split at h <;> cases h
        exact hc.resumeCloser hstrand .done rfl (by simp [CloserPc.resumable]) rfl
      · cases h
  | writeComplete id ok =>
      obtain ⟨msg, hget, -, rfl⟩ := Conn.step_writeComplete h
      have hw := hc.writers.complete Handler.writer_injective hget rfl (.wrote ok)
      exact ⟨by simpa [WriterPc.resumable] using hw, hc.closers.congr (by simp)⟩
  | closeComplete id =>
      obtain ⟨hget, rfl⟩ := Conn.step_closeComplete h
      have hcl := hc.closers.complete Handler.closer_injective hget rfl .done
      exact ⟨hc.writers, by simpa [CloserPc.resumable] using hcl⟩

/-- Every run keeps one posted resumption per waiting coroutine, by induction on the events. -/
theorem Conn.Resumptions.runEvents (hc : c.Resumptions) {es : List Event}
    (h : c.runEvents es = some c') : c'.Resumptions := by
  induction es generalizing c with
  | nil => cases h; exact hc
  | cons e es ih =>
      obtain ⟨mid, hstep, hrest⟩ := Option.bind_eq_some.mp h
      exact ih (hc.step hstep) hrest

theorem Conn.runWriter_isSome {id : Nat} (h : c.writers[id]?.any WriterPc.resumable)
    : (c.runWriter id).isSome := by
  rcases hget : c.writers[id]? with _ | pc
  · simp [hget] at h
  · cases pc with
    | posted => simp only [Conn.runWriter, hget]; split <;> rfl
    | wrote ok => cases ok <;> simp [Conn.runWriter, hget]
    | writing msg => simp [hget, WriterPc.resumable] at h
    | done => simp [hget, WriterPc.resumable] at h
    | spawned => simp [Conn.runWriter, hget]

theorem Conn.runCloser_isSome {id : Nat} (h : c.closers[id]?.any CloserPc.resumable)
    : (c.runCloser id).isSome := by
  rcases hget : c.closers[id]? with _ | pc
  · simp [hget] at h
  · cases pc <;> simp_all [Conn.runCloser, CloserPc.resumable]

/-- The first handler of the strand finds its coroutine waiting for it, so it can run. -/
theorem Conn.Resumptions.run_isSome (hr : c.Resumptions) (hs : c.strand ≠ [])
    : (c.step .run).isSome := by
  rcases hstrand : c.strand with _ | ⟨hd, hs⟩
  · exact absurd hstrand hs
  · cases hd with
    | send msg => simp [Conn.step, hstrand]
    | writer id =>
        have hone := hr.writers id
        rw [hstrand, List.count_cons_self] at hone
        simpa [Conn.step, hstrand] using Conn.runWriter_isSome (c := { c with strand := hs })
          (by cases hany : c.writers[id]?.any WriterPc.resumable <;> simp_all)
    | closer id =>
        have hone := hr.closers id
        rw [hstrand, List.count_cons_self] at hone
        simpa [Conn.step, hstrand] using Conn.runCloser_isSome (c := { c with strand := hs })
          (by cases hany : c.closers[id]?.any CloserPc.resumable <;> simp_all)

end Resumptions

-----------------------------------------------------------------------------------------
-- The work left
-----------------------------------------------------------------------------------------

/-- The strand runs its first handler, or `ws_` completes a write without error. -/
def Event.isProgress : Event → Bool
  | .run => true
  | .writeComplete _ ok => ok
  | _ => false

/-- The events of a drain: the strand runs its first handler and, when `ok` is given, a pending
`ws_.async_write` completes with that result.
-/
def Event.drains (ok : Option Bool) : Event → Bool
  | .run => true
  | .writeComplete _ b => ok == some b
  | _ => false

theorem Event.errorFree_of_isProgress {e : Event} (he : e.isProgress) : e.errorFree := by
  cases e <;> simp_all [Event.isProgress, Event.errorFree]

theorem Event.isCall_of_isProgress {e : Event} (he : e.isProgress) : e.isCall = false := by
  cases e <;> simp_all [Event.isProgress, Event.isCall]

theorem Event.isCall_of_drains {ok : Option Bool} {e : Event} (he : e.drains ok)
    : e.isCall = false := by
  cases e <;> simp_all [Event.drains, Event.isCall]

/-- A drain that completes no write with an error makes progress. -/
theorem Event.isProgress_of_drains {ok : Option Bool} (hok : ok ≠ some false) {e : Event}
    (he : e.drains ok) : e.isProgress := by
  cases e <;> simp_all [Event.drains, Event.isProgress]

/-- The events a writer task has left when its writes succeed, not counting the messages it
will pop: the resumptions up to its `post`, then the return on an empty queue.
-/
def WriterPc.work : WriterPc → Nat
  | .spawned => 2
  | .posted => 1
  | .writing _ => 3
  | .wrote _ => 2
  | .done => 0

/-- The strand runs the coroutine of `close()` has left before `async_close`. -/
def CloserPc.work : CloserPc → Nat
  | .spawned => 2
  | .posted => 1
  | .closing | .done => 0

/-- A bound on the drain events before the send side is quiet: a posted lambda is run, may
spawn a writer, and leaves a message, which a writer pops, writes and resumes after.
-/
def Conn.workLeft (c : Conn) : Nat :=
  6 * c.sends.length + 3 * c.sendQue.length + (c.writers.map WriterPc.work).sum
    + (c.closers.map CloserPc.work).sum

theorem sum_map_set {α : Type} {l : List α} {i : Nat} {old : α} (h : l[i]? = some old) (new : α)
    (f : α → Nat) : ((l.set i new).map f).sum + f old = (l.map f).sum + f new := by
  induction l generalizing i with
  | nil => cases h
  | cons x xs ih =>
      cases i with
      | zero => simp only [List.getElem?_cons_zero, Option.some.injEq] at h; subst h; simp; omega
      | succ i => have := ih (by simpa using h); simp at this ⊢; omega

section Work

variable {c c' : Conn}

theorem Conn.workLeft_runWriter {id : Nat} (h : c.runWriter id = some c')
    : c'.workLeft < c.workLeft := by
  unfold Conn.runWriter at h
  split at h
  · next hget =>
    cases h; have := sum_map_set hget .posted WriterPc.work
    simp [Conn.workLeft, Conn.sends, Handler.sent, WriterPc.work] at this ⊢; omega
  · next hget =>
    split at h <;> cases h
    · have := sum_map_set hget .done WriterPc.work
      simp [Conn.workLeft, Conn.sends, WriterPc.work] at this ⊢; omega
    · next msg rest hque =>
      have := sum_map_set hget (.writing msg) WriterPc.work
      simp [Conn.workLeft, Conn.sends, hque, WriterPc.work] at this ⊢; omega
  · next hget =>
    cases h; have := sum_map_set hget .posted WriterPc.work
    simp [Conn.workLeft, Conn.sends, Handler.sent, WriterPc.work] at this ⊢; omega
  · next hget =>
    cases h; have := sum_map_set hget .done WriterPc.work
    simp [Conn.workLeft, Conn.sends, WriterPc.work] at this ⊢; omega
  · cases h

theorem Conn.workLeft_runCloser {id : Nat} (h : c.runCloser id = some c')
    : c'.workLeft < c.workLeft := by
  unfold Conn.runCloser at h
  split at h <;> cases h
  · next hget =>
    have := sum_map_set hget .posted CloserPc.work
    simp [Conn.workLeft, Conn.sends, Handler.sent, CloserPc.work] at this ⊢; omega
  · next hget =>
    have := sum_map_set hget .closing CloserPc.work
    simp [Conn.workLeft, Conn.sends, CloserPc.work] at this ⊢; omega

/-- Every drain event lowers the work left. -/
theorem Conn.workLeft_step {ok : Option Bool} {e : Event} (he : e.drains ok)
    (h : c.step e = some c') : c'.workLeft < c.workLeft := by
  cases e with
  | run =>
      simp only [Conn.step] at h
      split at h
      · cases h
      · next msg hs hstrand =>
        cases h
        unfold Conn.runSend; dsimp only
        split <;> simp [Conn.workLeft, Conn.sends, hstrand, Handler.sent, Conn.spawnWriter,
          WriterPc.work] <;> omega
      · next id hs hstrand =>
        have heq : ({ c with strand := hs } : Conn).workLeft = c.workLeft := by
          simp [Conn.workLeft, Conn.sends, hstrand, Handler.sent]
        exact heq ▸ Conn.workLeft_runWriter h
      · next id hs hstrand =>
        have heq : ({ c with strand := hs } : Conn).workLeft = c.workLeft := by
          simp [Conn.workLeft, Conn.sends, hstrand, Handler.sent]
        exact heq ▸ Conn.workLeft_runCloser h
  | writeComplete id b =>
      obtain ⟨msg, hget, -, rfl⟩ := Conn.step_writeComplete h
      have := sum_map_set hget (.wrote b) WriterPc.work
      simp [Conn.workLeft, Conn.sends, Handler.sent, WriterPc.work] at this ⊢; omega
  | _ => cases he

/-- Running the strand and completing writes without error keeps a stream open or closing: only
a failure or the end of the close handshake stops it.
-/
theorem Conn.active_step {e : Event} (he : e.isProgress) (ha : c.status.active)
    (h : c.step e = some c') : c'.status.active := by
  cases e with
  | run =>
      simp only [Conn.step] at h
      split at h
      · cases h
      · cases h; simpa using ha
      · rwa [Conn.runWriter_status h]
      · unfold Conn.runCloser at h
        split at h <;> cases h
        · exact ha
        · simpa using ha
  | writeComplete id ok =>
      obtain ⟨msg, -, -, rfl⟩ := Conn.step_writeComplete h
      simp only [Event.isProgress] at he
      simpa [he] using ha
  | _ => cases he

end Work

-----------------------------------------------------------------------------------------
-- Draining
-----------------------------------------------------------------------------------------

section Drain

variable {c c' : Conn}

/-- While the strand holds a handler, or a write is pending and writes are to complete, a drain
event can happen: a write completes without error only on a stream open or closing.
-/
theorem Conn.Resumptions.progress (hr : c.Resumptions) (ok : Option Bool)
    (hok : ok = some true → c.status.active)
    (hbusy : c.strand ≠ [] ∨ (ok.isSome ∧ 0 < c.writesPending))
    : ∃ e, e.drains ok ∧ (c.step e).isSome := by
  by_cases hs : c.strand = []
  · obtain ⟨hsome, hpos⟩ := hbusy.resolve_left (not_not.mpr hs)
    obtain ⟨b, rfl⟩ := Option.isSome_iff_exists.mp hsome
    obtain ⟨pc, hmem, hw⟩ := List.countP_pos_iff.mp hpos
    obtain ⟨id, hget⟩ := List.mem_iff_getElem?.mp hmem
    cases pc with
    | writing msg =>
        refine ⟨.writeComplete id b, by simp [Event.drains], ?_⟩
        cases b
        · simp [Conn.step, hget]
        · simp [Conn.step, hget, hok rfl]
    | _ => cases hw
  · exact ⟨.run, rfl, hr.run_isSome hs⟩

/-- From every state with one posted resumption per waiting coroutine, drain events empty the
strand within `workLeft` of them, and complete every pending write too when `ok` is given; by
strong induction on `workLeft`.
-/
theorem Conn.Resumptions.drain (hr : c.Resumptions) (ok : Option Bool)
    (hok : ok = some true → c.status.active)
    : ∃ more c', (∀ e ∈ more, e.drains ok) ∧ more.length ≤ c.workLeft
      ∧ c.runEvents more = some c' ∧ c'.strand = [] ∧ (ok.isSome → c'.writesPending = 0)
      ∧ c'.Resumptions := by
  generalize hw : c.workLeft = w
  induction w using Nat.strong_induction_on generalizing c with
  | h w ih =>
    by_cases hbusy : c.strand ≠ [] ∨ (ok.isSome ∧ 0 < c.writesPending)
    · obtain ⟨e, he, hsome⟩ := hr.progress ok hok hbusy
      obtain ⟨mid, hstep⟩ := Option.isSome_iff_exists.mp hsome
      have smaller : mid.workLeft < w := hw ▸ Conn.workLeft_step he hstep
      have hok' : ok = some true → mid.status.active := fun hs =>
        Conn.active_step (Event.isProgress_of_drains (by simp [hs]) he) (hok hs) hstep
      obtain ⟨more, c', hmore, hlen, hrun, hrest⟩ := ih _ smaller (hr.step hstep) hok' rfl
      refine ⟨e :: more, c', List.forall_mem_cons.mpr ⟨he, hmore⟩, by simp; omega,
        by simp [Conn.runEvents, hstep, hrun], hrest⟩
    · simp only [not_or, not_not, not_and, Nat.not_lt, Nat.le_zero] at hbusy
      exact ⟨[], c, by simp, by simp, rfl, hbusy.1, hbusy.2, hr⟩

/-- With nothing on the strand and no write pending, every writer task has returned: a live
writer is writing or has a resumption posted.
-/
theorem Conn.Resumptions.writers_quiet (hr : c.Resumptions) (hs : c.strand = [])
    (hp : c.writesPending = 0) : ∀ pc ∈ c.writers, pc = .done := by
  intro pc hmem
  obtain ⟨id, hget⟩ := List.mem_iff_getElem?.mp hmem
  have hone := hr.writers id
  have hnw := List.countP_eq_zero.mp hp _ hmem
  cases pc <;> simp_all [WriterPc.resumable, WriterPc.isWriting]

/-- With nothing on the strand, every `close()` coroutine is in `async_close` or has returned. -/
theorem Conn.Resumptions.closers_quiet (hr : c.Resumptions) (hs : c.strand = [])
    : ∀ pc ∈ c.closers, pc = .closing ∨ pc = .done := by
  intro pc hmem
  obtain ⟨id, hget⟩ := List.mem_iff_getElem?.mp hmem
  have hone := hr.closers id
  cases pc <;> simp_all [CloserPc.resumable]

/-- With nothing on the strand and no write pending, the queue is empty: a non-empty queue has a
live writer.
-/
theorem Conn.QueueAccounted.sendQue_quiet (hq : c.QueueAccounted) (hr : c.Resumptions)
    (hs : c.strand = []) (hp : c.writesPending = 0) : c.sendQue = [] := by
  by_contra hne
  obtain ⟨pc, hmem, hlive⟩ := hq.drained hne
  rw [hr.writers_quiet hs hp pc hmem] at hlive
  cases hlive

/-- From every accounted state of a stream open or closing, running the strand and completing
each write without error drains the send side within `workLeft` events.
-/
theorem Conn.drain (hq : c.QueueAccounted) (hr : c.Resumptions) (ha : c.status.active)
    : ∃ more c', (∀ e ∈ more, e.isProgress) ∧ more.length ≤ c.workLeft
      ∧ c.runEvents more = some c' ∧ c'.strand = [] ∧ c'.sendQue = [] ∧ c'.writesPending = 0 := by
  obtain ⟨more, c', hmore, hlen, hrun, hstrand, hpend, hr'⟩ := hr.drain (some true) fun _ => ha
  have hprog : ∀ e ∈ more, e.isProgress :=
    fun e he => Event.isProgress_of_drains (by simp) (hmore e he)
  have hq' := hq.runEvents (fun e he => Event.errorFree_of_isProgress (hprog e he)) hrun
  exact ⟨more, c', hprog, hlen, hrun, hstrand, hq'.sendQue_quiet hr' hstrand (hpend rfl),
    hpend rfl⟩

theorem Conn.closers_length_runEvents {es : List Event} (hes : ∀ e ∈ es, e.isCall = false)
    (h : c.runEvents es = some c') : c'.closers.length = c.closers.length := by
  induction es generalizing c with
  | nil => cases h; rfl
  | cons e es ih =>
      obtain ⟨mid, hstep, hrest⟩ := Option.bind_eq_some.mp h
      exact (ih (fun e' he' => hes e' (List.mem_cons_of_mem e he')) hrest).trans
        (Conn.closers_length_step (hes e (List.mem_cons_self e es)) hstep)

/-- A run of events that are not calls keeps the accepted messages followed by the posted ones. -/
theorem Conn.accepted_runEvents {es : List Event} (hes : ∀ e ∈ es, e.isCall = false)
    (h : c.runEvents es = some c') : c'.enqueued ++ c'.sends = c.enqueued ++ c.sends := by
  induction es generalizing c with
  | nil => cases h; rfl
  | cons e es ih =>
      obtain ⟨mid, hstep, hrest⟩ := Option.bind_eq_some.mp h
      exact (ih (fun e' he' => hes e' (List.mem_cons_of_mem e he')) hrest).trans
        (Conn.moves_step (hes e (List.mem_cons_self e es)) hstep).accepted

end Drain

/-- From every state of a run, failed posts and writes included, no `close()` call is lost: when
the strand runs what it holds, within `workLeft` events every coroutine `close()` spawned has
started `async_close` or returned.
-/
theorem close_calls_drain {es : List Event} {c : Conn} (h : Conn.init.runEvents es = some c)
    : ∃ more c', (∀ e ∈ more, e.isProgress) ∧ more.length ≤ c.workLeft
      ∧ c.runEvents more = some c' ∧ c'.closers.length = c.closers.length
      ∧ ∀ pc ∈ c'.closers, pc = .closing ∨ pc = .done := by
  obtain ⟨more, c', hmore, hlen, hrun, hstrand, -, hr'⟩ :=
    (Conn.init_resumptions.runEvents h).drain none (by simp)
  exact ⟨more, c', fun e he => Event.isProgress_of_drains (by simp) (hmore e he), hlen, hrun,
    Conn.closers_length_runEvents (fun e he => Event.isCall_of_drains (hmore e he)) hrun,
    hr'.closers_quiet hstrand⟩

/-- A message sent, then `close()`, with the strand run once. -/
def sendThenClose : List Event :=
  [.sendMessage ⟨[1], .text⟩, .close, .run]

/-- The connection after `sendThenClose`: the close coroutine's start is still posted. -/
def afterSendThenClose : Conn :=
  (Conn.init.runEvents sendThenClose).getD Conn.init

theorem close_calls_drain_sendThenClose
    : Conn.init.runEvents sendThenClose = some afterSendThenClose
      ∧ ∃ more c', (∀ e ∈ more, e.isProgress) ∧ more.length ≤ afterSendThenClose.workLeft
        ∧ afterSendThenClose.runEvents more = some c'
        ∧ c'.closers.length = afterSendThenClose.closers.length
        ∧ ∀ pc ∈ c'.closers, pc = .closing ∨ pc = .done :=
  have hrun : Conn.init.runEvents sendThenClose = some afterSendThenClose := rfl
  ⟨hrun, close_calls_drain hrun⟩

end Httplib.WebSocket
