import Httplib.WebSocket.Delivery

/-! `send_que_` after a failed write. `process_write_data` returns when its write fails and leaves
the rest of the queue, while the `send_message` lambda spawns a writer only when the queue is
empty. Once every live writer is returning from a failed write and messages are queued, no event
ever starts a write again.
-/

namespace Httplib.WebSocket

/-- Messages are queued and every live writer task is returning from a failed write. -/
structure Conn.Stalled (c : Conn) : Prop where
  queued : c.sendQue ≠ []
  failing : ∀ pc ∈ c.writers, pc.live → pc = .wrote false

section Stalled

variable {c c' : Conn}

/-- A task put in place of another is failing or dead when it is not live. -/
theorem Conn.Stalled.set_done (hc : c.Stalled) (id : Nat)
    : ∀ pc ∈ c.writers.set id .done, pc.live → pc = .wrote false := fun pc hpc hlive =>
  (List.mem_or_eq_of_mem_set hpc).elim (hc.failing pc · hlive) (fun h => by subst h; cases hlive)

/-- A writer resumption in a stalled state can only be the return after a failed write. -/
theorem Conn.Stalled.runWriter (hc : c.Stalled) {id : Nat} (h : c.runWriter id = some c')
    : c'.Stalled ∧ c'.started = c.started ∧ c'.sendQue = c.sendQue := by
  have live : ∀ {pc}, c.writers[id]? = some pc → pc.live → pc = .wrote false :=
    fun hget => hc.failing _ (List.getElem?_mem hget)
  unfold Conn.runWriter at h
  split at h
  · next hget => cases live hget rfl
  · next hget => cases live hget rfl
  · next hget => cases live hget rfl
  · cases h; exact ⟨⟨hc.queued, hc.set_done id⟩, rfl, rfl⟩
  · cases h

/-- A `send_message` lambda on a stalled queue only pushes: the queue is not empty, so no writer
is spawned.
-/
theorem Conn.Stalled.runSend (hc : c.Stalled) (msg : Message)
    : (c.runSend msg).Stalled ∧ (c.runSend msg).started = c.started
      ∧ (c.runSend msg).sendQue = c.sendQue ++ [msg] := by
  have hne : (!c.sendQue.isEmpty) = true := by simpa using hc.queued
  unfold Conn.runSend
  dsimp only
  rw [if_pos hne]
  exact ⟨⟨by simp, hc.failing⟩, rfl, rfl⟩

theorem Conn.Stalled.runCloser (hc : c.Stalled) {id : Nat} (h : c.runCloser id = some c')
    : c'.Stalled ∧ c'.started = c.started ∧ c'.sendQue = c.sendQue := by
  unfold Conn.runCloser at h
  split at h <;> cases h
  · exact ⟨⟨hc.queued, hc.failing⟩, rfl, rfl⟩
  · exact ⟨⟨hc.queued, hc.failing⟩, by simp [Conn.started, WireEvent.started], rfl⟩

/-- Every event keeps a stalled connection stalled, starts no write and only adds to the queue. -/
theorem Conn.Stalled.step (hc : c.Stalled) {e : Event} (h : c.step e = some c')
    : c'.Stalled ∧ c'.started = c.started ∧ c.sendQue <+: c'.sendQue := by
  cases e with
  | sendMessage msg => cases h; split <;> exact ⟨⟨hc.queued, hc.failing⟩, rfl, List.prefix_refl _⟩
  | close => cases h; split <;> exact ⟨⟨hc.queued, hc.failing⟩, rfl, List.prefix_refl _⟩
  | run =>
      have hs : ∀ hs, ({ c with strand := hs } : Conn).Stalled := fun _ => ⟨hc.queued, hc.failing⟩
      simp only [Conn.step] at h
      split at h
      · cases h
      · cases h
        obtain ⟨hst, hstarted, hq⟩ := (hs _).runSend _
        exact ⟨hst, hstarted, hq ▸ List.prefix_append _ _⟩
      · obtain ⟨hst, hstarted, hq⟩ := (hs _).runWriter h
        exact ⟨hst, hstarted, hq ▸ List.prefix_refl _⟩
      · obtain ⟨hst, hstarted, hq⟩ := (hs _).runCloser h
        exact ⟨hst, hstarted, hq ▸ List.prefix_refl _⟩
  | runAborted =>
      simp only [Conn.step] at h
      split at h
      · split at h
        · next hget => cases hc.failing _ (List.getElem?_mem hget) rfl
        · cases h
      · split at h <;> cases h
        exact ⟨⟨hc.queued, hc.failing⟩, rfl, List.prefix_refl _⟩
      · cases h
  | writeComplete id ok =>
      obtain ⟨msg, hget, -, -⟩ := Conn.step_writeComplete h
      cases hc.failing _ (List.getElem?_mem hget) rfl
  | closeComplete id =>
      obtain ⟨-, rfl⟩ := Conn.step_closeComplete h
      exact ⟨⟨hc.queued, hc.failing⟩, by simp [Conn.started, WireEvent.started], List.prefix_refl _⟩

/-- Every run from a stalled connection stays stalled, starts no write and only adds to the
queue, by induction on the events.
-/
theorem Conn.Stalled.runEvents (hc : c.Stalled) {es : List Event} (h : c.runEvents es = some c')
    : c'.Stalled ∧ c'.started = c.started ∧ c.sendQue <+: c'.sendQue := by
  induction es generalizing c with
  | nil => cases h; exact ⟨hc, rfl, List.prefix_refl _⟩
  | cons e es ih =>
      obtain ⟨mid, hstep, hrest⟩ := Option.bind_eq_some.mp h
      obtain ⟨hmid, hstarted, hq⟩ := hc.step hstep
      obtain ⟨hc', hstarted', hq'⟩ := ih hmid hrest
      exact ⟨hc', hstarted'.trans hstarted, hq.trans hq'⟩

end Stalled

/-- When the write of the only live writer fails while messages are queued, no later event starts
a write: over every continuation the started writes stay as they are, and the queue keeps every
message it held and every message pushed later.
-/
theorem failed_write_stalls {c : Conn} {id : Nat} {msg : Message}
    (hpc : c.writers[id]? = some (.writing msg)) (hq : c.sendQue ≠ [])
    (honly : ∀ j pc, c.writers[j]? = some pc → pc.live → j = id)
    {es : List Event} {c' : Conn} (h : c.runEvents (.writeComplete id false :: es) = some c')
    : c'.started = c.started ∧ c.sendQue <+: c'.sendQue := by
  obtain ⟨mid, hstep, hrest⟩ := Option.bind_eq_some.mp h
  obtain ⟨m, hget, -, rfl⟩ := Conn.step_writeComplete hstep
  rw [hpc] at hget
  cases hget
  have hmid : Conn.Stalled { c with writers := c.writers.set id (.wrote false),
                                    strand := c.strand ++ [.writer id],
                                    status := if false then c.status else c.status.fail,
                                    wire := c.wire ++ [.writeDone msg false] } := by
    refine ⟨hq, fun pc hmem hlive => ?_⟩
    obtain ⟨j, hj, hget⟩ := List.getElem_of_mem hmem
    rw [List.getElem_set] at hget
    split at hget
    · exact hget.symm
    · next hne => exact absurd (honly j pc (by simp [← hget]) hlive).symm hne
  obtain ⟨-, hstarted, hque⟩ := hmid.runEvents hrest
  exact ⟨hstarted.trans (by simp [Conn.started, WireEvent.started]), hque⟩

/-- Two sends, the first one's write in flight and the second one queued, then a third send
whose lambda is still posted.
-/
def secondQueued : Conn :=
  (Conn.init.runEvents [.sendMessage ⟨[1], .text⟩, .sendMessage ⟨[2], .binary⟩, .run, .run, .run,
    .run, .sendMessage ⟨[3], .text⟩]).getD Conn.init

/-- After the first write fails, the strand runs the third send's lambda, which only pushes, and
the failed writer's return.
-/
def failThenSend : List Event :=
  [.run, .run]

/-- The connection after the failed write and `failThenSend`. -/
def afterFailThenSend : Conn :=
  (secondQueued.runEvents (.writeComplete 0 false :: failThenSend)).getD secondQueued

theorem failed_write_stalls_secondQueued
    : secondQueued.writers[0]? = some (.writing ⟨[1], .text⟩) ∧ secondQueued.sendQue ≠ []
      ∧ (∀ j pc, secondQueued.writers[j]? = some pc → pc.live → j = 0)
      ∧ secondQueued.runEvents (.writeComplete 0 false :: failThenSend) = some afterFailThenSend
      ∧ afterFailThenSend.started = secondQueued.started
      ∧ secondQueued.sendQue <+: afterFailThenSend.sendQue :=
  have hpc : secondQueued.writers[0]? = some (.writing ⟨[1], .text⟩) := rfl
  have hq : secondQueued.sendQue ≠ [] := by decide
  have honly : ∀ j pc, secondQueued.writers[j]? = some pc → pc.live → j = 0 := by
    intro j pc hj _
    have hw : secondQueued.writers = [.writing ⟨[1], .text⟩] := rfl
    rw [hw] at hj
    cases j with
    | zero => rfl
    | succ j => simp at hj
  have hrun : secondQueued.runEvents (.writeComplete 0 false :: failThenSend)
      = some afterFailThenSend := rfl
  ⟨hpc, hq, honly, hrun, failed_write_stalls hpc hq honly hrun⟩

end Httplib.WebSocket
