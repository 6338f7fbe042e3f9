import Httplib.WebSocket.Moves
import Mathlib.Logic.Relation

/-! What the send side of `websocket_conn` is for: a FIFO channel that takes messages while the
stream is open and writes them in the order it took them, each once. The connection refines it
over every interleaving, errors included: `send_message` on an open stream takes a message, a
writer's pop writes the next one, starting `async_close` or a failed write closes the channel, and
every other event leaves the channel as it is.
-/

namespace Httplib.WebSocket

-----------------------------------------------------------------------------------------
-- The channel
-----------------------------------------------------------------------------------------

/-- A FIFO channel: whether it takes messages, the messages taken in order, and those written,
always a prefix of those taken.
-/
@[ext] structure Channel where
  isOpen : Bool
  accepted : List Message
  written : List Message
  written_prefix : written <+: accepted

/-- An open channel that has taken nothing. -/
def Channel.empty : Channel :=
  ⟨true, [], [], List.prefix_refl _⟩

/-- A step of the channel: take a message while open, write the next message taken, or close. -/
inductive Channel.Step : Channel → Channel → Prop
  | accept {ch : Channel} (msg : Message) (hopen : ch.isOpen = true)
      : Step ch ⟨ch.isOpen, ch.accepted ++ [msg], ch.written,
          ch.written_prefix.trans (List.prefix_append _ _)⟩
  | write {ch : Channel} {msg : Message} (h : ch.written ++ [msg] <+: ch.accepted)
      : Step ch ⟨ch.isOpen, ch.accepted, ch.written ++ [msg], h⟩
  | close {ch : Channel} : Step ch ⟨false, ch.accepted, ch.written, ch.written_prefix⟩

section Channel

variable {ch ch' : Channel}

/-- A step that takes `msg`, given field by field. -/
theorem Channel.step_accept (msg : Message) (hopen : ch.isOpen = true) (ho : ch'.isOpen = ch.isOpen)
    (ha : ch'.accepted = ch.accepted ++ [msg]) (hw : ch'.written = ch.written) : Step ch ch' := by
  obtain ⟨o, a, w, p⟩ := ch'
  subst ho ha hw
  exact .accept msg hopen

theorem Channel.step_write {msg : Message} (ho : ch'.isOpen = ch.isOpen)
    (ha : ch'.accepted = ch.accepted) (hw : ch'.written = ch.written ++ [msg]) : Step ch ch' := by
  obtain ⟨o, a, w, p⟩ := ch'
  subst ho ha hw
  exact .write p

theorem Channel.step_close (ho : ch'.isOpen = false) (ha : ch'.accepted = ch.accepted)
    (hw : ch'.written = ch.written) : Step ch ch' := by
  obtain ⟨o, a, w, p⟩ := ch'
  subst ho ha hw
  exact .close

end Channel

-----------------------------------------------------------------------------------------
-- The connection refines the channel
-----------------------------------------------------------------------------------------

/-- The channel a connection implements: open while `ws_` is, taking what `send_message` accepted
or posted, and writing what was handed to `async_write`.
-/
def Conn.channel (c : Conn) (hc : c.Fifo) : Channel :=
  ⟨c.isOpen, c.enqueued ++ c.sends, c.started, by
    rw [hc.started, hc.order, List.append_assoc]; exact List.prefix_append _ _⟩

theorem Conn.init_fifo : Conn.init.Fifo := ⟨rfl, rfl⟩

theorem Conn.channel_init : Conn.init.channel Conn.init_fifo = Channel.empty := rfl

section Refinement

variable {c c' : Conn}

/-- Forward simulation: every event is a step of the channel or leaves it as it is. -/
theorem Conn.Fifo.step (hc : c.Fifo) {e : Event} (h : c.step e = some c')
    : ∃ hc' : c'.Fifo, c.channel hc = c'.channel hc' ∨ Channel.Step (c.channel hc) (c'.channel hc') := by
  cases hcall : e.isCall
  · have hm := Conn.moves_step hcall h
    refine ⟨hc.moves hm, ?_⟩
    cases hm with
    | stay hsends _ henq _ hst =>
        cases ho : c'.isOpen
        · exact .inr (Channel.step_close ho (by simp [Conn.channel, hsends, henq]) hst)
        · exact .inl (Channel.ext (by simp [Conn.channel, ho, Conn.isOpen_step h ho])
            (by simp [Conn.channel, hsends, henq]) hst.symm)
    | push msg hsends _ henq _ hst hstatus =>
        exact .inl (Channel.ext (by simp [Conn.channel, Conn.isOpen, hstatus])
          (by simp [Conn.channel, hsends, henq]) hst.symm)
    | pop msg hsends _ henq _ hst hstatus =>
        exact .inr (Channel.step_write (by simp [Conn.channel, Conn.isOpen, hstatus])
          (by simp [Conn.channel, hsends, henq]) hst)
  · cases e with
    | sendMessage msg =>
        cases h
        split
        · next hopen =>
          exact ⟨⟨hc.started, hc.order⟩, .inr (Channel.step_accept msg hopen rfl
            (by simp [Conn.channel, Conn.sends, Handler.sent]) rfl)⟩
        · exact ⟨hc, .inl rfl⟩
    | close =>
        cases h
        split
        · exact ⟨⟨hc.started, hc.order⟩, .inl (Channel.ext rfl
            (by simp [Conn.channel, Conn.sends, Handler.sent]) rfl)⟩
        · exact ⟨hc, .inl rfl⟩
    | _ => cases hcall

/-- Every run of the connection is a run of the channel, by induction on the events. -/
theorem Conn.Fifo.runEvents (hc : c.Fifo) {es : List Event} (h : c.runEvents es = some c')
    : ∃ hc' : c'.Fifo, Relation.ReflTransGen Channel.Step (c.channel hc) (c'.channel hc') := by
  induction es generalizing c with
  | nil => cases h; exact ⟨hc, .refl⟩
  | cons e es ih =>
      obtain ⟨mid, hstep, hrest⟩ := Option.bind_eq_some.mp h
      obtain ⟨hmid, hs⟩ := hc.step hstep
      obtain ⟨hc', hrun⟩ := ih hmid hrest
      refine ⟨hc', ?_⟩
      rcases hs with heq | hs
      · exact heq ▸ hrun
      · exact Relation.ReflTransGen.head hs hrun

end Refinement

end Httplib.WebSocket
