import DialogueScript.Diagnostics.Session

/-!
# What recorders hold

An event that is emitted reaches every listener, and of the buffers it changes only those of the
recorders among them: each gains the event once for every recorder that writes into it
(`buffers_deliver`). Emitting a list of events therefore adds the events to a buffer in their order,
each as often as the buffer has recorders (`buffers_emitAll`), and changes nothing else of a session
(`emitAll_eq`).
-/

set_option autoImplicit false
set_option relaxedAutoImplicit false

namespace DialogueScript

theorem recordIn_apply (listener : Listener) (event : Event) (buffers : Buffers) (buffer : Nat) :
    listener.recordIn event buffers buffer =
      buffers buffer ++ List.replicate ([listener].count (.recorder buffer)) event := by
  cases listener with
  | callback name => simp [Listener.recordIn]
  | log => simp [Listener.recordIn]
  | recorder other =>
    by_cases h : other = buffer
    · subst h
      simp [Listener.recordIn, Buffers.record, Buffers.set]
    · simp [Listener.recordIn, Buffers.record, Buffers.set, h, Ne.symm h]

/-- An event is added to a buffer once for every recorder of the buffer. -/
theorem buffers_deliver (session : Session) (listeners : List Listener) (event : Event)
    (buffer : Nat) :
    (session.deliver listeners event).2.buffers buffer =
      session.buffers buffer ++ List.replicate (listeners.count (.recorder buffer)) event := by
  change listeners.foldl (fun buffers listener ↦ listener.recordIn event buffers) session.buffers
    buffer = _
  generalize session.buffers = buffers
  induction listeners generalizing buffers with
  | nil => simp
  | cons listener rest ih =>
    rw [List.foldl_cons, ih, recordIn_apply, List.append_assoc, List.replicate_append_replicate,
      ← List.count_append, List.singleton_append]

/-- Emitting events changes nothing but buffers. -/
theorem emitAll_eq (session : Session) (events : List Event) :
    (session.emitAll events).2 =
      { session with buffers := (session.emitAll events).2.buffers } := by
  induction events generalizing session with
  | nil => rfl
  | cons event rest ih =>
    change ((session.deliver session.channel.listeners event).2.emitAll rest).2 = _
    rw [ih]
    rfl

/-- Events that are emitted are added to a buffer in their order, each once for every recorder of
the buffer. -/
theorem buffers_emitAll (session : Session) (events : List Event) (buffer : Nat) :
    (session.emitAll events).2.buffers buffer = session.buffers buffer ++
      events.flatMap (List.replicate (session.channel.listeners.count (.recorder buffer))) := by
  induction events generalizing session with
  | nil => simp [Session.emitAll]
  | cons event rest ih =>
    change ((session.deliver session.channel.listeners event).2.emitAll rest).2.buffers buffer = _
    rw [ih, buffers_deliver, List.flatMap_cons, List.append_assoc]
    rfl

/-- What leaves while events are emitted leaves event by event. -/
theorem deliveries_emitAll (session : Session) (events : List Event) :
    (session.emitAll events).1 =
      events.flatMap fun event ↦ session.channel.listeners.flatMap (·.deliver event) := by
  induction events generalizing session with
  | nil => rfl
  | cons event rest ih =>
    change (session.deliver session.channel.listeners event).1 ++
      ((session.deliver session.channel.listeners event).2.emitAll rest).1 = _
    rw [ih, List.flatMap_cons]
    rfl

end DialogueScript
