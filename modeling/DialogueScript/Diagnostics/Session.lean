import DialogueScript.Compile.Source
import DialogueScript.Diagnostics.Channel

/-!
# Sessions

A `Session` is a compiler, or a channel without one, with everything that its users can observe:
the listeners, the buffers of recorders, and the listeners that have been handed back. Users act on
it by `Action`s, and `Session.act` gives the answer to an action and the session after it.

A compilation emits its findings as events on the channel, one behind another, and every event
reaches the listeners in the order of their subscriptions. Listeners have no influence on what is
compiled.
-/

set_option autoImplicit false
set_option relaxedAutoImplicit false

namespace DialogueScript

/-- A listener that a user attaches. -/
inductive Attachment where
  /-- A recorder of a name. Recorders of one name share a buffer. -/
  | recorder (name : String)
  | callback (name : String)
  | log
deriving DecidableEq, Repr

/-- A compiler or a channel in use. -/
structure Session where
  /-- The options of the compiler, if there is one. -/
  options : Option Options
  channel : Channel
  /-- The buffers of the recorders that have a name. -/
  recorders : List (String × Nat)
  /-- The number of buffers in use. -/
  buffersUsed : Nat
  buffers : Buffers
  /-- The subscriptions whose listeners have been handed back. -/
  detached : List Subscription

namespace Session

/-- A channel of a name, without a compiler. -/
def ofChannel (name : String) : Session :=
  ⟨none, .new name, [], 0, .empty, []⟩

/-- A compiler, which has a channel of its own. -/
def ofOptions (options : Options) : Session :=
  { ofChannel options.channel with options := some options }

/-! ### Recorders -/

/-- The buffer of a recorder. -/
def buffer? (session : Session) (name : String) : Option Nat :=
  session.recorders.lookup name

/-- The events recorded under a name. -/
def recorded (session : Session) (name : String) : List Event :=
  ((session.buffer? name).map session.buffers).getD []

/-- The buffer of a recorder, which is made if there is none of that name. -/
def ensureBuffer (session : Session) (name : String) : Nat × Session :=
  match session.buffer? name with
  | some buffer => (buffer, session)
  | none =>
    (session.buffersUsed, { session with
      recorders := (name, session.buffersUsed) :: session.recorders
      buffersUsed := session.buffersUsed + 1 })

/-- A second name for the buffer of a recorder. -/
def share (session : Session) (name other : String) : Session :=
  let (buffer, session) := session.ensureBuffer name
  { session with recorders := (other, buffer) :: session.recorders }

/-- Empties the buffer of a recorder. -/
def clear (session : Session) (name : String) : Session :=
  match session.buffer? name with
  | some buffer => { session with buffers := session.buffers.set buffer [] }
  | none => session

/-- Adds an event to the buffer of a recorder. -/
def record (session : Session) (name : String) (event : Event) : Session :=
  let (buffer, session) := session.ensureBuffer name
  { session with buffers := session.buffers.record buffer event }

/-! ### Listeners -/

/-- Attaches a listener. -/
def subscribe (session : Session) (attachment : Attachment) : ListenerId × Session :=
  let (listener, session) : Listener × Session := match attachment with
    | .recorder name =>
      let (buffer, session) := session.ensureBuffer name
      (.recorder buffer, session)
    | .callback name => (.callback name, session)
    | .log => (.log, session)
  let (id, channel) := session.channel.subscribe listener
  (id, { session with channel })

/-- Detaches a listener, and says whether it was attached. -/
def unsubscribe (session : Session) (id : ListenerId) : Bool × Session :=
  let (listener, channel) := session.channel.unsubscribe id
  match listener with
  | some listener =>
    (true, { session with channel, detached := ⟨id, listener⟩ :: session.detached })
  | none => (false, { session with channel })

/-! ### Events -/

/-- Hands an event to a list of listeners. -/
def deliver (session : Session) (listeners : List Listener) (event : Event) :
    List Delivery × Session :=
  (listeners.flatMap (·.deliver event),
    { session with
      buffers := listeners.foldl (fun buffers listener => listener.recordIn event buffers)
        session.buffers })

/-- Emits events on the channel. -/
def emitAll (session : Session) : List Event → List Delivery × Session
  | [] => ([], session)
  | event :: rest =>
    let (first, session) := session.deliver session.channel.listeners event
    let (others, session) := session.emitAll rest
    (first ++ others, session)

/-- Emits what a compilation finds. -/
def emitFindings (session : Session) (findings : List Finding) : List Delivery × Session :=
  session.emitAll (findings.map (·.toEvent session.channel.name))

end Session

/-- What a user does with a session. -/
inductive Action where
  | subscribe (attachment : Attachment)
  | unsubscribe (id : ListenerId)
  /-- Hands an event to a listener that has been handed back. -/
  | redeliver (id : ListenerId) (event : Event)
  | emit (level : Level) (message : String) (position : Option Position)
  | describe
  /-- Compiles a source, and says why it fails. -/
  | compile (source : Source)
  /-- Compiles a source, without a word on why it fails. -/
  | tryCompile (source : Source)
  | options
  | events (recorder : String)
  | count (recorder : String) (level : Level)
  | atLeast (recorder : String) (level : Level)
  | clear (recorder : String)
  | share (recorder other : String)
  | record (recorder : String) (event : Event)

/-- What a session answers. -/
inductive Answer where
  | done
  | subscribed (id : ListenerId)
  | found (attached : Bool)
  | delivered (deliveries : List Delivery)
  | notDetached
  | channel (name : String) (listeners : Nat) (description : String)
  | compiled (deliveries : List Delivery) (result : Except CompileError Script)
  | tried (deliveries : List Delivery) (script : Option Script)
  | options (options : Options)
  | events (events : List Event)
  | count (n : Nat)
  /-- There is no compiler. -/
  | noCompiler

namespace Session

/-- Does what a user asks for. -/
def act (session : Session) : Action → Answer × Session
  | .subscribe attachment =>
    let (id, session) := session.subscribe attachment
    (.subscribed id, session)
  | .unsubscribe id =>
    let (found, session) := session.unsubscribe id
    (.found found, session)
  | .redeliver id event =>
    match session.detached.find? (·.id = id) with
    | some subscription =>
      let (deliveries, session) := session.deliver [subscription.listener] event
      (.delivered deliveries, session)
    | none => (.notDetached, session)
  | .emit level message position =>
    let (deliveries, session) := session.emitAll [⟨session.channel.name, level, message, position⟩]
    (.delivered deliveries, session)
  | .describe =>
    (.channel session.channel.name session.channel.subscriptions.length
      session.channel.description, session)
  | .compile source =>
    match session.options with
    | some options =>
      let compilation := DialogueScript.compile options.formatVersion source
      let (deliveries, session) := session.emitFindings compilation.findings
      (.compiled deliveries compilation.result, session)
    | none => (.noCompiler, session)
  | .tryCompile source =>
    match session.options with
    | some options =>
      let step := DialogueScript.tryCompile options.formatVersion source
      let (deliveries, session) := session.emitFindings step.findings
      (.tried deliveries step.value, session)
    | none => (.noCompiler, session)
  | .options =>
    match session.options with
    | some options => (.options options, session)
    | none => (.noCompiler, session)
  | .events recorder => (.events (session.recorded recorder), session)
  | .count recorder level =>
    (.count ((session.recorded recorder).countP (·.level = level)), session)
  | .atLeast recorder level =>
    (.events ((session.recorded recorder).filter (level ≤ ·.level)), session)
  | .clear recorder => (.done, session.clear recorder)
  | .share recorder other => (.done, session.share recorder other)
  | .record recorder event => (.done, session.record recorder event)

/-- Does a list of things one behind another. -/
def run (session : Session) : List Action → List Answer × Session
  | [] => ([], session)
  | action :: rest =>
    let (answer, session) := session.act action
    let (answers, session) := session.run rest
    (answer :: answers, session)

end Session

end DialogueScript
