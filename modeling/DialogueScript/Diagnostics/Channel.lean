import DialogueScript.Diagnostics.Event
import DialogueScript.Text.Quoted

/-!
# Channels and their listeners

A `Channel` has a name and listeners in the order in which they subscribed. Subscribing gives a
`ListenerId` that no other subscription of the channel gets, also after its listener is gone, and
unsubscribing takes a listener off the channel and hands it back.

There are three kinds of listeners. A recorder writes events into a buffer, which it may share with
other recorders; a callback and the program's log pass events on.
-/

set_option autoImplicit false
set_option relaxedAutoImplicit false

namespace DialogueScript

/-- What an event goes to. -/
inductive Listener where
  /-- A recorder that writes into a buffer. -/
  | recorder (buffer : Nat)
  /-- A callback with a name. -/
  | callback (name : String)
  /-- The log of the program. -/
  | log
deriving DecidableEq, Repr

/-- The handle of a subscription. -/
structure ListenerId where
  index : Nat
deriving DecidableEq, Repr

instance : ToString ListenerId where
  toString id := "ListenerId(" ++ Decimal.ofNat id.index ++ ")"

/-- A subscription that is in force. -/
structure Subscription where
  id : ListenerId
  listener : Listener
deriving DecidableEq, Repr

/-- A named channel with the subscriptions that are in force, in their order, and the number of all
that there have been. -/
structure Channel where
  name : String
  subscriptions : List Subscription
  issued : Nat
deriving DecidableEq, Repr

namespace Channel

/-- A channel that nobody listens to yet. -/
def new (name : String) : Channel := ⟨name, [], 0⟩

/-- The listeners of a channel. -/
def listeners (channel : Channel) : List Listener :=
  channel.subscriptions.map Subscription.listener

/-- Attaches a listener behind all others. -/
def subscribe (channel : Channel) (listener : Listener) : ListenerId × Channel :=
  let id := ⟨channel.issued⟩
  (id, { channel with
    subscriptions := channel.subscriptions ++ [⟨id, listener⟩]
    issued := channel.issued + 1 })

/-- Detaches a listener and hands it back. -/
def unsubscribe (channel : Channel) (id : ListenerId) : Option Listener × Channel :=
  ((channel.subscriptions.find? (·.id = id)).map Subscription.listener,
    { channel with subscriptions := channel.subscriptions.eraseP (·.id = id) })

/-- A channel as it is shown to a programmer. -/
def description (channel : Channel) : String :=
  "Diagnostics \x7b channel: " ++ Text.quote ['"'] channel.name ++ ", listeners: " ++
    Decimal.ofNat channel.subscriptions.length ++ " \x7d"

end Channel

/-- An event that leaves the program's own recorders: it reaches a callback or the log. -/
inductive Delivery where
  | callback (name : String) (event : Event)
  | log (record : LogRecord)
deriving DecidableEq, Repr

/-- Buffers of recorded events, by number. -/
abbrev Buffers := Nat → List Event

namespace Buffers

/-- No buffer holds an event. -/
def empty : Buffers := fun _ => []

/-- The buffers with one of them replaced. -/
def set (buffers : Buffers) (buffer : Nat) (events : List Event) : Buffers :=
  fun n => if n = buffer then events else buffers n

/-- The buffers with an event added to one of them. -/
def record (buffers : Buffers) (buffer : Nat) (event : Event) : Buffers :=
  buffers.set buffer (buffers buffer ++ [event])

end Buffers

namespace Listener

/-- The buffers after an event has reached a listener. -/
def recordIn (listener : Listener) (event : Event) (buffers : Buffers) : Buffers :=
  match listener with
  | recorder buffer => buffers.record buffer event
  | _ => buffers

/-- What leaves when an event reaches a listener. -/
def deliver (listener : Listener) (event : Event) : List Delivery :=
  match listener with
  | recorder _ => []
  | callback name => [.callback name event]
  | log => [.log event.toLogRecord]

end Listener

end DialogueScript
