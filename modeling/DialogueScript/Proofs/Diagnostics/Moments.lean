import DialogueScript.Proofs.Diagnostics.Emission
import Mathlib.Data.List.DropRight

/-!
# The history of a run

A run is a list of actions, done one behind another on one session. Its history keeps every action
with the answer to it and the sessions around it (`Session.moments`).

Recorders write into event logs, which users know by names. Which names stand for one log is told
by the actions alone (`logsOf`): a name that is used for the first time gets a log of its own, and
sharing gives a log a second name, which is a clone of it.

What happens in a run can be told from its history. `attached` are the subscriptions that were made
and not unsubscribed later, in the order in which they were made, and an id is in force (`InForce`)
if it was handed out and not unsubscribed since. At every moment a log hears some events
(`Moment.heard`): those that are emitted, once for every clone of the log that is attached, and
those that are handed to a clone directly. Compilations emit what a fresh compiler emits
(`Options.emitted`).

One action does one of three things to the listeners (`ListenersStep`), the recorders of a session
keep to the logs (`Session.Names.act`), and a buffer gains what its log hears (`buffers_act`).
-/

set_option autoImplicit false
set_option relaxedAutoImplicit false

namespace DialogueScript

/-! ### Names of event logs -/

/-- The event logs of a run, numbered in the order in which they are made, and the names that stand
for them. The names of one log are clones of it. -/
structure Logs where
  made : Nat
  named : String → Option Nat

namespace Logs

/-- No log has been made. -/
def empty : Logs := ⟨0, fun _ ↦ none⟩

/-- A name is used. If it stands for no log, a log is made for it alone. -/
def use (logs : Logs) (name : String) : Logs :=
  if (logs.named name).isSome then logs
  else ⟨logs.made + 1, Function.update logs.named name (some logs.made)⟩

/-- The log of a name gets a second name, which does not stand for any other log. -/
def share (logs : Logs) (name other : String) : Logs :=
  ⟨(logs.use name).made, Function.update (logs.use name).named other ((logs.use name).named name)⟩

/-- The logs after an action. -/
def step (logs : Logs) : Action → Logs
  | .subscribe (.recorder name) => logs.use name
  | .record name _ => logs.use name
  | .share name other => logs.share name other
  | _ => logs

/-- The names stand for logs that have been made. -/
def Bounded (logs : Logs) : Prop :=
  ∀ name log, logs.named name = some log → log < logs.made

theorem Bounded.use {logs : Logs} (h : logs.Bounded) (name : String) : (logs.use name).Bounded := by
  unfold Logs.use
  split
  · exact h
  · intro other log hlog
    by_cases hother : other = name
    · subst hother
      obtain rfl : logs.made = log := by simpa using hlog
      exact Nat.lt_succ_self _
    · exact Nat.lt_succ_of_lt (h other log (by simpa [hother] using hlog))

theorem Bounded.step {logs : Logs} (h : logs.Bounded) (action : Action) :
    (logs.step action).Bounded := by
  unfold Logs.step
  split
  · exact h.use _
  · exact h.use _
  · next name other =>
    intro third log hlog
    by_cases hthird : third = other
    · exact h.use name name log (by simpa [share, hthird] using hlog)
    · exact h.use name third log (by simpa [share, hthird] using hlog)
  · exact h

/-- Assumes: a name stands for no log. When it is used, it stands for a log of its own. -/
theorem Bounded.named_use_ne {logs : Logs} (h : logs.Bounded) {name : String}
    (hnone : logs.named name = none) {other : String} (hother : other ≠ name) :
    (logs.use name).named other ≠ (logs.use name).named name := by
  rw [Logs.use, if_neg (by simp [hnone])]
  simp only [Function.update_self, Function.update_of_ne hother]
  exact fun hlog ↦ absurd (h other _ hlog) (Nat.lt_irrefl _)

end Logs

/-- The logs that actions make one behind another. -/
def logsOf (actions : List Action) : Logs :=
  actions.foldl Logs.step .empty

theorem logsOf_concat (actions : List Action) (action : Action) :
    logsOf (actions ++ [action]) = (logsOf actions).step action :=
  List.foldl_append

theorem bounded_logsOf (actions : List Action) : (logsOf actions).Bounded := by
  induction actions using List.reverseRecOn with
  | nil => exact fun _ _ hlog ↦ nomatch hlog
  | append_singleton earlier action ih =>
    rw [logsOf_concat]
    exact ih.step action

/-- A second name stands for the same log, and a name that is new for another one. -/
example :
    let logs := logsOf [.subscribe (.recorder "a"), .share "a" "b", .subscribe (.recorder "c")]
    [logs.named "a", logs.named "b", logs.named "c"] = [some 0, some 0, some 1] := by
  decide

/-! ### Runs and their histories -/

/-- An action of a run, with the session and the logs before it, the answer to it and the session
after it. -/
structure Moment where
  before : Session
  logs : Logs
  action : Action
  answer : Answer
  after : Session

namespace Session

/-- The moment at which an action is done. -/
def moment (session : Session) (logs : Logs) (action : Action) : Moment :=
  ⟨session, logs, action, (session.act action).1, (session.act action).2⟩

/-- The history of actions behind those that have made the logs. -/
def momentsFrom (logs : Logs) (session : Session) : List Action → List Moment
  | [] => []
  | action :: rest =>
    session.moment logs action :: (session.act action).2.momentsFrom (logs.step action) rest

/-- The history of a run. -/
def moments (session : Session) (actions : List Action) : List Moment :=
  session.momentsFrom .empty actions

/-- The answers of a run are those in its history. -/
theorem answers_momentsFrom (logs : Logs) (session : Session) (actions : List Action) :
    (session.momentsFrom logs actions).map Moment.answer = (session.run actions).1 := by
  induction actions generalizing logs session with
  | nil => rfl
  | cons action rest ih => exact congrArg ((session.act action).1 :: ·) (ih _ _)

theorem actions_momentsFrom (logs : Logs) (session : Session) (actions : List Action) :
    (session.momentsFrom logs actions).map Moment.action = actions := by
  induction actions generalizing logs session with
  | nil => rfl
  | cons action rest ih => exact congrArg (action :: ·) (ih _ _)

theorem run_append (session : Session) (first second : List Action) :
    (session.run (first ++ second)).2 = ((session.run first).2.run second).2 := by
  induction first generalizing session with
  | nil => rfl
  | cons action rest ih => exact ih (session.act action).2

theorem momentsFrom_append (logs : Logs) (session : Session) (first second : List Action) :
    session.momentsFrom logs (first ++ second) =
      session.momentsFrom logs first ++
        (session.run first).2.momentsFrom (first.foldl Logs.step logs) second := by
  induction first generalizing logs session with
  | nil => rfl
  | cons action rest ih =>
    rw [List.cons_append, momentsFrom, ih]
    rfl

theorem run_concat (session : Session) (actions : List Action) (action : Action) :
    (session.run (actions ++ [action])).2 = ((session.run actions).2.act action).2 :=
  run_append session actions [action]

theorem moments_concat (session : Session) (actions : List Action) (action : Action) :
    session.moments (actions ++ [action]) =
      session.moments actions ++ [(session.run actions).2.moment (logsOf actions) action] :=
  momentsFrom_append .empty session actions [action]

/-- Assumes: a history is cut at a moment. What stands in front of it is the history of the actions
in front of its own, and they lead to the session and to the logs before it. -/
theorem exists_of_momentsFrom_eq_append {logs : Logs} {session : Session} {actions : List Action}
    {past later : List Moment} {now : Moment}
    (h : session.momentsFrom logs actions = past ++ now :: later) :
    ∃ first, past = session.momentsFrom logs first ∧
      now = (session.run first).2.moment (first.foldl Logs.step logs) now.action := by
  induction actions generalizing logs session past with
  | nil => exact absurd h (by simp [momentsFrom])
  | cons action rest ih =>
    cases past with
    | nil =>
      obtain ⟨rfl, -⟩ := List.cons.inj h
      exact ⟨[], rfl, rfl⟩
    | cons other earlier =>
      obtain ⟨rfl, hrest⟩ := List.cons.inj h
      obtain ⟨first, rfl, hnow⟩ := ih hrest
      exact ⟨action :: first, rfl, hnow⟩

theorem exists_of_moments_eq_append {session : Session} {actions : List Action}
    {past later : List Moment} {now : Moment}
    (h : session.moments actions = past ++ now :: later) :
    ∃ first, past = session.moments first ∧
      now = (session.run first).2.moment (logsOf first) now.action :=
  exists_of_momentsFrom_eq_append h

end Session

/-- What an attachment is attached as. A recorder is attached as a clone of its log. -/
def Logs.listener? (logs : Logs) : Attachment → Option Listener
  | .recorder name => (logs.named name).map .recorder
  | .callback name => some (.callback name)
  | .log => some .log

/-! ### What a history tells -/

/-- The action attaches a listener. -/
def Action.isSubscribe : Action → Bool
  | .subscribe _ => true
  | _ => false

/-- The action is neither about attaching and detaching listeners nor about names of recorders. -/
def Action.isPlain : Action → Bool
  | .subscribe _ | .unsubscribe _ | .share _ _ | .record _ _ => false
  | _ => true

/-- The events that a fresh compiler emits when it is asked to do something. -/
def Options.emitted (options : Options) (action : Action) : List Event :=
  ((Session.recording options "log").act action).2.recorded "log"

namespace Moment

/-- The id that is handed out. -/
def issued? (moment : Moment) : Option ListenerId :=
  match moment.answer with
  | .subscribed id => some id
  | _ => none

/-- The subscription that is made. -/
def subscription? (moment : Moment) : Option Subscription :=
  match moment.action, moment.answer with
  | .subscribe attachment, .subscribed id =>
    ((moment.logs.step moment.action).listener? attachment).map (⟨id, ·⟩)
  | _, _ => none

/-- An id is unsubscribed, whether it is in force or not. -/
def unsubscribes (moment : Moment) (id : ListenerId) : Bool :=
  match moment.action with
  | .unsubscribe other => other = id
  | _ => false

/-- A log is cleared. -/
def clears (moment : Moment) (log : Nat) : Bool :=
  match moment.action with
  | .clear name => moment.logs.named name = some log
  | _ => false

/-- The events that are emitted on the channel. -/
def emitted (moment : Moment) : List Event :=
  match moment.action with
  | .emit level message position => [⟨moment.before.channel.name, level, message, position⟩]
  | .compile source => moment.before.options.toList.flatMap (·.emitted (.compile source))
  | .tryCompile source => moment.before.options.toList.flatMap (·.emitted (.tryCompile source))
  | _ => []

/-- What leaves while the events of the moment are emitted: each reaches all listeners. -/
def deliveries (moment : Moment) : List Delivery :=
  moment.emitted.flatMap fun event ↦ moment.before.channel.listeners.flatMap (·.deliver event)

/-- The events that reach a log: those that are emitted, each once for every clone of the log that
is attached, and those that are handed to a clone past the channel. -/
def heard (moment : Moment) (log : Nat) : List Event :=
  match moment.action with
  | .record name event =>
    if (moment.logs.step moment.action).named name = some log then [event] else []
  | .redeliver id event =>
    if ⟨id, .recorder log⟩ ∈ moment.before.detached then [event] else []
  | _ => moment.emitted.flatMap
      (List.replicate (moment.before.channel.listeners.count (.recorder log)))

end Moment

/-- The ids that are handed out. -/
def issued (history : List Moment) : List ListenerId :=
  history.filterMap Moment.issued?

/-- The subscriptions that are made. -/
def subscribed (history : List Moment) : List Subscription :=
  history.filterMap Moment.subscription?

/-- The subscriptions that are made and not unsubscribed later, in the order in which they are
made. -/
def attached : List Moment → List Subscription
  | [] => []
  | moment :: later =>
    moment.subscription?.toList.filter
      (fun subscription ↦ later.all fun other ↦ !other.unsubscribes subscription.id) ++
        attached later

/-- What a log holds after a history: what it has heard since it was cleared. -/
def heardSince (history : List Moment) (log : Nat) : List Event :=
  (history.rtakeWhile fun moment ↦ !moment.clears log).flatMap (·.heard log)

/-- What the recorders of a name show after a history, if names stand for given logs. -/
def shown (history : List Moment) (logs : Logs) (name : String) : List Event :=
  ((logs.named name).map (heardSince history)).getD []

/-- An id has been handed out and has not been unsubscribed since. -/
def InForce (history : List Moment) (id : ListenerId) : Prop :=
  ∃ past made since, history = past ++ made :: since ∧ made.issued? = some id ∧
    ∀ moment ∈ since, moment.unsubscribes id = false

/-- A moment adds its subscription behind those that it leaves in force. -/
theorem attached_concat (history : List Moment) (moment : Moment) :
    attached (history ++ [moment]) =
      (attached history).filter (fun subscription ↦ !moment.unsubscribes subscription.id) ++
        moment.subscription?.toList := by
  induction history with
  | nil => simp [attached]
  | cons first rest ih =>
    rw [List.cons_append, attached, attached, ih, List.filter_append, List.filter_filter,
      ← List.append_assoc]
    congr 2
    refine List.filter_congr fun subscription _ ↦ ?_
    rw [List.all_append, Bool.and_comm]
    simp

theorem mem_attached_iff {history : List Moment} {subscription : Subscription} :
    subscription ∈ attached history ↔ ∃ past made since, history = past ++ made :: since ∧
      made.subscription? = some subscription ∧
        ∀ moment ∈ since, moment.unsubscribes subscription.id = false := by
  induction history with
  | nil => simp [attached]
  | cons first rest ih =>
    rw [attached, List.mem_append, List.mem_filter, Option.mem_toList, ih]
    constructor
    · rintro (⟨hmade, hkept⟩ | ⟨past, made, since, rfl, hmade, hkept⟩)
      · exact ⟨[], first, rest, rfl, hmade, by simpa using hkept⟩
      · exact ⟨first :: past, made, since, rfl, hmade, hkept⟩
    · rintro ⟨past, made, since, hhistory, hmade, hkept⟩
      cases past with
      | nil =>
        obtain ⟨rfl, rfl⟩ := List.cons.inj hhistory
        exact Or.inl ⟨hmade, by simpa using hkept⟩
      | cons other earlier =>
        obtain ⟨-, hrest⟩ := List.cons.inj hhistory
        exact Or.inr ⟨earlier, made, since, hrest, hmade, hkept⟩

/-! ### What one action does -/

namespace Session

variable {session : Session} {logs : Logs}

/-- The recorders of a session keep to the logs: each name has the buffer of its log. -/
structure Names (session : Session) (logs : Logs) : Prop where
  named : ∀ name, session.buffer? name = logs.named name
  made : session.buffersUsed = logs.made

@[simp] theorem channel_ensureBuffer (session : Session) (name : String) :
    (session.ensureBuffer name).2.channel = session.channel := by
  unfold ensureBuffer
  split <;> rfl

@[simp] theorem detached_ensureBuffer (session : Session) (name : String) :
    (session.ensureBuffer name).2.detached = session.detached := by
  unfold ensureBuffer
  split <;> rfl

@[simp] theorem buffers_ensureBuffer (session : Session) (name : String) :
    (session.ensureBuffer name).2.buffers = session.buffers := by
  unfold ensureBuffer
  split <;> rfl

@[simp] theorem options_ensureBuffer (session : Session) (name : String) :
    (session.ensureBuffer name).2.options = session.options := by
  unfold ensureBuffer
  split <;> rfl

theorem buffer?_ensureBuffer (session : Session) (name : String) :
    (session.ensureBuffer name).2.buffer? name = some (session.ensureBuffer name).1 := by
  unfold ensureBuffer
  split
  · assumption
  · exact List.lookup_cons_self

/-- A buffer is added to the recorders under a name. -/
theorem lookup_cons (name other : String) (buffer : Nat) (recorders : List (String × Nat)) :
    ((name, buffer) :: recorders).lookup other =
      Function.update (recorders.lookup ·) name (some buffer) other := by
  by_cases h : other = name
  · simp [h]
  · rw [Function.update_of_ne h, List.lookup_cons, beq_false_of_ne h]

theorem Names.ensureBuffer (h : session.Names logs) (name : String) :
    (session.ensureBuffer name).2.Names (logs.use name) := by
  have hname := h.named name
  unfold Session.ensureBuffer Logs.use
  cases hbuffer : session.buffer? name with
  | some buffer =>
    rw [← hname, hbuffer]
    exact h
  | none =>
    rw [← hname, hbuffer, if_neg (by simp)]
    refine ⟨fun other ↦ ?_, congrArg (· + 1) h.made⟩
    change ((name, session.buffersUsed) :: session.recorders).lookup other = _
    rw [lookup_cons, h.made]
    exact congrFun (congrArg (Function.update · name (some logs.made)) (funext h.named)) other

theorem Names.share (h : session.Names logs) (name other : String) :
    (session.share name other).Names (logs.share name other) := by
  have huse := h.ensureBuffer name
  refine ⟨fun third ↦ ?_, huse.made⟩
  change ((other, (session.ensureBuffer name).1) :: (session.ensureBuffer name).2.recorders).lookup
    third = _
  rw [lookup_cons, ← buffer?_ensureBuffer, Logs.share, ← huse.named name]
  exact congrFun (congrArg (Function.update · other _) (funext huse.named)) third

/-- The buffer of a recorder that is used is the one of its log. -/
theorem Names.named_use (h : session.Names logs) (name : String) :
    (logs.use name).named name = some (session.ensureBuffer name).1 := by
  rw [← (h.ensureBuffer name).named, buffer?_ensureBuffer]

/-- Assumes: the recorders of a session keep to the logs. An attachment is attached as a listener,
and the buffers stay as they are. -/
theorem exists_subscribe (h : session.Names logs) (attachment : Attachment) :
    ∃ listener, (logs.step (.subscribe attachment)).listener? attachment = some listener ∧
      (session.subscribe attachment).1 = (session.channel.subscribe listener).1 ∧
      (session.subscribe attachment).2.channel = (session.channel.subscribe listener).2 ∧
      (session.subscribe attachment).2.detached = session.detached ∧
      (session.subscribe attachment).2.buffers = session.buffers := by
  cases attachment with
  | callback name => exact ⟨.callback name, rfl, rfl, rfl, rfl, rfl⟩
  | log => exact ⟨.log, rfl, rfl, rfl, rfl, rfl⟩
  | recorder name =>
    refine ⟨.recorder (session.ensureBuffer name).1, ?_, ?_, ?_, ?_, ?_⟩
    · exact congrArg (Option.map Listener.recorder) (h.named_use name)
    · simp [subscribe]
    · simp [subscribe]
    · simp [subscribe]
    · simp [subscribe]

theorem unsubscribe_eq (session : Session) (id : ListenerId) :
    (session.unsubscribe id).2 = { session with
      channel := (session.channel.unsubscribe id).2
      detached := ((session.channel.unsubscribe id).1.map (Subscription.mk id)).toList ++
        session.detached } := by
  unfold unsubscribe
  dsimp only
  split
  · next hsome => rw [hsome]; rfl
  · next hnone => rw [hnone]; rfl

/-- What is neither about attaching and detaching listeners nor about names of recorders, compiling
among it, changes nothing but buffers. -/
theorem act_eq_of_isPlain (session : Session) {action : Action} (h : action.isPlain = true) :
    (session.act action).2 = { session with buffers := (session.act action).2.buffers } := by
  cases action with
  | subscribe attachment => exact absurd h (by simp [Action.isPlain])
  | unsubscribe id => exact absurd h (by simp [Action.isPlain])
  | share name other => exact absurd h (by simp [Action.isPlain])
  | record name event => exact absurd h (by simp [Action.isPlain])
  | redeliver id event =>
    simp only [act]
    split <;> rfl
  | emit level message position =>
    exact emitAll_eq session [⟨session.channel.name, level, message, position⟩]
  | compile source =>
    simp only [act]
    split
    · exact emitAll_eq session _
    · rfl
  | tryCompile source =>
    simp only [act]
    split
    · exact emitAll_eq session _
    · rfl
  | options =>
    simp only [act]
    split <;> rfl
  | clear name =>
    simp only [act, clear]
    split <;> rfl
  | _ => rfl

theorem listeners_act_of_isPlain (session : Session) {action : Action}
    (h : action.isPlain = true) :
    (session.act action).2.channel = session.channel ∧
      (session.act action).2.detached = session.detached := by
  rw [act_eq_of_isPlain session h]
  exact ⟨rfl, rfl⟩

theorem options_act (session : Session) (action : Action) :
    (session.act action).2.options = session.options := by
  cases action with
  | subscribe attachment =>
    cases attachment with
    | recorder name => exact options_ensureBuffer session name
    | _ => rfl
  | unsubscribe id =>
    change (session.unsubscribe id).2.options = session.options
    rw [unsubscribe_eq]
  | share name other => exact options_ensureBuffer session name
  | record name event => exact options_ensureBuffer session name
  | _ => rw [act_eq_of_isPlain session rfl]

/-- What one action does to the names of recorders it does to the logs. -/
theorem Names.act (h : session.Names logs) (action : Action) :
    (session.act action).2.Names (logs.step action) := by
  cases action with
  | subscribe attachment =>
    cases attachment with
    | recorder name => exact ⟨(h.ensureBuffer name).named, (h.ensureBuffer name).made⟩
    | _ => exact ⟨h.named, h.made⟩
  | unsubscribe id =>
    change (session.unsubscribe id).2.Names logs
    rw [unsubscribe_eq]
    exact ⟨h.named, h.made⟩
  | share name other => exact h.share name other
  | record name event => exact ⟨(h.ensureBuffer name).named, (h.ensureBuffer name).made⟩
  | _ =>
    rw [act_eq_of_isPlain session rfl]
    exact ⟨h.named, h.made⟩

/-- A session is in its first state: nobody has subscribed, no recorder has a name, and no buffer
holds an event. If there is a compiler, the channel is its own. -/
structure IsFresh (session : Session) : Prop where
  subscriptions : session.channel.subscriptions = []
  detached : session.detached = []
  issued : session.channel.issued = 0
  names : session.Names .empty
  buffers : session.buffers = Buffers.empty
  name : ∀ options ∈ session.options, session.channel.name = options.channel

theorem isFresh_ofChannel (name : String) : (ofChannel name).IsFresh :=
  ⟨rfl, rfl, rfl, ⟨fun _ ↦ rfl, rfl⟩, rfl, nofun⟩

theorem isFresh_ofOptions (options : Options) : (ofOptions options).IsFresh := by
  refine ⟨rfl, rfl, rfl, ⟨fun _ ↦ rfl, rfl⟩, rfl, fun other hother ↦ ?_⟩
  obtain rfl := Option.some.inj hother
  rfl

end Session

/-! ### What one action does to the listeners -/

/-- What happens to the listeners of a channel at a moment. -/
inductive ListenersStep (moment : Moment) : Prop
  /-- A listener is attached under the next id. -/
  | subscribed (listener : Listener) (hkind : moment.action.isSubscribe = true)
      (hissued : moment.issued? = some ⟨moment.before.channel.issued⟩)
      (hmade : moment.subscription? = some ⟨⟨moment.before.channel.issued⟩, listener⟩)
      (hkept : ∀ id, moment.unsubscribes id = false)
      (hchannel : moment.after.channel = (moment.before.channel.subscribe listener).2)
      (hdetached : moment.after.detached = moment.before.detached)
  /-- An id is unsubscribed. -/
  | unsubscribed (id : ListenerId) (hkind : moment.action.isSubscribe = false)
      (hissued : moment.issued? = none) (hmade : moment.subscription? = none)
      (hkept : ∀ other, moment.unsubscribes other = decide (id = other))
      (hchannel : moment.after.channel = (moment.before.channel.unsubscribe id).2)
      (hdetached : moment.after.detached =
        ((moment.before.channel.unsubscribe id).1.map (Subscription.mk id)).toList ++
          moment.before.detached)
  /-- Nothing happens. -/
  | unchanged (hkind : moment.action.isSubscribe = false) (hissued : moment.issued? = none)
      (hmade : moment.subscription? = none) (hkept : ∀ id, moment.unsubscribes id = false)
      (hchannel : moment.after.channel = moment.before.channel)
      (hdetached : moment.after.detached = moment.before.detached)

/-- Only subscribing hands out an id. -/
theorem issued?_eq_none (session : Session) (logs : Logs) {action : Action}
    (hsubscribe : action.isSubscribe = false) : (session.moment logs action).issued? = none := by
  cases action with
  | subscribe attachment => exact absurd hsubscribe (by simp [Action.isSubscribe])
  | redeliver id event =>
    simp only [Moment.issued?, Session.moment, Session.act]
    cases session.detached.find? (·.id = id) <;> rfl
  | compile source =>
    simp only [Moment.issued?, Session.moment, Session.act]
    cases session.options <;> rfl
  | tryCompile source =>
    simp only [Moment.issued?, Session.moment, Session.act]
    cases session.options <;> rfl
  | options =>
    simp only [Moment.issued?, Session.moment, Session.act]
    cases session.options <;> rfl
  | _ => rfl

theorem listenersStep {session : Session} {logs : Logs} (h : session.Names logs)
    (action : Action) : ListenersStep (session.moment logs action) := by
  cases action with
  | subscribe attachment =>
    obtain ⟨listener, hlistener, hid, hchannel, hdetached, -⟩ :=
      Session.exists_subscribe h attachment
    have hid' : (session.subscribe attachment).1 = ⟨session.channel.issued⟩ := hid
    have hissued : (session.moment logs (.subscribe attachment)).issued? =
        some ⟨session.channel.issued⟩ := congrArg some hid'
    have hmade : (session.moment logs (.subscribe attachment)).subscription? =
        some ⟨⟨session.channel.issued⟩, listener⟩ := by
      change ((logs.step (.subscribe attachment)).listener? attachment).map
        (Subscription.mk (session.subscribe attachment).1) = _
      rw [hlistener, hid']
      rfl
    exact .subscribed listener rfl hissued hmade (fun _ ↦ rfl) hchannel hdetached
  | unsubscribe id =>
    have hafter := Session.unsubscribe_eq session id
    exact .unsubscribed id rfl rfl rfl (fun _ ↦ rfl) (congrArg Session.channel hafter)
      (congrArg Session.detached hafter)
  | share name other =>
    exact .unchanged rfl rfl rfl (fun _ ↦ rfl) (Session.channel_ensureBuffer session name)
      (Session.detached_ensureBuffer session name)
  | record name event =>
    exact .unchanged rfl rfl rfl (fun _ ↦ rfl) (Session.channel_ensureBuffer session name)
      (Session.detached_ensureBuffer session name)
  | _ =>
    exact .unchanged rfl (issued?_eq_none session logs rfl) rfl (fun _ ↦ rfl)
      (Session.listeners_act_of_isPlain session rfl).1
      (Session.listeners_act_of_isPlain session rfl).2

/-! ### What one action does to a buffer -/

/-- What is done where a log is cleared is not heard. -/
theorem heard_of_clears {moment : Moment} {log : Nat} (h : moment.clears log = true) :
    moment.heard log = [] := by
  obtain ⟨before, logs, action, answer, after⟩ := moment
  cases action <;> first | rfl | exact absurd h (by simp [Moment.clears])

theorem emitted_compile (options : Options) (source : Source) :
    options.emitted (.compile source) =
      (compile options.formatVersion source).findings.map (·.toEvent options.channel) := by
  rw [Options.emitted, Session.act_compile_recording, Session.recorded_emitAll_recording]

theorem emitted_tryCompile (options : Options) (source : Source) :
    options.emitted (.tryCompile source) =
      (tryCompile options.formatVersion source).findings.map (·.toEvent options.channel) := by
  rw [Options.emitted, Session.act_tryCompile_recording, Session.recorded_emitAll_recording]

theorem buffers_clear (session : Session) (name : String) (buffer : Nat) :
    (session.clear name).buffers buffer =
      if session.buffer? name = some buffer then [] else session.buffers buffer := by
  unfold Session.clear
  split
  · next other hother =>
    by_cases hsame : buffer = other
    · subst hsame
      simp [hother, Buffers.set]
    · simp [hother, Buffers.set, hsame, Ne.symm hsame]
  · next hnone => simp [hnone]

/-- Assumes: no two listeners have been handed back under one id. The one that is found under an id
is the one that has been handed back under it. -/
theorem mem_iff_find?_eq_some {detached : List Subscription} {id : ListenerId}
    {listener : Listener} (h : (detached.map Subscription.id).Nodup) :
    ⟨id, listener⟩ ∈ detached ↔ detached.find? (·.id = id) = some ⟨id, listener⟩ := by
  constructor
  · intro hmem
    induction detached with
    | nil => exact absurd hmem List.not_mem_nil
    | cons first rest ih =>
      obtain ⟨hfirst, hrest⟩ := List.nodup_cons.mp h
      rcases List.mem_cons.mp hmem with rfl | hmem
      · simp
      · have hid : first.id ≠ id := by
          rintro rfl
          exact hfirst (List.mem_map.mpr ⟨_, hmem, rfl⟩)
        simpa [hid] using ih hrest hmem
  · exact List.mem_of_find?_eq_some

/-- Assumes: recorders keep to the logs, no two listeners have been handed back under one id, and if
a session has a compiler, the channel is its own. A buffer gains what its log hears at a moment,
behind what it holds unless the log is cleared. -/
theorem buffers_act {session : Session} {logs : Logs} (hnames : session.Names logs)
    (hdetached : (session.detached.map Subscription.id).Nodup)
    (hname : ∀ options ∈ session.options, session.channel.name = options.channel)
    (action : Action) (log : Nat) :
    (session.act action).2.buffers log =
      (if (session.moment logs action).clears log then [] else session.buffers log) ++
        (session.moment logs action).heard log := by
  cases action with
  | subscribe attachment =>
    obtain ⟨_, -, -, -, -, hbuffers⟩ := Session.exists_subscribe hnames attachment
    change (session.subscribe attachment).2.buffers log = session.buffers log ++ []
    rw [hbuffers, List.append_nil]
  | unsubscribe id =>
    change (session.unsubscribe id).2.buffers log = session.buffers log ++ []
    rw [Session.unsubscribe_eq, List.append_nil]
  | redeliver id event =>
    simp only [Session.moment, Moment.heard, Moment.clears, Session.act,
      mem_iff_find?_eq_some hdetached]
    rcases Option.eq_none_or_eq_some (session.detached.find? (·.id = id)) with
      hnone | ⟨⟨other, listener⟩, hsome⟩
    · simp [hnone]
    · obtain rfl : other = id := by simpa using List.find?_some hsome
      have hdelivered := buffers_deliver session [listener] event log
      by_cases hlistener : listener = .recorder log
      · rw [hlistener, List.count_singleton_self] at hdelivered
        simpa [hsome, hlistener] using hdelivered
      · rw [List.count_eq_zero_of_not_mem (by simpa using Ne.symm hlistener)] at hdelivered
        simpa [hsome, hlistener] using hdelivered
  | emit level message position =>
    exact buffers_emitAll session [⟨session.channel.name, level, message, position⟩] log
  | compile source =>
    simp only [Session.moment, Moment.heard, Moment.clears, Moment.emitted, Session.act]
    cases hoptions : session.options with
    | none => simp
    | some options =>
      rw [Option.toList_some, List.flatMap_singleton, emitted_compile, ← hname options hoptions]
      exact buffers_emitAll session _ log
  | tryCompile source =>
    simp only [Session.moment, Moment.heard, Moment.clears, Moment.emitted, Session.act]
    cases hoptions : session.options with
    | none => simp
    | some options =>
      rw [Option.toList_some, List.flatMap_singleton, emitted_tryCompile, ← hname options hoptions]
      exact buffers_emitAll session _ log
  | options =>
    simp only [Session.moment, Moment.heard, Moment.clears, Moment.emitted, Session.act]
    cases session.options <;> simp
  | clear name =>
    change (session.clear name).buffers log = (if _ then [] else session.buffers log) ++ []
    rw [buffers_clear, List.append_nil, hnames.named]
    exact if_congr decide_eq_true_iff.symm rfl rfl
  | share name other =>
    change (session.ensureBuffer name).2.buffers log = session.buffers log ++ []
    rw [Session.buffers_ensureBuffer, List.append_nil]
  | record name event =>
    have hlog : (logs.step (.record name event)).named name = some (session.ensureBuffer name).1 :=
      hnames.named_use name
    have hbuffers : (session.record name event).buffers = session.buffers.record
        (session.ensureBuffer name).1 event := by
      simp [Session.record]
    simp only [Session.moment, Moment.heard, Moment.clears, Session.act, hlog, hbuffers]
    by_cases hsame : log = (session.ensureBuffer name).1
    · subst hsame
      simp [Buffers.record, Buffers.set]
    · simp [Buffers.record, Buffers.set, hsame, Ne.symm hsame]
  | _ => exact (List.append_nil _).symm

end DialogueScript
