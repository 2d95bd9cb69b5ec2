import DialogueScript.Proofs.Diagnostics.Moments

/-!
# Whole runs of a session

`ToldBy` says that a history tells what a session holds: its ids, its listeners in their order and
those that were handed back, and the events in the buffers of its logs. One action keeps this if its
moment is added to the history (`ToldBy.act`), and so it holds after every run (`toldBy_run`).

`Accounted` states what this means for a user. Ids are never handed out twice. An id is unsubscribed
with success exactly while it is in force, and then its listener alone is handed back. The recorders
of a name show what the log of the name has heard since it was cleared. Compilations answer and emit
what a fresh compiler does, and leave listeners and ids alone. Every run of a channel and of a
compiler is accounted for by its history (`run_accounted`).
-/

set_option autoImplicit false
set_option relaxedAutoImplicit false

namespace DialogueScript

/-! ### Ids -/

/-- The ids of the subscriptions of a channel ascend, and are below the next one. -/
structure Channel.Ordered (channel : Channel) : Prop where
  ascending : channel.subscriptions.Pairwise fun first second ↦ first.id.index < second.id.index
  below : ∀ subscription ∈ channel.subscriptions, subscription.id.index < channel.issued

namespace Channel.Ordered

variable {channel : Channel}

theorem subscribe (h : channel.Ordered) (listener : Listener) :
    (channel.subscribe listener).2.Ordered := by
  refine ⟨List.pairwise_append.mpr ⟨h.ascending, List.pairwise_singleton _ _, ?_⟩, ?_⟩
  · intro subscription hsubscription next hnext
    obtain rfl := List.mem_singleton.mp hnext
    exact h.below subscription hsubscription
  · refine List.forall_mem_append.mpr ⟨fun subscription hsubscription ↦ ?_, ?_⟩
    · exact Nat.lt_succ_of_lt (h.below subscription hsubscription)
    · exact List.forall_mem_singleton.mpr (Nat.lt_succ_self channel.issued)

theorem unsubscribe (h : channel.Ordered) (id : ListenerId) : (channel.unsubscribe id).2.Ordered :=
  ⟨h.ascending.sublist List.eraseP_sublist,
    fun subscription hsubscription ↦ h.below subscription (List.mem_of_mem_eraseP hsubscription)⟩

/-- Unsubscribing an id takes out the one subscription that has it. -/
theorem subscriptions_unsubscribe (h : channel.Ordered) (id : ListenerId) :
    (channel.unsubscribe id).2.subscriptions =
      channel.subscriptions.filter fun subscription ↦ !decide (id = subscription.id) := by
  have hascending := h.ascending
  change channel.subscriptions.eraseP (·.id = id) = _
  generalize channel.subscriptions = subscriptions at hascending
  induction subscriptions with
  | nil => rfl
  | cons first rest ih =>
    obtain ⟨hfirst, hrest⟩ := List.pairwise_cons.mp hascending
    by_cases hid : first.id = id
    · subst hid
      have hothers : ∀ other ∈ rest, (!decide (first.id = other.id)) = true := by
        intro other hother
        have hlt := hfirst other hother
        have hne : first.id ≠ other.id := fun heq ↦ absurd (heq ▸ hlt) (Nat.lt_irrefl _)
        simpa using hne
      simp [List.filter_eq_self.mpr hothers]
    · simp [hid, Ne.symm hid, ih hrest]

end Channel.Ordered

/-! ### What one action keeps -/

/-- A history tells the listeners of a session and those that have been handed back. -/
structure ListenersTold (history : List Moment) (session : Session) : Prop where
  ordered : session.channel.Ordered
  count : session.channel.issued = history.countP (·.action.isSubscribe)
  ids : issued history = (List.range session.channel.issued).map ListenerId.mk
  numbered : issued history = (subscribed history).map Subscription.id
  attached : session.channel.subscriptions = attached history
  subscribed : (session.channel.subscriptions ++ session.detached).Perm (subscribed history)

/-- What a session holds is told by a history and its logs, which lead to it from a session
before. -/
structure ToldBy (first : Session) (history : List Moment) (logs : Logs) (session : Session) :
    Prop where
  options : session.options = first.options
  name : session.channel.name = first.channel.name
  listeners : ListenersTold history session
  names : session.Names logs
  buffers : session.buffers = heardSince history

theorem toldBy_nil {session : Session} (hfresh : session.IsFresh) :
    ToldBy session [] .empty session := by
  refine ⟨rfl, rfl, ⟨⟨?_, ?_⟩, hfresh.issued, ?_, rfl, hfresh.subscriptions, ?_⟩, hfresh.names, ?_⟩
  · rw [hfresh.subscriptions]
    exact List.Pairwise.nil
  · rw [hfresh.subscriptions]
    exact List.forall_mem_nil _
  · rw [hfresh.issued]
    rfl
  · rw [hfresh.subscriptions, hfresh.detached]
    exact List.Perm.nil
  · rw [hfresh.buffers]
    rfl

theorem issued_concat (history : List Moment) (moment : Moment) :
    issued (history ++ [moment]) = issued history ++ moment.issued?.toList := by
  rw [issued, List.filterMap_append, issued]
  cases h : moment.issued? <;> simp [h]

theorem subscribed_concat (history : List Moment) (moment : Moment) :
    subscribed (history ++ [moment]) = subscribed history ++ moment.subscription?.toList := by
  rw [subscribed, List.filterMap_append, subscribed]
  cases h : moment.subscription? <;> simp [h]

theorem ListenersStep.name_eq {moment : Moment} (hstep : ListenersStep moment) :
    moment.after.channel.name = moment.before.channel.name := by
  cases hstep with
  | subscribed _ _ _ _ _ hchannel _ => rw [hchannel]; rfl
  | unsubscribed _ _ _ _ _ hchannel _ => rw [hchannel]; rfl
  | unchanged _ _ _ _ hchannel _ => rw [hchannel]

/-- A moment hands out an id exactly if it makes a subscription of that id. -/
theorem ListenersStep.issued?_eq {moment : Moment} (hstep : ListenersStep moment) :
    moment.issued? = moment.subscription?.map Subscription.id := by
  cases hstep with
  | subscribed _ _ hissued hmade _ _ _ => rw [hissued, hmade]; rfl
  | unsubscribed _ _ hissued hmade _ _ _ => rw [hissued, hmade]; rfl
  | unchanged _ hissued hmade _ _ _ => rw [hissued, hmade]; rfl

theorem numbered_concat {history : List Moment} {moment : Moment} (hstep : ListenersStep moment)
    (h : issued history = (subscribed history).map Subscription.id) :
    issued (history ++ [moment]) = (subscribed (history ++ [moment])).map Subscription.id := by
  rw [issued_concat, subscribed_concat, List.map_append, h, hstep.issued?_eq]
  cases moment.subscription? <;> rfl

/-- Subscriptions stay attached at a moment that unsubscribes nothing. -/
theorem attached_concat_of_kept (history : List Moment) {moment : Moment}
    (hkept : ∀ id, moment.unsubscribes id = false) :
    attached (history ++ [moment]) = attached history ++ moment.subscription?.toList := by
  rw [attached_concat, List.filter_eq_self.mpr fun subscription _ ↦ by simp [hkept]]

/-- What is taken off a channel is handed back. -/
theorem perm_unsubscribe (channel : Channel) (id : ListenerId) (detached : List Subscription) :
    ((channel.unsubscribe id).2.subscriptions ++
      (((channel.unsubscribe id).1.map (Subscription.mk id)).toList ++ detached)).Perm
        (channel.subscriptions ++ detached) := by
  rw [← List.append_assoc]
  refine List.Perm.append_right detached ?_
  change (channel.subscriptions.eraseP (·.id = id) ++
    (((channel.subscriptions.find? (·.id = id)).map Subscription.listener).map
      (Subscription.mk id)).toList).Perm channel.subscriptions
  induction channel.subscriptions with
  | nil => exact List.Perm.nil
  | cons first rest ih =>
    by_cases hid : first.id = id
    · subst hid
      simp
    · simpa [hid] using ih

/-- The listeners after a moment are told by the history if those before it are. -/
theorem ListenersTold.step {history : List Moment} {moment : Moment}
    (h : ListenersTold history moment.before) (hstep : ListenersStep moment) :
    ListenersTold (history ++ [moment]) moment.after := by
  have hnumbered := numbered_concat hstep h.numbered
  cases hstep with
  | subscribed listener hkind hissued hmade hkept hchannel hdetached =>
    refine ⟨?_, ?_, ?_, hnumbered, ?_, ?_⟩
    · rw [hchannel]
      exact h.ordered.subscribe listener
    · rw [hchannel, List.countP_append, ← h.count, List.countP_singleton, hkind]
      rfl
    · rw [hchannel, issued_concat, h.ids, hissued]
      change _ = (List.range (moment.before.channel.issued + 1)).map ListenerId.mk
      rw [List.range_succ, List.map_append]
      rfl
    · rw [hchannel, attached_concat_of_kept history hkept, ← h.attached, hmade]
      rfl
    · rw [hchannel, hdetached, subscribed_concat, hmade]
      change (_ ++ [_] ++ _).Perm (_ ++ [_])
      rw [List.append_assoc]
      exact (List.perm_append_comm.append_left _).trans
        (by simp [← List.append_assoc, h.subscribed.append_right _])
  | unsubscribed id hkind hissued hmade hkept hchannel hdetached =>
    refine ⟨?_, ?_, ?_, hnumbered, ?_, ?_⟩
    · rw [hchannel]
      exact h.ordered.unsubscribe id
    · rw [hchannel, List.countP_append, ← h.count, List.countP_singleton, hkind]
      rfl
    · rw [hchannel, issued_concat, h.ids, hissued]
      exact List.append_nil _
    · rw [hchannel, attached_concat, hmade, ← h.attached, h.ordered.subscriptions_unsubscribe]
      simp only [hkept, Option.toList_none, List.append_nil]
    · rw [hchannel, hdetached, subscribed_concat, hmade, Option.toList_none, List.append_nil]
      exact (perm_unsubscribe _ id _).trans h.subscribed
  | unchanged hkind hissued hmade hkept hchannel hdetached =>
    refine ⟨?_, ?_, ?_, hnumbered, ?_, ?_⟩
    · rw [hchannel]
      exact h.ordered
    · rw [hchannel, List.countP_append, ← h.count, List.countP_singleton, hkind]
      rfl
    · rw [hchannel, issued_concat, h.ids, hissued]
      exact List.append_nil _
    · rw [hchannel, attached_concat_of_kept history hkept, ← h.attached, hmade]
      exact (List.append_nil _).symm
    · rw [hchannel, hdetached, subscribed_concat, hmade, Option.toList_none, List.append_nil]
      exact h.subscribed

/-- Of the listeners that are attached or have been handed back, no two have one id. -/
theorem ListenersTold.nodup_ids {history : List Moment} {session : Session}
    (h : ListenersTold history session) :
    ((session.channel.subscriptions ++ session.detached).map Subscription.id).Nodup := by
  have hnodup : ((DialogueScript.subscribed history).map Subscription.id).Nodup := by
    rw [← h.numbered, h.ids]
    exact List.nodup_range.map fun first second hids ↦ congrArg ListenerId.index hids
  exact (h.subscribed.map Subscription.id).nodup_iff.mpr hnodup

theorem ListenersTold.nodup_detached {history : List Moment} {session : Session}
    (h : ListenersTold history session) : (session.detached.map Subscription.id).Nodup :=
  h.nodup_ids.sublist ((List.sublist_append_right _ _).map Subscription.id)

/-- One action keeps that the session is told by the history. The listeners are told by what the
moment does to them, and a buffer by what its log hears at the moment. -/
theorem ToldBy.act {first session : Session} {history : List Moment} {logs : Logs}
    (h : ToldBy first history logs session)
    (hname : ∀ options ∈ first.options, first.channel.name = options.channel) (action : Action) :
    ToldBy first (history ++ [session.moment logs action]) (logs.step action)
      (session.act action).2 := by
  have hown : ∀ options ∈ session.options, session.channel.name = options.channel := by
    rw [h.options, h.name]
    exact hname
  have hstep := listenersStep h.names action
  refine ⟨(Session.options_act session action).trans h.options, hstep.name_eq.trans h.name,
    h.listeners.step hstep, h.names.act action, funext fun log ↦ ?_⟩
  rw [buffers_act h.names h.listeners.nodup_detached hown action log, h.buffers, heardSince,
    heardSince]
  by_cases hclears : (session.moment logs action).clears log = true
  · rw [if_pos hclears, List.rtakeWhile_concat_neg _ _ _ (by simpa using hclears),
      heard_of_clears hclears]
    rfl
  · rw [if_neg hclears, List.rtakeWhile_concat_pos _ _ _ (by simpa using hclears),
      List.flatMap_append, List.flatMap_singleton]

/-- What a session holds after a run is told by the history of the run. -/
theorem toldBy_run {session : Session} (hfresh : session.IsFresh) (actions : List Action) :
    ToldBy session (session.moments actions) (logsOf actions) (session.run actions).2 := by
  induction actions using List.reverseRecOn with
  | nil => exact toldBy_nil hfresh
  | append_singleton earlier action ih =>
    rw [Session.moments_concat, Session.run_concat, logsOf_concat]
    exact ih.act hfresh.name action

/-! ### What the history of a run shows -/

/-- In the history of a run, an id is in force exactly if a listener is attached under it. -/
theorem inForce_iff {session : Session} (hfresh : session.IsFresh) {actions : List Action}
    {id : ListenerId} :
    InForce (session.moments actions) id ↔
      ∃ listener, ⟨id, listener⟩ ∈ attached (session.moments actions) := by
  have hsteps : ∀ past made since, session.moments actions = past ++ made :: since →
      (made.issued? = some id ↔ ∃ listener, made.subscription? = some ⟨id, listener⟩) := by
    intro past made since hhistory
    obtain ⟨first, -, hmade⟩ := Session.exists_of_moments_eq_append hhistory
    have hstep := listenersStep (toldBy_run hfresh first).names made.action
    rw [← hmade] at hstep
    rw [hstep.issued?_eq, Option.map_eq_some_iff]
    constructor
    · rintro ⟨⟨_, listener⟩, hsome, rfl⟩
      exact ⟨listener, hsome⟩
    · rintro ⟨listener, hsome⟩
      exact ⟨_, hsome, rfl⟩
  simp only [mem_attached_iff]
  constructor
  · rintro ⟨past, made, since, hhistory, hissued, hkept⟩
    obtain ⟨listener, hmade⟩ := (hsteps past made since hhistory).mp hissued
    exact ⟨listener, past, made, since, hhistory, hmade, hkept⟩
  · rintro ⟨listener, past, made, since, hhistory, hmade, hkept⟩
    have hissued := (hsteps past made since hhistory).mpr ⟨listener, hmade⟩
    exact ⟨past, made, since, hhistory, hissued, hkept⟩

/-- An id is unsubscribed at a moment behind a history. If it is in force, its subscription is taken
out from between the others and handed back, and otherwise nothing happens. -/
structure Moment.Unsubscribes (now : Moment) (past : List Moment) (id : ListenerId) : Prop where
  detaches : InForce past id → ∃ front listener behind,
    now.before.channel.subscriptions = front ++ ⟨id, listener⟩ :: behind ∧
      now.answer = .found true ∧
      now.after = { now.before with
        channel := { now.before.channel with subscriptions := front ++ behind }
        detached := ⟨id, listener⟩ :: now.before.detached }
  ignores : ¬InForce past id → now.answer = .found false ∧ now.after = now.before

theorem unsubscribes_of_mem {session : Session} {id : ListenerId} {listener : Listener}
    (hordered : session.channel.Ordered)
    (hmem : ⟨id, listener⟩ ∈ session.channel.subscriptions) :
    ∃ front behind, session.channel.subscriptions = front ++ ⟨id, listener⟩ :: behind ∧
      session.act (.unsubscribe id) = (.found true, { session with
        channel := { session.channel with subscriptions := front ++ behind }
        detached := ⟨id, listener⟩ :: session.detached }) := by
  obtain ⟨front, behind, hsplit⟩ := List.append_of_mem hmem
  have hascending := hordered.ascending
  rw [hsplit, List.pairwise_append] at hascending
  have hfront : ∀ other ∈ front, ¬decide (other.id = id) = true := by
    intro other hother hid
    have hlt := hascending.2.2 other hother _ List.mem_cons_self
    rw [of_decide_eq_true hid] at hlt
    exact absurd hlt (Nat.lt_irrefl _)
  refine ⟨front, behind, hsplit, ?_⟩
  have hfind : session.channel.subscriptions.find? (·.id = id) = some ⟨id, listener⟩ := by
    rw [hsplit, List.find?_append, List.find?_eq_none.mpr hfront]
    simp
  have herase : session.channel.subscriptions.eraseP (·.id = id) = front ++ behind := by
    rw [hsplit, List.eraseP_append_right _ (by simpa using hfront)]
    simp
  simp only [Session.act, Session.unsubscribe, Channel.unsubscribe, hfind, herase, Option.map_some]

theorem unsubscribe_of_not_mem {session : Session} {id : ListenerId}
    (hnot : ∀ listener, ⟨id, listener⟩ ∉ session.channel.subscriptions) :
    session.act (.unsubscribe id) = (.found false, session) := by
  have hall : ∀ other ∈ session.channel.subscriptions, ¬decide (other.id = id) = true := by
    rintro ⟨other, listener⟩ hother hid
    obtain rfl := of_decide_eq_true hid
    exact hnot listener hother
  simp only [Session.act, Session.unsubscribe, Channel.unsubscribe, List.find?_eq_none.mpr hall,
    List.eraseP_of_forall_not hall, Option.map_none]

theorem unsubscribes_run {session : Session} (hfresh : session.IsFresh) {actions : List Action}
    {past later : List Moment} {now : Moment} {id : ListenerId}
    (hhistory : session.moments actions = past ++ now :: later)
    (hnow : now.action = .unsubscribe id) : now.Unsubscribes past id := by
  obtain ⟨first, rfl, hmoment⟩ := Session.exists_of_moments_eq_append hhistory
  have htold := (toldBy_run hfresh first).listeners
  rw [hnow] at hmoment
  generalize (session.run first).2 = before at hmoment htold
  subst hmoment
  constructor
  · intro hforce
    obtain ⟨listener, hmem⟩ := (inForce_iff hfresh).mp hforce
    rw [← htold.attached] at hmem
    obtain ⟨front, behind, hsplit, hact⟩ := unsubscribes_of_mem htold.ordered hmem
    exact ⟨front, listener, behind, hsplit, congrArg Prod.fst hact, congrArg Prod.snd hact⟩
  · intro hforce
    have hnot : ∀ listener, ⟨id, listener⟩ ∉ before.channel.subscriptions := by
      intro listener hmem
      rw [htold.attached] at hmem
      exact hforce ((inForce_iff hfresh).mpr ⟨listener, hmem⟩)
    have hact := unsubscribe_of_not_mem hnot
    exact ⟨congrArg Prod.fst hact, congrArg Prod.snd hact⟩

/-- A moment answers and emits what a fresh compiler with given options does, whatever is attached
and whatever was done before, and compiling changes nothing but buffers. -/
structure Moment.AsFresh (now : Moment) (options : Options) : Prop where
  compile : ∀ source, now.action = .compile source → ∃ result,
    ((Session.ofOptions options).act (.compile source)).1 = .compiled [] result ∧
      now.answer = .compiled now.deliveries result ∧
      now.emitted = options.emitted (.compile source) ∧
      now.after = { now.before with buffers := now.after.buffers }
  tryCompile : ∀ source, now.action = .tryCompile source → ∃ script,
    ((Session.ofOptions options).act (.tryCompile source)).1 = .tried [] script ∧
      now.answer = .tried now.deliveries script ∧
      now.emitted = options.emitted (.tryCompile source) ∧
      now.after = { now.before with buffers := now.after.buffers }

/-- Assumes: at a moment the findings of a compilation are emitted. They leave as the events of the
moment do, and change nothing but buffers. -/
theorem emitFindings_eq {moment : Moment} {findings : List Finding}
    (hemitted : moment.emitted = findings.map (·.toEvent moment.before.channel.name)) :
    moment.before.emitFindings findings = (moment.deliveries, { moment.before with
      buffers := (moment.before.emitFindings findings).2.buffers }) := by
  refine Prod.ext ?_ (emitAll_eq moment.before _)
  rw [Moment.deliveries, hemitted]
  exact deliveries_emitAll moment.before _

/-- Nothing leaves a fresh compiler, since nobody listens to it. -/
theorem deliveries_ofOptions (options : Options) (findings : List Finding) :
    ((Session.ofOptions options).emitFindings findings).1 = [] := by
  rw [Session.emitFindings, deliveries_emitAll]
  exact List.flatMap_eq_nil_iff.mpr fun _ _ ↦ rfl

/-- Assumes: an action emits findings and answers with what leaves, in a session as in a fresh
compiler. The session answers and emits what the compiler does, and changes nothing but buffers. -/
theorem emits_moment {session : Session} {logs : Logs} {options : Options} {action : Action}
    {findings : List Finding} (answer : List Delivery → Answer)
    (hname : session.channel.name = options.channel)
    (hact : session.act action =
      (answer (session.emitFindings findings).1, (session.emitFindings findings).2))
    (hfresh : ((Session.ofOptions options).act action).1 =
      answer ((Session.ofOptions options).emitFindings findings).1)
    (hemitted : (session.moment logs action).emitted = options.emitted action)
    (hfindings : options.emitted action = findings.map (·.toEvent options.channel)) :
    ((Session.ofOptions options).act action).1 = answer [] ∧
      (session.moment logs action).answer = answer (session.moment logs action).deliveries ∧
      (session.moment logs action).emitted = options.emitted action ∧
      (session.moment logs action).after = { (session.moment logs action).before with
        buffers := (session.moment logs action).after.buffers } := by
  have hevents : (session.moment logs action).emitted =
      findings.map (·.toEvent (session.moment logs action).before.channel.name) := by
    rw [hemitted, hfindings, ← hname]
    rfl
  have heq := emitFindings_eq hevents
  refine ⟨?_, ?_, hemitted, ?_⟩
  · rw [hfresh, deliveries_ofOptions]
  · exact (congrArg Prod.fst hact).trans (congrArg answer (congrArg Prod.fst heq))
  · rw [Session.moment, hact]
    exact congrArg Prod.snd heq

/-- Assumes: a session has a compiler, and the channel is its own. What it compiles it compiles as
a fresh compiler does. -/
theorem asFresh_moment {session : Session} {logs : Logs} {options : Options}
    (hoptions : session.options = some options) (hname : session.channel.name = options.channel)
    (action : Action) : (session.moment logs action).AsFresh options := by
  constructor
  · intro source haction
    obtain rfl : action = .compile source := haction
    have hact : session.act (.compile source) =
        (.compiled (session.emitFindings (compile options.formatVersion source).findings).1
            (compile options.formatVersion source).result,
          (session.emitFindings (compile options.formatVersion source).findings).2) := by
      simp only [Session.act, hoptions]
    have hemitted : (session.moment logs (.compile source)).emitted =
        options.emitted (.compile source) := by
      simp [Session.moment, Moment.emitted, hoptions]
    exact ⟨_, emits_moment (Answer.compiled · _) hname hact rfl hemitted
      (emitted_compile options source)⟩
  · intro source haction
    obtain rfl : action = .tryCompile source := haction
    have hact : session.act (.tryCompile source) =
        (.tried (session.emitFindings (tryCompile options.formatVersion source).findings).1
            (tryCompile options.formatVersion source).value,
          (session.emitFindings (tryCompile options.formatVersion source).findings).2) := by
      simp only [Session.act, hoptions]
    have hemitted : (session.moment logs (.tryCompile source)).emitted =
        options.emitted (.tryCompile source) := by
      simp [Session.moment, Moment.emitted, hoptions]
    exact ⟨_, emits_moment (Answer.tried · _) hname hact rfl hemitted
      (emitted_tryCompile options source)⟩

/-- A moment follows a history. The history tells for which logs names stand at the moment, which
listeners are attached and which have been handed back. -/
structure Moment.Follows (now : Moment) (first : Session) (past : List Moment) : Prop where
  options : now.before.options = first.options
  name : now.before.channel.name = first.channel.name
  logs : now.logs = logsOf (past.map Moment.action)
  attached : now.before.channel.subscriptions = attached past
  detached : ∀ subscription, subscription ∈ now.before.detached ↔
    subscription ∈ subscribed past ∧ subscription ∉ DialogueScript.attached past

theorem follows_moment {first session : Session} {past : List Moment} {actions : List Action}
    (h : ToldBy first past (logsOf actions) session) (hactions : past.map Moment.action = actions)
    (action : Action) : (session.moment (logsOf actions) action).Follows first past := by
  refine ⟨h.options, h.name, congrArg logsOf hactions.symm, h.listeners.attached,
    fun subscription ↦ ?_⟩
  have hdisjoint := List.disjoint_of_nodup_append (List.Nodup.of_map _ h.listeners.nodup_ids)
  rw [← h.listeners.subscribed.mem_iff, List.mem_append, ← h.listeners.attached]
  constructor
  · exact fun hmem ↦ ⟨Or.inr hmem, fun hattached ↦ hdisjoint hattached hmem⟩
  · rintro ⟨hattached | hmem, hnot⟩
    · exact absurd hattached hnot
    · exact hmem

/-- A run of a session and its history account for each other. -/
structure Accounted (session : Session) (actions : List Action) : Prop where
  /-- The answers of the run are those in its history. -/
  answers : (session.run actions).1 = (session.moments actions).map Moment.answer
  /-- Every moment follows the history in front of it. -/
  follows : ∀ past now later, session.moments actions = past ++ now :: later →
    now.Follows session past
  /-- Subscriptions are numbered, however many are unsubscribed and whatever is compiled between
  them. -/
  ids : issued (session.moments actions) =
    (List.range (actions.countP Action.isSubscribe)).map ListenerId.mk
  /-- No id is handed out twice. -/
  distinct : (issued (session.moments actions)).Nodup
  /-- The listeners are in the order in which they were subscribed. -/
  attached : (session.run actions).2.channel.subscriptions = attached (session.moments actions)
  /-- An id is unsubscribed with success exactly if it has been handed out and not been unsubscribed
  since. -/
  unsubscribed : ∀ past now later, session.moments actions = past ++ now :: later → ∀ id,
    now.action = .unsubscribe id → now.Unsubscribes past id
  /-- A name that is used for the first time gets a log that no other name stands for. -/
  separate : ∀ name other, (logsOf actions).named name = none → other ≠ name →
    ((logsOf actions).use name).named other ≠ ((logsOf actions).use name).named name
  /-- The recorders of a name show what its log has heard since it was cleared. -/
  recorded : ∀ name, ((session.run actions).2.act (.events name)).1 =
    .events (shown (session.moments actions) (logsOf actions) name)
  /-- Recorders count what they show. -/
  counted : ∀ name level, ((session.run actions).2.act (.count name level)).1 =
    .count ((shown (session.moments actions) (logsOf actions) name).countP (·.level = level))
  /-- Recorders give the part of what they show that is severe enough. -/
  filtered : ∀ name level, ((session.run actions).2.act (.atLeast name level)).1 =
    .events ((shown (session.moments actions) (logsOf actions) name).filter (level ≤ ·.level))
  /-- Events that are emitted reach all listeners. -/
  emitted : ∀ now ∈ session.moments actions, ∀ level message position,
    now.action = .emit level message position → now.answer = .delivered now.deliveries
  /-- Compilations do not depend on the run. -/
  compiled : ∀ now ∈ session.moments actions, ∀ options ∈ session.options, now.AsFresh options

theorem recorded_of_toldBy {first session : Session} {history : List Moment} {logs : Logs}
    (h : ToldBy first history logs session) (name : String) :
    session.recorded name = shown history logs name := by
  rw [Session.recorded, h.names.named, h.buffers, shown]

theorem accounted_of_isFresh {session : Session} (hfresh : session.IsFresh)
    (actions : List Action) : Accounted session actions := by
  have htold := toldBy_run hfresh actions
  have hcount : (session.moments actions).countP (·.action.isSubscribe) =
      actions.countP Action.isSubscribe := by
    conv_rhs => rw [← Session.actions_momentsFrom .empty session actions, List.countP_map]
    rfl
  have hids : issued (session.moments actions) =
      (List.range (actions.countP Action.isSubscribe)).map ListenerId.mk := by
    rw [htold.listeners.ids, htold.listeners.count, hcount]
  have hmoments : ∀ now ∈ session.moments actions, ∃ earlier,
      now = (session.run earlier).2.moment (logsOf earlier) now.action := by
    intro now hnow
    obtain ⟨past, later, hhistory⟩ := List.append_of_mem hnow
    obtain ⟨earlier, -, hmoment⟩ := Session.exists_of_moments_eq_append hhistory
    exact ⟨earlier, hmoment⟩
  constructor
  case answers => exact (Session.answers_momentsFrom .empty session actions).symm
  case follows =>
    intro past now later hhistory
    obtain ⟨earlier, rfl, hmoment⟩ := Session.exists_of_moments_eq_append hhistory
    rw [hmoment]
    exact follows_moment (toldBy_run hfresh earlier)
      (Session.actions_momentsFrom .empty session earlier) now.action
  case ids => exact hids
  case distinct =>
    rw [hids]
    exact List.nodup_range.map fun first second h ↦ congrArg ListenerId.index h
  case attached => exact htold.listeners.attached
  case unsubscribed => exact fun past now later hhistory id ↦ unsubscribes_run hfresh hhistory
  case separate => exact fun name other hnone ↦ (bounded_logsOf actions).named_use_ne hnone
  case recorded => exact fun name ↦ congrArg Answer.events (recorded_of_toldBy htold name)
  case counted =>
    intro name level
    rw [← recorded_of_toldBy htold name]
    rfl
  case filtered =>
    intro name level
    rw [← recorded_of_toldBy htold name]
    rfl
  case emitted =>
    intro now hnow level message position haction
    obtain ⟨earlier, hmoment⟩ := hmoments now hnow
    rw [haction] at hmoment
    rw [hmoment]
    exact congrArg Answer.delivered (deliveries_emitAll (session.run earlier).2
      [⟨(session.run earlier).2.channel.name, level, message, position⟩])
  case compiled =>
    intro now hnow options hoptions
    obtain ⟨earlier, hmoment⟩ := hmoments now hnow
    have hbefore := toldBy_run hfresh earlier
    rw [hmoment]
    exact asFresh_moment (hbefore.options.trans hoptions)
      (hbefore.name.trans (hfresh.name options hoptions)) now.action

/-- Every run of a channel and every run of a compiler is accounted for by its history. -/
theorem run_accounted :
    (∀ name actions, Accounted (Session.ofChannel name) actions) ∧
      ∀ options actions, Accounted (Session.ofOptions options) actions :=
  ⟨fun name ↦ accounted_of_isFresh (Session.isFresh_ofChannel name),
    fun options ↦ accounted_of_isFresh (Session.isFresh_ofOptions options)⟩

end DialogueScript
