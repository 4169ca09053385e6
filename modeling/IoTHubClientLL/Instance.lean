import IoTHubClientLL.Delivery

/-!
# The instance over a run: its resources and its settings

`IoTHubClient_LL_Create` acquires a tick counter, a transport, and a registration with that
transport. `IoTHubClient_LL_CreateWithTransport` acquires the tick counter and registers with
the caller's transport, without creating one. `IoTHubClient_LL_Destroy` releases them.
`HandleData.acquired` lists what a creation acquired, and `Effect.release` maps each
acquiring call to the call that undoes it. The instance's settings are its message timeout,
its inbound callback with its context, and the time of the last inbound message.
`Settings.after` says, in the words of the specification, how one call changes them, and
`HandleData.settings` reads them off an instance.

`System.step_frame` says once what every step does to both. The results over runs:

* A creation that fails releases what it had acquired, last acquired first released
  (`create_failure_balanced`).
* Along every run, the resource calls in the trace are the creation's acquisitions. Once the
  instance is destroyed, they are followed by their releases in reverse order, each exactly
  once, and never before (`resources_bracketed`).
* `Destroy` leaves no record waiting: each accepted record has been confirmed once, its clone
  destroyed and the record freed once, or is still held by the transport
  (`destroy_completes_waiting`).
* After any run the settings are those its calls gave. An inbound message goes to the
  callback and context of the last successful `IoTHubClient_LL_SetMessageCallback`, and
  `IoTHubClient_LL_GetLastMessageReceiveTime` reports the clock at the last inbound message
  (`settings_follow_calls`).
-/

namespace IoTHubClientLL

/-! ## Acquiring and releasing -/

/-- Whether an effect acquires or releases one of the instance's own resources. -/
def Effect.isLifecycle : Effect → Bool
  | .tickcounterCreate _ | .tickcounterDestroy _ | .transportCreate _ | .transportDestroy _
  | .transportRegister _ | .transportUnregister _ => true
  | _ => false

/-- The call that releases what an acquiring call acquired. -/
def Effect.release : Effect → Effect
  | .tickcounterCreate t => .tickcounterDestroy t
  | .transportCreate t => .transportDestroy t
  | .transportRegister d => .transportUnregister d
  | ev => ev

/-- What the creation of `h` acquired, in order: the tick counter, the transport unless it is
shared, the registration. -/
def HandleData.acquired (h : HandleData) : List Effect :=
  .tickcounterCreate h.tickCounter ::
    ((if h.isSharedTransport = false then [.transportCreate h.transportHandle] else []) ++
      [.transportRegister h.deviceHandle])

theorem filter_isLifecycle_acquired (h : HandleData) :
    h.acquired.filter Effect.isLifecycle = h.acquired := by
  unfold HandleData.acquired
  split_ifs <;> rfl

theorem filter_isLifecycle_flatMap_complete (r : ConfirmationResult) (L : List MessageList) :
    (L.flatMap (complete r)).filter Effect.isLifecycle = [] := by
  induction L with
  | nil => rfl
  | cons x L ih =>
    rw [List.flatMap_cons, List.filter_append, ih, List.append_nil]
    unfold complete invoke
    split <;> rfl

theorem create_acquired {config : Option ClientConfig} {env : CreateEnv} {h : HandleData}
    {effs : List Effect} (hc : create config env = (some h, effs)) : effs = h.acquired := by
  unfold create at hc
  repeat' split at hc
  all_goals simp only [Prod.mk.injEq, Option.some.injEq, reduceCtorEq, false_and] at hc
  obtain ⟨rfl, rfl⟩ := hc
  rfl

theorem createWithTransport_acquired {config : Option DeviceConfig} {env : CreateEnv}
    {h : HandleData} {effs : List Effect} (hc : createWithTransport config env = (some h, effs)) :
    effs = h.acquired := by
  unfold createWithTransport at hc
  repeat' split at hc
  all_goals simp only [Prod.mk.injEq, Option.some.injEq, reduceCtorEq, false_and] at hc
  obtain ⟨rfl, rfl⟩ := hc
  rfl

/-- **A failed creation releases what it acquired.** When `IoTHubClient_LL_Create` or
`IoTHubClient_LL_CreateWithTransport` returns `NULL`, its calls are some acquiring calls
followed by their releases, last acquired first released: nothing is left held. -/
theorem create_failure_balanced {env : CreateEnv} {effs : List Effect}
    (hc : (∃ config, create config env = (none, effs)) ∨
      ∃ config, createWithTransport config env = (none, effs)) :
    ∃ acquired, (∀ ev ∈ acquired, ev.release ≠ ev) ∧
      effs = acquired ++ (acquired.map Effect.release).reverse := by
  rcases hc with ⟨config, hc⟩ | ⟨config, hc⟩
  · unfold create at hc
    repeat' split at hc
    all_goals simp only [Prod.mk.injEq, reduceCtorEq, false_and, true_and] at hc
    all_goals subst hc
    exacts [⟨[], by simp, rfl⟩, ⟨[], by simp, rfl⟩, ⟨[], by simp, rfl⟩,
      ⟨[.tickcounterCreate _], by simp [Effect.release], rfl⟩,
      ⟨[.tickcounterCreate _, .transportCreate _], by simp [Effect.release], rfl⟩]
  · unfold createWithTransport at hc
    repeat' split at hc
    all_goals simp only [Prod.mk.injEq, reduceCtorEq, false_and, true_and] at hc
    all_goals subst hc
    exacts [⟨[], by simp, rfl⟩, ⟨[], by simp, rfl⟩, ⟨[], by simp, rfl⟩,
      ⟨[.tickcounterCreate _], by simp [Effect.release], rfl⟩, ⟨[], by simp, rfl⟩]

/-- `IoTHubClient_LL_Destroy` releases what the creation acquired, in reverse order. -/
theorem destroy_releases (h : HandleData) :
    (destroy (some h)).filter Effect.isLifecycle = (h.acquired.map Effect.release).reverse := by
  simp only [destroy, drain_eq, HandleData.acquired]
  split_ifs <;> simp [List.filter_append, filter_isLifecycle_flatMap_complete, Effect.isLifecycle,
    Effect.release]

/-! ## Settings -/

/-- The settings a run's calls leave on the instance. -/
structure Settings where
  /-- the timeout of the last `SetOption("messageTimeout", ...)`, `0` before any -/
  messageTimeout : UInt64
  /-- the callback and context of the last `SetMessageCallback` when it subscribed; none
  after an unsubscribe or a failed subscribe -/
  registration : Option (MessageCallbackAsync × Option Ptr)
  /-- the clock reading at the last inbound message, `INDEFINITE_TIME` before any -/
  lastMessageReceiveTime : ℤ
  deriving DecidableEq, Repr

/-- How one step of a run changes the settings, as the specification describes the calls. -/
def Settings.after (st : Settings) : Action → Settings
  | .setOption (some name) (some v) _ =>
    if name = "messageTimeout".toList then { st with messageTimeout := v } else st
  | .setMessageCallback none _ _ => { st with registration := none }
  | .setMessageCallback (some fn) ctx subscribe =>
    { st with registration := if subscribe = 0 then some (fn, ctx) else none }
  | .messageCallback _ getTime _ => { st with lastMessageReceiveTime := getTime }
  | _ => st

/-- The settings an instance holds. -/
def HandleData.settings (h : HandleData) : Settings :=
  ⟨h.currentMessageTimeout, h.messageCallback.map (·, h.messageUserContextCallback),
    h.lastMessageReceiveTime⟩

/-! ## What each call keeps -/

/-- A call on `h`, as the step `a`, that returns an instance holding the same resources and
the settings `Settings.after` gives, and makes no call that acquires or releases a
resource. -/
structure KeepsFrame (h : HandleData) (a : Action) (r : Option HandleData × List Effect) :
    Prop where
  acquired : (r.1.getD h).acquired = h.acquired
  settings : (r.1.getD h).settings = h.settings.after a
  noLifecycle : r.2.filter Effect.isLifecycle = []

theorem sendEventAsync_keepsFrame (h : HandleData) (m : Option MessageHandle)
    (cb : Option ConfirmationCallback) (ctx : Option Ptr) (env : SendEnv) (malloc : Bool)
    (tick : Option UInt64) (clone : Bool) :
    KeepsFrame h (.sendEventAsync m cb ctx malloc tick clone)
      (sendEventAsync (some h) m cb ctx env).2 := by
  by_cases hok : (sendEventAsync (some h) m cb ctx env).1 = .ok
  · obtain ⟨_, p, t, c, ⟨⟩, -, -, -, hr⟩ := sendEventAsync_of_ok hok
    rw [hr]
    exact ⟨rfl, rfl, rfl⟩
  · obtain ⟨h₁, h₂ | ⟨p, -, h₂⟩⟩ := sendEventAsync_of_ne_ok hok <;>
      exact ⟨by rw [h₁]; rfl, by rw [h₁]; rfl, by rw [h₂]; rfl⟩

theorem setOption_keepsFrame (h : HandleData) (optionName : Option (List Char))
    (value : Option UInt64) (transportSetOption : ClientResult) :
    KeepsFrame h (.setOption optionName value transportSetOption)
      (setOption (some h) optionName value transportSetOption).2 := by
  refine ⟨?_, ?_, ?_⟩ <;> rcases optionName with _ | name <;> rcases value with _ | v <;>
    simp only [setOption, Settings.after] <;> (try split_ifs) <;> rfl

theorem setMessageCallback_keepsFrame (h : HandleData) (fn : Option MessageCallbackAsync)
    (ctx : Option Ptr) (subscribe : ℤ) :
    KeepsFrame h (.setMessageCallback fn ctx subscribe)
      (setMessageCallback (some h) fn ctx subscribe).2 := by
  refine ⟨?_, ?_, ?_⟩ <;> rcases fn with _ | fn <;>
    simp only [setMessageCallback, Settings.after] <;> (try split_ifs) <;> rfl

theorem messageCallback_keepsFrame (h : HandleData) (message : MessageHandle) (getTime : ℤ)
    (userResult : MessageDispositionResult) :
    KeepsFrame h (.messageCallback message getTime userResult)
      (messageCallback (some h) message getTime userResult).2 := by
  simp only [messageCallback]
  split <;> exact ⟨rfl, rfl, rfl⟩

theorem doWork_keepsFrame (h : HandleData) (tick : Option UInt64)
    {r : Option HandleData × List Effect}
    (hr : doWork noReentry (h.waitingToSend.length + 1) (some h) tick = some r) :
    KeepsFrame h (.doWork tick) r := by
  rcases tick with _ | nowTick
  · cases hr
    exact ⟨rfl, rfl, rfl⟩
  · simp only [doWork, doTimeouts_noReentry_some nowTick _ _ (Nat.lt_succ_self _),
      Option.map_some', Option.some.injEq] at hr
    subst hr
    exact ⟨rfl, rfl, by simp [List.filter_append, filter_isLifecycle_flatMap_complete,
      Effect.isLifecycle]⟩

theorem sendComplete_keepsFrame (h : HandleData) (batch : List MessageList) (b : ℕ)
    (result : BatchStateResult) :
    KeepsFrame h (.sendComplete b result) ((sendComplete (some h) (some batch) result).1,
      (sendComplete (some h) (some batch) result).2.2) :=
  ⟨rfl, rfl, by simp [sendComplete, drain_eq, filter_isLifecycle_flatMap_complete]⟩

namespace System

variable {s s' : System} {a : Action}

theorem update_keepsFrame {r : Option HandleData × List Effect}
    (hk : KeepsFrame s.handleData a r) :
    (s.update r).handleData.acquired = s.handleData.acquired ∧
      (s.update r).handleData.settings = s.handleData.settings.after a ∧
      (s.update r).trace.filter Effect.isLifecycle = s.trace.filter Effect.isLifecycle :=
  ⟨hk.acquired, hk.settings,
    by simp only [update, List.filter_append, hk.noLifecycle, List.append_nil]⟩

/-- **What one step does to the resources and the settings.** A step is taken only before
`Destroy`. It keeps the instance's resources and changes its settings as `Settings.after`
says. It makes a resource call only when it is `Destroy`, which releases them all. -/
theorem step_frame (hstep : s.step a = some s') :
    s.destroyed = false ∧ s'.destroyed = decide (a = .destroy) ∧
      s'.handleData.acquired = s.handleData.acquired ∧
      s'.handleData.settings = s.handleData.settings.after a ∧
      s'.trace.filter Effect.isLifecycle = s.trace.filter Effect.isLifecycle ++
        if a = .destroy then (s.handleData.acquired.map Effect.release).reverse else [] := by
  unfold System.step at hstep
  split_ifs at hstep with hd
  replace hd : s.destroyed = false := Bool.eq_false_iff.mpr hd
  refine ⟨hd, ?_⟩
  have hupd : ∀ {r}, KeepsFrame s.handleData a r → (s.update r).destroyed = decide (a = .destroy) →
      (s.update r).destroyed = decide (a = .destroy) ∧
      (s.update r).handleData.acquired = s.handleData.acquired ∧
      (s.update r).handleData.settings = s.handleData.settings.after a ∧
      (s.update r).trace.filter Effect.isLifecycle = s.trace.filter Effect.isLifecycle ++
        if a = .destroy then (s.handleData.acquired.map Effect.release).reverse else [] := by
    intro r hk hdes
    obtain ⟨h₁, h₂, h₃⟩ := update_keepsFrame hk
    refine ⟨hdes, h₁, h₂, ?_⟩
    rw [h₃, if_neg fun ha => by simp [ha, update, hd] at hdes, List.append_nil]
  cases a with
  | sendEventAsync m cb ctx malloc tick clone =>
    injection hstep with hstep
    subst hstep
    exact hupd (sendEventAsync_keepsFrame s.handleData m cb ctx _ malloc tick clone)
      (by simp [update, hd])
  | setOption name value res =>
    injection hstep with hstep
    subst hstep
    exact hupd (setOption_keepsFrame s.handleData name value res) (by simp [update, hd])
  | setMessageCallback fn ctx subscribe =>
    injection hstep with hstep
    subst hstep
    exact hupd (setMessageCallback_keepsFrame s.handleData fn ctx subscribe)
      (by simp [update, hd])
  | messageCallback message getTime userResult =>
    injection hstep with hstep
    subst hstep
    exact hupd (messageCallback_keepsFrame s.handleData message getTime userResult)
      (by simp [update, hd])
  | doWork tick =>
    obtain ⟨r, hr, rfl⟩ := Option.map_eq_some'.mp hstep
    exact hupd (doWork_keepsFrame s.handleData tick hr) (by simp [update, hd])
  | detach i b =>
    obtain ⟨e, -, rfl⟩ := Option.map_eq_some'.mp hstep
    exact ⟨by simp [hd], rfl, rfl, by simp⟩
  | sendComplete b result =>
    obtain ⟨batch, -, rfl⟩ := Option.map_eq_some'.mp hstep
    exact hupd (sendComplete_keepsFrame s.handleData batch b result) (by simp [update, hd])
  | destroy =>
    injection hstep with hstep
    subst hstep
    exact ⟨rfl, rfl, rfl, by simp [List.filter_append, destroy_releases]⟩

/-- `Destroy` empties the queue. -/
theorem step_destroy_waitingToSend (hstep : s.step .destroy = some s') :
    s'.handleData.waitingToSend = [] := by
  unfold System.step at hstep
  split_ifs at hstep
  cases hstep
  exact (drain_eq _ _).symm ▸ rfl

/-- An inbound message calls the registered callback, if any, with its context. -/
theorem step_messageCallback {message : MessageHandle} {getTime : ℤ}
    {userResult : MessageDispositionResult}
    (hstep : s.step (.messageCallback message getTime userResult) = some s') :
    s'.trace = s.trace ++ (s.handleData.settings.registration.map fun r =>
      Effect.messageCallback r.1 message r.2).toList := by
  unfold System.step at hstep
  split_ifs at hstep
  cases hstep
  simp only [update, IoTHubClientLL.messageCallback, HandleData.settings]
  split <;> simp_all

theorem run_settings {actions : List Action} (hrun : s.run actions = some s') :
    s'.handleData.settings = actions.foldl Settings.after s.handleData.settings := by
  induction actions generalizing s with
  | nil => cases hrun; rfl
  | cons a actions ih =>
    obtain ⟨s₁, h₁, h₂⟩ := Option.bind_eq_some.mp hrun
    rw [ih h₂, (step_frame h₁).2.2.2.1, List.foldl_cons]

end System

/-! ## Whole runs -/

/-- **Every resource is released exactly once, at `Destroy`.** In every state a run reaches,
the calls in the trace that acquire or release the instance's resources are the creation's
acquisitions, followed, once the instance is destroyed, by their releases, last acquired
first released. Nothing is acquired again, and nothing is released before `Destroy` or twice. -/
theorem resources_bracketed {s : System} (hs : Reachable s) :
    s.trace.filter Effect.isLifecycle = s.handleData.acquired ++
      if s.destroyed then (s.handleData.acquired.map Effect.release).reverse else [] := by
  induction hs with
  | create hc =>
    rw [System.init, create_acquired hc, filter_isLifecycle_acquired]
    simp
  | createWithTransport hc =>
    rw [System.init, createWithTransport_acquired hc, filter_isLifecycle_acquired]
    simp
  | @step s s' a _ hstep ih =>
    obtain ⟨hd, hd', hacq, -, htrace⟩ := System.step_frame hstep
    rw [htrace, ih, hd, hd', hacq]
    by_cases ha : a = .destroy <;> simp [ha]

/-- A client created, sent one message and destroyed: the tick counter, the transport and
the registration are each released once, in reverse order. -/
theorem resources_bracketed_destroyed :
    let s : System := ⟨HandleData.initial 4 false 5 3, [], [⟨0, 0, some 7, none, 0⟩],
      [.tickcounterCreate 3, .transportCreate 4, .transportRegister 5, .malloc 0,
        .messageClone 0, .transportUnregister 5, .transportDestroy 4,
        .callback 0 7 .becauseDestroy none, .messageDestroy 0, .free 0,
        .tickcounterDestroy 3], 1, true⟩
    Reachable s ∧ s.trace.filter Effect.isLifecycle = s.handleData.acquired ++
      if s.destroyed then (s.handleData.acquired.map Effect.release).reverse else [] := by
  intro s
  have hs : Reachable s := .step .destroy
    (.step (.sendEventAsync (some 9) (some 7) none true none true)
      (@Reachable.create (some ⟨some 1, none, none, none, none, none⟩)
        ⟨true, some 3, some 4, some 5⟩ _ _ rfl) rfl) rfl
  exact ⟨hs, resources_bracketed hs⟩

theorem Reachable.waitingToSend_of_destroyed {s : System} (hs : Reachable s)
    (hd : s.destroyed = true) : s.handleData.waitingToSend = [] := by
  induction hs with
  | create => cases hd
  | createWithTransport => cases hd
  | @step s s' a _ hstep =>
    obtain ⟨-, hd', -⟩ := System.step_frame hstep
    rw [hd, eq_comm, decide_eq_true_iff] at hd'
    exact System.step_destroy_waitingToSend (hd' ▸ hstep)

/-- **`Destroy` leaves no accepted message unconfirmed in the client.** In a destroyed state
of any run, `waitingToSend` is empty, and every record accepted with `IOTHUB_CLIENT_OK` has
been completed (confirmed, its clone destroyed and the record freed) or is in a batch the
transport still holds. Completed means its callback, if it has one, was called once, with its
own context, its clone destroyed once and the record freed once. -/
theorem destroy_completes_waiting {s : System} (hs : Reachable s) (hd : s.destroyed = true) :
    s.handleData.waitingToSend = [] ∧ ∀ e ∈ s.accepted,
      (∃ r, callbacksAt e.entry s.trace = (e.callback.map fun fn => (fn, r, e.context)).toList ∧
        s.trace.count (.messageDestroy e.messageHandle) = 1 ∧ s.trace.count (.free e.entry) = 1) ∨
      e ∈ s.inFlight.flatten :=
  have hw := hs.waitingToSend_of_destroyed hd
  ⟨hw, hs.inv.accepted_of_waitingToSend_nil hw⟩

/-- A message sent and not detached is completed by `Destroy`. -/
theorem destroy_completes_waiting_sent :
    let s : System := ⟨HandleData.initial 4 false 5 3, [], [⟨0, 0, some 7, none, 0⟩],
      [.tickcounterCreate 3, .transportCreate 4, .transportRegister 5, .malloc 0,
        .messageClone 0, .transportUnregister 5, .transportDestroy 4,
        .callback 0 7 .becauseDestroy none, .messageDestroy 0, .free 0,
        .tickcounterDestroy 3], 1, true⟩
    Reachable s ∧ s.destroyed = true ∧ (s.handleData.waitingToSend = [] ∧ ∀ e ∈ s.accepted,
      (∃ r, callbacksAt e.entry s.trace = (e.callback.map fun fn => (fn, r, e.context)).toList ∧
        s.trace.count (.messageDestroy e.messageHandle) = 1 ∧ s.trace.count (.free e.entry) = 1) ∨
      e ∈ s.inFlight.flatten) := by
  intro s
  have hs : Reachable s := .step .destroy
    (.step (.sendEventAsync (some 9) (some 7) none true none true)
      (@Reachable.create (some ⟨some 1, none, none, none, none, none⟩)
        ⟨true, some 3, some 4, some 5⟩ _ _ rfl) rfl) rfl
  exact ⟨hs, rfl, destroy_completes_waiting hs rfl⟩

/-- **The settings follow the calls.** After any run, the instance's settings are those its
calls gave, step after step: the timeout of the last `SetOption("messageTimeout", ...)`, the
callback and context of the last `SetMessageCallback` if it subscribed, and the clock at the
last inbound message. An inbound message after the run is handed to that callback with that
context, or to none, and `IoTHubClient_LL_GetLastMessageReceiveTime` reports that clock
reading, or `IOTHUB_CLIENT_INDEFINITE_TIME` while it is `INDEFINITE_TIME`. -/
theorem settings_follow_calls {s s' : System} {actions : List Action}
    (hrun : s.run actions = some s') :
    let st := actions.foldl Settings.after s.handleData.settings
    s'.handleData.settings = st ∧
      (∀ message getTime userResult s'',
        s'.step (.messageCallback message getTime userResult) = some s'' →
        s''.trace = s'.trace ++
          (st.registration.map fun r => Effect.messageCallback r.1 message r.2).toList) ∧
      ∀ t, getLastMessageReceiveTime (some s'.handleData) (some t) =
        if st.lastMessageReceiveTime = INDEFINITE_TIME then (.indefiniteTime, some t)
        else (.ok, some st.lastMessageReceiveTime) := by
  intro st
  have hst : s'.handleData.settings = st := System.run_settings hrun
  refine ⟨hst, fun message getTime userResult s'' h => ?_, fun t => ?_⟩
  · rw [System.step_messageCallback h, hst]
  · have : s'.handleData.lastMessageReceiveTime = st.lastMessageReceiveTime := by
      rw [← hst]; rfl
    simp only [getLastMessageReceiveTime, this]

/-- A client subscribes with callback `8` and context `6`, then unsubscribes and
resubscribes with callback `9` and no context: an inbound message goes to `9`. -/
theorem settings_follow_calls_resubscribe :
    (System.init (HandleData.initial 4 false 5 3) []).run
        [.setMessageCallback (some 8) (some 6) 0, .setMessageCallback none none 0,
          .setMessageCallback (some 9) none 0] =
      some ⟨{ HandleData.initial 4 false 5 3 with messageCallback := some 9 }, [], [],
        [.transportSubscribe 5, .transportUnsubscribe 5, .transportSubscribe 5], 0, false⟩ ∧
      let st := [Action.setMessageCallback (some 8) (some 6) 0, .setMessageCallback none none 0,
        .setMessageCallback (some 9) none 0].foldl Settings.after
          (System.init (HandleData.initial 4 false 5 3) []).handleData.settings
      ({ HandleData.initial 4 false 5 3 with messageCallback := some 9 } : HandleData).settings =
          st ∧
        (∀ message getTime userResult s'',
          (⟨{ HandleData.initial 4 false 5 3 with messageCallback := some 9 }, [], [],
            [.transportSubscribe 5, .transportUnsubscribe 5, .transportSubscribe 5], 0, false⟩ :
              System).step (.messageCallback message getTime userResult) = some s'' →
          s''.trace = [.transportSubscribe 5, .transportUnsubscribe 5, .transportSubscribe 5] ++
            (st.registration.map fun r => Effect.messageCallback r.1 message r.2).toList) ∧
        ∀ t, getLastMessageReceiveTime
            (some { HandleData.initial 4 false 5 3 with messageCallback := some 9 }) (some t) =
          if st.lastMessageReceiveTime = INDEFINITE_TIME then (.indefiniteTime, some t)
          else (.ok, some st.lastMessageReceiveTime) := by
  have hrun : (System.init (HandleData.initial 4 false 5 3) []).run
      [.setMessageCallback (some 8) (some 6) 0, .setMessageCallback none none 0,
        .setMessageCallback (some 9) none 0] =
      some ⟨{ HandleData.initial 4 false 5 3 with messageCallback := some 9 }, [], [],
        [.transportSubscribe 5, .transportUnsubscribe 5, .transportSubscribe 5], 0, false⟩ := rfl
  exact ⟨hrun, settings_follow_calls hrun⟩

end IoTHubClientLL
