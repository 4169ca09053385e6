import IoTHubClientLL.Instance
import IoTHubClientLL.ReentrantRuns

/-!
# The instance over a run whose callbacks call back

`Instance.lean` follows the instance's resources and the drain of `IoTHubClient_LL_Destroy`
along runs whose callbacks make no calls. Here the confirmation callbacks of `DoWork`,
`SendComplete` and `Destroy` may call `IoTHubClient_LL_SendEventAsync` and
`IoTHubClient_LL_SetOption` on the instance (`System.rstep`), and both results still hold:

* The resource calls of every run are the creation's acquisitions, followed, once the instance
  is destroyed, by their releases in reverse order (`resources_bracketed_reentrant`). The calls
  a callback makes acquire and release nothing, also those it makes from the drain of
  `Destroy`, after the transport's `_Destroy`.
* `Destroy` leaves no record waiting, records a callback sends during the drain included: the
  drain pops the head until the list is empty, so it also confirms what was appended while it
  ran. Each accepted record has then been confirmed once, its clone destroyed and the record
  freed once, or the transport still holds it (`destroy_completes_waiting_reentrant`).

Proof shape: `KeepsResources` says what a call keeps, and each loop keeps it one record at a
time, by `KeepsResources.trans`. `System.rstep_frame` then says once what a step does to the
resources, and the run-level results are inductions over `RReachable` that cite it.
-/

namespace IoTHubClientLL

/-! ## What the loops keep -/

/-- From the instance `h` and the effects `out` to `r`: the instance holds the same resources,
and the effects added acquire or release none. -/
def KeepsResources (h : HandleData) (out : List Effect) (r : HandleData × List Effect) : Prop :=
  r.1.acquired = h.acquired ∧ r.2.filter Effect.isLifecycle = out.filter Effect.isLifecycle

theorem KeepsResources.refl (h : HandleData) (out : List Effect) :
    KeepsResources h out (h, out) :=
  ⟨rfl, rfl⟩

theorem KeepsResources.trans {h h₁ : HandleData} {out out₁ : List Effect}
    {r : HandleData × List Effect} (h₁₂ : KeepsResources h out (h₁, out₁))
    (h₂₃ : KeepsResources h₁ out₁ r) : KeepsResources h out r :=
  ⟨h₂₃.1.trans h₁₂.1, h₂₃.2.trans h₁₂.2⟩

theorem HandleData.Extends.acquired {h h' : HandleData} (he : h.Extends h') :
    h'.acquired = h.acquired := by
  obtain ⟨A, hA⟩ := he
  rw [hA]
  rfl

/-- A call from a callback acquires and releases nothing. -/
theorem Reentry.run_noLifecycle (h : HandleData) (call : Reentry) :
    (call.run h).2.filter Effect.isLifecycle = [] := by
  cases call with
  | sendEventAsync m cb ctx env =>
    exact (sendEventAsync_keepsFrame h m cb ctx env true none true).noLifecycle
  | setOption name value res => exact (setOption_keepsFrame h name value res).noLifecycle

theorem runReentries_noLifecycle (h : HandleData) (calls : List Reentry) :
    (runReentries h calls).2.filter Effect.isLifecycle = [] := by
  induction calls generalizing h with
  | nil => rfl
  | cons call calls ih =>
    simp only [runReentries, List.filter_append, Reentry.run_noLifecycle, ih, List.append_nil]

/-- **Confirming one record keeps the resources**, whatever its callback calls. -/
theorem confirm_keepsResources (app : MessageList → List Reentry) (result : ConfirmationResult)
    (e : MessageList) {h h₁ : HandleData} (hh : h₁.acquired = h.acquired) (out : List Effect) :
    KeepsResources h out ((confirm app result e h₁).1,
      out ++ (confirm app result e h₁).2 ++ [.messageDestroy e.messageHandle, .free e.entry]) := by
  refine ⟨(confirm_extends app result e h₁).acquired.trans hh, ?_⟩
  rw [confirm_eq]
  unfold invoke
  split <;> simp [List.filter_append, runReentries_noLifecycle, Effect.isLifecycle]

theorem doTimeoutsLoop_keepsResources {app : MessageList → List Reentry} {nowTick : UInt64} :
    ∀ {fuel : ℕ} {i : Option ℕ} {h : HandleData} {out : List Effect}
      {r : HandleData × List Effect}, doTimeoutsLoop app nowTick fuel i h out = some r →
      KeepsResources h out r
  | 0, _, _, _, _, hr => nomatch hr
  | fuel + 1, none, h, out, _, hr => by
    cases hr
    exact .refl h out
  | fuel + 1, some i, h, out, r, hr => by
    unfold doTimeoutsLoop at hr
    split at hr
    · cases hr
      exact .refl h out
    · split at hr
      · dsimp only at hr
        exact (confirm_keepsResources app _ _ (by rfl) out).trans (doTimeoutsLoop_keepsResources hr)
      · exact doTimeoutsLoop_keepsResources hr

theorem sendCompleteLoop_keepsResources (app : MessageList → List Reentry)
    (result : ConfirmationResult) :
    ∀ (l : List MessageList) (h : HandleData) (out : List Effect),
      KeepsResources h out
        ((sendCompleteLoop app result l h).1, out ++ (sendCompleteLoop app result l h).2)
  | [], h, out => by simpa [sendCompleteLoop] using KeepsResources.refl h out
  | x :: l, h, out => by
    simpa [sendCompleteLoop, List.append_assoc] using
      (confirm_keepsResources app result x rfl out).trans
        (sendCompleteLoop_keepsResources app result l _ _)

theorem destroyLoop_keepsResources {app : MessageList → List Reentry} :
    ∀ {fuel : ℕ} {h : HandleData} {out : List Effect} {r : HandleData × List Effect},
      destroyLoop app fuel h out = some r → KeepsResources h out r
  | 0, _, _, _, hr => nomatch hr
  | fuel + 1, h, out, r, hr => by
    unfold destroyLoop at hr
    split at hr
    · cases hr
      exact .refl h out
    · dsimp only at hr
      exact (confirm_keepsResources app _ _ (by rfl) out).trans (destroyLoop_keepsResources hr)

/-! ## One step -/

namespace System

variable {s s' : System} {app : MessageList → List Reentry} {fuel : ℕ} {a : Action}

/-- **What one step with callbacks does to the resources.** A step is taken only before
`Destroy`. It keeps the instance's resources, and it makes a resource call only when it is
`Destroy`, which releases them all, last acquired first released. -/
theorem rstep_frame (h : s.rstep app fuel a = some s') :
    s.destroyed = false ∧ s'.destroyed = decide (a = .destroy) ∧
      s'.handleData.acquired = s.handleData.acquired ∧
      s'.trace.filter Effect.isLifecycle = s.trace.filter Effect.isLifecycle ++
        if a = .destroy then (s.handleData.acquired.map Effect.release).reverse else [] := by
  unfold rstep at h
  split_ifs at h with hd
  replace hd : s.destroyed = false := Bool.eq_false_iff.mpr hd
  refine ⟨hd, ?_⟩
  split at h
  · -- `DoWork`: the scan, then the transport's `_DoWork`
    obtain ⟨r, hr, hc⟩ := Option.bind_eq_some.mp h
    obtain ⟨q, hq, rfl⟩ := Option.map_eq_some'.mp hr
    obtain ⟨n, -, rfl⟩ := Option.map_eq_some'.mp hc
    obtain ⟨hacq, hlc⟩ := doTimeoutsLoop_keepsResources hq
    exact ⟨by simp [advance, hd], hacq,
      by simp [advance, List.filter_append, hlc, Effect.isLifecycle]⟩
  · -- `SendComplete`: the report loop
    obtain ⟨batch, -, hc⟩ := Option.bind_eq_some.mp h
    obtain ⟨n, -, rfl⟩ := Option.map_eq_some'.mp hc
    obtain ⟨hacq, hlc⟩ := sendCompleteLoop_keepsResources app
      (if _ = BatchStateResult.success then .ok else .error) batch s.handleData []
    exact ⟨by simp [advance, hd], hacq, by simpa [advance, sendCompleteReentrant] using hlc⟩
  · -- `Destroy`: the transport's teardown, the drain, the tick counter's
    obtain ⟨effs, he, hc⟩ := Option.bind_eq_some.mp h
    obtain ⟨q, hq, rfl⟩ := Option.map_eq_some'.mp he
    obtain ⟨n, -, rfl⟩ := Option.map_eq_some'.mp hc
    obtain ⟨hacq, hlc⟩ := destroyLoop_keepsResources hq
    rw [List.filter_nil] at hlc
    have htick : q.1.tickCounter = s.handleData.tickCounter := by
      simpa [HandleData.acquired] using congrArg List.head? hacq
    refine ⟨rfl, rfl, ?_⟩
    simp only [advance, htick, HandleData.acquired]
    split_ifs <;> simp [List.filter_append, hlc, Effect.isLifecycle, Effect.release]
  · obtain ⟨-, hd', hacq, -, htrace⟩ := step_frame h
    exact ⟨hd', hacq, htrace⟩

/-- `Destroy` with callbacks empties the queue. -/
theorem rstep_destroy_waitingToSend (h : s.rstep app fuel .destroy = some s') :
    s'.handleData.waitingToSend = [] := by
  unfold rstep at h
  split_ifs at h
  obtain ⟨effs, -, hc⟩ := Option.bind_eq_some.mp h
  obtain ⟨n, -, rfl⟩ := Option.map_eq_some'.mp hc
  rfl

end System

/-! ## Whole runs -/

/-- **Every resource is released exactly once, at `Destroy`, whatever the callbacks call.** In
every state of a run whose confirmation callbacks may send and set options while `DoWork`,
`SendComplete` and `Destroy` run, the calls in the trace that acquire or release the
instance's resources are the creation's acquisitions, followed, once the instance is
destroyed, by their releases, last acquired first released. -/
theorem resources_bracketed_reentrant {s : System} (hs : RReachable s) :
    s.trace.filter Effect.isLifecycle = s.handleData.acquired ++
      if s.destroyed then (s.handleData.acquired.map Effect.release).reverse else [] := by
  induction hs with
  | create hc =>
    rw [System.init, create_acquired hc, filter_isLifecycle_acquired]
    simp
  | createWithTransport hc =>
    rw [System.init, createWithTransport_acquired hc, filter_isLifecycle_acquired]
    simp
  | @step s s' app fuel a _ hstep ih =>
    obtain ⟨hd, hd', hacq, htrace⟩ := System.rstep_frame hstep
    rw [htrace, ih, hd, hd', hacq]
    by_cases ha : a = .destroy <;> simp [ha]

/-- A message whose callback, called by `Destroy`, sets a transport option and sends another
message: the transport is called after its `_Destroy`, and the resources are still released
once each, in reverse order. -/
theorem resources_bracketed_reentrant_destroy_resend :
    let s : System := ⟨HandleData.initial 4 false 5 3, [],
      [⟨0, 0, some 7, none, 0⟩, ⟨1, 2, none, none, 0⟩],
      [.tickcounterCreate 3, .transportCreate 4, .transportRegister 5, .malloc 0, .messageClone 0,
        .transportUnregister 5, .transportDestroy 4, .callback 0 7 .becauseDestroy none,
        .transportSetOption 4 "logtrace".toList, .malloc 1, .messageClone 2, .messageDestroy 0,
        .free 0, .messageDestroy 2, .free 1, .tickcounterDestroy 3], 3, true⟩
    RReachable s ∧ s.trace.filter Effect.isLifecycle = s.handleData.acquired ++
      if s.destroyed then (s.handleData.acquired.map Effect.release).reverse else [] := by
  intro s
  have hs : RReachable s :=
    .step (fun _ => [.setOption (some "logtrace".toList) (some 1) .ok,
        .sendEventAsync (some 10) none none ⟨some 1, none, some 2⟩]) 3 .destroy
      (.step noReentry 1 (.sendEventAsync (some 9) (some 7) none true none true)
        (@RReachable.create (some ⟨some 1, none, none, none, none, none⟩)
          ⟨true, some 3, some 4, some 5⟩ _ _ rfl) rfl) rfl
  exact ⟨hs, resources_bracketed_reentrant hs⟩

theorem RReachable.waitingToSend_of_destroyed {s : System} (hs : RReachable s)
    (hd : s.destroyed = true) : s.handleData.waitingToSend = [] := by
  induction hs with
  | create => cases hd
  | createWithTransport => cases hd
  | step _ _ a _ hstep =>
    obtain ⟨-, hd', -⟩ := System.rstep_frame hstep
    rw [hd, eq_comm, decide_eq_true_iff] at hd'
    exact System.rstep_destroy_waitingToSend (hd' ▸ hstep)

/-- **`Destroy` leaves no accepted message unconfirmed in the client, whatever the callbacks
call.** In a destroyed state of a run whose confirmation callbacks may send and set options,
`waitingToSend` is empty, and every record accepted with `IOTHUB_CLIENT_OK`, those the
callbacks sent during the drain of `Destroy` included, has been completed (confirmed, its clone
destroyed and the record freed) or is in a batch the transport still holds. Completed means
its callback, if it has one, was called once, with its own context, its clone destroyed once and
the record freed once. -/
theorem destroy_completes_waiting_reentrant {s : System} (hs : RReachable s)
    (hd : s.destroyed = true) :
    s.handleData.waitingToSend = [] ∧ ∀ e ∈ s.accepted,
      (∃ r, callbacksAt e.entry s.trace = (e.callback.map fun fn => (fn, r, e.context)).toList ∧
        s.trace.count (.messageDestroy e.messageHandle) = 1 ∧ s.trace.count (.free e.entry) = 1) ∨
      e ∈ s.inFlight.flatten :=
  have hw := hs.waitingToSend_of_destroyed hd
  ⟨hw, hs.inv.accepted_of_waitingToSend_nil hw⟩

/-- On a shared transport: one message in a batch, a second still waiting, whose callback,
called by `Destroy`, sends a third. The drain confirms the second and the third, and the
first stays with the transport. -/
theorem destroy_completes_waiting_reentrant_resend :
    let s : System := ⟨HandleData.initial 4 true 5 3, [[⟨0, 0, some 7, none, 0⟩]],
      [⟨0, 0, some 7, none, 0⟩, ⟨1, 1, some 8, none, 0⟩, ⟨2, 3, none, none, 0⟩],
      [.tickcounterCreate 3, .transportRegister 5, .malloc 0, .messageClone 0, .malloc 1,
        .messageClone 1, .transportUnregister 5, .callback 1 8 .becauseDestroy none, .malloc 2,
        .messageClone 3, .messageDestroy 1, .free 1, .messageDestroy 3, .free 2,
        .tickcounterDestroy 3], 4, true⟩
    RReachable s ∧ s.destroyed = true ∧ (s.handleData.waitingToSend = [] ∧ ∀ e ∈ s.accepted,
      (∃ r, callbacksAt e.entry s.trace = (e.callback.map fun fn => (fn, r, e.context)).toList ∧
        s.trace.count (.messageDestroy e.messageHandle) = 1 ∧ s.trace.count (.free e.entry) = 1) ∨
      e ∈ s.inFlight.flatten) := by
  intro s
  have hs : RReachable s :=
    .step (fun x => if x.entry = 1 then
        [.sendEventAsync (some 10) none none ⟨some 2, none, some 3⟩] else []) 3 .destroy
      (.step noReentry 1 (.detach 0 0)
        (.step noReentry 1 (.sendEventAsync (some 9) (some 8) none true none true)
          (.step noReentry 1 (.sendEventAsync (some 9) (some 7) none true none true)
            (@RReachable.createWithTransport (some ⟨some 1, some 4, none, none⟩)
              ⟨true, some 3, none, some 5⟩ _ _ rfl) rfl) rfl) rfl) rfl
  exact ⟨hs, rfl, destroy_completes_waiting_reentrant hs rfl⟩

end IoTHubClientLL
