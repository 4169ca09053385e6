import IoTHubClientLL.ReentrantRuns

/-!
# Delivery when callbacks call back

`ReentrantRuns.lean` shows that every state of a run with calling callbacks satisfies the
invariant of `Delivery.lean`. The delivery results therefore hold of those runs:

* each accepted record is delivered exactly once (`exactly_once_reentrant`);
* the queue stays in send order (`waitingToSend_fifo_reentrant`);
* a record the transport holds is confirmed by the report of its batch alone, with
  `IOTHUB_CLIENT_CONFIRMATION_OK` or `_ERROR`, whatever the callbacks of other records call
  (`inFlight_confirmed_by_report_reentrant`).

Proof shape: `rstep_inFlight` says once what a step with callbacks does to a record the
transport holds. Either the record stays in the batches, or the step is the report of its
batch. A callback's calls confirm nothing (`callbacksAt_runReentries`), so the report gives
each record of the batch the batch's status and nothing else
(`callbacksAt_sendCompleteLoop`). A step only appends to the trace, so a completed record's
confirmation never changes (`completed_stable_reentrant`).
-/

namespace IoTHubClientLL

/-! ## Exactly once and in order -/

/-- What the invariant says of one accepted record: it is in exactly one place, and it has
been confirmed once if and only if it is completed. -/
theorem System.Inv.delivered {s : System} (hi : s.Inv) {e : MessageList} (he : e ∈ s.accepted) :
    s.handleData.waitingToSend.count e + (s.inFlight.map (List.count e)).sum +
        (if s.Completed e then 1 else 0) = 1 ∧
      (¬s.Completed e → callbacksAt e.entry s.trace = [] ∧
        s.trace.count (.messageDestroy e.messageHandle) = 0) ∧
      (s.Completed e → ∃ r, callbacksAt e.entry s.trace =
          (e.callback.map fun fn => (fn, r, e.context)).toList ∧
        s.trace.count (.messageDestroy e.messageHandle) = 1 ∧ s.trace.count (.free e.entry) = 1) := by
  refine ⟨?_, hi.pending e he, hi.completed e he⟩
  have hc := hi.live_count e
  rw [System.live, List.count_append, List.count_flatten] at hc
  by_cases hcomp : s.Completed e <;> simp only [hcomp, he, true_and, not_true, not_false_eq_true,
    if_true, if_false] at hc ⊢ <;> omega

/-- **Each accepted message is delivered exactly once, whatever the callbacks call.** In every
state of a run in which confirmation callbacks may send messages and set options while
`DoWork`, `SendComplete` or `Destroy` is confirming, every record accepted with
`IOTHUB_CLIENT_OK` (by the application or by a callback) is in exactly one place: once in
`waitingToSend`, once in one in-flight batch, or completed. While it is pending its callback
has not been called and its clone not destroyed. Once completed, its callback, when not
`NULL`, has been called exactly once, with the context of its send and one status, and its
clone has been destroyed and the record freed exactly once. -/
theorem exactly_once_reentrant {s : System} (hs : RReachable s) {e : MessageList}
    (he : e ∈ s.accepted) :
    s.handleData.waitingToSend.count e + (s.inFlight.map (List.count e)).sum +
        (if s.Completed e then 1 else 0) = 1 ∧
      (¬s.Completed e → callbacksAt e.entry s.trace = [] ∧
        s.trace.count (.messageDestroy e.messageHandle) = 0) ∧
      (s.Completed e → ∃ r, callbacksAt e.entry s.trace =
          (e.callback.map fun fn => (fn, r, e.context)).toList ∧
        s.trace.count (.messageDestroy e.messageHandle) = 1 ∧ s.trace.count (.free e.entry) = 1) :=
  hs.inv.delivered he

/-- A message reported as sent whose callback sends another message while `SendComplete` runs:
the first is completed with its callback called once, and the second waits. -/
theorem exactly_once_reentrant_resend :
    let e : MessageList := ⟨0, 0, some 7, none, 0⟩
    let s : System := ⟨{ HandleData.initial 4 false 5 3 with
        waitingToSend := [⟨1, 2, none, none, 0⟩] }, [], [e, ⟨1, 2, none, none, 0⟩],
      [.tickcounterCreate 3, .transportCreate 4, .transportRegister 5, .malloc 0, .messageClone 0,
        .callback 0 7 .ok none, .malloc 1, .messageClone 2, .messageDestroy 0, .free 0], 3, false⟩
    RReachable s ∧ e ∈ s.accepted ∧
      (s.handleData.waitingToSend.count e + (s.inFlight.map (List.count e)).sum +
          (if s.Completed e then 1 else 0) = 1 ∧
        (¬s.Completed e → callbacksAt e.entry s.trace = [] ∧
          s.trace.count (.messageDestroy e.messageHandle) = 0) ∧
        (s.Completed e → ∃ r, callbacksAt e.entry s.trace =
            (e.callback.map fun fn => (fn, r, e.context)).toList ∧
          s.trace.count (.messageDestroy e.messageHandle) = 1 ∧
          s.trace.count (.free e.entry) = 1)) := by
  intro e s
  have hs : RReachable s :=
    .step (fun _ => [.sendEventAsync (some 10) none none ⟨some 1, none, some 2⟩]) 1
      (.sendComplete 0 .success)
      (.step noReentry 1 (.detach 0 0)
        (.step noReentry 1 (.sendEventAsync (some 9) (some 7) none true none true)
          (@RReachable.create (some ⟨some 1, none, none, none, none, none⟩)
            ⟨true, some 3, some 4, some 5⟩ _ _ rfl) rfl) rfl) rfl
  exact ⟨hs, by decide, exactly_once_reentrant hs (by decide)⟩

/-- **The queue stays in send order, whatever the callbacks call.** In every state of a run with
calling callbacks, the records of `waitingToSend` have strictly increasing addresses, and
addresses are handed out in the order of the accepting sends, the callbacks' sends included;
the queue is a subsequence of the accepted records. -/
theorem waitingToSend_fifo_reentrant {s : System} (hs : RReachable s) :
    (s.handleData.waitingToSend.map (·.entry)).Sorted (· < ·) ∧
      s.handleData.waitingToSend.Sublist s.accepted :=
  ⟨hs.inv.sorted.sublist (hs.inv.waiting_sublist.map _), hs.inv.waiting_sublist⟩

/-- The callback of a reported message sends a second message, and the application then sends a
third: both wait, in the order they were sent. -/
theorem waitingToSend_fifo_reentrant_resend :
    let s : System := ⟨{ HandleData.initial 4 false 5 3 with
        waitingToSend := [⟨1, 2, none, none, 0⟩, ⟨3, 3, none, none, 0⟩] }, [],
      [⟨0, 0, some 7, none, 0⟩, ⟨1, 2, none, none, 0⟩, ⟨3, 3, none, none, 0⟩],
      [.tickcounterCreate 3, .transportCreate 4, .transportRegister 5, .malloc 0, .messageClone 0,
        .callback 0 7 .ok none, .malloc 1, .messageClone 2, .messageDestroy 0, .free 0,
        .malloc 3, .messageClone 3], 4, false⟩
    RReachable s ∧
      ((s.handleData.waitingToSend.map (·.entry)).Sorted (· < ·) ∧
        s.handleData.waitingToSend.Sublist s.accepted) := by
  intro s
  have hs : RReachable s :=
    .step noReentry 1 (.sendEventAsync (some 11) none none true none true)
      (.step (fun _ => [.sendEventAsync (some 10) none none ⟨some 1, none, some 2⟩]) 1
        (.sendComplete 0 .success)
        (.step noReentry 1 (.detach 0 0)
          (.step noReentry 1 (.sendEventAsync (some 9) (some 7) none true none true)
            (@RReachable.create (some ⟨some 1, none, none, none, none, none⟩)
              ⟨true, some 3, some 4, some 5⟩ _ _ rfl) rfl) rfl) rfl) rfl
  exact ⟨hs, waitingToSend_fifo_reentrant hs⟩

/-! ## What the loops confirm -/

/-- The calls a callback makes confirm nothing. -/
theorem callbacksAt_runReentries (p : Ptr) (h : HandleData) (calls : List Reentry) :
    callbacksAt p (runReentries h calls).2 = [] := by
  induction calls generalizing h with
  | nil => rfl
  | cons call calls ih =>
    simp only [runReentries, callbacksAt_append, ih, List.append_nil]
    cases call with
    | setOption name value res => exact callbacksAt_quiet (setOption_quiet h name value res).2
    | sendEventAsync m cb ctx env =>
      simp only [Reentry.run]
      by_cases hok : (sendEventAsync (some h) m cb ctx env).1 = .ok
      · obtain ⟨_, _, _, _, -, -, -, -, hr⟩ := sendEventAsync_of_ok hok
        simp [hr, callbacksAt]
      · rcases (sendEventAsync_of_ne_ok hok).2 with he | ⟨_, -, he⟩ <;> simp [he, callbacksAt]

/-- **The report confirms the batch with its status alone**: seen from any address, the report
loop confirms what completing the batch's records in order would, whatever their callbacks
call. -/
theorem callbacksAt_sendCompleteLoop (p : Ptr) (app : MessageList → List Reentry)
    (r : ConfirmationResult) :
    ∀ (l : List MessageList) (h : HandleData),
      callbacksAt p (sendCompleteLoop app r l h).2 = callbacksAt p (l.flatMap (complete r))
  | [], _ => rfl
  | x :: l, h => by
    simp only [sendCompleteLoop, List.flatMap_cons, callbacksAt_append, confirm_eq,
      callbacksAt_runReentries, callbacksAt_sendCompleteLoop p app r l, complete, List.append_nil]

/-- The report loop frees every record of its batch. -/
theorem free_mem_sendCompleteLoop (app : MessageList → List Reentry) (r : ConfirmationResult) :
    ∀ {l : List MessageList} {x : MessageList} (h : HandleData), x ∈ l →
      Effect.free x.entry ∈ (sendCompleteLoop app r l h).2
  | y :: l, x, h, hx => by
    simp only [sendCompleteLoop]
    rcases List.mem_cons.mp hx with rfl | hx
    · simp
    · exact List.mem_append_right _ (free_mem_sendCompleteLoop app r _ hx)

namespace System

variable {s s' : System}

/-- The records of one batch are at distinct addresses and hold distinct clones. -/
theorem Inv.batch_nodup (hs : s.Inv) {b : ℕ} {batch : List MessageList}
    (hb : s.inFlight[b]? = some batch) :
    (batch.map (·.entry)).Nodup ∧ (batch.map (·.messageHandle)).Nodup := by
  have hlive : ∀ x ∈ batch, x ∈ s.live := fun x hx => List.mem_append_right _
    ((flatten_perm_eraseIdx hb).symm.subset (List.mem_append_left _ hx))
  have hnd : batch.Nodup := (List.nodup_append.mp ((flatten_perm_eraseIdx hb).nodup_iff.mp
    (List.nodup_append.mp hs.live_nodup).2.1)).1
  exact ⟨hnd.map_on fun x hx y hy => hs.entry_inj (hs.mem_live (hlive x hx)).1
      (hs.mem_live (hlive y hy)).1,
    hnd.map_on fun x hx y hy => hs.handle_inj (hs.mem_live (hlive x hx)).1
      (hs.mem_live (hlive y hy)).1⟩

/-- A step with callbacks only appends to the trace and to the accepted records. -/
theorem rstep_extends {app : MessageList → List Reentry} {fuel : ℕ} {a : Action}
    (h : s.rstep app fuel a = some s') :
    (∃ E, s'.trace = s.trace ++ E) ∧ s.accepted <+: s'.accepted := by
  unfold rstep at h
  split_ifs at h
  split at h
  -- `DoWork`, `SendComplete` and `Destroy` commit with `advance`
  any_goals
    obtain ⟨_, -, hc⟩ := Option.bind_eq_some.mp h
    obtain ⟨_, -, rfl⟩ := Option.map_eq_some'.mp hc
    exact ⟨⟨_, rfl⟩, List.prefix_append _ _⟩
  · refine ⟨?_, accepted_prefix_step h⟩
    rcases step_cases h with ⟨-, ⟨_, ha⟩ | hr⟩ | hc
    · exact (ha.trace.imp fun _ h => h.1)
    · exact (hr.trace.imp fun _ h => h.1)
    · obtain ⟨pre, post, ht, -⟩ := hc.trace
      exact ⟨_, ht⟩

/-- **A step with callbacks, seen from a record the transport holds**: the record stays in the
batches, or the step is the report of its batch, and the step's effects are the report loop's. -/
theorem rstep_inFlight (hs : s.Inv) {app : MessageList → List Reentry} {fuel : ℕ} {a : Action}
    (h : s.rstep app fuel a = some s') {e : MessageList} (he : e ∈ s.inFlight.flatten) :
    e ∈ s'.inFlight.flatten ∨ ∃ b result batch, a = .sendComplete b result ∧
      s.inFlight[b]? = some batch ∧ e ∈ batch ∧
      s'.trace = s.trace ++
        (sendCompleteLoop app (if result = .success then .ok else .error) batch s.handleData).2 := by
  unfold rstep at h
  split_ifs at h
  split at h
  · obtain ⟨_, -, hc⟩ := Option.bind_eq_some.mp h
    obtain ⟨_, -, rfl⟩ := Option.map_eq_some'.mp hc
    exact .inl he
  · rename_i b result
    obtain ⟨batch, hb, hc⟩ := Option.bind_eq_some.mp h
    obtain ⟨_, -, rfl⟩ := Option.map_eq_some'.mp hc
    by_cases heb : e ∈ batch
    · exact .inr ⟨b, result, batch, rfl, hb, heb, rfl⟩
    · exact .inl ((List.mem_append.mp ((flatten_perm_eraseIdx hb).subset he)).resolve_left heb)
  · obtain ⟨_, -, hc⟩ := Option.bind_eq_some.mp h
    obtain ⟨_, -, rfl⟩ := Option.map_eq_some'.mp hc
    exact .inl he
  · rcases hs.inFlight_step h he with ⟨he', -⟩ | ⟨⟨b, r, rfl⟩, -⟩
    · exact .inl he'
    · simp_all

/-- Along one step, a completed record stays completed and gains no confirmation. -/
theorem Inv.completed_step (hs : s.Inv) (hs' : s'.Inv) {E : List Effect}
    (htrace : s'.trace = s.trace ++ E) (hacc : s.accepted <+: s'.accepted) {e : MessageList}
    (he : e ∈ s.accepted) (hc : s.Completed e) :
    s'.Completed e ∧ callbacksAt e.entry s'.trace = callbacksAt e.entry s.trace := by
  have hc' : s'.Completed e := by
    rw [Completed, htrace]
    exact List.mem_append_left _ hc
  refine ⟨hc', ?_⟩
  obtain ⟨r, h₁, -⟩ := hs.completed e he hc
  obtain ⟨r', h₁', -⟩ := hs'.completed e (hacc.subset he) hc'
  rw [htrace, callbacksAt_append, h₁] at h₁' ⊢
  have hlen := congrArg List.length h₁'
  rcases hcb : e.callback with _ | fn
  · simpa [hcb] using hlen
  · simp only [hcb, Option.map_some', Option.toList_some, List.length_append,
      List.length_singleton, add_right_eq_self, List.length_eq_zero] at hlen
    rw [hlen, List.append_nil]

end System

/-- The runs with calling callbacks stay among the reachable states. -/
theorem RReachable.rrun {s s' : System} (hs : RReachable s)
    {steps : List ((MessageList → List Reentry) × ℕ × Action)} (hrun : s.rrun steps = some s') :
    RReachable s' := by
  induction steps generalizing s with
  | nil => exact Option.some.inj hrun ▸ hs
  | cons step steps ih =>
    obtain ⟨app, fuel, a⟩ := step
    obtain ⟨s₁, h₁, h₂⟩ := Option.bind_eq_some.mp hrun
    exact ih (.step app fuel a hs h₁) h₂

/-- Once completed, a record stays completed and is never confirmed again, whatever the
callbacks call. -/
theorem completed_stable_reentrant {s s' : System} (hs : RReachable s) {e : MessageList}
    (he : e ∈ s.accepted) (hc : s.Completed e)
    {steps : List ((MessageList → List Reentry) × ℕ × Action)} (hrun : s.rrun steps = some s') :
    s'.Completed e ∧ callbacksAt e.entry s'.trace = callbacksAt e.entry s.trace := by
  induction steps generalizing s with
  | nil =>
    obtain rfl := Option.some.inj hrun
    exact ⟨hc, rfl⟩
  | cons step steps ih =>
    obtain ⟨app, fuel, a⟩ := step
    obtain ⟨s₁, h₁, h₂⟩ := Option.bind_eq_some.mp hrun
    have hs₁ : RReachable s₁ := .step app fuel a hs h₁
    obtain ⟨⟨E, htrace⟩, hacc⟩ := System.rstep_extends h₁
    obtain ⟨hc₁, hcb₁⟩ := hs.inv.completed_step hs₁.inv htrace hacc he hc
    obtain ⟨hc', hcb'⟩ := ih hs₁ (hacc.subset he) hc₁ h₂
    exact ⟨hc', hcb'.trans hcb₁⟩

/-! ## The transport's records -/

/-- **The transport's records are confirmed by the transport, whatever the callbacks call.**
From any state of a run with calling callbacks, a record the transport holds stays in the
batches, unconfirmed, until the `SendComplete` that reports its batch confirms it, once, with
`IOTHUB_CLIENT_CONFIRMATION_OK` or `_ERROR`. No `DoWork` times it out and no `Destroy`
confirms it, whatever its expiry and whatever the callbacks of other records send. -/
theorem inFlight_confirmed_by_report_reentrant {s s' : System} (hs : RReachable s)
    {e : MessageList} (he : e ∈ s.inFlight.flatten)
    {steps : List ((MessageList → List Reentry) × ℕ × Action)} (hrun : s.rrun steps = some s') :
    (e ∈ s'.inFlight.flatten ∧ callbacksAt e.entry s'.trace = []) ∨
      ∃ r, (r = .ok ∨ r = .error) ∧ s'.Completed e ∧
        callbacksAt e.entry s'.trace = (e.callback.map fun fn => (fn, r, e.context)).toList := by
  induction steps generalizing s with
  | nil =>
    obtain rfl := Option.some.inj hrun
    obtain ⟨hacc, hnc⟩ := hs.inv.mem_live (List.mem_append_right _ he)
    exact .inl ⟨he, (hs.inv.pending e hacc hnc).1⟩
  | cons step steps ih =>
    obtain ⟨app, fuel, a⟩ := step
    obtain ⟨hacc, hnc⟩ := hs.inv.mem_live (List.mem_append_right _ he)
    obtain ⟨s₁, h₁, h₂⟩ := Option.bind_eq_some.mp hrun
    have hs₁ : RReachable s₁ := .step app fuel a hs h₁
    rcases System.rstep_inFlight hs.inv h₁ he with he₁ | ⟨b, result, batch, rfl, hb, heb, htrace⟩
    · exact ih hs₁ he₁ h₂
    · -- the report of its batch confirms it, and nothing after that does
      have hc₁ : s₁.Completed e := by
        rw [System.Completed, htrace]
        exact List.mem_append_right _ (free_mem_sendCompleteLoop app _ _ heb)
      obtain ⟨hLe, hLh⟩ := hs.inv.batch_nodup hb
      obtain ⟨hc', hcb'⟩ := completed_stable_reentrant hs₁
        ((System.rstep_extends h₁).2.subset hacc) hc₁ h₂
      refine .inr ⟨if result = .success then .ok else .error, by split_ifs <;> simp, hc', ?_⟩
      rw [hcb', htrace, callbacksAt_append, callbacksAt_sendCompleteLoop,
        (complete_flatMap_of_mem hLe hLh heb).1, (hs.inv.pending e hacc hnc).1, List.nil_append]

/-- A message sent with a `3` ms timeout at clock `0` and unlinked by the transport: a `DoWork`
at clock `5`, past its expiry, leaves it in its batch, and the report confirms it with
`IOTHUB_CLIENT_CONFIRMATION_OK` while its callback sends another message. -/
theorem inFlight_confirmed_by_report_reentrant_resend :
    let e : MessageList := ⟨0, 0, some 7, none, 3⟩
    let h : HandleData := { HandleData.initial 4 false 5 3 with currentMessageTimeout := 3 }
    let pre : List Effect := [.tickcounterCreate 3, .transportCreate 4, .transportRegister 5,
      .malloc 0, .messageClone 0]
    let s : System := ⟨h, [[e]], [e], pre, 1, false⟩
    let steps : List ((MessageList → List Reentry) × ℕ × Action) :=
      [(noReentry, 1, .doWork (some 5)),
        (fun _ => [.sendEventAsync (some 10) none none ⟨some 1, some 5, some 2⟩], 1,
          .sendComplete 0 .success)]
    let s' : System := ⟨{ h with waitingToSend := [⟨1, 2, none, none, 8⟩] }, [],
      [e, ⟨1, 2, none, none, 8⟩], pre ++ [.transportDoWork 4, .callback 0 7 .ok none, .malloc 1,
        .messageClone 2, .messageDestroy 0, .free 0], 3, false⟩
    RReachable s ∧ e ∈ s.inFlight.flatten ∧ s.rrun steps = some s' ∧
      ((e ∈ s'.inFlight.flatten ∧ callbacksAt e.entry s'.trace = []) ∨
        ∃ r, (r = .ok ∨ r = .error) ∧ s'.Completed e ∧
          callbacksAt e.entry s'.trace = (e.callback.map fun fn => (fn, r, e.context)).toList) := by
  intro e h pre s steps s'
  have hs : RReachable s := .step noReentry 1 (.detach 0 0)
    (.step noReentry 1 (.sendEventAsync (some 9) (some 7) none true (some 0) true)
      (.step noReentry 1 (.setOption (some "messageTimeout".toList) (some 3) .ok)
        (@RReachable.create (some ⟨some 1, none, none, none, none, none⟩)
          ⟨true, some 3, some 4, some 5⟩ _ _ rfl) rfl) rfl) rfl
  have hrun : s.rrun steps = some s' := rfl
  exact ⟨hs, by decide, hrun, inFlight_confirmed_by_report_reentrant hs (by decide) hrun⟩

end IoTHubClientLL
