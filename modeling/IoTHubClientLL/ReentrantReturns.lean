import IoTHubClientLL.Confirmations

/-!
# When the loops with calling callbacks return

`Reentrant.lean` shows that `IoTHubClient_LL_Destroy` and `IoTHubClient_LL_DoWork` never return
when every confirmation callback sends a message with a callback again. This is the other
side. When every callback makes at most `k` calls, and every message it sends has no
confirmation callback (`Reentry.Silent`), both return on a fuel bounded by the queue:

* the drain of `Destroy` on `n` waiting records returns on any fuel above `n * (k + 1)`
  (`destroyReentrant_returns`);
* so does the scan of `DoWork`, whatever the clock reading and whatever the records' expiries,
  wrapped ones included (`doWork_returns`).

Whatever the callbacks call, a `DoWork` that returns has timed out every record of the queue
that had expired and kept every other one (`doWork_times_out_expired`). The cursor that
`DoTimeouts` saves before each callback never skips a record that was queued when the scan
began. In a run, that timeout is then the one confirmation the record ever receives
(`doWork_step_times_out`).

Proof shape: a ranking function. A record weighs `k + 1` when it has a callback and `1`
otherwise (`weight`), and `load` sums the weights of a list. Confirming a record replaces its
weight by the weights of the at most `k` records its callback links, `1` each
(`load_confirm`). Each turn of either loop thus lowers by at least one the load of what is
left to visit: the queue for the drain, the queue from the cursor for the scan. A fuel above
the starting load is never exhausted.
-/

namespace IoTHubClientLL

/-! ## Callbacks that send without callbacks -/

/-- A call from a callback that, if it sends, sends a message without a confirmation callback,
so that confirming that message calls nothing back. -/
def Reentry.Silent : Reentry → Prop
  | .sendEventAsync _ cb _ _ => cb = none
  | .setOption _ _ _ => True

instance : DecidablePred Reentry.Silent
  | .sendEventAsync _ cb _ _ => inferInstanceAs (Decidable (cb = none))
  | .setOption _ _ _ => inferInstanceAs (Decidable True)

/-- A silent call appends at most one record, without a callback. -/
theorem Reentry.run_silent (h : HandleData) {call : Reentry} (hs : call.Silent) :
    ∃ B, (call.run h).1.waitingToSend = h.waitingToSend ++ B ∧ B.length ≤ 1 ∧
      ∀ y ∈ B, y.callback = none := by
  cases call with
  | setOption name value res =>
    refine ⟨[], ?_, by simp, by simp⟩
    rcases name with _ | name <;> rcases value with _ | v <;>
      simp only [Reentry.run, IoTHubClientLL.setOption, Option.getD_some] <;> (try split_ifs) <;>
      simp
  | sendEventAsync m cb ctx env =>
    by_cases hok : (IoTHubClientLL.sendEventAsync (some h) m cb ctx env).1 = .ok
    · obtain ⟨_, p, t, c, ⟨⟩, -, -, -, hr⟩ := sendEventAsync_of_ok hok
      exact ⟨[⟨p, c, cb, ctx, t⟩], by simp [Reentry.run, hr], by simp, by simpa using hs⟩
    · exact ⟨[], by simp [Reentry.run, (sendEventAsync_of_ne_ok hok).1], by simp, by simp⟩

/-- Silent calls append at most one record each, none with a callback. -/
theorem runReentries_silent : ∀ (h : HandleData) {calls : List Reentry},
    (∀ call ∈ calls, call.Silent) →
    ∃ A, (runReentries h calls).1.waitingToSend = h.waitingToSend ++ A ∧
      A.length ≤ calls.length ∧ ∀ y ∈ A, y.callback = none
  | h, [], _ => ⟨[], by simp [runReentries], by simp, by simp⟩
  | h, call :: calls, hs => by
    obtain ⟨B, hB, hBlen, hBcb⟩ := Reentry.run_silent h (hs call (List.mem_cons_self _ _))
    obtain ⟨A, hA, hAlen, hAcb⟩ :=
      runReentries_silent (call.run h).1 fun c hc => hs c (List.mem_cons_of_mem _ hc)
    refine ⟨B ++ A, by simp [runReentries, hA, hB], ?_, ?_⟩
    · simp only [List.length_append, List.length_cons]
      omega
    · intro y hy
      exact (List.mem_append.mp hy).elim (hBcb y) (hAcb y)

/-! ## The ranking function -/

/-- What a record can still cost a loop: its own turn and, when it has a callback, the turns of
the at most `k` records its callback links. -/
def weight (k : ℕ) (y : MessageList) : ℕ := if y.callback.isSome then k + 1 else 1

/-- The weights of `l`, summed. -/
def load (k : ℕ) (l : List MessageList) : ℕ := (l.map (weight k)).sum

@[simp] theorem load_nil (k : ℕ) : load k [] = 0 := rfl

@[simp] theorem load_cons (k : ℕ) (y : MessageList) (l : List MessageList) :
    load k (y :: l) = weight k y + load k l := by
  simp [load]

@[simp] theorem load_append (k : ℕ) (l₁ l₂ : List MessageList) :
    load k (l₁ ++ l₂) = load k l₁ + load k l₂ := by
  simp [load]

theorem one_le_weight (k : ℕ) (y : MessageList) : 1 ≤ weight k y := by
  unfold weight
  split <;> omega

theorem load_le (k : ℕ) : ∀ l : List MessageList, load k l ≤ l.length * (k + 1)
  | [] => Nat.zero_le _
  | y :: l => by
    have hw : weight k y ≤ k + 1 := by unfold weight; split <;> omega
    have hl := load_le k l
    rw [load_cons, List.length_cons, Nat.succ_mul]
    omega

theorem load_of_callback_none {k : ℕ} :
    ∀ {A : List MessageList}, (∀ y ∈ A, y.callback = none) → load k A = A.length
  | [], _ => rfl
  | y :: A, hA => by
    rw [load_cons, load_of_callback_none fun z hz => hA z (List.mem_cons_of_mem _ hz),
      List.length_cons, weight, hA y (List.mem_cons_self _ _)]
    simp [Nat.add_comm]

section Loops

variable {app : MessageList → List Reentry} {k : ℕ}

/-- **Confirming a record lowers the load**: what its callback's silent calls link weighs less
than the record did. -/
theorem load_confirm (hk : ∀ x, (app x).length ≤ k) (hs : ∀ x, ∀ call ∈ app x, call.Silent)
    (result : ConfirmationResult) (x : MessageList) (h : HandleData) :
    load k (confirm app result x h).1.waitingToSend < load k h.waitingToSend + weight k x := by
  rw [confirm_eq]
  unfold callsOf weight
  split_ifs
  · obtain ⟨A, hq, hlen, hA⟩ := runReentries_silent h (hs x)
    rw [hq, load_append, load_of_callback_none hA]
    have := hk x
    omega
  · simp [runReentries]

/-! ## The loops return -/

/-- The drain returns on any fuel above the load of the queue. -/
theorem destroyLoop_returns (hk : ∀ x, (app x).length ≤ k)
    (hs : ∀ x, ∀ call ∈ app x, call.Silent) :
    ∀ (fuel : ℕ) (h : HandleData) (out : List Effect), load k h.waitingToSend < fuel →
      (destroyLoop app fuel h out).isSome
  | 0, _, _, hf => absurd hf (Nat.not_lt_zero _)
  | fuel + 1, h, out, hf => by
    unfold destroyLoop
    split
    · rfl
    · rename_i unsend rest hw
      refine destroyLoop_returns hk hs fuel _ _ ?_
      have hc := load_confirm hk hs .becauseDestroy unsend { h with waitingToSend := rest }
      rw [hw, load_cons] at hf
      dsimp only at hc ⊢
      omega

/-- The scan returns on any fuel above the load of the queue from the cursor. -/
theorem doTimeoutsLoop_returns (hk : ∀ x, (app x).length ≤ k)
    (hs : ∀ x, ∀ call ∈ app x, call.Silent) (nowTick : UInt64) :
    ∀ (fuel i : ℕ) (h : HandleData) (out : List Effect), load k (h.waitingToSend.drop i) < fuel →
      (doTimeoutsLoop app nowTick fuel (some i) h out).isSome
  | 0, _, _, _, hf => absurd hf (Nat.not_lt_zero _)
  | fuel + 1, i, h, out, hf => by
    by_cases hi : i < h.waitingToSend.length
    swap
    · rw [doTimeoutsLoop_head (Nat.le_of_not_lt hi)]
      rfl
    rw [List.drop_eq_getElem_cons hi, load_cons] at hf
    have hw := one_le_weight k h.waitingToSend[i]
    by_cases ht : timedOut nowTick h.waitingToSend[i]
    · -- the record is removed, and the cursor stays on the next one, if any
      rw [doTimeoutsLoop_evict (List.getElem?_eq_getElem hi) ht]
      have hc := load_confirm hk hs .messageTimeout h.waitingToSend[i]
        { h with waitingToSend := h.waitingToSend.eraseIdx i }
      obtain ⟨A, hA⟩ := (confirm_extends app .messageTimeout h.waitingToSend[i]
        { h with waitingToSend := h.waitingToSend.eraseIdx i }).waitingToSend
      rw [hA, load_append] at hc
      dsimp only at hc ⊢
      split_ifs
      · refine doTimeoutsLoop_returns hk hs nowTick fuel i _ _ ?_
        rw [hA, drop_eraseIdx_append hi, load_append]
        omega
      · cases fuel with
        | zero => omega
        | succ fuel => rfl
    · rw [doTimeoutsLoop_pass (List.getElem?_eq_getElem hi) (by simpa using ht)]
      exact doTimeoutsLoop_returns hk hs nowTick fuel (i + 1) h out (by omega)

end Loops

/-! ## `Destroy` and `DoWork` -/

/-- **`Destroy` returns when the callbacks send without callbacks.** If every confirmation
callback makes at most `k` calls and every message it sends has no confirmation callback, the
drain of `IoTHubClient_LL_Destroy` on an instance with `n` waiting records returns on any fuel
above `n * (k + 1)`. It leaves the queue empty, and its confirmations are the
`IOTHUB_CLIENT_CONFIRMATION_BECAUSE_DESTROY` ones of the waiting records and then of the records
the callbacks appended while it ran. -/
theorem destroyReentrant_returns {app : MessageList → List Reentry} {k : ℕ}
    (hk : ∀ x, (app x).length ≤ k) (hs : ∀ x, ∀ call ∈ app x, call.Silent) (h : HandleData)
    {fuel : ℕ} (hfuel : h.waitingToSend.length * (k + 1) < fuel) :
    (destroyReentrant app fuel (some h)).isSome ∧ ∃ r, destroyLoop app fuel h [] = some r ∧
      r.1.waitingToSend = [] ∧ confirmations r.2 =
        (h.waitingToSend ++ destroyLinked app fuel h).filterMap
          (MessageList.confirmation .becauseDestroy) := by
  obtain ⟨r, hr⟩ := Option.isSome_iff_exists.mp
    (destroyLoop_returns hk hs fuel h [] ((load_le k _).trans_lt hfuel))
  exact ⟨by simp [destroyReentrant, hr], r, hr, destroyLoop_waitingToSend hr,
    destroyLoop_confirmations hr⟩

/-- Two waiting records whose `BECAUSE_DESTROY` callbacks set a transport option and send a
message without a callback: `Destroy` returns on fuel `7`, and confirms the two records. -/
theorem destroyReentrant_returns_silent_resend :
    let app : MessageList → List Reentry := fun _ => [.setOption (some "logtrace".toList) (some 1) .ok,
      .sendEventAsync (some 10) none none ⟨some 1, none, some 2⟩]
    let h₀ : HandleData := { HandleData.initial 1 false 2 3 with
      waitingToSend := [⟨10, 20, some 7, none, 0⟩, ⟨11, 21, some 8, none, 0⟩] }
    (∀ x, (app x).length ≤ 2) ∧ (∀ x, ∀ call ∈ app x, call.Silent) ∧
      h₀.waitingToSend.length * (2 + 1) < 7 ∧
      ((destroyReentrant app 7 (some h₀)).isSome ∧ ∃ r, destroyLoop app 7 h₀ [] = some r ∧
        r.1.waitingToSend = [] ∧ confirmations r.2 =
          (h₀.waitingToSend ++ destroyLinked app 7 h₀).filterMap
            (MessageList.confirmation .becauseDestroy)) := by
  intro app h₀
  have hk : ∀ x, (app x).length ≤ 2 := fun _ => le_refl _
  have hs : ∀ x, ∀ call ∈ app x, call.Silent := fun _ => by dsimp only [app]; decide
  exact ⟨hk, hs, by decide, destroyReentrant_returns hk hs h₀ (by decide)⟩

/-- **`DoWork` returns when the callbacks send without callbacks.** If every confirmation
callback makes at most `k` calls and every message it sends has no confirmation callback,
`IoTHubClient_LL_DoWork` on an instance with `n` waiting records returns on any fuel above
`n * (k + 1)`, whatever the clock reading and the records' expiries, the records the callbacks
send included. -/
theorem doWork_returns {app : MessageList → List Reentry} {k : ℕ}
    (hk : ∀ x, (app x).length ≤ k) (hs : ∀ x, ∀ call ∈ app x, call.Silent) (h : HandleData)
    (tick : Option UInt64) {fuel : ℕ} (hfuel : h.waitingToSend.length * (k + 1) < fuel) :
    (doWork app fuel (some h) tick).isSome := by
  rcases tick with _ | nowTick
  · rfl
  · simpa [doWork, doTimeouts] using
      doTimeoutsLoop_returns hk hs nowTick fuel 0 h [] (by simpa using (load_le k _).trans_lt hfuel)

/-- The wrap of `attach_ms_timesOutAfter` again: with the timeout at `2^64 - 1` ms, a message
sent at `1000` expires at `999`. Two such records whose timeout callbacks send their message
again, without a callback, let `DoWork` at `1000` return on fuel `5`, although the re-sent
records have expired too. -/
theorem doWork_returns_silent_after_wrap :
    (∀ x : MessageList, ([.sendEventAsync (some 1) none x.context ⟨some 2, some 1000, some 3⟩] :
      List Reentry).length ≤ 1) ∧
    (∀ x : MessageList, ∀ call ∈ ([.sendEventAsync (some 1) none x.context
      ⟨some 2, some 1000, some 3⟩] : List Reentry), call.Silent) ∧
    [(⟨10, 20, some 7, none, 999⟩ : MessageList), ⟨11, 21, some 7, none, 999⟩].length * (1 + 1) < 5 ∧
    (doWork (fun x => [.sendEventAsync (some 1) none x.context ⟨some 2, some 1000, some 3⟩]) 5
      (some { HandleData.initial 1 false 2 3 with
        currentMessageTimeout := 18446744073709551615
        waitingToSend := [⟨10, 20, some 7, none, 999⟩, ⟨11, 21, some 7, none, 999⟩] })
      (some 1000)).isSome := by
  have hk : ∀ x : MessageList, ([.sendEventAsync (some 1) none x.context
      ⟨some 2, some 1000, some 3⟩] : List Reentry).length ≤ 1 := fun _ => le_refl _
  have hs : ∀ x : MessageList, ∀ call ∈ ([.sendEventAsync (some 1) none x.context
      ⟨some 2, some 1000, some 3⟩] : List Reentry), call.Silent := by
    intro x call hc
    rw [List.mem_singleton.mp hc]
    rfl
  exact ⟨hk, hs, by decide, doWork_returns hk hs _ (some 1000) (by decide)⟩

/-! ## What a returning scan has done -/

/-- The effects `E` confirm the record `x` with `result`: they call its callback, when it has
one, with `result` and its context, and they free it. -/
def ConfirmedIn (result : ConfirmationResult) (x : MessageList) (E : List Effect) : Prop :=
  Effect.free x.entry ∈ E ∧ ∀ fn, x.callback = some fn → Effect.callback x.entry fn result x.context ∈ E

theorem ConfirmedIn.mono {result : ConfirmationResult} {x : MessageList}
    {E E' : List Effect} (hx : ConfirmedIn result x E) (hE : E <+: E') : ConfirmedIn result x E' :=
  ⟨hE.subset hx.1, fun fn hfn => hE.subset (hx.2 fn hfn)⟩

/-- The scan from cursor `i`, once it returns, has confirmed every expired record from the
cursor on, and kept every record that had not expired. The part it visits holds every record
from the cursor on (`doTimeoutsLoop_scan`). -/
theorem doTimeoutsLoop_timesOut {app : MessageList → List Reentry} {nowTick : UInt64}
    {fuel i : ℕ} {h : HandleData} {out : List Effect} {r : HandleData × List Effect}
    (hr : doTimeoutsLoop app nowTick fuel (some i) h out = some r) :
    (∀ e ∈ h.waitingToSend.drop i, timedOut nowTick e → ConfirmedIn .messageTimeout e r.2) ∧
      ∀ e ∈ h.waitingToSend, timedOut nowTick e = false → e ∈ r.1.waitingToSend := by
  obtain ⟨V, U, hVU, hlen, hres, hcs, hfree, -⟩ := doTimeoutsLoop_scan hr
  have hV : ∀ e ∈ h.waitingToSend.drop i, e ∈ V := fun e he =>
    (List.prefix_of_prefix_length_le ⟨_, hVU⟩ (List.prefix_append V U) (by simpa using hlen)).subset he
  refine ⟨fun e he hte => ⟨hfree e (hV e he) hte, fun fn hfn => mem_confirmations.mp ?_⟩,
    fun e he hte => ?_⟩
  · rw [hcs]
    refine List.mem_append_right _ (List.mem_filterMap.mpr ⟨e, ?_, ?_⟩)
    exacts [List.mem_filter.mpr ⟨hV e he, hte⟩, by simp [MessageList.confirmation, hfn]]
  · rw [← List.take_append_drop i h.waitingToSend, List.mem_append] at he
    rw [hres, List.append_assoc]
    rcases he with he | he
    · exact List.mem_append_left _ he
    · exact List.mem_append_right _ (List.mem_append_left _
        (List.mem_filter.mpr ⟨hV e he, by simp [hte]⟩))

/-- **A `DoWork` that returns has timed out every expired record, whatever the callbacks
call.** Whatever calls the timeout callbacks make, if `IoTHubClient_LL_DoWork` returns, every
record of the queue that had expired at the clock reading has been confirmed with
`IOTHUB_CLIENT_CONFIRMATION_MESSAGE_TIMEOUT`: its callback, if any, called with its context,
and the record freed. Every record that had not expired is still queued. The cursor that
`DoTimeouts` saves before each callback skips none of the records that were queued when it
started. -/
theorem doWork_times_out_expired {app : MessageList → List Reentry} {fuel : ℕ} {h : HandleData}
    {nowTick : UInt64} {r : Option HandleData × List Effect}
    (hr : doWork app fuel (some h) (some nowTick) = some r) :
    ∀ e ∈ h.waitingToSend, (timedOut nowTick e → ConfirmedIn .messageTimeout e r.2) ∧
      (timedOut nowTick e = false → e ∈ (r.1.getD h).waitingToSend) := by
  obtain ⟨q, hq, rfl⟩ := Option.map_eq_some'.mp hr
  obtain ⟨hexp, hstay⟩ := doTimeoutsLoop_timesOut hq
  exact fun e he => ⟨fun hte => (hexp e (by simpa using he) hte).mono
    (List.prefix_append _ _), hstay e he⟩

/-- A queue of an expired record and a record without a timeout, at clock `1000`. The timeout
callback sets the timeout to `2^64 - 1` and sends a message again; its expiry wraps to `999`.
`DoWork` returns. It has confirmed the first record with
`IOTHUB_CLIENT_CONFIRMATION_MESSAGE_TIMEOUT`, kept the second, and timed out the re-sent one too,
which the scan reached after the second. -/
theorem doWork_times_out_expired_resend :
    let h₀ : HandleData := { HandleData.initial 1 false 2 3 with
      waitingToSend := [⟨10, 20, some 7, none, 999⟩, ⟨11, 21, some 8, none, 0⟩] }
    let E : List Effect := [.callback 10 7 .messageTimeout none, .malloc 2, .messageClone 3,
      .messageDestroy 20, .free 10, .messageDestroy 3, .free 2, .transportDoWork 1]
    doWork (fun x => [.setOption (some "messageTimeout".toList) (some 18446744073709551615) .ok,
        .sendEventAsync (some 1) none x.context ⟨some 2, some 1000, some 3⟩]) 4 (some h₀)
        (some 1000) =
      some (some { h₀ with
        currentMessageTimeout := 18446744073709551615
        waitingToSend := [⟨11, 21, some 8, none, 0⟩] }, E) ∧
    ∀ e ∈ h₀.waitingToSend, (timedOut 1000 e → ConfirmedIn .messageTimeout e E) ∧
      (timedOut 1000 e = false → e ∈ [(⟨11, 21, some 8, none, 0⟩ : MessageList)]) := by
  intro h₀ E
  have hr : doWork (fun x => [.setOption (some "messageTimeout".toList)
      (some 18446744073709551615) .ok, .sendEventAsync (some 1) none x.context
      ⟨some 2, some 1000, some 3⟩]) 4 (some h₀) (some 1000) =
      some (some { h₀ with
        currentMessageTimeout := 18446744073709551615
        waitingToSend := [⟨11, 21, some 8, none, 0⟩] }, E) := by decide
  exact ⟨hr, doWork_times_out_expired hr⟩

/-! ## A `DoWork` step of a run -/

/-- **Each queued message meets the next `DoWork` as its clock says**, whatever the callbacks
call. Take a queued record in a state of a run whose callbacks may send and set options, and a
`DoWork` step at clock reading `nowTick`. If the record had expired, the step completes it:
its one confirmation is `IOTHUB_CLIENT_CONFIRMATION_MESSAGE_TIMEOUT` with its own callback and
context, its clone is destroyed once and the record freed once. If it had not expired, it is
still queued and not completed. -/
theorem doWork_step_times_out {s s' : System} (hs : RReachable s)
    {app : MessageList → List Reentry} {fuel : ℕ} {nowTick : UInt64}
    (hstep : s.rstep app fuel (.doWork (some nowTick)) = some s') {e : MessageList}
    (he : e ∈ s.handleData.waitingToSend) :
    (timedOut nowTick e → s'.Completed e ∧ callbacksAt e.entry s'.trace =
        (e.callback.map fun fn => (fn, .messageTimeout, e.context)).toList ∧
        s'.trace.count (.messageDestroy e.messageHandle) = 1 ∧ s'.trace.count (.free e.entry) = 1) ∧
      (timedOut nowTick e = false → e ∈ s'.handleData.waitingToSend ∧ ¬s'.Completed e) := by
  have hinv := (RReachable.step app fuel _ hs hstep).inv
  have hacc : e ∈ s.accepted := hs.inv.waiting_sublist.subset he
  unfold System.rstep at hstep
  split_ifs at hstep
  obtain ⟨r, hr, hc⟩ := Option.bind_eq_some.mp hstep
  obtain ⟨n, -, hs'⟩ := Option.map_eq_some'.mp hc
  obtain ⟨q, hq, rfl⟩ := Option.map_eq_some'.mp hr
  have hin : ∀ {ev}, ev ∈ q.2 → ev ∈ s'.trace := fun hev => by
    rw [← hs']
    simp [System.advance, hev]
  obtain ⟨hexp, hstay⟩ := doTimeoutsLoop_timesOut hq
  refine ⟨fun ht => ?_, fun ht => ?_⟩
  · -- the scan confirmed it; the invariant says that confirmation is its only one
    obtain ⟨hfree, hcb⟩ := hexp e (by simpa using he) ht
    obtain ⟨r', hr', hmd, hfr⟩ := hinv.completed e (hs' ▸ List.mem_append_left _ hacc) (hin hfree)
    refine ⟨hin hfree, ?_, hmd, hfr⟩
    cases hfn : e.callback with
    | none => simpa [hfn] using hr'
    | some fn =>
      have hmem : (fn, ConfirmationResult.messageTimeout, e.context) ∈
          callbacksAt e.entry s'.trace :=
        List.mem_filterMap.mpr ⟨_, hin (hcb fn hfn), by simp⟩
      rw [hr', hfn] at hmem ⊢
      obtain rfl : r' = .messageTimeout := by simpa [eq_comm] using hmem
      rfl
  · -- the scan kept it, so it is live
    have hw : e ∈ s'.handleData.waitingToSend := hs' ▸ hstay e he ht
    exact ⟨hw, (hinv.mem_live (List.mem_append_left _ hw)).2⟩

/-- A client created, its timeout set to `500`, one message sent with callback `7` at clock `0`:
`DoWork` at clock `501` completes it with `IOTHUB_CLIENT_CONFIRMATION_MESSAGE_TIMEOUT`. -/
theorem doWork_step_times_out_at_501 :
    let e : MessageList := ⟨0, 0, some 7, none, 500⟩
    let h₀ : HandleData := { HandleData.initial 4 false 5 3 with currentMessageTimeout := 500 }
    let trace₀ : List Effect :=
      [.tickcounterCreate 3, .transportCreate 4, .transportRegister 5, .malloc 0, .messageClone 0]
    let s : System := ⟨{ h₀ with waitingToSend := [e] }, [], [e], trace₀, 1, false⟩
    let s' : System := ⟨h₀, [], [e],
      trace₀ ++ [.callback 0 7 .messageTimeout none, .messageDestroy 0, .free 0, .transportDoWork 4],
      1, false⟩
    RReachable s ∧ s.rstep noReentry 2 (.doWork (some 501)) = some s' ∧
      e ∈ s.handleData.waitingToSend ∧ timedOut 501 e = true ∧
      (timedOut 501 e → s'.Completed e ∧ callbacksAt e.entry s'.trace =
          (e.callback.map fun fn => (fn, .messageTimeout, e.context)).toList ∧
          s'.trace.count (.messageDestroy e.messageHandle) = 1 ∧
          s'.trace.count (.free e.entry) = 1) ∧
        (timedOut 501 e = false → e ∈ s'.handleData.waitingToSend ∧ ¬s'.Completed e) := by
  intro e h₀ trace₀ s s'
  have hs : RReachable s :=
    .step noReentry 1 (.sendEventAsync (some 9) (some 7) none true (some 0) true)
      (.step noReentry 1 (.setOption (some "messageTimeout".toList) (some 500) .ok)
        (@RReachable.create (some ⟨some 1, none, none, none, none, none⟩)
          ⟨true, some 3, some 4, some 5⟩ _ _ rfl) rfl) rfl
  have hstep : s.rstep noReentry 2 (.doWork (some 501)) = some s' := by decide
  exact ⟨hs, hstep, List.mem_singleton_self e, rfl,
    doWork_step_times_out hs hstep (List.mem_singleton_self e)⟩

end IoTHubClientLL
