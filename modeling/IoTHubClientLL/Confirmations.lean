import IoTHubClientLL.ReentrantDelivery
/-!
# What the confirmation callbacks are told, and in which order

`exactly_once_reentrant` counts the confirmations each record receives. This file follows
the stream of confirmations itself: the `callback` effects of a call, in the order the call
makes them (`confirmations`). Each of the three loops that unlink records makes one
confirmation per record with a callback, with its own status, in the order of the queue,
and the calls the callbacks make confirm nothing:

* the scan of `DoTimeouts` confirms with `IOTHUB_CLIENT_CONFIRMATION_MESSAGE_TIMEOUT` only
  records that had expired at its clock reading, queued ones or ones its callbacks sent, in
  queue order (`doWork_confirms_expired_in_order`). It need not reach all of them: the
  cursor it saves before a callback is the list head when the record was the last one, so
  what that callback sends is not scanned. `doWork_scan_reentrant` says exactly what it
  does: it filters a prefix of the queue followed by what its callbacks send, a prefix that
  holds the whole queue it began with, and leaves the rest, which is what the callback of the
  last record it visits sent, when that record had expired and was the last one queued;
* the drain of `Destroy` confirms with `IOTHUB_CLIENT_CONFIRMATION_BECAUSE_DESTROY` every
  queued record and then every record its callbacks sent, in send order
  (`destroyReentrant_confirms_in_order`);
* the report loop of `SendComplete` confirms the batch in batch order;
* no other call confirms anything (`rstep_confirmations`).

Over a whole run, every confirmation made so far is that of a record accepted with
`IOTHUB_CLIENT_OK` and since freed, with that record's own callback and context
(`confirmations_accepted_reentrant`). With `exactly_once_reentrant`, the stream of
confirmations is the completed records' confirmations, each once.

Proof shape: the calls of a callback add no `callback` effect (`confirmations_runReentries`),
so one turn of a loop adds the confirmation of the record it unlinks
(`confirmations_confirm`). The records a callback links are appended to the queue, behind
everything the loop has still to visit, so each loop's lemma is a recursion on its fuel
that follows the loop. The run-level result needs no new look at the loops: each small step of
`ReentrantRuns.lean` keeps it (`ConfirmsAccepted.micro`), and so does the reordering of the
trace `Equiv` allows, so every step with callbacks keeps it (`ConfirmsAccepted.sim`).
-/

namespace IoTHubClientLL

/-! ## The stream of confirmations -/

/-- What one confirmation tells: the record's address, its callback, the status, the
context. -/
abbrev Confirmation := Ptr × ConfirmationCallback × ConfirmationResult × Option Ptr

/-- The confirmation an effect is, if it is one. -/
@[simp] def Effect.confirmation : Effect → Option Confirmation
  | .callback p fn r ctx => some (p, fn, r, ctx)
  | _ => none

/-- The confirmation callbacks a list of effects makes, in order. -/
def confirmations (effs : List Effect) : List Confirmation :=
  effs.filterMap Effect.confirmation

/-- The confirmation a record receives with `result`: none when its callback is `NULL`. -/
def MessageList.confirmation (result : ConfirmationResult) (x : MessageList) :
    Option Confirmation :=
  x.callback.map fun fn => (x.entry, fn, result, x.context)

@[simp] theorem confirmations_nil : confirmations [] = [] := rfl

@[simp] theorem confirmations_cons (ev : Effect) (effs : List Effect) :
    confirmations (ev :: effs) = ev.confirmation.toList ++ confirmations effs := by
  unfold confirmations
  rw [List.filterMap_cons]
  rcases ev.confirmation <;> rfl

@[simp] theorem confirmations_append (e₁ e₂ : List Effect) :
    confirmations (e₁ ++ e₂) = confirmations e₁ ++ confirmations e₂ :=
  List.filterMap_append _ _ _

/-- A confirmation in the stream is a `callback` effect. -/
theorem mem_confirmations {effs : List Effect} {p : Ptr} {fn : ConfirmationCallback}
    {result : ConfirmationResult} {ctx : Option Ptr} :
    (p, fn, result, ctx) ∈ confirmations effs ↔ Effect.callback p fn result ctx ∈ effs := by
  unfold confirmations
  rw [List.mem_filterMap]
  constructor
  · rintro ⟨ev, hev, h⟩
    cases ev <;> simp only [Effect.confirmation, reduceCtorEq, Option.some.injEq,
      Prod.mk.injEq] at h
    obtain ⟨rfl, rfl, rfl, rfl⟩ := h
    exact hev
  · exact fun h => ⟨_, h, rfl⟩

@[simp] theorem filterMap_confirmation_cons (result : ConfirmationResult) (x : MessageList)
    (l : List MessageList) :
    (x :: l).filterMap (MessageList.confirmation result) =
      (x.confirmation result).toList ++ l.filterMap (MessageList.confirmation result) := by
  rw [List.filterMap_cons]
  rcases x.confirmation result <;> rfl

theorem confirmations_invoke (result : ConfirmationResult) (x : MessageList) :
    confirmations (invoke result x) = (x.confirmation result).toList := by
  unfold invoke MessageList.confirmation
  rcases x.callback <;> rfl

/-- A list with no confirmation at any address has none at all. -/
theorem confirmations_eq_nil : ∀ {effs : List Effect},
    (∀ p, callbacksAt p effs = []) → confirmations effs = []
  | [], _ => rfl
  | ev :: effs, h => by
    have hsplit : ∀ p, callbacksAt p [ev] = [] ∧ callbacksAt p effs = [] := fun p =>
      List.append_eq_nil.mp ((callbacksAt_append p [ev] effs).symm.trans (h p))
    rw [confirmations_cons, confirmations_eq_nil fun p => (hsplit p).2]
    cases ev with
    | callback q fn r ctx => simpa [callbacksAt] using (hsplit q).1
    | _ => rfl

theorem confirmations_quiet {effs : List Effect} (h : ∀ ev ∈ effs, ev.Quiet) :
    confirmations effs = [] :=
  confirmations_eq_nil fun _ => callbacksAt_quiet h

/-- Completing records confirms each one with a callback, in order. -/
@[simp] theorem confirmations_flatMap_complete (result : ConfirmationResult)
    (X : List MessageList) :
    confirmations (X.flatMap (complete result)) = X.filterMap (MessageList.confirmation result) := by
  induction X with
  | nil => rfl
  | cons x X ih => simp [complete, confirmations_invoke, ih]

/-- The calls a callback makes confirm nothing. -/
@[simp] theorem confirmations_runReentries (h : HandleData) (calls : List Reentry) :
    confirmations (runReentries h calls).2 = [] :=
  confirmations_eq_nil fun p => callbacksAt_runReentries p h calls

/-- A send confirms nothing, whatever its allocations answer. -/
theorem confirmations_sendEventAsync (h : HandleData) (m : Option MessageHandle)
    (cb : Option ConfirmationCallback) (ctx : Option Ptr) (env : SendEnv) :
    confirmations (sendEventAsync (some h) m cb ctx env).2.2 = [] := by
  simpa [runReentries, Reentry.run] using confirmations_runReentries h [.sendEventAsync m cb ctx env]

/-- **One confirmation per unlinked record**, whatever its callback calls. -/
@[simp] theorem confirmations_confirm (app : MessageList → List Reentry)
    (result : ConfirmationResult) (x : MessageList) (h : HandleData) :
    confirmations (confirm app result x h).2 = (x.confirmation result).toList := by
  rw [confirm_eq, confirmations_append, confirmations_invoke, confirmations_runReentries,
    List.append_nil]

/-- What a confirmation links, once the queue it left is known. -/
theorem confirm_linked {app : MessageList → List Reentry} {result : ConfirmationResult}
    {x : MessageList} {h : HandleData} :
    (confirm app result x h).1.waitingToSend =
      h.waitingToSend ++ h.linked (confirm app result x h).1 := by
  obtain ⟨A, hA⟩ := (confirm_extends app result x h).waitingToSend
  simp [HandleData.linked, hA]

/-! ## The three loops -/

section Loops

variable {app : MessageList → List Reentry}

/-- A scan with no cursor left stops where it is. -/
theorem doTimeoutsLoop_none {nowTick : UInt64} {fuel : ℕ} {h : HandleData} {out : List Effect}
    {r : HandleData × List Effect} (hr : doTimeoutsLoop app nowTick fuel none h out = some r) :
    r = (h, out) := by
  cases fuel with
  | zero => cases hr
  | succ fuel => exact (Option.some.inj hr).symm

/-- A scan with no cursor left links nothing. -/
@[simp] theorem doTimeoutsLinked_none {nowTick : UInt64} (fuel : ℕ) (h : HandleData) :
    doTimeoutsLinked app nowTick fuel none h = [] := by
  cases fuel <;> rfl

/-- **The scan from cursor `i`, exactly.** What lies from the cursor on, followed by what the
callbacks link, splits into a visited part `V`, which holds at least the records from the cursor
on, and a part `U` the scan never reaches. The scan keeps the records before the cursor, keeps
the unexpired records of `V`, confirms and frees its expired ones in order, and leaves `U` as
it is. `U` is empty unless the last record of `V` expired while it was the last one queued: the
scan ends with its callback, and `U` is what that callback linked. -/
theorem doTimeoutsLoop_scan {nowTick : UInt64} :
    ∀ {fuel i : ℕ} {h : HandleData} {out : List Effect} {r : HandleData × List Effect},
      doTimeoutsLoop app nowTick fuel (some i) h out = some r →
      ∃ V U, h.waitingToSend.drop i ++ doTimeoutsLinked app nowTick fuel (some i) h = V ++ U ∧
        h.waitingToSend.length - i ≤ V.length ∧
        r.1.waitingToSend =
          h.waitingToSend.take i ++ (V.filter fun e => !timedOut nowTick e) ++ U ∧
        confirmations r.2 = confirmations out ++
          (V.filter (timedOut nowTick)).filterMap (MessageList.confirmation .messageTimeout) ∧
        (∀ x ∈ V, timedOut nowTick x → Effect.free x.entry ∈ r.2) ∧
        (U = [] ∨ ∃ x h₁, V.getLast? = some x ∧ timedOut nowTick x ∧
          h₁.waitingToSend = h.waitingToSend.take i ++ (V.dropLast.filter fun e => !timedOut nowTick e) ∧
          r.1 = (confirm app .messageTimeout x h₁).1 ∧ U = h₁.linked r.1)
  | 0, _, _, _, _, hr => nomatch hr
  | fuel + 1, i, h, out, r, hr => by
    cases he : h.waitingToSend[i]? with
    | none =>
      -- past the end: nothing visited, nothing linked
      simp only [doTimeoutsLoop, he, Option.some.injEq] at hr
      subst hr
      have hi := List.getElem?_eq_none_iff.mp he
      exact ⟨[], [], by simp [doTimeoutsLinked, he, List.drop_eq_nil_of_le hi], by simp; omega,
        by simp [List.take_of_length_le hi], by simp, by simp, .inl rfl⟩
    | some x =>
      obtain ⟨hi, rfl⟩ := List.getElem?_eq_some_iff.mp he
      have hdrop := List.drop_eq_getElem_cons hi
      have htake : (h.waitingToSend.take i).length = i := by simp; omega
      by_cases ht : timedOut nowTick h.waitingToSend[i]
      · -- the record at the cursor is confirmed; the scan goes on at the same position
        rw [doTimeoutsLoop_evict he ht] at hr
        dsimp only at hr
        generalize hc : confirm app .messageTimeout h.waitingToSend[i]
          { h with waitingToSend := h.waitingToSend.eraseIdx i } = c at hr
        generalize hA : ({ h with waitingToSend := h.waitingToSend.eraseIdx i } : HandleData).linked
          c.1 = A
        have hwait : c.1.waitingToSend =
            h.waitingToSend.take i ++ (h.waitingToSend.drop (i + 1) ++ A) := by
          rw [← hA, ← hc, confirm_linked, hc, List.eraseIdx_eq_take_drop_succ, List.append_assoc]
        have hconf := hc ▸ confirmations_confirm app .messageTimeout h.waitingToSend[i]
          { h with waitingToSend := h.waitingToSend.eraseIdx i }
        have hlink : doTimeoutsLinked app nowTick (fuel + 1) (some i) h = A ++
            doTimeoutsLinked app nowTick fuel
              (if i + 1 < h.waitingToSend.length then some i else none) c.1 := by
          simp [doTimeoutsLinked, he, ht, DList.removeEntryList, hc, hA]
        rw [hlink, hdrop]
        split_ifs at hr ⊢ with hnext
        · have hpre := doTimeoutsLoop_appends hr
          obtain ⟨V, U, hVU, hlen, hres, hcs, hfree, hU⟩ := doTimeoutsLoop_scan hr
          rw [hwait, List.drop_left' htake, List.take_left' htake] at *
          refine ⟨h.waitingToSend[i] :: V, U, ?_, ?_, ?_, ?_, ?_, ?_⟩
          · rw [List.cons_append, List.cons_append, ← hVU, List.append_assoc]
          · simp only [List.length_append, List.length_drop] at hlen
            simp only [List.length_cons]
            omega
          · simpa [ht] using hres
          · simp [hcs, hconf, ht]
          · intro x hx hxt
            rcases List.mem_cons.mp hx with rfl | hx
            exacts [hpre.subset (by simp), hfree x hx hxt]
          · -- the record confirmed here is not the last one visited
            rcases hU with hU | ⟨x, h₁, hlast, hxt, hq, hU⟩
            · exact .inl hU
            obtain ⟨b, l, rfl⟩ := List.exists_cons_of_ne_nil fun hV : V = [] => by simp [hV] at hlast
            exact .inr ⟨x, h₁, by simpa using hlast, hxt, by simpa [ht] using hq, hU⟩
        · -- the record was the last one: the scan stops, and what its callback linked stays
          obtain rfl := doTimeoutsLoop_none hr
          have hnil : h.waitingToSend.drop (i + 1) = [] := List.drop_eq_nil_of_le (by omega)
          refine ⟨[h.waitingToSend[i]], A, by simp [hnil], by simp; omega, ?_, ?_, by simp,
            .inr ⟨h.waitingToSend[i], _, rfl, ht, ?_, by rw [hc], hA.symm⟩⟩
          · simp [hwait, hnil, ht]
          · simp [hconf, ht]
          · simp [List.eraseIdx_eq_take_drop_succ, hnil]
      · -- the record at the cursor stays; the scan moves on
        rw [doTimeoutsLoop_pass he (by simpa using ht)] at hr
        have hlink : doTimeoutsLinked app nowTick (fuel + 1) (some i) h =
            doTimeoutsLinked app nowTick fuel (some (i + 1)) h := by
          simp [doTimeoutsLinked, he, ht]
        obtain ⟨V, U, hVU, hlen, hres, hcs, hfree, hU⟩ := doTimeoutsLoop_scan hr
        refine ⟨h.waitingToSend[i] :: V, U, ?_, by simp at hlen ⊢; omega, ?_, by simp [hcs, ht],
          ?_, ?_⟩
        · rw [hlink, hdrop, List.cons_append, hVU, List.cons_append]
        · rw [hres, List.take_succ, he, List.filter_cons_of_pos (by simpa using ht)]
          simp only [Option.toList, List.append_assoc, List.singleton_append, List.cons_append,
            List.nil_append]
        · intro x hx hxt
          rcases List.mem_cons.mp hx with rfl | hx
          exacts [absurd hxt ht, hfree x hx hxt]
        · rcases hU with hU | ⟨x, h₁, hlast, hxt, hq, hU⟩
          · exact .inl hU
          obtain ⟨b, l, rfl⟩ := List.exists_cons_of_ne_nil fun hV : V = [] => by simp [hV] at hlast
          refine .inr ⟨x, h₁, by simpa using hlast, hxt, ?_, hU⟩
          rw [hq, List.take_succ, he, List.dropLast_cons₂, List.filter_cons_of_pos (by simpa using ht)]
          simp only [Option.toList, List.append_assoc, List.singleton_append]

/-- The scan from cursor `i` confirms, in queue order, some of the expired records among
those from the cursor on and those its callbacks link. -/
theorem doTimeoutsLoop_confirmations {nowTick : UInt64} {fuel i : ℕ} {h : HandleData}
    {out : List Effect} {r : HandleData × List Effect}
    (hr : doTimeoutsLoop app nowTick fuel (some i) h out = some r) :
    (confirmations r.2).Sublist (confirmations out ++
      ((h.waitingToSend.drop i ++ doTimeoutsLinked app nowTick fuel (some i) h).filter
        (timedOut nowTick)).filterMap (MessageList.confirmation .messageTimeout)) := by
  obtain ⟨V, U, hVU, -, -, hcs, -⟩ := doTimeoutsLoop_scan hr
  rw [hcs, hVU]
  exact (((List.sublist_append_left V U).filter _).filterMap _).append_left _

/-- The drain confirms every record of the queue, then every record its callbacks link, in
queue order. -/
theorem destroyLoop_confirmations :
    ∀ {fuel : ℕ} {h : HandleData} {out : List Effect} {r : HandleData × List Effect},
      destroyLoop app fuel h out = some r →
      confirmations r.2 = confirmations out ++
        (h.waitingToSend ++ destroyLinked app fuel h).filterMap
          (MessageList.confirmation .becauseDestroy)
  | 0, _, _, _, hr => nomatch hr
  | fuel + 1, h, out, r, hr => by
    cases hw : h.waitingToSend with
    | nil =>
      simp only [destroyLoop, hw, Option.some.injEq] at hr
      subst hr
      simp [destroyLinked, hw]
    | cons unsend rest =>
      simp only [destroyLoop, hw] at hr
      rw [destroyLoop_confirmations hr, confirm_linked]
      simp [destroyLinked, hw]

/-- The report loop confirms the batch in batch order. -/
theorem sendCompleteLoop_confirmations (result : ConfirmationResult) :
    ∀ (l : List MessageList) (h : HandleData),
      confirmations (sendCompleteLoop app result l h).2 =
        l.filterMap (MessageList.confirmation result)
  | [], _ => rfl
  | x :: l, h => by
    simp [sendCompleteLoop, sendCompleteLoop_confirmations result l]

end Loops

/-! ## The calls -/

/-- **`DoWork` confirms no record early**, whatever its timeout callbacks call. The
confirmations a `DoWork` that returns makes are `IOTHUB_CLIENT_CONFIRMATION_MESSAGE_TIMEOUT`
confirmations of records that had expired at its clock reading, each with the record's own
callback and context, at most once each, in queue order: records queued when it began, then
records its callbacks sent. -/
theorem doWork_confirms_expired_in_order {app : MessageList → List Reentry} {fuel : ℕ}
    {h : HandleData} {nowTick : UInt64} {r : Option HandleData × List Effect}
    (hr : doWork app fuel (some h) (some nowTick) = some r) :
    (confirmations r.2).Sublist
      (((h.waitingToSend ++ doTimeoutsLinked app nowTick fuel (some 0) h).filter
        (timedOut nowTick)).filterMap (MessageList.confirmation .messageTimeout)) := by
  obtain ⟨q, hq, rfl⟩ := Option.map_eq_some'.mp hr
  simpa using doTimeoutsLoop_confirmations hq

/-- An expired record and a record without a timeout, at clock `1000`. The first one's timeout
callback sets the timeout to `2^64 - 1` and sends a message with callback `9`, whose expiry
wraps to `999`. `DoWork` confirms the first record, passes the second, and confirms the
re-sent one, in that order. -/
theorem doWork_confirms_expired_in_order_resend :
    let h₀ : HandleData := { HandleData.initial 1 false 2 3 with
      waitingToSend := [⟨10, 20, some 7, none, 999⟩, ⟨11, 21, some 8, none, 0⟩] }
    let app : MessageList → List Reentry := fun x =>
      if x.entry = 10 then
        [.setOption (some "messageTimeout".toList) (some 18446744073709551615) .ok,
          .sendEventAsync (some 1) (some 9) x.context ⟨some 5, some 1000, some 6⟩]
      else []
    let E : List Effect := [.callback 10 7 .messageTimeout none, .malloc 5, .messageClone 6,
      .messageDestroy 20, .free 10, .callback 5 9 .messageTimeout none, .messageDestroy 6, .free 5,
      .transportDoWork 1]
    doWork app 5 (some h₀) (some 1000) =
      some (some { h₀ with
        currentMessageTimeout := 18446744073709551615
        waitingToSend := [⟨11, 21, some 8, none, 0⟩] }, E) ∧
    confirmations E = [(10, 7, .messageTimeout, none), (5, 9, .messageTimeout, none)] ∧
    (confirmations E).Sublist
      (((h₀.waitingToSend ++ doTimeoutsLinked app 1000 5 (some 0) h₀).filter
        (timedOut 1000)).filterMap (MessageList.confirmation .messageTimeout)) := by
  intro h₀ app E
  have hr : doWork app 5 (some h₀) (some 1000) =
      some (some { h₀ with
        currentMessageTimeout := 18446744073709551615
        waitingToSend := [⟨11, 21, some 8, none, 0⟩] }, E) := by decide
  exact ⟨hr, rfl, doWork_confirms_expired_in_order hr⟩

/-- **What `DoWork` does to the queue, exactly**, whatever its timeout callbacks call. The
queue followed by the records its callbacks send splits into a part `V` the scan visits, which
holds the whole queue it began with, and a part `U` it never reaches. `DoWork` leaves the
unexpired records of `V`, then `U` as it was. It confirms the expired records of `V`, in order,
with `IOTHUB_CLIENT_CONFIRMATION_MESSAGE_TIMEOUT`. `U` is empty unless the last record `x` the
scan visits had expired and was then the last one queued, `h₁` being the queue without it: the
cursor saved before its callback is the list head, so the scan ends with that callback, whose
instance `DoWork` returns, and `U` is what the callback sent. -/
theorem doWork_scan_reentrant {app : MessageList → List Reentry} {fuel : ℕ} {h : HandleData}
    {nowTick : UInt64} {r : Option HandleData × List Effect}
    (hr : doWork app fuel (some h) (some nowTick) = some r) :
    ∃ V U, h.waitingToSend ++ doTimeoutsLinked app nowTick fuel (some 0) h = V ++ U ∧
      h.waitingToSend.length ≤ V.length ∧
      (r.1.getD h).waitingToSend = (V.filter fun e => !timedOut nowTick e) ++ U ∧
      confirmations r.2 =
        (V.filter (timedOut nowTick)).filterMap (MessageList.confirmation .messageTimeout) ∧
      (U = [] ∨ ∃ x h₁, V.getLast? = some x ∧ timedOut nowTick x ∧
        h₁.waitingToSend = (V.dropLast.filter fun e => !timedOut nowTick e) ∧
        r.1.getD h = (confirm app .messageTimeout x h₁).1 ∧ U = h₁.linked (r.1.getD h)) := by
  obtain ⟨q, hq, rfl⟩ := Option.map_eq_some'.mp hr
  obtain ⟨V, U, hVU, hlen, hres, hcs, -, hU⟩ := doTimeoutsLoop_scan hq
  exact ⟨V, U, by simpa using hVU, by simpa using hlen, by simpa using hres, by simpa using hcs,
    by simpa using hU⟩

/-- One expired record at clock `1000`; its timeout callback sets the timeout to `2^64 - 1` and
sends a message without callback, whose expiry wraps to `999`. The scan stops after the record
it confirmed, since it was the last one, and the new record stays queued although it has
expired. -/
theorem doWork_scan_reentrant_last_resend :
    let h₀ : HandleData := { HandleData.initial 1 false 2 3 with
      waitingToSend := [⟨10, 20, some 7, none, 999⟩] }
    let app : MessageList → List Reentry := fun x =>
      if x.entry = 10 then
        [.setOption (some "messageTimeout".toList) (some 18446744073709551615) .ok,
          .sendEventAsync (some 1) none none ⟨some 5, some 1000, some 6⟩]
      else []
    let E : List Effect := [.callback 10 7 .messageTimeout none, .malloc 5, .messageClone 6,
      .messageDestroy 20, .free 10, .transportDoWork 1]
    let h₁ : HandleData := { h₀ with
      currentMessageTimeout := 18446744073709551615
      waitingToSend := [⟨5, 6, none, none, 999⟩] }
    doWork app 3 (some h₀) (some 1000) = some (some h₁, E) ∧
    timedOut 1000 ⟨5, 6, none, none, 999⟩ = true ∧
    ∃ V U, h₀.waitingToSend ++ doTimeoutsLinked app 1000 3 (some 0) h₀ = V ++ U ∧
      h₀.waitingToSend.length ≤ V.length ∧
      h₁.waitingToSend = (V.filter fun e => !timedOut 1000 e) ++ U ∧
      confirmations E =
        (V.filter (timedOut 1000)).filterMap (MessageList.confirmation .messageTimeout) ∧
      (U = [] ∨ ∃ x h₂, V.getLast? = some x ∧ timedOut 1000 x ∧
        h₂.waitingToSend = (V.dropLast.filter fun e => !timedOut 1000 e) ∧
        h₁ = (confirm app .messageTimeout x h₂).1 ∧ U = h₂.linked h₁) := by
  intro h₀ app E h₁
  have hr : doWork app 3 (some h₀) (some 1000) = some (some h₁, E) := by decide
  exact ⟨hr, rfl, doWork_scan_reentrant hr⟩

/-- **`Destroy` confirms everything, in send order**, whatever its callbacks call. The
confirmations of a `Destroy` that returns are the
`IOTHUB_CLIENT_CONFIRMATION_BECAUSE_DESTROY` confirmations of the records queued when it began,
then of the records its callbacks sent, in the order they were queued. -/
theorem destroyReentrant_confirms_in_order {app : MessageList → List Reentry} {fuel : ℕ}
    {h : HandleData} {effs : List Effect} (hr : destroyReentrant app fuel (some h) = some effs) :
    confirmations effs = (h.waitingToSend ++ destroyLinked app fuel h).filterMap
      (MessageList.confirmation .becauseDestroy) := by
  obtain ⟨q, hq, rfl⟩ := Option.map_eq_some'.mp hr
  have hconf := destroyLoop_confirmations hq
  split_ifs <;> simpa using hconf

/-- Two queued records; the first one's callback sends a message with callback `9`. `Destroy`
confirms the two queued records and then the new one. -/
theorem destroyReentrant_confirms_in_order_resend :
    let h₀ : HandleData := { HandleData.initial 1 false 2 3 with
      waitingToSend := [⟨10, 20, some 7, none, 0⟩, ⟨11, 21, some 8, none, 0⟩] }
    let app : MessageList → List Reentry := fun x =>
      if x.entry = 10 then [.sendEventAsync (some 1) (some 9) none ⟨some 5, some 1000, some 6⟩]
      else []
    let E : List Effect := [.transportUnregister 2, .transportDestroy 1,
      .callback 10 7 .becauseDestroy none, .malloc 5, .messageClone 6, .messageDestroy 20,
      .free 10, .callback 11 8 .becauseDestroy none, .messageDestroy 21, .free 11,
      .callback 5 9 .becauseDestroy none, .messageDestroy 6, .free 5, .tickcounterDestroy 3]
    destroyReentrant app 4 (some h₀) = some E ∧
    confirmations E = [(10, 7, .becauseDestroy, none), (11, 8, .becauseDestroy, none),
      (5, 9, .becauseDestroy, none)] ∧
    confirmations E = (h₀.waitingToSend ++ destroyLinked app 4 h₀).filterMap
      (MessageList.confirmation .becauseDestroy) := by
  intro h₀ app E
  have hr : destroyReentrant app 4 (some h₀) = some E := by decide
  exact ⟨hr, rfl, destroyReentrant_confirms_in_order hr⟩

/-! ## The steps of a run -/

namespace System

/-- What a step of a run may confirm, given the effects `E` it adds to the trace. `DoWork`
confirms expired records in queue order, with `IOTHUB_CLIENT_CONFIRMATION_MESSAGE_TIMEOUT`. A
report confirms its batch in batch order, with `IOTHUB_CLIENT_CONFIRMATION_OK` when the batch
succeeded and `IOTHUB_CLIENT_CONFIRMATION_ERROR` otherwise. `Destroy` confirms the queue and
then what its callbacks send, with `IOTHUB_CLIENT_CONFIRMATION_BECAUSE_DESTROY`. No other step
confirms anything. -/
def StepConfirms (s : System) (app : MessageList → List Reentry) (fuel : ℕ) (E : List Effect) :
    Action → Prop
  | .doWork (some nowTick) => (confirmations E).Sublist
      (((s.handleData.waitingToSend ++
        doTimeoutsLinked app nowTick fuel (some 0) s.handleData).filter
          (timedOut nowTick)).filterMap (MessageList.confirmation .messageTimeout))
  | .sendComplete b result => confirmations E = (s.inFlight[b]?.getD []).filterMap
      (MessageList.confirmation (if result = .success then .ok else .error))
  | .destroy => confirmations E =
      (s.handleData.waitingToSend ++ destroyLinked app fuel s.handleData).filterMap
        (MessageList.confirmation .becauseDestroy)
  | _ => confirmations E = []

/-- **What each step confirms**, in a run whose callbacks call back into the client. -/
theorem rstep_confirmations {s s' : System} {app : MessageList → List Reentry} {fuel : ℕ}
    {a : Action} (hstep : s.rstep app fuel a = some s') :
    ∃ E, s'.trace = s.trace ++ E ∧ s.StepConfirms app fuel E a := by
  unfold rstep at hstep
  split_ifs at hstep with hd
  rw [Bool.not_eq_true] at hd
  cases a with
  | sendEventAsync m cb ctx malloc tick clone =>
    simp only [System.step, hd, Bool.false_eq_true, ↓reduceIte, Option.some.injEq] at hstep
    exact ⟨_, by rw [← hstep]; rfl, confirmations_sendEventAsync ..⟩
  | setOption name value res =>
    simp only [System.step, hd, Bool.false_eq_true, ↓reduceIte, Option.some.injEq] at hstep
    exact ⟨_, by rw [← hstep]; rfl, confirmations_quiet (setOption_quiet ..).2⟩
  | setMessageCallback fn ctx subscribe =>
    simp only [System.step, hd, Bool.false_eq_true, ↓reduceIte, Option.some.injEq] at hstep
    exact ⟨_, by rw [← hstep]; rfl, confirmations_quiet (setMessageCallback_quiet ..).2⟩
  | messageCallback message getTime userResult =>
    simp only [System.step, hd, Bool.false_eq_true, ↓reduceIte, Option.some.injEq] at hstep
    exact ⟨_, by rw [← hstep]; rfl, confirmations_quiet (messageCallback_quiet ..).2⟩
  | doWork tick =>
    cases tick with
    | none =>
      simp only [System.step, hd, Bool.false_eq_true, ↓reduceIte, doWork, doTimeouts, Option.map_some',
        Option.some.injEq] at hstep
      exact ⟨_, by rw [← hstep]; rfl, by rfl⟩
    | some nowTick =>
      obtain ⟨r, hr, hc⟩ := Option.bind_eq_some.mp hstep
      obtain ⟨n, -, rfl⟩ := Option.map_eq_some'.mp hc
      obtain ⟨q, hq, rfl⟩ := Option.map_eq_some'.mp hr
      exact ⟨_, rfl, by simpa [StepConfirms] using doTimeoutsLoop_confirmations hq⟩
  | detach i b =>
    simp only [System.step, hd, Bool.false_eq_true, ↓reduceIte, Option.map_eq_some'] at hstep
    obtain ⟨e, -, rfl⟩ := hstep
    exact ⟨[], (List.append_nil _).symm, rfl⟩
  | sendComplete b result =>
    obtain ⟨batch, hb, hc⟩ := Option.bind_eq_some.mp hstep
    obtain ⟨n, -, rfl⟩ := Option.map_eq_some'.mp hc
    refine ⟨_, rfl, ?_⟩
    rw [StepConfirms, hb, Option.getD_some]
    exact sendCompleteLoop_confirmations _ _ _
  | destroy =>
    obtain ⟨effs, he, hc⟩ := Option.bind_eq_some.mp hstep
    obtain ⟨n, -, rfl⟩ := Option.map_eq_some'.mp hc
    obtain ⟨q, hq, rfl⟩ := Option.map_eq_some'.mp he
    have hconf := destroyLoop_confirmations hq
    refine ⟨_, rfl, ?_⟩
    split_ifs <;> simpa [StepConfirms] using hconf

/-- Two queued records, the first one's callback sending a message with callback `9` at the
next fresh address: the `Destroy` step confirms the three in send order. -/
theorem rstep_confirmations_destroy_resend :
    let h₀ : HandleData := { HandleData.initial 1 false 2 3 with
      waitingToSend := [⟨10, 20, some 7, none, 0⟩, ⟨11, 21, some 8, none, 0⟩] }
    let s₀ : System := ⟨h₀, [], h₀.waitingToSend, [], 22, false⟩
    let app : MessageList → List Reentry := fun x =>
      if x.entry = 10 then [.sendEventAsync (some 1) (some 9) none ⟨some 22, some 1000, some 23⟩]
      else []
    let s₁ : System := ⟨{ h₀ with waitingToSend := [] }, [],
      h₀.waitingToSend ++ [⟨22, 23, some 9, none, 0⟩],
      [.transportUnregister 2, .transportDestroy 1, .callback 10 7 .becauseDestroy none,
        .malloc 22, .messageClone 23, .messageDestroy 20, .free 10,
        .callback 11 8 .becauseDestroy none, .messageDestroy 21, .free 11,
        .callback 22 9 .becauseDestroy none, .messageDestroy 23, .free 22, .tickcounterDestroy 3],
      24, true⟩
    s₀.rstep app 4 .destroy = some s₁ ∧
      ∃ E, s₁.trace = s₀.trace ++ E ∧ s₀.StepConfirms app 4 E .destroy := by
  intro h₀ s₀ app s₁
  have hr : s₀.rstep app 4 .destroy = some s₁ := by decide
  exact ⟨hr, rstep_confirmations hr⟩

/-! ## Over a whole run -/

/-- Every confirmation in the trace is the confirmation of an accepted record that the trace
has freed. -/
def ConfirmsAccepted (s : System) : Prop :=
  ∀ c ∈ confirmations s.trace, ∃ e ∈ s.accepted, s.Completed e ∧ ∃ r, e.confirmation r = some c

section Run

variable {s t : System}

/-- A step that keeps the accepted records and adds confirmations of accepted, freed records
keeps the property. -/
theorem ConfirmsAccepted.extend (hc : s.ConfirmsAccepted) {E : List Effect}
    (htrace : t.trace = s.trace ++ E) (hacc : s.accepted = t.accepted ∨ s.accepted <+: t.accepted)
    (hE : ∀ c ∈ confirmations E, ∃ e ∈ t.accepted, t.Completed e ∧ ∃ r, e.confirmation r = some c) :
    t.ConfirmsAccepted := by
  intro c hmem
  rw [htrace, confirmations_append, List.mem_append] at hmem
  rcases hmem with hmem | hmem
  · obtain ⟨e, he, hce, r, hr⟩ := hc c hmem
    refine ⟨e, ?_, by rw [Completed, htrace]; exact List.mem_append_left _ hce, r, hr⟩
    rcases hacc with hacc | hacc
    exacts [hacc ▸ he, hacc.subset he]
  · exact hE c hmem

/-- A send makes no confirmation, accepted or refused. -/
theorem confirmations_eq_nil_of_send {E : List Effect}
    (hE : ∀ ev ∈ E, ev.Quiet ∨ ∃ p, ev = .free p) : confirmations E = [] := by
  refine List.filterMap_eq_nil_iff.mpr fun ev hev => ?_
  rcases hE ev hev with hq | ⟨p, rfl⟩
  · cases ev <;> first | rfl | exact hq.elim
  · rfl

/-- **Each small step keeps the confirmations attributed.** A completion confirms live records,
which the invariant says are accepted, and frees them. -/
theorem ConfirmsAccepted.micro (hs : s.Inv) (hc : s.ConfirmsAccepted) :
    Micro s t → t.ConfirmsAccepted
  | .accept ha => by
    obtain ⟨E, htrace, hq⟩ := ha.trace
    refine hc.extend htrace (.inr (ha.accepted ▸ List.prefix_append _ _)) fun c hmem => ?_
    rw [confirmations_quiet hq] at hmem
    cases hmem
  | .refuse hr => by
    obtain ⟨E, htrace, hq⟩ := hr.trace
    refine hc.extend htrace (.inl hr.accepted.symm) fun c hmem => ?_
    rw [confirmations_eq_nil_of_send fun ev hev =>
      (hq ev hev).imp_right fun ⟨p, hp, _⟩ => ⟨p, hp⟩] at hmem
    cases hmem
  | .complete (X := X) (r := r) hx => by
    obtain ⟨pre, post, htrace, hpre, hpost⟩ := hx.trace
    refine hc.extend htrace (.inl hx.accepted.symm) fun c hmem => ?_
    simp only [confirmations_append, confirmations_quiet hpre, confirmations_quiet hpost,
      confirmations_flatMap_complete, List.nil_append, List.append_nil] at hmem
    obtain ⟨x, hx', hxc⟩ := List.mem_filterMap.mp hmem
    have hfree : Effect.free x.entry ∈ t.trace := by
      rw [htrace]
      simp only [List.mem_append, List.mem_flatMap]
      exact .inr (.inl (.inr ⟨x, hx', by simp [complete]⟩))
    exact ⟨x, hx.accepted ▸ (hs.mem_live (hx.live.symm.subset (List.mem_append_left _ hx'))).1,
      hfree, r, hxc⟩

/-- The property does not see the order of the trace. -/
theorem ConfirmsAccepted.of_equiv (hc : s.ConfirmsAccepted) (he : Equiv s t) :
    t.ConfirmsAccepted := by
  obtain ⟨T, rfl, hT⟩ := he
  replace hT := perm_of_filter_about hT
  intro c hmem
  obtain ⟨e, he, hce, r, hr⟩ := hc c ((hT.filterMap _).mem_iff.mpr hmem)
  exact ⟨e, he, hT.mem_iff.mp hce, r, hr⟩

theorem ConfirmsAccepted.sim (hs : s.Inv) (hc : s.ConfirmsAccepted) (hst : Sim s t) :
    t.ConfirmsAccepted := by
  obtain ⟨σ, hrun, he⟩ := hst
  have hσ : σ.Inv ∧ σ.ConfirmsAccepted := by
    clear he
    induction hrun with
    | refl => exact ⟨hs, hc⟩
    | tail _ hm ih => exact ⟨ih.1.micro hm, ih.2.micro ih.1 hm⟩
  exact hσ.2.of_equiv he

end Run

end System

theorem RReachable.confirmsAccepted {s : System} (hs : RReachable s) :
    s.ConfirmsAccepted := by
  induction hs with
  | create hc =>
    intro c hmem
    rw [System.init, confirmations_quiet (create_quiet hc).2] at hmem
    cases hmem
  | createWithTransport hc =>
    intro c hmem
    rw [System.init, confirmations_quiet (createWithTransport_quiet hc).2] at hmem
    cases hmem
  | step _ _ _ hs hstep ih => exact ih.sim hs.inv (System.rstep_sim hs.inv hstep)

/-- **No confirmation goes astray, whatever the callbacks call.** In every state of a run whose
confirmation callbacks may send and set options, every confirmation callback made so far was
for a record accepted with `IOTHUB_CLIENT_OK` and since freed, and was called with that
record's own callback and context: those its `IoTHubClient_LL_SendEventAsync` was given. -/
theorem confirmations_accepted_reentrant {s : System} (hs : RReachable s) :
    ∀ c ∈ confirmations s.trace, ∃ e ∈ s.accepted, s.Completed e ∧
      ∃ r, e.confirmation r = some c :=
  hs.confirmsAccepted

/-- A client created, one message sent with callback `7`, then `Destroy`, whose callback for it
sends a message with callback `8` and context `6`: both confirmations go to their own records
and contexts. -/
theorem confirmations_accepted_reentrant_destroy_resend :
    let s : System := ⟨HandleData.initial 4 false 5 3, [],
      [⟨0, 0, some 7, none, 0⟩, ⟨1, 2, some 8, some 6, 0⟩],
      [.tickcounterCreate 3, .transportCreate 4, .transportRegister 5, .malloc 0, .messageClone 0,
        .transportUnregister 5, .transportDestroy 4, .callback 0 7 .becauseDestroy none,
        .malloc 1, .messageClone 2, .messageDestroy 0, .free 0,
        .callback 1 8 .becauseDestroy (some 6), .messageDestroy 2, .free 1,
        .tickcounterDestroy 3], 3, true⟩
    RReachable s ∧
      confirmations s.trace = [(0, 7, .becauseDestroy, none), (1, 8, .becauseDestroy, some 6)] ∧
      ∀ c ∈ confirmations s.trace, ∃ e ∈ s.accepted, s.Completed e ∧
        ∃ r, e.confirmation r = some c := by
  intro s
  have hs : RReachable s :=
    .step (fun x => if x.entry = 0 then
        [.sendEventAsync (some 10) (some 8) (some 6) ⟨some 1, none, some 2⟩] else []) 3 .destroy
      (.step noReentry 1 (.sendEventAsync (some 9) (some 7) none true none true)
        (@RReachable.create (some ⟨some 1, none, none, none, none, none⟩)
          ⟨true, some 3, some 4, some 5⟩ _ _ rfl) rfl) rfl
  exact ⟨hs, rfl, confirmations_accepted_reentrant hs⟩

end IoTHubClientLL
