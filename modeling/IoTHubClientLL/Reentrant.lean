import IoTHubClientLL.ScanSpec
import IoTHubClientLL.SendSpec
import IoTHubClientLL.Drain

/-!
# Callbacks that call back: `SendComplete` and `Destroy`

`IoTHubClient_LL_SendComplete` and the drain of `IoTHubClient_LL_Destroy` call the
confirmation callback of each record they pop, as `DoTimeouts` does, and that callback is
application code that may call back into the same instance (`Reentry`). `Drain.lean` models
the two loops with callbacks that make no calls; here the callback of `e` makes the calls
`app e`, and `noReentry` gives back the loops of `Drain.lean`.

A call from a callback only appends to the queue and may set the timeout
(`HandleData.Extends`). What follows from that:

* `SendComplete` drains the transport's batch, a list no call can reach, so its loop runs
  once per record of the batch.
* `Destroy` drains `waitingToSend` itself, the list a send from a callback appends to, so its
  loop runs on fuel. A callback that sends again keeps it draining forever
  (`destroyLoop_resend`). The transport is destroyed before the drain, so a callback that sets
  a transport option makes the instance call a transport it has destroyed
  (`destroyReentrant_transport_after_destroy`).
* The same growth keeps the scan of `DoTimeouts` going once two expired records remain from
  its cursor and every timeout callback links another expired record (`doTimeoutsLoop_resend`).
-/

namespace IoTHubClientLL

/-! ## What a call from a callback changes -/

/-- `h'` is `h` with records appended to its queue and, perhaps, another timeout: all that a
call from a callback can change. -/
def HandleData.Extends (h h' : HandleData) : Prop :=
  ∃ A, h' = { h with
    waitingToSend := h.waitingToSend ++ A
    currentMessageTimeout := h'.currentMessageTimeout }

theorem HandleData.Extends.refl (h : HandleData) : h.Extends h := ⟨[], by simp⟩

theorem HandleData.Extends.trans {h₁ h₂ h₃ : HandleData} (h₁₂ : h₁.Extends h₂)
    (h₂₃ : h₂.Extends h₃) : h₁.Extends h₃ := by
  obtain ⟨A, hA⟩ := h₁₂
  obtain ⟨B, hB⟩ := h₂₃
  refine ⟨A ++ B, ?_⟩
  rw [hB, hA]
  simp

theorem HandleData.Extends.waitingToSend {h h' : HandleData} (he : h.Extends h') :
    ∃ A, h'.waitingToSend = h.waitingToSend ++ A := by
  obtain ⟨A, hA⟩ := he
  exact ⟨A, by rw [hA]⟩

theorem HandleData.Extends.transportHandle {h h' : HandleData} (he : h.Extends h') :
    h'.transportHandle = h.transportHandle := by
  obtain ⟨A, hA⟩ := he
  rw [hA]

theorem HandleData.Extends.tickCounter {h h' : HandleData} (he : h.Extends h') :
    h'.tickCounter = h.tickCounter := by
  obtain ⟨A, hA⟩ := he
  rw [hA]

theorem Reentry.run_extends (h : HandleData) (call : Reentry) : h.Extends (call.run h).1 := by
  cases call with
  | setOption name value t =>
    refine ⟨[], ?_⟩
    rcases name with _ | name <;> rcases value with _ | v <;>
      simp only [Reentry.run, IoTHubClientLL.setOption, Option.getD_some]
    all_goals try split_ifs
    all_goals simp
  | sendEventAsync m cb ctx env =>
    by_cases hok : (IoTHubClientLL.sendEventAsync (some h) m cb ctx env).1 = .ok
    · obtain ⟨h', p, t, c, hh, -, -, -, hr⟩ := sendEventAsync_of_ok hok
      cases hh
      exact ⟨[⟨p, c, cb, ctx, t⟩], by simp [Reentry.run, hr]⟩
    · exact ⟨[], by simp [Reentry.run, (sendEventAsync_of_ne_ok hok).1]⟩

theorem runReentries_extends (h : HandleData) (calls : List Reentry) :
    h.Extends (runReentries h calls).1 := by
  induction calls generalizing h with
  | nil => exact .refl h
  | cons call calls ih => exact (Reentry.run_extends h call).trans (ih _)

theorem confirm_extends (app : MessageList → List Reentry) (result : ConfirmationResult)
    (e : MessageList) (h : HandleData) : h.Extends (confirm app result e h).1 := by
  rw [confirm_eq]
  exact runReentries_extends h _

/-- A callback that makes no calls leaves the instance alone. -/
@[simp] theorem confirm_noReentry (result : ConfirmationResult) (e : MessageList)
    (h : HandleData) : confirm noReentry result e h = (h, invoke result e) := by
  unfold confirm invoke
  rcases e.callback <;> rfl

/-- A `SetOption` for a transport option calls the transport's `_SetOption` with the name,
whatever came before it among the calls. -/
theorem runReentries_transportSetOption {h : HandleData} {calls : List Reentry}
    {name : List Char} {v : UInt64} {res : ClientResult}
    (hcall : .setOption (some name) (some v) res ∈ calls) (hname : name ≠ "messageTimeout".toList) :
    .transportSetOption h.transportHandle name ∈ (runReentries h calls).2 := by
  induction calls generalizing h with
  | nil => cases hcall
  | cons call calls ih =>
    simp only [runReentries, List.mem_append]
    rcases List.mem_cons.mp hcall with rfl | hcall
    · left
      simp only [Reentry.run, IoTHubClientLL.setOption, if_neg hname]
      simp
    · right
      rw [← (Reentry.run_extends h call).transportHandle]
      exact ih hcall

/-! ## `IoTHubClient_LL_SendComplete` -/

/-- The loop of `IoTHubClient_LL_SendComplete`, `while ((oldest =
DList_RemoveHeadList(completed)) != completed)`, the callback of `oldest` making the calls
`app oldest`. The batch is the transport's list, which no call reaches, so the loop is over
the batch. -/
def sendCompleteLoop (app : MessageList → List Reentry) (resultToBeCalled : ConfirmationResult) :
    List MessageList → HandleData → HandleData × List Effect
  | [], handleData => (handleData, [])
  | oldest :: completed, handleData =>
    let r := confirm app resultToBeCalled oldest handleData
    let r' := sendCompleteLoop app resultToBeCalled completed r.1
    (r'.1, r.2 ++ [.messageDestroy oldest.messageHandle, .free oldest.entry] ++ r'.2)

/-- `IoTHubClient_LL_SendComplete` with callbacks that call back into the instance. -/
def sendCompleteReentrant (app : MessageList → List Reentry) (handle : Option HandleData)
    (completed : Option (List MessageList)) (result : BatchStateResult) :
    Option HandleData × Option (List MessageList) × List Effect :=
  match handle, completed with
  | some handleData, some l =>
    let r := sendCompleteLoop app (if result = .success then .ok else .error) l handleData
    (some r.1, some [], r.2)
  | _, _ => (handle, completed, [])

theorem sendCompleteLoop_noReentry (result : ConfirmationResult) (l : List MessageList)
    (h : HandleData) : sendCompleteLoop noReentry result l h = (h, l.flatMap (complete result)) := by
  induction l with
  | nil => rfl
  | cons e l ih => simp [sendCompleteLoop, ih, complete]

/-- With callbacks that make no calls, this is the `SendComplete` of `Api.lean`. -/
theorem sendCompleteReentrant_noReentry (handle : Option HandleData)
    (completed : Option (List MessageList)) (result : BatchStateResult) :
    sendCompleteReentrant noReentry handle completed result = sendComplete handle completed result := by
  rcases handle with _ | h <;> rcases completed with _ | l <;>
    simp [sendCompleteReentrant, sendComplete, sendCompleteLoop_noReentry, drain_eq]

/-! ## `IoTHubClient_LL_Destroy` -/

/-- The drain of `IoTHubClient_LL_Destroy`, `while ((unsend =
DList_RemoveHeadList(&waitingToSend)) != &waitingToSend)`, the callback of `unsend` making
the calls `app unsend`. A send from a callback appends to the very list being drained, so the
loop runs on `fuel`; `none` means the fuel ran out. -/
def destroyLoop (app : MessageList → List Reentry) :
    ℕ → HandleData → List Effect → Option (HandleData × List Effect)
  | 0, _, _ => none
  | fuel + 1, handleData, out =>
    match handleData.waitingToSend with
    | [] => some (handleData, out)
    | unsend :: rest =>
      let r := confirm app .becauseDestroy unsend { handleData with waitingToSend := rest }
      destroyLoop app fuel r.1
        (out ++ r.2 ++ [.messageDestroy unsend.messageHandle, .free unsend.entry])

/-- `IoTHubClient_LL_Destroy` with callbacks that call back into the instance: unregister,
destroy the transport unless it is shared, drain, destroy the tick counter. -/
def destroyReentrant (app : MessageList → List Reentry) (fuel : ℕ) :
    Option HandleData → Option (List Effect)
  | none => some []
  | some handleData =>
    (destroyLoop app fuel handleData []).map fun r =>
      .transportUnregister handleData.deviceHandle ::
        ((if handleData.isSharedTransport = false then
            [.transportDestroy handleData.transportHandle] else []) ++
          r.2 ++ [.tickcounterDestroy r.1.tickCounter])

theorem destroyLoop_noReentry : ∀ (fuel : ℕ) (h : HandleData) (out : List Effect),
    h.waitingToSend.length < fuel →
    destroyLoop noReentry fuel h out =
      some ({ h with waitingToSend := [] }, out ++ h.waitingToSend.flatMap (complete .becauseDestroy))
  | 0, _, _, hf => absurd hf (Nat.not_lt_zero _)
  | fuel + 1, h, out, hf => by
    rcases hw : h.waitingToSend with _ | ⟨e, rest⟩
    · have hh : ({ h with waitingToSend := [] } : HandleData) = h := by cases h; cases hw; rfl
      simp [destroyLoop, hw, hh]
    · rw [hw, List.length_cons] at hf
      simp only [destroyLoop, hw, confirm_noReentry]
      rw [destroyLoop_noReentry fuel _ _ (by simpa using hf)]
      simp [complete]

/-- With callbacks that make no calls and fuel for the queue, this is the `Destroy` of
`Api.lean`. -/
theorem destroyReentrant_noReentry {fuel : ℕ} {h : HandleData}
    (hf : h.waitingToSend.length < fuel) :
    destroyReentrant noReentry fuel (some h) = some (destroy (some h)) := by
  simp [destroyReentrant, destroyLoop_noReentry fuel h [] hf, destroy, drain_eq]

/-- The drain only appends to the effects it was given. -/
theorem destroyLoop_appends {app : MessageList → List Reentry} :
    ∀ {fuel : ℕ} {h : HandleData} {out : List Effect} {r : HandleData × List Effect},
      destroyLoop app fuel h out = some r → out <+: r.2
  | 0, _, _, _, hr => nomatch hr
  | fuel + 1, h, out, r, hr => by
    unfold destroyLoop at hr
    split at hr
    · cases hr
      exact List.prefix_refl _
    · dsimp only at hr
      exact (List.prefix_append _ _).trans ((List.prefix_append _ _).trans (destroyLoop_appends hr))

/-- **The drain confirms every record it starts from**: the effects of the record's callback,
made on an instance with the same transport, stand in the drain's effects. -/
theorem destroyLoop_confirms {app : MessageList → List Reentry} :
    ∀ {fuel : ℕ} {h : HandleData} {out : List Effect} {r : HandleData × List Effect},
      destroyLoop app fuel h out = some r → ∀ x ∈ h.waitingToSend, ∃ h' : HandleData,
        h'.transportHandle = h.transportHandle ∧ (confirm app .becauseDestroy x h').2 <:+: r.2
  | 0, _, _, _, hr => nomatch hr
  | fuel + 1, h, out, r, hr => by
    intro x hx
    unfold destroyLoop at hr
    split at hr
    · rename_i hw
      rw [hw] at hx
      cases hx
    · rename_i unsend rest hw
      dsimp only at hr
      rw [hw] at hx
      rcases List.mem_cons.mp hx with rfl | hx
      · refine ⟨{ h with waitingToSend := rest }, rfl, ?_⟩
        exact (List.infix_append _ _ _).trans (destroyLoop_appends hr).isInfix
      · have hext := confirm_extends app .becauseDestroy unsend { h with waitingToSend := rest }
        obtain ⟨A, hA⟩ := hext.waitingToSend
        obtain ⟨h', ht, hinf⟩ := destroyLoop_confirms hr x (by rw [hA]; exact List.mem_append_left _ hx)
        exact ⟨h', ht.trans hext.transportHandle, hinf⟩

/-- **`Destroy` calls the transport after destroying it.** When the instance owns its
transport, `IoTHubClient_LL_Destroy` destroys it before draining the queue. So if the callback
of a queued record sets an option other than `messageTimeout`, the instance calls the
transport's `_SetOption` on that transport after its `_Destroy`, whenever `Destroy` returns. -/
theorem destroyReentrant_transport_after_destroy {app : MessageList → List Reentry} {fuel : ℕ}
    {h : HandleData} {E : List Effect} (hE : destroyReentrant app fuel (some h) = some E)
    (hshared : h.isSharedTransport = false) {x : MessageList} (hx : x ∈ h.waitingToSend)
    (hcb : x.callback.isSome) {name : List Char} {v : UInt64} {res : ClientResult}
    (hcall : .setOption (some name) (some v) res ∈ app x)
    (hname : name ≠ "messageTimeout".toList) :
    ∃ E₁ E₂, E = E₁ ++ E₂ ∧ .transportDestroy h.transportHandle ∈ E₁ ∧
      .transportSetOption h.transportHandle name ∈ E₂ := by
  obtain ⟨r, hr, rfl⟩ := Option.map_eq_some'.mp hE
  obtain ⟨h', ht, hinf⟩ := destroyLoop_confirms hr x hx
  have hset : .transportSetOption h.transportHandle name ∈ (confirm app .becauseDestroy x h').2 := by
    rw [confirm_eq, callsOf, if_pos hcb, ← ht]
    exact List.mem_append_right _ (runReentries_transportSetOption hcall hname)
  refine ⟨[.transportUnregister h.deviceHandle, .transportDestroy h.transportHandle],
    r.2 ++ [.tickcounterDestroy r.1.tickCounter], by simp [hshared], by simp, ?_⟩
  exact List.mem_append_left _ (hinf.subset hset)

/-- A record whose callback sets the `logtrace` option, destroyed on an instance that owns
transport `1`: the transport's `_SetOption` comes after its `_Destroy`. -/
theorem destroyReentrant_logtrace_after_destroy :
    destroyReentrant (fun _ => [.setOption (some "logtrace".toList) (some 1) .ok]) 2
        (some { HandleData.initial 1 false 2 3 with waitingToSend := [⟨10, 20, some 7, none, 0⟩] }) =
      some [.transportUnregister 2, .transportDestroy 1, .callback 10 7 .becauseDestroy none,
        .transportSetOption 1 "logtrace".toList, .messageDestroy 20, .free 10,
        .tickcounterDestroy 3] ∧
    (HandleData.initial 1 false 2 3).isSharedTransport = false ∧
    (⟨10, 20, some 7, none, 0⟩ : MessageList) ∈ [(⟨10, 20, some 7, none, 0⟩ : MessageList)] ∧
    (some 7 : Option ConfirmationCallback).isSome ∧
    Reentry.setOption (some "logtrace".toList) (some 1) .ok ∈
      [Reentry.setOption (some "logtrace".toList) (some 1) .ok] ∧
    "logtrace".toList ≠ "messageTimeout".toList ∧
    ∃ E₁ E₂, [.transportUnregister 2, .transportDestroy 1, .callback 10 7 .becauseDestroy none,
        .transportSetOption 1 "logtrace".toList, .messageDestroy 20, .free 10,
        .tickcounterDestroy 3] = E₁ ++ E₂ ∧ Effect.transportDestroy 1 ∈ E₁ ∧
      Effect.transportSetOption 1 "logtrace".toList ∈ E₂ := by
  have hE : destroyReentrant (fun _ => [.setOption (some "logtrace".toList) (some 1) .ok]) 2
      (some { HandleData.initial 1 false 2 3 with waitingToSend := [⟨10, 20, some 7, none, 0⟩] }) =
      some [.transportUnregister 2, .transportDestroy 1, .callback 10 7 .becauseDestroy none,
        .transportSetOption 1 "logtrace".toList, .messageDestroy 20, .free 10,
        .tickcounterDestroy 3] := by decide
  have hname : "logtrace".toList ≠ "messageTimeout".toList := by decide
  exact ⟨hE, rfl, List.mem_singleton_self _, rfl, List.mem_singleton_self _, hname,
    destroyReentrant_transport_after_destroy hE rfl (List.mem_singleton_self _) rfl
      (List.mem_singleton_self _) hname⟩

/-- **A callback that always sends again keeps the drain going.** If every callback links one
more record with a callback, whatever the instance it runs on, then from a queue of records
with callbacks the drain never empties the queue: for every fuel it runs out. -/
theorem destroyLoop_resend {app : MessageList → List Reentry}
    (hresend : ∀ x h, x.callback.isSome → ∃ y : MessageList, y.callback.isSome ∧
      (runReentries h (app x)).1.waitingToSend = h.waitingToSend ++ [y]) :
    ∀ (fuel : ℕ) (h : HandleData) (out : List Effect), h.waitingToSend ≠ [] →
      (∀ x ∈ h.waitingToSend, x.callback.isSome) → destroyLoop app fuel h out = none
  | 0, _, _, _, _ => rfl
  | fuel + 1, h, out, hne, hcb => by
    obtain ⟨x, rest, hw⟩ := List.exists_cons_of_ne_nil hne
    have hx : x.callback.isSome := hcb x (by simp [hw])
    obtain ⟨y, hy, hq⟩ := hresend x { h with waitingToSend := rest } hx
    have hq' : (confirm app .becauseDestroy x { h with waitingToSend := rest }).1.waitingToSend =
        rest ++ [y] := by
      rw [confirm_eq, callsOf, if_pos hx, hq]
    simp only [destroyLoop, hw]
    refine destroyLoop_resend hresend fuel _ _ (by simp [hq']) ?_
    rw [hq']
    intro z hz
    rcases List.mem_append.mp hz with hz | hz
    · exact hcb z (by simp [hw, hz])
    · rw [List.mem_singleton.mp hz]
      exact hy

/-- **`Destroy` never returns when every callback sends again.** If every confirmation callback
links one more record with a callback, whatever the instance it runs on, then
`IoTHubClient_LL_Destroy` on a queue of records with callbacks never ends: the records its
callbacks send are appended to the list it is draining, so for every fuel the drain runs out. -/
theorem destroyReentrant_resend {app : MessageList → List Reentry}
    (hresend : ∀ x h, x.callback.isSome → ∃ y : MessageList, y.callback.isSome ∧
      (runReentries h (app x)).1.waitingToSend = h.waitingToSend ++ [y])
    {h : HandleData} (hne : h.waitingToSend ≠ []) (hcb : ∀ x ∈ h.waitingToSend, x.callback.isSome)
    (fuel : ℕ) : destroyReentrant app fuel (some h) = none := by
  simp [destroyReentrant, destroyLoop_resend hresend fuel h [] hne hcb]

/-- A callback that sends a copy of its message, with its own callback and context, on every
confirmation: `Destroy` of one such record never returns. -/
theorem destroyReentrant_resend_own_message :
    (∀ (x : MessageList) (h : HandleData), x.callback.isSome → ∃ y : MessageList,
      y.callback.isSome ∧ (runReentries h
        [.sendEventAsync (some 1) x.callback x.context ⟨some 2, some 0, some 3⟩]).1.waitingToSend =
          h.waitingToSend ++ [y]) ∧
    [(⟨10, 20, some 7, none, 0⟩ : MessageList)] ≠ [] ∧
    (∀ x ∈ [(⟨10, 20, some 7, none, 0⟩ : MessageList)], x.callback.isSome) ∧
    ∀ fuel, destroyReentrant
      (fun x => [.sendEventAsync (some 1) x.callback x.context ⟨some 2, some 0, some 3⟩]) fuel
      (some { HandleData.initial 1 false 2 3 with waitingToSend := [⟨10, 20, some 7, none, 0⟩] }) =
        none := by
  have hresend : ∀ (x : MessageList) (h : HandleData), x.callback.isSome → ∃ y : MessageList,
      y.callback.isSome ∧ (runReentries h
        [.sendEventAsync (some 1) x.callback x.context ⟨some 2, some 0, some 3⟩]).1.waitingToSend =
          h.waitingToSend ++ [y] := by
    intro x h hx
    obtain ⟨fn, hfn⟩ := Option.isSome_iff_exists.mp hx
    refine ⟨⟨2, 3, x.callback, x.context, (attachMsTimesOutAfter h (some 0)).getD 0⟩, hx, ?_⟩
    unfold attachMsTimesOutAfter
    split <;> simp [runReentries, Reentry.run, IoTHubClientLL.sendEventAsync, attachMsTimesOutAfter,
      DList.insertTailList, hfn, *]
  exact ⟨hresend, by simp, by simp, destroyReentrant_resend hresend (by simp) (by simp)⟩

/-! ## `DoTimeouts` with callbacks that send again -/

/-- The records from position `i` on, once the record at `i` is removed and `A` appended. -/
theorem drop_eraseIdx_append {l : List MessageList} {i : ℕ} (hi : i < l.length)
    (A : List MessageList) : (l.eraseIdx i ++ A).drop i = l.drop (i + 1) ++ A := by
  rw [List.eraseIdx_eq_take_drop_succ, List.append_assoc, List.drop_left' (by simp [hi.le])]

/-- **A timeout callback that links another expired record keeps the scan going.** Suppose
every timeout callback, run on an instance with timeout `T`, links one more record with a
callback that has expired at `nowTick`, and changes nothing else. From a cursor with at least
two records from it on, all expired and with callbacks, the scan never reaches the end of the
list: each removal saves the next record as the cursor, and the callback puts a record back at
the end. -/
theorem doTimeoutsLoop_resend {app : MessageList → List Reentry} {nowTick T : UInt64}
    (hresend : ∀ x h, x.callback.isSome → h.currentMessageTimeout = T → ∃ y : MessageList,
      timedOut nowTick y ∧ y.callback.isSome ∧
        (runReentries h (app x)).1 = { h with waitingToSend := h.waitingToSend ++ [y] }) :
    ∀ (fuel i : ℕ) (h : HandleData) (out : List Effect), h.currentMessageTimeout = T →
      i + 2 ≤ h.waitingToSend.length →
      (∀ x ∈ h.waitingToSend.drop i, timedOut nowTick x ∧ x.callback.isSome) →
      doTimeoutsLoop app nowTick fuel (some i) h out = none
  | 0, _, _, _, _, _, _ => rfl
  | fuel + 1, i, h, out, hT, hlen, hexp => by
    have hi : i < h.waitingToSend.length := by omega
    rw [List.drop_eq_getElem_cons hi] at hexp
    obtain ⟨hx, hcb⟩ := hexp _ (List.mem_cons_self _ _)
    obtain ⟨y, hy, hycb, hq⟩ :=
      hresend _ { h with waitingToSend := h.waitingToSend.eraseIdx i } hcb hT
    rw [doTimeoutsLoop_evict (List.getElem?_eq_getElem hi) hx]
    simp only [confirm_eq, callsOf, if_pos hcb, hq, if_pos (show i + 1 < h.waitingToSend.length by omega)]
    refine doTimeoutsLoop_resend hresend fuel i _ _ hT
      (by rw [List.length_append, List.length_eraseIdx_of_lt hi, List.length_singleton]; omega) ?_
    rw [drop_eraseIdx_append hi]
    intro z hz
    rcases List.mem_append.mp hz with hz | hz
    · exact hexp z (List.mem_cons_of_mem _ hz)
    · rw [List.mem_singleton.mp hz]
      exact ⟨hy, hycb⟩

/-- **`DoWork` never returns when every timeout callback links another expired record.** If
the queue holds two records or more, all expired at the clock reading and with callbacks, and
every timeout callback, on an instance with the timeout in force, links one more record with
a callback that has expired at that reading, then `IoTHubClient_LL_DoWork` never ends: for
every fuel its scan runs out. -/
theorem doWork_resend {app : MessageList → List Reentry} {nowTick T : UInt64}
    (hresend : ∀ x h, x.callback.isSome → h.currentMessageTimeout = T → ∃ y : MessageList,
      timedOut nowTick y ∧ y.callback.isSome ∧
        (runReentries h (app x)).1 = { h with waitingToSend := h.waitingToSend ++ [y] })
    {h : HandleData} (hT : h.currentMessageTimeout = T) (hlen : 2 ≤ h.waitingToSend.length)
    (hexp : ∀ x ∈ h.waitingToSend, timedOut nowTick x ∧ x.callback.isSome) (fuel : ℕ) :
    doWork app fuel (some h) (some nowTick) = none := by
  simp [doWork, doTimeouts, doTimeoutsLoop_resend hresend fuel 0 h [] hT hlen (by simpa using hexp)]

/-- The wrap of `attach_ms_timesOutAfter`: with the timeout at `2^64 - 1` ms, a message sent at
`1000` expires at `999`. Two such records whose callbacks send their message again on timeout
keep `DoWork` at `1000` from ever returning. -/
theorem doWork_resend_after_wrap :
    (∀ (x : MessageList) (h : HandleData), x.callback.isSome →
      h.currentMessageTimeout = 18446744073709551615 → ∃ y : MessageList,
        timedOut 1000 y ∧ y.callback.isSome ∧
          (runReentries h [.sendEventAsync (some 1) x.callback x.context
            ⟨some 2, some 1000, some 3⟩]).1 = { h with waitingToSend := h.waitingToSend ++ [y] }) ∧
    2 ≤ [(⟨10, 20, some 7, none, 999⟩ : MessageList), ⟨11, 21, some 7, none, 999⟩].length ∧
    (∀ x ∈ [(⟨10, 20, some 7, none, 999⟩ : MessageList), ⟨11, 21, some 7, none, 999⟩],
      timedOut 1000 x ∧ x.callback.isSome) ∧
    ∀ fuel, doWork (fun x => [.sendEventAsync (some 1) x.callback x.context
        ⟨some 2, some 1000, some 3⟩]) fuel
      (some { HandleData.initial 1 false 2 3 with
        currentMessageTimeout := 18446744073709551615
        waitingToSend := [⟨10, 20, some 7, none, 999⟩, ⟨11, 21, some 7, none, 999⟩] })
      (some 1000) = none := by
  have hwrap : (1000 : UInt64) + 18446744073709551615 = 999 := by decide
  have hresend : ∀ (x : MessageList) (h : HandleData), x.callback.isSome →
      h.currentMessageTimeout = 18446744073709551615 → ∃ y : MessageList,
        timedOut 1000 y ∧ y.callback.isSome ∧
          (runReentries h [.sendEventAsync (some 1) x.callback x.context
            ⟨some 2, some 1000, some 3⟩]).1 = { h with waitingToSend := h.waitingToSend ++ [y] } := by
    intro x h hx hT
    obtain ⟨fn, hfn⟩ := Option.isSome_iff_exists.mp hx
    refine ⟨⟨2, 3, x.callback, x.context, 999⟩, rfl, hx, ?_⟩
    simp [runReentries, Reentry.run, IoTHubClientLL.sendEventAsync, attachMsTimesOutAfter,
      DList.insertTailList, hfn, hT, hwrap]
  have hexp : ∀ x ∈ [(⟨10, 20, some 7, none, 999⟩ : MessageList), ⟨11, 21, some 7, none, 999⟩],
      timedOut 1000 x ∧ x.callback.isSome := by decide
  exact ⟨hresend, by decide, hexp, doWork_resend hresend rfl (by decide) hexp⟩

end IoTHubClientLL
