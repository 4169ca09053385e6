import IoTHubClientLL.Scan

/-!
# What the timeout scan does

`timeoutScan` says what `DoTimeouts` is for: the records that have not expired stay, in
their order; the expired ones are completed with `IOTHUB_CLIENT_CONFIRMATION_MESSAGE_TIMEOUT`
in queue order, each callback making its calls against the instance as it stands then.

The loop meets it (`doTimeoutsLoop_eq`) under one condition on the callbacks, `ReentrySafe`:
every `IoTHubClient_LL_SendEventAsync` they make reads a clock no earlier than the scan's and
gets an expiry that does not wrap. The records such a send appends are then not expired,
so the scan visits them, if at all, only to pass them; the loop ends within a fuel bounded by
the queue and the number of calls. Without re-entrant calls the condition is empty
(`doTimeouts_noReentry`).

The proof rests on one frame fact: the calls a callback makes never read the queue, and only
append to it (`Reentry.run_prepend`). So what a callback does is the same whichever records
precede the ones it appends.
-/

namespace IoTHubClientLL

/-! ## Prepending to the queue -/

/-- The instance with `L` linked in front of its queue. -/
def HandleData.prepend (L : List MessageList) (h : HandleData) : HandleData :=
  { h with waitingToSend := L ++ h.waitingToSend }

@[simp] theorem HandleData.prepend_waitingToSend (L : List MessageList) (h : HandleData) :
    (h.prepend L).waitingToSend = L ++ h.waitingToSend := rfl

@[simp] theorem HandleData.prepend_currentMessageTimeout (L : List MessageList) (h : HandleData) :
    (h.prepend L).currentMessageTimeout = h.currentMessageTimeout := rfl

theorem HandleData.prepend_append (L M : List MessageList) (h : HandleData) :
    h.prepend (L ++ M) = (h.prepend M).prepend L := by
  simp [HandleData.prepend, List.append_assoc]

theorem HandleData.eq_prepend (h : HandleData) :
    h = ({ h with waitingToSend := [] } : HandleData).prepend h.waitingToSend := by
  simp [HandleData.prepend]

/-- A send does not read the queue; it appends to it. -/
theorem sendEventAsync_prepend (L : List MessageList) (h : HandleData) (m cb ctx)
    (env : SendEnv) :
    sendEventAsync (some (h.prepend L)) m cb ctx env =
      let r := sendEventAsync (some h) m cb ctx env
      (r.1, r.2.1.map (·.prepend L), r.2.2) := by
  unfold sendEventAsync
  have ha : attachMsTimesOutAfter (h.prepend L) = attachMsTimesOutAfter h := rfl
  rcases m with _ | m <;> simp only [ha]
  · rfl
  split_ifs <;> try rfl
  rcases env.malloc with _ | p <;> try rfl
  rcases attachMsTimesOutAfter h env.tickcounterGetCurrentMs with _ | t <;> try rfl
  rcases env.ioTHubMessageClone with _ | c <;> try rfl
  simp [HandleData.prepend, DList.insertTailList]

/-- `Reentry.run` commutes with prepending to the queue. -/
theorem Reentry.run_prepend (L : List MessageList) (h : HandleData) (call : Reentry) :
    call.run (h.prepend L) = ((call.run h).1.prepend L, (call.run h).2) := by
  cases call with
  | sendEventAsync m cb ctx env =>
    simp only [Reentry.run, sendEventAsync_prepend]
    rcases (IoTHubClientLL.sendEventAsync (some h) m cb ctx env).2.1 <;> rfl
  | setOption name value t =>
    rcases name with _ | name <;> rcases value with _ | v <;> try rfl
    simp only [Reentry.run, IoTHubClientLL.setOption]
    split_ifs <;> rfl

theorem runReentries_prepend (L : List MessageList) (h : HandleData) (calls : List Reentry) :
    runReentries (h.prepend L) calls =
      ((runReentries h calls).1.prepend L, (runReentries h calls).2) := by
  induction calls generalizing h with
  | nil => rfl
  | cons call calls ih => simp only [runReentries, Reentry.run_prepend, ih]

theorem confirm_prepend (app : MessageList → List Reentry) (result : ConfirmationResult)
    (e : MessageList) (L : List MessageList) (h : HandleData) :
    confirm app result e (h.prepend L) =
      ((confirm app result e h).1.prepend L, (confirm app result e h).2) := by
  unfold confirm
  rcases e.callback with _ | fn
  · rfl
  · simp only [runReentries_prepend]

theorem runReentries_append (h : HandleData) (c₁ c₂ : List Reentry) :
    runReentries h (c₁ ++ c₂) =
      ((runReentries (runReentries h c₁).1 c₂).1,
        (runReentries h c₁).2 ++ (runReentries (runReentries h c₁).1 c₂).2) := by
  induction c₁ generalizing h with
  | nil => rfl
  | cons call calls ih => simp [runReentries, ih]

/-! ## Calls that keep the scan finite -/

/-- A re-entrant send made from `h` reads a clock no earlier than `nowTick` and, when the
timeout is on, gets an expiry `t + currentMessageTimeout` that fits in 64 bits. -/
def Reentry.SafeAt (nowTick : UInt64) (h : HandleData) : Reentry → Prop
  | .sendEventAsync _ _ _ env => h.currentMessageTimeout ≠ 0 →
      ∀ t, env.tickcounterGetCurrentMs = some t →
        nowTick ≤ t ∧ t.toNat + h.currentMessageTimeout.toNat < 2 ^ 64
  | .setOption _ _ _ => True

/-- Each of `calls`, made in order from `h`, is `SafeAt` the instance it is made on. -/
def ReentrySafe (nowTick : UInt64) : HandleData → List Reentry → Prop
  | _, [] => True
  | h, call :: calls => call.SafeAt nowTick h ∧ ReentrySafe nowTick (call.run h).1 calls

theorem Reentry.safeAt_prepend {nowTick : UInt64} {h : HandleData} {L : List MessageList}
    {call : Reentry} : call.SafeAt nowTick (h.prepend L) ↔ call.SafeAt nowTick h := by
  cases call <;> rfl

theorem reentrySafe_prepend {nowTick : UInt64} {L : List MessageList} :
    ∀ {h : HandleData} {calls : List Reentry},
      ReentrySafe nowTick (h.prepend L) calls ↔ ReentrySafe nowTick h calls
  | _, [] => Iff.rfl
  | h, call :: calls => by
    simp only [ReentrySafe, Reentry.safeAt_prepend, Reentry.run_prepend, reentrySafe_prepend]

theorem reentrySafe_append {nowTick : UInt64} :
    ∀ {h : HandleData} {c₁ c₂ : List Reentry},
      ReentrySafe nowTick h (c₁ ++ c₂) ↔
        ReentrySafe nowTick h c₁ ∧ ReentrySafe nowTick (runReentries h c₁).1 c₂
  | _, [], _ => by simp [ReentrySafe, runReentries]
  | h, call :: calls, c₂ => by
    rw [List.cons_append]
    simp only [ReentrySafe, runReentries]
    rw [reentrySafe_append, and_assoc]

/-- A record a safe send appends has not expired at `nowTick`. -/
theorem timedOut_attach {nowTick : UInt64} {h : HandleData} {t e : UInt64}
    (hsafe : h.currentMessageTimeout ≠ 0 → ∀ t', some t = some t' →
      nowTick ≤ t' ∧ t'.toNat + h.currentMessageTimeout.toNat < 2 ^ 64)
    (he : attachMsTimesOutAfter h (some t) = some e) :
    ¬ (e ≠ 0 ∧ e < nowTick) := by
  unfold attachMsTimesOutAfter at he
  split_ifs at he with hT
  · cases he; simp
  · cases he
    obtain ⟨hle, hlt⟩ := hsafe hT t rfl
    rw [UInt64.le_def, BitVec.le_def] at hle
    simp only [UInt64.lt_def, BitVec.lt_def, not_and, not_lt]
    intro _
    have hlt' : t.toBitVec.toNat + h.currentMessageTimeout.toBitVec.toNat < 2 ^ 64 := hlt
    rw [UInt64.add_def, BitVec.toNat_add, Nat.mod_eq_of_lt hlt']
    exact Nat.le_trans hle (Nat.le_add_right _ _)

/-- One safe call appends at most one record to the queue, and that record has not expired. -/
theorem Reentry.run_queue {nowTick : UInt64} {h : HandleData} {call : Reentry}
    (hsafe : call.SafeAt nowTick h) :
    ∃ A, (call.run h).1.waitingToSend = h.waitingToSend ++ A ∧ A.length ≤ 1 ∧
      ∀ e ∈ A, timedOut nowTick e = false := by
  cases call with
  | setOption name value t =>
    refine ⟨[], ?_, by simp, by simp⟩
    rw [List.append_nil]
    rcases name with _ | name <;> rcases value with _ | v <;> try rfl
    simp only [Reentry.run, IoTHubClientLL.setOption]
    split_ifs <;> rfl
  | sendEventAsync m cb ctx env =>
    simp only [Reentry.run, IoTHubClientLL.sendEventAsync]
    rcases m with _ | m
    · exact ⟨[], by simp⟩
    split_ifs
    · exact ⟨[], by simp⟩
    rcases env with ⟨_ | p, tick, _ | c⟩
    · exact ⟨[], by simp⟩
    · exact ⟨[], by simp⟩
    · rcases ha : attachMsTimesOutAfter h tick with _ | t
      · exact ⟨[], by simp [ha]⟩
      · exact ⟨[], by simp [ha]⟩
    · rcases ha : attachMsTimesOutAfter h tick with _ | t
      · exact ⟨[], by simp [ha]⟩
      refine ⟨[⟨p, c, cb, ctx, t⟩], by simp [ha, DList.insertTailList], by simp, ?_⟩
      simp only [List.mem_singleton, forall_eq, timedOut, Bool.and_eq_false_iff,
        bne_eq_false_iff_eq, decide_eq_false_iff_not]
      by_cases hT : h.currentMessageTimeout = 0
      · simp [attachMsTimesOutAfter, hT] at ha; simp [ha]
      · rcases tick with _ | t₀
        · simp [attachMsTimesOutAfter, hT] at ha
        · have := timedOut_attach (hsafe) ha
          tauto

/-- Safe calls append records that have not expired, at most one a call. -/
theorem runReentries_queue {nowTick : UInt64} :
    ∀ {h : HandleData} {calls : List Reentry}, ReentrySafe nowTick h calls →
      ∃ A, (runReentries h calls).1.waitingToSend = h.waitingToSend ++ A ∧
        A.length ≤ calls.length ∧ ∀ e ∈ A, timedOut nowTick e = false
  | h, [], _ => ⟨[], by simp [runReentries]⟩
  | h, call :: calls, ⟨h₁, h₂⟩ => by
    obtain ⟨A, hA, hlen, hto⟩ := Reentry.run_queue h₁
    obtain ⟨B, hB, hlen', hto'⟩ := runReentries_queue h₂
    refine ⟨A ++ B, by simp [runReentries, hB, hA], by simp; omega, ?_⟩
    simp only [List.mem_append]
    rintro e (he | he)
    exacts [hto e he, hto' e he]

/-! ## The specification -/

/-- The calls the callback of `e` makes when the scan confirms it: none when it is `NULL`. -/
def callsOf (app : MessageList → List Reentry) (e : MessageList) : List Reentry :=
  if e.callback.isSome then app e else []

/-- The calls the timeout callbacks of `es` make, in the order the scan makes them. -/
def reentrantCalls (app : MessageList → List Reentry) (es : List MessageList) : List Reentry :=
  es.flatMap (callsOf app)

theorem confirm_eq (app : MessageList → List Reentry) (result : ConfirmationResult)
    (e : MessageList) (h : HandleData) :
    confirm app result e h =
      ((runReentries h (callsOf app e)).1, invoke result e ++ (runReentries h (callsOf app e)).2) := by
  unfold confirm callsOf invoke
  rcases e.callback <;> rfl

/-- Complete each of `es` in turn with `IOTHUB_CLIENT_CONFIRMATION_MESSAGE_TIMEOUT`: the
callback (and the calls it makes), `IoTHubMessage_Destroy`, `free`. -/
def evictAll (app : MessageList → List Reentry) :
    List MessageList → HandleData → HandleData × List Effect
  | [], h => (h, [])
  | e :: es, h =>
    let r := confirm app .messageTimeout e h
    let r' := evictAll app es r.1
    (r'.1, r.2 ++ [.messageDestroy e.messageHandle, .free e.entry] ++ r'.2)

/-- **What `DoTimeouts` is for.** The records that have not expired at `nowTick` stay, in
order; the expired ones are completed in queue order. -/
def timeoutScan (app : MessageList → List Reentry) (nowTick : UInt64) (h : HandleData) :
    HandleData × List Effect :=
  evictAll app (h.waitingToSend.filter (timedOut nowTick))
    { h with waitingToSend := h.waitingToSend.filter fun e => !timedOut nowTick e }

/-! ## The loop meets it -/

section Loop

variable {app : MessageList → List Reentry} {nowTick : UInt64}

theorem doTimeoutsLoop_head {fuel i : ℕ} {hd : HandleData} {out : List Effect}
    (hi : hd.waitingToSend.length ≤ i) :
    doTimeoutsLoop app nowTick (fuel + 1) (some i) hd out = some (hd, out) := by
  simp [doTimeoutsLoop, List.getElem?_eq_none hi]

theorem doTimeoutsLoop_pass {fuel i : ℕ} {hd : HandleData} {out : List Effect} {e : MessageList}
    (he : hd.waitingToSend[i]? = some e) (ht : timedOut nowTick e = false) :
    doTimeoutsLoop app nowTick (fuel + 1) (some i) hd out =
      doTimeoutsLoop app nowTick fuel (some (i + 1)) hd out := by
  simp [doTimeoutsLoop, he, ht]

theorem doTimeoutsLoop_evict {fuel i : ℕ} {hd : HandleData} {out : List Effect} {e : MessageList}
    (he : hd.waitingToSend[i]? = some e) (ht : timedOut nowTick e = true) :
    doTimeoutsLoop app nowTick (fuel + 1) (some i) hd out =
      let r := confirm app .messageTimeout e
        { hd with waitingToSend := hd.waitingToSend.eraseIdx i }
      doTimeoutsLoop app nowTick fuel
        (if i + 1 < hd.waitingToSend.length then some i else none) r.1
        (out ++ r.2 ++ [.messageDestroy e.messageHandle, .free e.entry]) := by
  simp [doTimeoutsLoop, he, ht, DList.removeEntryList]

/-- Filtering out expired records ignores records appended by safe calls. -/
theorem filter_timedOut_append (rest : List MessageList) {A : List MessageList}
    (hA : ∀ e ∈ A, timedOut nowTick e = false) :
    (rest ++ A).filter (timedOut nowTick) = rest.filter (timedOut nowTick) ∧
      (rest ++ A).filter (fun e => !timedOut nowTick e) =
        rest.filter (fun e => !timedOut nowTick e) ++ A := by
  have h₁ : A.filter (timedOut nowTick) = [] := by
    rw [List.filter_eq_nil_iff]; intro e he; simp [hA e he]
  have h₂ : A.filter (fun e => !timedOut nowTick e) = A := by
    rw [List.filter_eq_self]; intro e he; simp [hA e he]
  simp [List.filter_append, h₁, h₂]

/-- **The scan loop.** From a cursor at position `kept.length`, with the records `rest` from
there on, the loop completes the expired records of `rest` and keeps the others, provided
the calls their callbacks make are safe and the fuel covers the records and the calls. -/
theorem doTimeoutsLoop_eq : ∀ (fuel : ℕ) (kept rest : List MessageList) (h : HandleData)
    (out : List Effect), h.waitingToSend = [] →
    ReentrySafe nowTick h (reentrantCalls app (rest.filter (timedOut nowTick))) →
    rest.length + (reentrantCalls app (rest.filter (timedOut nowTick))).length < fuel →
    doTimeoutsLoop app nowTick fuel (some kept.length) (h.prepend (kept ++ rest)) out =
      let r := evictAll app (rest.filter (timedOut nowTick))
        (h.prepend (kept ++ rest.filter fun e => !timedOut nowTick e))
      some (r.1, out ++ r.2)
  | 0, _, _, _, _, _, _, hf => absurd hf (Nat.not_lt_zero _)
  | fuel + 1, kept, [], h, out, h0, _, _ => by
    rw [doTimeoutsLoop_head (by simp [h0])]
    simp [evictAll]
  | fuel + 1, kept, e :: rest, h, out, h0, hs, hf => by
    have he : (h.prepend (kept ++ e :: rest)).waitingToSend[kept.length]? = some e := by
      rw [HandleData.prepend_waitingToSend, h0, List.append_nil,
        List.getElem?_append_right (le_refl _)]
      simp
    cases ht : timedOut nowTick e
    · -- the record survives: the cursor moves to the next one
      rw [doTimeoutsLoop_pass he ht]
      have := doTimeoutsLoop_eq fuel (kept ++ [e]) rest h out h0 (by simpa [ht] using hs)
        (by simp [ht] at hf; omega)
      simpa [ht] using this
    · -- the record expired: it is unlinked and confirmed, and the scan resumes at `theNext`
      rw [doTimeoutsLoop_evict he ht]
      have hcalls : reentrantCalls app ((e :: rest).filter (timedOut nowTick)) =
          callsOf app e ++ reentrantCalls app (rest.filter (timedOut nowTick)) := by
        simp [reentrantCalls, ht]
      rw [hcalls, reentrySafe_append] at hs
      rw [hcalls, List.length_append] at hf
      set c := confirm app .messageTimeout e h with hc
      have hc1 : c.1 = (runReentries h (callsOf app e)).1 := by rw [hc, confirm_eq]
      obtain ⟨A, hA, hAlen, hAto⟩ := runReentries_queue hs.1
      rw [← hc1, h0, List.nil_append] at hA
      have hunlink : ({ h.prepend (kept ++ e :: rest) with
          waitingToSend := (h.prepend (kept ++ e :: rest)).waitingToSend.eraseIdx kept.length } :
            HandleData) = h.prepend (kept ++ rest) := by
        simp [HandleData.prepend, h0, List.eraseIdx_append_of_length_le]
      simp only [hunlink, confirm_prepend, ← hc]
      rcases rest with _ | ⟨r, rs⟩
      · -- `theNext` was the list head
        obtain ⟨f, rfl⟩ : ∃ f, fuel = f + 1 := ⟨fuel - 1, by simp at hf; omega⟩
        simp [doTimeoutsLoop, evictAll, ht, confirm_prepend, ← hc, h0]
      · -- `theNext` is the record after `e`, now at position `kept.length`
        have hnext : (if kept.length + 1 < (h.prepend (kept ++ e :: r :: rs)).waitingToSend.length
            then some kept.length else none) = some kept.length := by simp [h0]
        rw [hnext]
        obtain ⟨h', h'0, hA'⟩ : ∃ h' : HandleData, h'.waitingToSend = [] ∧ c.1 = h'.prepend A :=
          ⟨{ c.1 with waitingToSend := [] }, rfl, by rw [← hA]; exact HandleData.eq_prepend c.1⟩
        obtain ⟨hfA, hsA⟩ := filter_timedOut_append (r :: rs) hAto
        have ih := doTimeoutsLoop_eq fuel kept ((r :: rs) ++ A) h'
          (out ++ c.2 ++ [.messageDestroy e.messageHandle, .free e.entry]) h'0
          (by rw [hfA, ← reentrySafe_prepend (L := A), ← hA', hc1]; exact hs.2)
          (by rw [hfA]; simp at hf ⊢; omega)
        have hq₁ : ∀ X, h'.prepend (kept ++ (X ++ A)) = c.1.prepend (kept ++ X) := fun X => by
          rw [hA', ← HandleData.prepend_append, List.append_assoc]
        rw [hfA, hsA, hq₁, hq₁] at ih
        rw [ih]
        simp [List.filter_cons, ht, evictAll, confirm_prepend, ← hc]

end Loop

/-! ## `DoTimeouts` -/

/-- The queue `timeoutScan` leaves: the records that have not expired, then those the
callbacks' sends appended, in the order they were appended. -/
theorem timeoutScan_waitingToSend (app : MessageList → List Reentry) (nowTick : UInt64)
    (h : HandleData) :
    (timeoutScan app nowTick h).1.waitingToSend =
      h.waitingToSend.filter (fun e => !timedOut nowTick e) ++
        (runReentries { h with waitingToSend := [] }
          (reentrantCalls app (h.waitingToSend.filter (timedOut nowTick)))).1.waitingToSend := by
  have hfst : ∀ (es : List MessageList) (h : HandleData),
      (evictAll app es h).1 = (runReentries h (reentrantCalls app es)).1 := by
    intro es
    induction es with
    | nil => intro h; rfl
    | cons e es ih =>
      intro h
      simp only [evictAll, ih, confirm_eq, reentrantCalls, List.flatMap_cons, runReentries_append]
  have hq : ({ h with waitingToSend := h.waitingToSend.filter fun e => !timedOut nowTick e } :
      HandleData) = ({ h with waitingToSend := [] } : HandleData).prepend
        (h.waitingToSend.filter fun e => !timedOut nowTick e) := by
    simp [HandleData.prepend]
  rw [timeoutScan, hfst, hq, runReentries_prepend]
  rfl

/-- The scan of the loop is `timeoutScan`, under the hypotheses of `doTimeoutsLoop_eq`. -/
theorem doTimeouts_eq_timeoutScan (app : MessageList → List Reentry) (nowTick : UInt64)
    (h : HandleData)
    (hsafe : ReentrySafe nowTick h (reentrantCalls app (h.waitingToSend.filter (timedOut nowTick))))
    (fuel : ℕ)
    (hfuel : h.waitingToSend.length +
      (reentrantCalls app (h.waitingToSend.filter (timedOut nowTick))).length < fuel) :
    doTimeouts app fuel (some nowTick) h = some (timeoutScan app nowTick h) := by
  have h₀ := HandleData.eq_prepend h
  have hloop := doTimeoutsLoop_eq fuel [] h.waitingToSend { h with waitingToSend := [] } []
    rfl (by rw [← reentrySafe_prepend (L := h.waitingToSend), ← h₀]; exact hsafe) hfuel
  rw [List.length_nil, List.nil_append, ← h₀] at hloop
  rw [doTimeouts, hloop, timeoutScan]
  simp [HandleData.prepend]

/-- **`DoTimeouts` with re-entrant callbacks.** When every send the timeout callbacks make
reads a clock no earlier than the scan's and gets an expiry that does not wrap, the scan
ends within a fuel bounded by the queue and the number of calls, and does what
`timeoutScan` says: exactly the records of the original queue that had expired at `nowTick`
are completed, in order, and every record appended during the scan is left in the queue,
after the surviving original records, in the order it was appended. -/
theorem doTimeouts_reentrant (app : MessageList → List Reentry) (nowTick : UInt64)
    (h : HandleData)
    (hsafe : ReentrySafe nowTick h (reentrantCalls app (h.waitingToSend.filter (timedOut nowTick))))
    (fuel : ℕ)
    (hfuel : h.waitingToSend.length +
      (reentrantCalls app (h.waitingToSend.filter (timedOut nowTick))).length < fuel) :
    doTimeouts app fuel (some nowTick) h = some (timeoutScan app nowTick h) ∧
      (timeoutScan app nowTick h).1.waitingToSend =
        h.waitingToSend.filter (fun e => !timedOut nowTick e) ++
          (runReentries { h with waitingToSend := [] }
            (reentrantCalls app (h.waitingToSend.filter (timedOut nowTick)))).1.waitingToSend :=
  ⟨doTimeouts_eq_timeoutScan app nowTick h hsafe fuel hfuel,
    timeoutScan_waitingToSend app nowTick h⟩

/-- A timeout callback that sends a new message, read at `1600` with a `1000` ms timeout: the
new record expires at `2600`, and the scan at `1500` leaves it queued. -/
theorem doTimeouts_reentrant_resend :
    ReentrySafe 1500 { HandleData.initial 1 false 2 3 with
        currentMessageTimeout := 1000, waitingToSend := [⟨10, 20, some 7, none, 1000⟩] }
      (reentrantCalls (fun _ => [.sendEventAsync (some 5) (some 7) none ⟨some 12, some 1600, some 22⟩])
        ([⟨10, 20, some 7, none, 1000⟩].filter (timedOut 1500))) ∧
    1 + (reentrantCalls (fun _ => [.sendEventAsync (some 5) (some 7) none ⟨some 12, some 1600, some 22⟩])
        ([⟨10, 20, some 7, none, 1000⟩].filter (timedOut 1500))).length < 3 ∧
    doTimeouts (fun _ => [.sendEventAsync (some 5) (some 7) none ⟨some 12, some 1600, some 22⟩]) 3
        (some 1500) { HandleData.initial 1 false 2 3 with
          currentMessageTimeout := 1000, waitingToSend := [⟨10, 20, some 7, none, 1000⟩] } =
      some (timeoutScan (fun _ => [.sendEventAsync (some 5) (some 7) none ⟨some 12, some 1600, some 22⟩])
        1500 { HandleData.initial 1 false 2 3 with
          currentMessageTimeout := 1000, waitingToSend := [⟨10, 20, some 7, none, 1000⟩] }) := by
  have hsafe : ReentrySafe 1500 { HandleData.initial 1 false 2 3 with
        currentMessageTimeout := 1000, waitingToSend := [⟨10, 20, some 7, none, 1000⟩] }
      (reentrantCalls (fun _ => [.sendEventAsync (some 5) (some 7) none ⟨some 12, some 1600, some 22⟩])
        ([⟨10, 20, some 7, none, 1000⟩].filter (timedOut 1500))) := by
    refine ⟨fun _ t ht => ?_, trivial⟩
    cases ht
    exact ⟨by decide, by decide⟩
  exact ⟨hsafe, by decide, (doTimeouts_reentrant _ 1500 _ hsafe 3 (by decide)).1⟩

theorem evictAll_noReentry (es : List MessageList) (h : HandleData) :
    evictAll noReentry es h = (h, es.flatMap (complete .messageTimeout)) := by
  induction es with
  | nil => rfl
  | cons e es ih =>
    simp [evictAll, ih, confirm_eq, callsOf, noReentry, runReentries, complete]

theorem reentrantCalls_noReentry (es : List MessageList) : reentrantCalls noReentry es = [] := by
  simp [reentrantCalls, callsOf, noReentry]

/-- Without re-entrant calls the scan keeps the records that have not expired and completes
the others, given fuel above the queue's length. -/
theorem doTimeouts_noReentry_some (nowTick : UInt64) (h : HandleData) (fuel : ℕ)
    (hfuel : h.waitingToSend.length < fuel) :
    doTimeouts noReentry fuel (some nowTick) h =
      some ({ h with waitingToSend := h.waitingToSend.filter fun e => !timedOut nowTick e },
        (h.waitingToSend.filter (timedOut nowTick)).flatMap (complete .messageTimeout)) := by
  rw [doTimeouts_eq_timeoutScan noReentry nowTick h (by rw [reentrantCalls_noReentry]; trivial)
    fuel (by rw [reentrantCalls_noReentry]; simpa), timeoutScan, evictAll_noReentry]

theorem timedOut_iff (nowTick : UInt64) (e : MessageList) :
    timedOut nowTick e = decide (e.msTimesOutAfter ≠ 0 ∧ e.msTimesOutAfter < nowTick) := by
  unfold timedOut
  by_cases h0 : e.msTimesOutAfter = 0 <;> simp [h0]

theorem not_timedOut_iff (nowTick : UInt64) (e : MessageList) :
    (!timedOut nowTick e) = decide (e.msTimesOutAfter = 0 ∨ nowTick ≤ e.msTimesOutAfter) := by
  rw [timedOut_iff]
  by_cases h0 : e.msTimesOutAfter = 0
  · simp [h0]
  · rcases Decidable.em (e.msTimesOutAfter < nowTick) with hl | hl
    · simp [h0, hl, UInt64.not_le.mpr hl]
    · simp [h0, hl, UInt64.not_lt.mp hl]

/-- **`DoTimeouts` when callbacks do not call back.** For every queue, every clock reading
and any fuel above the queue's length: when the clock read fails nothing changes and nothing
is called; otherwise the queue becomes the records with `ms_timesOutAfter = 0` or
`ms_timesOutAfter ≥ nowTick`, in their order, and each other record is completed, in queue
order: its callback, if not `NULL`, is called once with
`IOTHUB_CLIENT_CONFIRMATION_MESSAGE_TIMEOUT` and its own context, then its clone is destroyed
and it is freed. -/
theorem doTimeouts_noReentry (h : HandleData) (tick : Option UInt64) (fuel : ℕ)
    (hfuel : h.waitingToSend.length < fuel) :
    doTimeouts noReentry fuel tick h = some (match tick with
      | none => (h, [])
      | some nowTick =>
        ({ h with waitingToSend := h.waitingToSend.filter fun e =>
            e.msTimesOutAfter = 0 ∨ nowTick ≤ e.msTimesOutAfter },
          (h.waitingToSend.filter fun e => e.msTimesOutAfter ≠ 0 ∧ e.msTimesOutAfter < nowTick).flatMap
            (complete .messageTimeout))) := by
  rcases tick with _ | nowTick
  · rfl
  rw [doTimeouts_noReentry_some nowTick h fuel hfuel,
    List.filter_congr (fun e _ => not_timedOut_iff nowTick e),
    List.filter_congr (fun e _ => timedOut_iff nowTick e)]

/-- The scenario of the specification: a record sent with a `1000` ms timeout at `0` and one
sent with none; the scan at `1500` times out the first and keeps the second. -/
theorem doTimeouts_noReentry_drive_at_1500 :
    [(⟨10, 20, some 1, none, 1000⟩ : MessageList), ⟨11, 21, some 2, none, 0⟩].length < 3 ∧
    doTimeouts noReentry 3 (some 1500) { HandleData.initial 1 false 2 3 with
        waitingToSend := [⟨10, 20, some 1, none, 1000⟩, ⟨11, 21, some 2, none, 0⟩] } =
      some ({ HandleData.initial 1 false 2 3 with waitingToSend := [⟨11, 21, some 2, none, 0⟩] },
        [.callback 10 1 .messageTimeout none, .messageDestroy 20, .free 10]) :=
  ⟨by decide, (doTimeouts_noReentry _ (some 1500) 3 (by decide)).trans (by decide)⟩

end IoTHubClientLL
