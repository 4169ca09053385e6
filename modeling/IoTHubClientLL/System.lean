import IoTHubClientLL.ScanSpec
import IoTHubClientLL.SendSpec
import IoTHubClientLL.Drain

/-!
# Runs of the client

A `System` is one client instance together with what the rest of the world holds of it: the
batches the transport has detached from `waitingToSend` and not reported yet, and, as ghost
state, every record accepted so far (in the order of the accepting sends), every effect so
far, and the allocator's next fresh address. `System.step` makes one `Action`: a call of the
application (`IoTHubClient_LL_SendEventAsync`, `_SetOption`, `_SetMessageCallback`,
`_DoWork`, `_Destroy`) or of the transport (an inbound message, unlinking a record into a
batch, reporting a batch through `IoTHubClient_LL_SendComplete`). Confirmation callbacks
do not call back into the client here, and every call after `Destroy` is refused.

`System.step_cases` says once what a step can do to the message records: a send accepts a
new record or refuses, and every other step completes the records `System.completedBy`
names, all with one status. `Delivery.lean` derives the invariant of every reachable state
from it.
-/

namespace IoTHubClientLL

/-- An effect that neither confirms, destroys a clone, nor frees a record. -/
def Effect.Quiet : Effect → Prop
  | .callback .. => False
  | .free _ => False
  | .messageDestroy _ => False
  | _ => True

/-! ## The system -/

/-- One step of a run: a call of the application into the client, or of the transport. -/
inductive Action where
  /-- `IoTHubClient_LL_SendEventAsync`; `malloc` and `clone` say whether those calls succeed
  and `tick` is what the tick counter answers -/
  | sendEventAsync (eventMessageHandle : Option MessageHandle)
      (eventConfirmationCallback : Option ConfirmationCallback) (userContextCallback : Option Ptr)
      (malloc : Bool) (tick : Option UInt64) (clone : Bool)
  /-- `IoTHubClient_LL_SetOption`, with what the transport's `_SetOption` answers -/
  | setOption (optionName : Option (List Char)) (value : Option UInt64)
      (transportSetOption : ClientResult)
  /-- `IoTHubClient_LL_SetMessageCallback`, with what the transport's `_Subscribe` answers -/
  | setMessageCallback (messageCallback : Option MessageCallbackAsync)
      (userContextCallback : Option Ptr) (subscribe : ℤ)
  /-- the transport delivers an inbound message through `IoTHubClient_LL_MessageCallback` -/
  | messageCallback (message : MessageHandle) (getTime : ℤ) (userResult : MessageDispositionResult)
  /-- `IoTHubClient_LL_DoWork` at this clock reading -/
  | doWork (tick : Option UInt64)
  /-- the transport unlinks the `i`-th waiting record into batch `batch` (a new batch when
  there is no such batch yet) -/
  | detach (i batch : ℕ)
  /-- the transport reports batch `batch` through `IoTHubClient_LL_SendComplete` -/
  | sendComplete (batch : ℕ) (result : BatchStateResult)
  /-- `IoTHubClient_LL_Destroy` -/
  | destroy
  deriving DecidableEq, Repr

/-- A client instance, what the transport holds of it, and the ghost state of the run. -/
structure System where
  handleData : HandleData
  /-- the batches the transport has unlinked from `waitingToSend` and not reported yet -/
  inFlight : List (List MessageList)
  /-- every record accepted with `IOTHUB_CLIENT_OK`, in the order of the accepting sends -/
  accepted : List MessageList
  /-- every effect of the run, in order -/
  trace : List Effect
  /-- the allocator's next address: `malloc` and `IoTHubMessage_Clone` never reuse one -/
  fresh : ℕ
  destroyed : Bool
  deriving DecidableEq, Repr

namespace System

/-- The state right after a successful `IoTHubClient_LL_Create`. -/
def init (handleData : HandleData) (trace : List Effect) : System :=
  ⟨handleData, [], [], trace, 0, false⟩

/-- Where the transport puts a record it unlinks: at the end of batch `b`, or in a new batch. -/
def addToBatch (inFlight : List (List MessageList)) (b : ℕ) (e : MessageList) :
    List (List MessageList) :=
  if b < inFlight.length then inFlight.modify (· ++ [e]) b else inFlight ++ [[e]]

/-- The records not yet completed: those waiting and those in flight. -/
def live (s : System) : List MessageList :=
  s.handleData.waitingToSend ++ s.inFlight.flatten

/-- A record is completed once it has been freed. -/
def Completed (s : System) (e : MessageList) : Prop :=
  Effect.free e.entry ∈ s.trace

instance (s : System) (e : MessageList) : Decidable (s.Completed e) :=
  inferInstanceAs (Decidable (_ ∈ _))

/-- The instance and trace after a call that returns the instance it was given, or a new one. -/
def update (s : System) (r : Option HandleData × List Effect) : System :=
  { s with handleData := r.1.getD s.handleData, trace := s.trace ++ r.2 }

/-- **One step.** Every call after `IoTHubClient_LL_Destroy` is refused, as is a transport
step on a record or batch that does not exist. Sends draw the record's address and the
clone's handle from `fresh`. `DoWork` is given one unit of fuel more than the queue's length,
which the scan never exhausts (`doTimeouts_noReentry`). -/
def step (s : System) (a : Action) : Option System :=
  if s.destroyed then none else
  match a with
  | .sendEventAsync m cb ctx malloc tick clone =>
    let r := IoTHubClientLL.sendEventAsync (some s.handleData) m cb ctx
      ⟨if malloc then some s.fresh else none, tick, if clone then some s.fresh else none⟩
    let s' := s.update r.2
    some { s' with
      accepted := if r.1 = .ok then
        s.accepted ++ s'.handleData.waitingToSend.getLast?.toList else s.accepted
      fresh := s.fresh + 1 }
  | .setOption name value res =>
    some (s.update (IoTHubClientLL.setOption (some s.handleData) name value res).2)
  | .setMessageCallback fn ctx subscribe =>
    some (s.update (IoTHubClientLL.setMessageCallback (some s.handleData) fn ctx subscribe).2)
  | .messageCallback message getTime userResult =>
    some (s.update (IoTHubClientLL.messageCallback (some s.handleData) message getTime userResult).2)
  | .doWork tick =>
    (IoTHubClientLL.doWork noReentry (s.handleData.waitingToSend.length + 1) (some s.handleData)
      tick).map s.update
  | .detach i b =>
    s.handleData.waitingToSend[i]?.map fun e =>
      { s with
        handleData := { s.handleData with
          waitingToSend := DList.removeEntryList s.handleData.waitingToSend i }
        inFlight := addToBatch s.inFlight b e }
  | .sendComplete b result =>
    s.inFlight[b]?.map fun batch =>
      let r := IoTHubClientLL.sendComplete (some s.handleData) (some batch) result
      { s.update (r.1, r.2.2) with inFlight := s.inFlight.eraseIdx b }
  | .destroy =>
    some { s with
      handleData := { s.handleData with
        waitingToSend := (drain .becauseDestroy s.handleData.waitingToSend).1 }
      trace := s.trace ++ IoTHubClientLL.destroy (some s.handleData)
      destroyed := true }

/-- The state after `actions`, taken one after the other, if every one is taken. -/
def run (s : System) : List Action → Option System
  | [] => some s
  | a :: actions => (s.step a).bind fun s' => s'.run actions

end System

/-- The states a run can reach: from a client `IoTHubClient_LL_Create` or
`IoTHubClient_LL_CreateWithTransport` returned, by any sequence of steps. -/
inductive Reachable : System → Prop
  | create {config : Option ClientConfig} {env : CreateEnv} {h : HandleData} {effs : List Effect} :
      create config env = (some h, effs) → Reachable (System.init h effs)
  | createWithTransport {config : Option DeviceConfig} {env : CreateEnv} {h : HandleData}
      {effs : List Effect} :
      createWithTransport config env = (some h, effs) → Reachable (System.init h effs)
  | step {s s' : System} (a : Action) : Reachable s → s.step a = some s' → Reachable s'

/-! ## Calls that leave the queue alone -/

theorem setOption_quiet (h : HandleData) (optionName : Option (List Char)) (value : Option UInt64)
    (transportSetOption : ClientResult) :
    ((setOption (some h) optionName value transportSetOption).2.1.getD h).waitingToSend =
        h.waitingToSend ∧
      ∀ ev ∈ (setOption (some h) optionName value transportSetOption).2.2, ev.Quiet := by
  rcases optionName with _ | name <;> rcases value with _ | v <;> simp only [setOption]
  all_goals try split_ifs
  all_goals simp [Effect.Quiet]

theorem setMessageCallback_quiet (h : HandleData) (fn : Option MessageCallbackAsync)
    (ctx : Option Ptr) (subscribe : ℤ) :
    ((setMessageCallback (some h) fn ctx subscribe).2.1.getD h).waitingToSend = h.waitingToSend ∧
      ∀ ev ∈ (setMessageCallback (some h) fn ctx subscribe).2.2, ev.Quiet := by
  rcases fn with _ | fn <;> simp only [setMessageCallback]
  · simp [Effect.Quiet]
  · split_ifs <;> simp [Effect.Quiet]

theorem messageCallback_quiet (h : HandleData) (message : MessageHandle) (getTime : ℤ)
    (userResult : MessageDispositionResult) :
    ((messageCallback (some h) message getTime userResult).2.1.getD h).waitingToSend =
        h.waitingToSend ∧
      ∀ ev ∈ (messageCallback (some h) message getTime userResult).2.2, ev.Quiet := by
  simp only [messageCallback]
  split <;> simp [Effect.Quiet]

/-! ## Lists -/

section Lists

variable {α : Type} {l : List α} {i : ℕ} {e : α}

theorem eq_take_cons_drop (h : l[i]? = some e) : l = l.take i ++ e :: l.drop (i + 1) := by
  obtain ⟨hi, rfl⟩ := List.getElem?_eq_some_iff.mp h
  rw [← List.drop_eq_getElem_cons hi, List.take_append_drop]

theorem perm_cons_eraseIdx (h : l[i]? = some e) : l.Perm (e :: l.eraseIdx i) := by
  rw [List.eraseIdx_eq_take_drop_succ]
  conv_lhs => rw [eq_take_cons_drop h]
  exact List.perm_middle

theorem flatten_perm_eraseIdx {bs : List (List α)} {b : List α} (h : bs[i]? = some b) :
    bs.flatten.Perm (b ++ (bs.eraseIdx i).flatten) := by
  rw [List.eraseIdx_eq_take_drop_succ]
  conv_lhs => rw [eq_take_cons_drop h]
  simp only [List.flatten_append, List.flatten_cons, ← List.append_assoc]
  exact List.perm_append_comm.append_right _

end Lists

namespace System

variable {s s' : System}

theorem addToBatch_flatten_perm (inFlight : List (List MessageList)) (b : ℕ) (e : MessageList) :
    (addToBatch inFlight b e).flatten.Perm (e :: inFlight.flatten) := by
  unfold addToBatch
  split_ifs with hb
  · rw [List.modify_eq_take_cons_drop hb]
    conv_rhs => rw [eq_take_cons_drop (List.getElem?_eq_getElem hb)]
    simp only [List.flatten_append, List.flatten_cons, List.append_assoc, List.singleton_append]
    simp only [← List.append_assoc]
    exact List.perm_middle
  · simp only [List.flatten_append, List.flatten_cons, List.flatten_nil, List.append_nil]
    exact List.perm_append_singleton _ _

/-! ## What one step does -/

/-- The records a step completes and the status it gives them: the expired records at a
`DoWork` with a clock reading, the batch a `SendComplete` reports, the whole queue at
`Destroy`, and none at any other step. -/
def completedBy (s : System) : Action → List MessageList × ConfirmationResult
  | .doWork (some nowTick) =>
    (s.handleData.waitingToSend.filter (timedOut nowTick), .messageTimeout)
  | .sendComplete b result =>
    (s.inFlight[b]?.getD [], if result = .success then .ok else .error)
  | .destroy => (s.handleData.waitingToSend, .becauseDestroy)
  | _ => ([], .ok)

/-- **An accepting send** links a new record whose address and clone are both `fresh`. -/
structure Accepts (s : System) (e : MessageList) (s' : System) : Prop where
  entry : e.entry = s.fresh
  messageHandle : e.messageHandle = s.fresh
  waitingToSend : s'.handleData.waitingToSend = s.handleData.waitingToSend ++ [e]
  inFlight : s'.inFlight = s.inFlight
  accepted : s'.accepted = s.accepted ++ [e]
  /-- it makes only quiet calls -/
  trace : ∃ effs, s'.trace = s.trace ++ effs ∧ ∀ ev ∈ effs, ev.Quiet
  fresh : s'.fresh = s.fresh + 1

/-- **A refused send** links no record. -/
structure Refuses (s s' : System) : Prop where
  waitingToSend : s'.handleData.waitingToSend = s.handleData.waitingToSend
  inFlight : s'.inFlight = s.inFlight
  accepted : s'.accepted = s.accepted
  /-- it may free the record it had just allocated, at `fresh` -/
  trace : ∃ effs, s'.trace = s.trace ++ effs ∧ ∀ ev ∈ effs, ev.Quiet ∨ ev = .free s.fresh
  fresh : s'.fresh = s.fresh + 1

/-- **A send that links a record at fresh addresses**: its address and its clone lie between
`fresh` before the send and `fresh` after it. A send made from a callback is of this kind. -/
structure AcceptsAt (s : System) (e : MessageList) (s' : System) : Prop where
  entry : s.fresh ≤ e.entry ∧ e.entry < s'.fresh
  messageHandle : s.fresh ≤ e.messageHandle ∧ e.messageHandle < s'.fresh
  waitingToSend : s'.handleData.waitingToSend = s.handleData.waitingToSend ++ [e]
  inFlight : s'.inFlight = s.inFlight
  accepted : s'.accepted = s.accepted ++ [e]
  trace : ∃ effs, s'.trace = s.trace ++ effs ∧ ∀ ev ∈ effs, ev.Quiet

/-- **A send that links nothing**, and may free a record it had just allocated at a fresh
address. -/
structure RefusesAt (s s' : System) : Prop where
  waitingToSend : s'.handleData.waitingToSend = s.handleData.waitingToSend
  inFlight : s'.inFlight = s.inFlight
  accepted : s'.accepted = s.accepted
  trace : ∃ effs, s'.trace = s.trace ++ effs ∧
    ∀ ev ∈ effs, ev.Quiet ∨ ∃ p, ev = .free p ∧ s.fresh ≤ p ∧ p < s'.fresh
  fresh : s.fresh ≤ s'.fresh

theorem Accepts.toAt {e : MessageList} (ha : Accepts s e s') : AcceptsAt s e s' where
  entry := ⟨ha.entry.ge, by rw [ha.entry, ha.fresh]; exact Nat.lt_succ_self _⟩
  messageHandle := ⟨ha.messageHandle.ge, by rw [ha.messageHandle, ha.fresh]; exact Nat.lt_succ_self _⟩
  waitingToSend := ha.waitingToSend
  inFlight := ha.inFlight
  accepted := ha.accepted
  trace := ha.trace

theorem Refuses.toAt (hr : Refuses s s') : RefusesAt s s' where
  waitingToSend := hr.waitingToSend
  inFlight := hr.inFlight
  accepted := hr.accepted
  trace := by
    obtain ⟨effs, htrace, heffs⟩ := hr.trace
    refine ⟨effs, htrace, fun ev hev => (heffs ev hev).imp_right fun h => ⟨_, h, le_rfl, ?_⟩⟩
    rw [hr.fresh]
    exact Nat.lt_succ_self _
  fresh := hr.fresh ▸ Nat.le_succ _

/-- **Every other step** takes the live records `X` out of the queue and the batches, keeps
the other live records live, and completes `X` with the status `r`. -/
structure Completes (s : System) (X : List MessageList) (r : ConfirmationResult)
    (s' : System) : Prop where
  accepted : s'.accepted = s.accepted
  fresh : s'.fresh = s.fresh
  waitingToSend : s'.handleData.waitingToSend.Sublist s.handleData.waitingToSend
  live : s.live.Perm (X ++ s'.live)
  /-- the completions, with quiet calls before and after them -/
  trace : ∃ pre post, s'.trace = s.trace ++ (pre ++ X.flatMap (complete r) ++ post) ∧
    (∀ ev ∈ pre, ev.Quiet) ∧ ∀ ev ∈ post, ev.Quiet

/-- A call that returns the instance with the queue as it was, making quiet calls, completes
nothing. -/
theorem Completes.update {r : Option HandleData × List Effect}
    (hq : (r.1.getD s.handleData).waitingToSend = s.handleData.waitingToSend ∧
      ∀ ev ∈ r.2, ev.Quiet) : Completes s [] .ok (s.update r) :=
  ⟨rfl, rfl, hq.1 ▸ List.Sublist.refl _,
    by simp only [System.live, System.update, hq.1, List.nil_append, List.Perm.refl], r.2, [],
    by simp [System.update], hq.2, by simp⟩

/-- **What a step can do.** A send accepts a record or refuses, completing nothing; every
other step completes the records `completedBy` names, with its status. -/
theorem step_cases {a : Action} (hstep : s.step a = some s') :
    ((s.completedBy a).1 = [] ∧ ((∃ e, Accepts s e s') ∨ Refuses s s')) ∨
      Completes s (s.completedBy a).1 (s.completedBy a).2 s' := by
  unfold System.step at hstep
  split_ifs at hstep
  cases a with
  | sendEventAsync m cb ctx malloc tick clone =>
    injection hstep with hstep
    subst hstep
    refine .inl ⟨rfl, ?_⟩
    by_cases hok : (IoTHubClientLL.sendEventAsync (some s.handleData) m cb ctx
        ⟨if malloc then some s.fresh else none, tick, if clone then some s.fresh else none⟩).1 = .ok
    · obtain ⟨h, p, t, c, hh, hp, -, hc, hr⟩ := sendEventAsync_of_ok hok
      cases hh
      have hp' : p = s.fresh := by split_ifs at hp <;> simp_all
      have hc' : c = s.fresh := by split_ifs at hc <;> simp_all
      refine .inl ⟨⟨p, c, cb, ctx, t⟩, hp', hc', ?_, rfl, ?_,
        ⟨[.malloc p, .messageClone c], ?_, ?_⟩, rfl⟩ <;> simp [update, hr, Effect.Quiet]
    · obtain ⟨hh, he⟩ := sendEventAsync_of_ne_ok hok
      refine .inr ⟨by simp [update, hh], rfl, by simp [hok], ⟨_, rfl, ?_⟩, rfl⟩
      rcases he with he | ⟨p, hp, he⟩
      · simp [he]
      · have hp' : p = s.fresh := by split_ifs at hp <;> simp_all
        simp [he, hp', Effect.Quiet]
  | setOption name value res =>
    obtain rfl := Option.some.inj hstep
    exact .inr (.update (setOption_quiet s.handleData name value res))
  | setMessageCallback fn ctx subscribe =>
    obtain rfl := Option.some.inj hstep
    exact .inr (.update (setMessageCallback_quiet s.handleData fn ctx subscribe))
  | messageCallback message getTime userResult =>
    obtain rfl := Option.some.inj hstep
    exact .inr (.update (messageCallback_quiet s.handleData message getTime userResult))
  | doWork tick =>
    rcases tick with _ | nowTick
    · obtain rfl := Option.some.inj hstep
      exact .inr (.update ⟨rfl, by simp [Effect.Quiet]⟩)
    · simp only [IoTHubClientLL.doWork,
        doTimeouts_noReentry_some nowTick _ _ (Nat.lt_succ_self _), Option.map_some',
        Option.some.injEq] at hstep
      subst hstep
      refine .inr ⟨rfl, rfl, List.filter_sublist _, ?_, [],
        [.transportDoWork s.handleData.transportHandle], by simp [update, completedBy], by simp,
        by simp [Effect.Quiet]⟩
      simp only [completedBy, live, update, Option.getD_some, ← List.append_assoc]
      exact ((List.filter_append_perm _ _).symm).append_right _
  | detach i b =>
    cases he : s.handleData.waitingToSend[i]? with
    | none => simp [he] at hstep
    | some e =>
      simp only [he, Option.map_some', Option.some.injEq] at hstep
      subst hstep
      refine .inr ⟨rfl, rfl, List.eraseIdx_sublist _ _, ?_, [], [], by simp [completedBy],
        by simp, by simp⟩
      simp only [completedBy, live, List.nil_append, DList.removeEntryList]
      exact ((perm_cons_eraseIdx he).append_right _).trans
        (List.perm_middle.symm.trans ((addToBatch_flatten_perm _ _ _).symm.append_left _))
  | sendComplete b result =>
    cases hb : s.inFlight[b]? with
    | none => simp [hb] at hstep
    | some batch =>
      simp only [hb, Option.map_some', Option.some.injEq] at hstep
      subst hstep
      refine .inr ?_
      simp only [completedBy, hb, Option.getD_some]
      refine ⟨rfl, rfl, List.Sublist.refl _, ?_, [], [], ?_, by simp, by simp⟩
      · simp only [live, update, IoTHubClientLL.sendComplete, Option.getD_some]
        exact ((flatten_perm_eraseIdx hb).append_left _).trans
          (List.perm_append_comm_assoc _ _ _)
      · simp [update, IoTHubClientLL.sendComplete, drain_eq]
  | destroy =>
    injection hstep with hstep
    subst hstep
    refine .inr ⟨rfl, rfl, by simp [drain_eq], by simp [completedBy, live, drain_eq],
      .transportUnregister s.handleData.deviceHandle ::
        (if s.handleData.isSharedTransport = false then
          [.transportDestroy s.handleData.transportHandle] else []),
      [.tickcounterDestroy s.handleData.tickCounter],
      by simp [completedBy, IoTHubClientLL.destroy, drain_eq], ?_, by simp [Effect.Quiet]⟩
    split_ifs <;> simp [Effect.Quiet]

/-- The records a step completes were live. -/
theorem completedBy_live {a : Action} (hstep : s.step a = some s') :
    ∀ x ∈ (s.completedBy a).1, x ∈ s.live := by
  rcases step_cases hstep with ⟨hX, -⟩ | hc
  · simp [hX]
  · exact fun x hx => hc.live.symm.subset (List.mem_append_left _ hx)

/-- A step only adds to the accepted records. -/
theorem accepted_prefix_step {a : Action} (hstep : s.step a = some s') :
    s.accepted <+: s'.accepted := by
  rcases step_cases hstep with ⟨-, ⟨e, ha⟩ | hr⟩ | hc
  · exact ha.accepted ▸ List.prefix_append _ _
  · exact hr.accepted ▸ List.prefix_refl _
  · exact hc.accepted ▸ List.prefix_refl _

/-! ## Progress -/

/-- **Progress.** Until `IoTHubClient_LL_Destroy` every call of the application is taken:
in particular the scan of `DoWork` never runs out of the fuel the step gives it. -/
theorem step_isSome (hd : s.destroyed = false) (a : Action) (ha : ∀ i b, a ≠ .detach i b)
    (hb : ∀ b r, a ≠ .sendComplete b r) : (s.step a).isSome := by
  unfold System.step
  rw [if_neg (by simp [hd])]
  cases a with
  | doWork tick =>
    rcases tick with _ | nowTick
    · rfl
    · simp [IoTHubClientLL.doWork, doTimeouts_noReentry_some nowTick _ _ (Nat.lt_succ_self _)]
  | detach i b => exact absurd rfl (ha i b)
  | sendComplete b r => exact absurd rfl (hb b r)
  | _ => rfl

end System

/-! ## Reachable states -/

theorem Reachable.run {s s' : System} (hs : Reachable s) {actions : List Action}
    (hrun : s.run actions = some s') : Reachable s' := by
  induction actions generalizing s with
  | nil => exact Option.some.inj hrun ▸ hs
  | cons a actions ih =>
    obtain ⟨s₁, h₁, h₂⟩ := Option.bind_eq_some.mp hrun
    exact ih (.step a hs h₁) h₂

theorem create_quiet {config : Option ClientConfig} {env : CreateEnv} {h : HandleData}
    {effs : List Effect} (hc : create config env = (some h, effs)) :
    h.waitingToSend = [] ∧ ∀ ev ∈ effs, ev.Quiet := by
  unfold create at hc
  repeat' split at hc
  all_goals simp only [Prod.mk.injEq, Option.some.injEq, reduceCtorEq, false_and] at hc
  obtain ⟨rfl, rfl⟩ := hc
  simp [HandleData.initial, Effect.Quiet]

theorem createWithTransport_quiet {config : Option DeviceConfig} {env : CreateEnv}
    {h : HandleData} {effs : List Effect} (hc : createWithTransport config env = (some h, effs)) :
    h.waitingToSend = [] ∧ ∀ ev ∈ effs, ev.Quiet := by
  unfold createWithTransport at hc
  repeat' split at hc
  all_goals simp only [Prod.mk.injEq, Option.some.injEq, reduceCtorEq, false_and] at hc
  obtain ⟨rfl, rfl⟩ := hc
  simp [HandleData.initial, Effect.Quiet]

end IoTHubClientLL
