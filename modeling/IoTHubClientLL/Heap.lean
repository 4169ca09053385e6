import IoTHubClientLL.ReentrantInstance

/-!
# What the client owns: each record and clone is released once, or still held

An accepted message costs the client two things it must give back (`Owned`): the
`IOTHUB_MESSAGE_LIST` record `malloc` returned, released by `free`, and the message clone
`IoTHubMessage_Clone` returned, released by `IoTHubMessage_Destroy`. The result is a
conservation law over every run, whatever the confirmation callbacks call
(`heap_accounted_reentrant`). What the trace acquired, each thing once, is what it released plus
what the live records hold, waiting or in a transport batch. So nothing leaks, nothing is
released twice, and nothing is released that was not acquired. After `Destroy` only the
transport's batches hold anything (`destroy_releases_all_reentrant`).

Proof shape: `Balanced l E l'` says that the effects `E` take the live records `l` to `l'`
with the books kept. One call from a callback keeps them (`Reentry.run_balanced`), and so does
one confirmation (`confirm_balanced`). Each loop does too, one record at a time, by
`Balanced.trans`. `System.step_keepsBooks` and `System.rstep_keepsBooks` say it once per step,
together with the allocator's guarantee that what a step acquires is new. The books of a state
(`System.HeapInv`) then hold along every run, by induction over `RReachable`
(`RReachable.heapInv`).
-/

namespace IoTHubClientLL

/-! ## Acquiring and releasing -/

/-- What the client owns of an accepted message. -/
inductive Owned where
  /-- the `IOTHUB_MESSAGE_LIST` record at this address -/
  | record (p : Ptr)
  /-- the message clone with this handle -/
  | clone (h : MessageHandle)
  deriving DecidableEq, Repr

/-- The allocator's answer that an owned thing is. -/
def Owned.addr : Owned → ℕ
  | .record p => p
  | .clone h => h

/-- What an effect acquires: a record from `malloc`, a clone from `IoTHubMessage_Clone`. -/
@[simp] def Effect.acquires : Effect → Option Owned
  | .malloc p => some (.record p)
  | .messageClone h => some (.clone h)
  | _ => none

/-- What an effect releases: a record by `free`, a clone by `IoTHubMessage_Destroy`. -/
@[simp] def Effect.releases : Effect → Option Owned
  | .free p => some (.record p)
  | .messageDestroy h => some (.clone h)
  | _ => none

/-- What the effects `E` acquire. -/
def acquired (E : List Effect) : Multiset Owned := ↑(E.filterMap Effect.acquires)

/-- What the effects `E` release. -/
def released (E : List Effect) : Multiset Owned := ↑(E.filterMap Effect.releases)

/-- What the records `l` hold: each record itself and its clone. -/
def held (l : List MessageList) : Multiset Owned :=
  ↑(l.flatMap fun x => [Owned.record x.entry, .clone x.messageHandle])

@[simp] theorem acquired_nil : acquired [] = 0 := rfl

@[simp] theorem held_nil : held [] = 0 := rfl

@[simp] theorem released_nil : released [] = 0 := rfl

@[simp] theorem acquired_cons (ev : Effect) (E : List Effect) :
    acquired (ev :: E) = ↑ev.acquires.toList + acquired E := by
  unfold acquired
  rw [List.filterMap_cons]
  split <;> rename_i heq <;> rw [heq] <;> simp

@[simp] theorem released_cons (ev : Effect) (E : List Effect) :
    released (ev :: E) = ↑ev.releases.toList + released E := by
  unfold released
  rw [List.filterMap_cons]
  split <;> rename_i heq <;> rw [heq] <;> simp

@[simp] theorem acquired_append (E₁ E₂ : List Effect) :
    acquired (E₁ ++ E₂) = acquired E₁ + acquired E₂ := by
  simp [acquired]

@[simp] theorem released_append (E₁ E₂ : List Effect) :
    released (E₁ ++ E₂) = released E₁ + released E₂ := by
  simp [released]

@[simp] theorem held_append (l₁ l₂ : List MessageList) : held (l₁ ++ l₂) = held l₁ + held l₂ := by
  simp [held]

theorem held_perm {l₁ l₂ : List MessageList} (hp : l₁.Perm l₂) : held l₁ = held l₂ :=
  Multiset.coe_eq_coe.mpr (hp.flatMap_right _)

theorem held_cons (x : MessageList) (l : List MessageList) :
    held (x :: l) = released [.messageDestroy x.messageHandle, .free x.entry] + held l := by
  simp only [held, released, List.flatMap_cons, Effect.releases, List.filterMap_cons,
    List.filterMap_nil, ← Multiset.coe_add]
  exact congrArg (· + _) (Multiset.coe_eq_coe.mpr (List.Perm.swap _ _ _))

/-- A confirmation call acquires and releases nothing. -/
@[simp] theorem acquired_invoke (r : ConfirmationResult) (x : MessageList) :
    acquired (invoke r x) = 0 := by
  unfold invoke
  split <;> rfl

@[simp] theorem released_invoke (r : ConfirmationResult) (x : MessageList) :
    released (invoke r x) = 0 := by
  unfold invoke
  split <;> rfl

/-- What the effects acquire are the allocator's answers `allocs` reads off them. -/
theorem map_addr_acquired (E : List Effect) : (acquired E).map Owned.addr = ↑(allocs E) := by
  induction E with
  | nil => rfl
  | cons ev E ih =>
    rw [allocs_cons, ← Multiset.coe_add, ← ih]
    cases ev <;> simp [acquired, Owned.addr]

/-! ## Keeping the books -/

/-- The effects `E` take the live records `l` to `l'` with the books kept: what `E` acquires,
with what `l` holds, is what `E` releases, with what `l'` holds. -/
def Balanced (l : List MessageList) (E : List Effect) (l' : List MessageList) : Prop :=
  acquired E + held l = released E + held l'

theorem Balanced.refl (l : List MessageList) : Balanced l [] l := by
  simp [Balanced]

theorem Balanced.trans {l l₁ l₂ : List MessageList} {E₁ E₂ : List Effect}
    (h₁ : Balanced l E₁ l₁) (h₂ : Balanced l₁ E₂ l₂) : Balanced l (E₁ ++ E₂) l₂ := by
  unfold Balanced at *
  calc acquired (E₁ ++ E₂) + held l = acquired E₂ + (acquired E₁ + held l) := by
        rw [acquired_append]; abel
    _ = acquired E₂ + (released E₁ + held l₁) := by rw [h₁]
    _ = released E₁ + (acquired E₂ + held l₁) := add_left_comm _ _ _
    _ = released (E₁ ++ E₂) + held l₂ := by rw [h₂, released_append, add_assoc]

theorem Balanced.of_perm {l l' m m' : List MessageList} {E : List Effect} (hl : l.Perm m)
    (hl' : l'.Perm m') (hb : Balanced l E l') : Balanced m E m' := by
  unfold Balanced at *
  rwa [← held_perm hl, ← held_perm hl']

/-- Records the effects do not touch stay held. -/
theorem Balanced.append_right {l l' : List MessageList} {E : List Effect}
    (hb : Balanced l E l') (m : List MessageList) : Balanced (l ++ m) E (l' ++ m) := by
  unfold Balanced at *
  rw [held_append, held_append, ← add_assoc, hb, add_assoc]

theorem Balanced.append_left {l l' : List MessageList} {E : List Effect}
    (hb : Balanced l E l') (m : List MessageList) : Balanced (m ++ l) E (m ++ l') := by
  unfold Balanced at *
  rw [held_append, held_append, add_left_comm, hb, add_left_comm]

/-- Effects that neither acquire nor release keep the books. -/
theorem Balanced.idle (l : List MessageList) {E : List Effect} (ha : acquired E = 0)
    (hr : released E = 0) : Balanced l E l := by
  simp [Balanced, ha, hr]

/-- Completing records releases what they hold. -/
theorem flatMap_complete_balanced (r : ConfirmationResult) :
    ∀ l : List MessageList, Balanced l (l.flatMap (complete r)) []
  | [] => .refl []
  | x :: l => by
    have hx : Balanced [x] (complete r x) [] := by
      have hacq : acquired [.messageDestroy x.messageHandle, .free x.entry] = 0 := rfl
      simp [Balanced, complete, held_cons, hacq]
    simpa using (hx.append_right l).trans (flatMap_complete_balanced r l)

/-! ## Calls, confirmations and loops -/

/-- **A call from a callback keeps the books**: a send that links a record acquires the record
and its clone, a send refused after `malloc` frees the record, `SetOption` touches neither. -/
theorem Reentry.run_balanced (h : HandleData) (call : Reentry) :
    Balanced h.waitingToSend (call.run h).2 (call.run h).1.waitingToSend := by
  cases call with
  | setOption name value res =>
    rcases name with _ | name <;> rcases value with _ | v <;>
      simp only [Reentry.run, IoTHubClientLL.setOption, Option.getD_some] <;> (try split_ifs) <;>
      simp [Balanced, acquired, released]
  | sendEventAsync m cb ctx env =>
    simp only [Reentry.run]
    by_cases hok : (IoTHubClientLL.sendEventAsync (some h) m cb ctx env).1 = .ok
    · obtain ⟨_, p, t, c, ⟨⟩, -, -, -, hr⟩ := sendEventAsync_of_ok hok
      rw [hr]
      simp only [Balanced, acquired, released, held, List.flatMap_append, Option.getD_some]
      simp
      exact @List.perm_append_comm _ [_, _] _
    · obtain ⟨hh, he | ⟨p, -, he⟩⟩ := sendEventAsync_of_ne_ok hok <;>
        simp [hh, he, Balanced, acquired, released]

theorem runReentries_balanced (h : HandleData) (calls : List Reentry) :
    Balanced h.waitingToSend (runReentries h calls).2 (runReentries h calls).1.waitingToSend := by
  induction calls generalizing h with
  | nil => exact .refl _
  | cons call calls ih => exact (Reentry.run_balanced h call).trans (ih _)

/-- **Confirming a record keeps the books**: its callback's calls keep them, and its
`IoTHubMessage_Destroy` and `free` release what it held. -/
theorem confirm_balanced (app : MessageList → List Reentry) (result : ConfirmationResult)
    (x : MessageList) (h₁ : HandleData) :
    Balanced (x :: h₁.waitingToSend)
      ((confirm app result x h₁).2 ++ [.messageDestroy x.messageHandle, .free x.entry])
      (confirm app result x h₁).1.waitingToSend := by
  have hrun := runReentries_balanced h₁ (callsOf app x)
  have hmd : acquired [.messageDestroy x.messageHandle, .free x.entry] = 0 := rfl
  rw [confirm_eq]
  unfold Balanced at hrun ⊢
  rw [held_cons, acquired_append, released_append, acquired_append, released_append,
    acquired_invoke, released_invoke, hmd, zero_add, zero_add, add_zero, add_left_comm, hrun]
  abel

theorem doTimeoutsLoop_balanced {app : MessageList → List Reentry} {nowTick : UInt64} :
    ∀ {fuel : ℕ} {i : Option ℕ} {h : HandleData} {out E : List Effect}
      {r : HandleData × List Effect}, doTimeoutsLoop app nowTick fuel i h out = some r →
      r.2 = out ++ E → Balanced h.waitingToSend E r.1.waitingToSend
  | 0, _, _, _, _, _, hr, _ => nomatch hr
  | fuel + 1, none, h, out, E, r, hr, hE => by
    cases hr
    obtain rfl : E = [] := by simpa using hE
    exact .refl _
  | fuel + 1, some i, h, out, E, r, hr, hE => by
    cases he : h.waitingToSend[i]? with
    | none =>
      rw [doTimeoutsLoop_head (List.getElem?_eq_none_iff.mp he)] at hr
      cases hr
      obtain rfl : E = [] := by simpa using hE
      exact .refl _
    | some x =>
      by_cases ht : timedOut nowTick x
      · rw [doTimeoutsLoop_evict he ht] at hr
        dsimp only at hr
        obtain ⟨E', hE'⟩ := doTimeoutsLoop_appends hr
        obtain rfl := eq_append_of_extends (hE'.trans hE)
        simpa only [List.append_assoc] using
          ((confirm_balanced app _ x { h with waitingToSend := h.waitingToSend.eraseIdx i }).of_perm
            (perm_cons_eraseIdx he).symm (.refl _)).trans
            (doTimeoutsLoop_balanced hr hE'.symm)
      · rw [doTimeoutsLoop_pass he (by simpa using ht)] at hr
        exact doTimeoutsLoop_balanced hr hE

theorem sendCompleteLoop_balanced (app : MessageList → List Reentry)
    (result : ConfirmationResult) :
    ∀ (l : List MessageList) (h : HandleData),
      Balanced (l ++ h.waitingToSend) (sendCompleteLoop app result l h).2
        (sendCompleteLoop app result l h).1.waitingToSend
  | [], h => .refl _
  | x :: l, h => by
    have h₁ := ((confirm_balanced app result x h).append_right l).of_perm
      (List.perm_append_comm.cons x) List.perm_append_comm
    simpa only [sendCompleteLoop, List.append_assoc] using
      h₁.trans (sendCompleteLoop_balanced app result l _)

theorem destroyLoop_balanced {app : MessageList → List Reentry} :
    ∀ {fuel : ℕ} {h : HandleData} {out E : List Effect} {r : HandleData × List Effect},
      destroyLoop app fuel h out = some r → r.2 = out ++ E →
      Balanced h.waitingToSend E r.1.waitingToSend
  | 0, _, _, _, _, hr, _ => nomatch hr
  | fuel + 1, h, out, E, r, hr, hE => by
    cases hw : h.waitingToSend with
    | nil =>
      simp only [destroyLoop, hw, Option.some.injEq] at hr
      subst hr
      obtain rfl : E = [] := by simpa using hE
      exact hw ▸ .refl _
    | cons unsend rest =>
      simp only [destroyLoop, hw] at hr
      obtain ⟨E', hE'⟩ := destroyLoop_appends hr
      obtain rfl := eq_append_of_extends (hE'.trans hE)
      simpa only [List.append_assoc] using
        (confirm_balanced app _ unsend { h with waitingToSend := rest }).trans
          (destroyLoop_balanced hr hE'.symm)

/-! ## Steps -/

/-- What a step whose allocations the allocator checked acquires is new. -/
theorem acquired_fresh {n m : ℕ} {E : List Effect} (hn : allocFrom n (allocs E) = some m) :
    (acquired E).Nodup ∧ ∀ o ∈ acquired E, n ≤ o.addr ∧ o.addr < m := by
  obtain ⟨hs, hb⟩ := allocFrom_bounds hn
  have hmap := map_addr_acquired E
  refine ⟨Multiset.Nodup.of_map Owned.addr (hmap ▸ Multiset.coe_nodup.mpr hs.nodup),
    fun o ho => hb _ ?_⟩
  rw [← Multiset.mem_coe, ← hmap]
  exact Multiset.mem_map_of_mem _ ho

/-- Effects that allocate nothing acquire nothing. -/
theorem acquired_eq_zero {E : List Effect} (h : allocs E = []) : acquired E = 0 := by
  have hmap := map_addr_acquired E
  rw [h] at hmap
  exact Multiset.map_eq_zero.mp hmap

namespace System

variable {s s' : System}

/-- **A step keeps the books**: it appends effects that take the live records of `s` to those
of `s'` with the books kept, and that acquire, each once, only what is new. -/
def KeepsBooks (s s' : System) : Prop :=
  s.fresh ≤ s'.fresh ∧ ∃ E, s'.trace = s.trace ++ E ∧ Balanced s.live E s'.live ∧
    (acquired E).Nodup ∧ ∀ o ∈ acquired E, s.fresh ≤ o.addr ∧ o.addr < s'.fresh

/-- A step that allocates nothing keeps the books when it keeps them for the live records. -/
theorem keepsBooks_of_allocs {E : List Effect} (hfresh : s.fresh ≤ s'.fresh)
    (htrace : s'.trace = s.trace ++ E) (hb : Balanced s.live E s'.live) (ha : allocs E = []) :
    KeepsBooks s s' := by
  have ha' := acquired_eq_zero ha
  exact ⟨hfresh, E, htrace, hb, by simp [ha'], by simp [ha']⟩

/-- A commit keeps the books when its loop does. -/
theorem keepsBooks_commit {t : System} {h : HandleData} {A : List MessageList}
    {E : List Effect} {n : ℕ} (hn : allocFrom t.fresh (allocs E) = some n)
    (hb : Balanced s.live E (t.advance h A E n).live) (htrace : t.trace = s.trace)
    (hfresh : t.fresh = s.fresh) : KeepsBooks s (t.advance h A E n) :=
  ⟨hfresh ▸ allocFrom_le hn, E, by rw [advance, htrace], hb, hfresh ▸ acquired_fresh hn⟩

/-- Every step of `System.step` keeps the books. -/
theorem step_keepsBooks {a : Action} (h : s.step a = some s') : KeepsBooks s s' := by
  unfold step at h
  split_ifs at h
  cases a with
  | sendEventAsync m cb ctx malloc tick clone =>
    cases h
    refine ⟨Nat.le_succ _, _, rfl, (Reentry.run_balanced s.handleData
      (.sendEventAsync m cb ctx ⟨_, tick, _⟩)).append_right _, ?_⟩
    by_cases hok : (sendEventAsync (some s.handleData) m cb ctx
        ⟨if malloc then some s.fresh else none, tick, if clone then some s.fresh else none⟩).1 = .ok
    · obtain ⟨_, p, t, c, ⟨⟩, hp, -, hc, hr⟩ := sendEventAsync_of_ok hok
      obtain rfl : p = s.fresh := by cases malloc <;> simp at hp; exact hp.symm
      obtain rfl : c = s.fresh := by cases clone <;> simp at hc; exact hc.symm
      simp [update, hr, Owned.addr]
    · obtain ⟨-, he | ⟨p, hp, he⟩⟩ := sendEventAsync_of_ne_ok hok
      · simp [update, he]
      · obtain rfl : p = s.fresh := by cases malloc <;> simp at hp; exact hp.symm
        simp [update, he, Owned.addr]
  | setOption name value res =>
    cases h
    exact keepsBooks_of_allocs le_rfl rfl ((Reentry.run_balanced s.handleData
      (.setOption name value res)).append_right _) (allocs_setOption _ _ _ _)
  | setMessageCallback fn ctx subscribe =>
    cases h
    refine keepsBooks_of_allocs le_rfl rfl ?_ ?_ <;> rcases fn with _ | fn <;>
      simp only [update, live, setMessageCallback, Option.getD_some] <;> (try split_ifs) <;> rfl
  | messageCallback message getTime userResult =>
    cases h
    refine keepsBooks_of_allocs le_rfl rfl ?_ ?_ <;>
      simp only [update, live, messageCallback, Option.getD_some] <;> split <;> rfl
  | doWork tick =>
    obtain ⟨r, hr, rfl⟩ := Option.map_eq_some'.mp h
    rcases tick with _ | nowTick
    · cases hr
      exact keepsBooks_of_allocs le_rfl rfl (.refl _) rfl
    · simp only [doWork, doTimeouts_noReentry_some nowTick _ _ (Nat.lt_succ_self _),
        Option.map_some', Option.some.injEq] at hr
      subst hr
      -- the expired records are completed, the others stay
      have hb := ((flatMap_complete_balanced .messageTimeout
        (s.handleData.waitingToSend.filter (timedOut nowTick))).append_right
          (s.handleData.waitingToSend.filter fun e => !timedOut nowTick e)).of_perm
        (List.filter_append_perm _ _) (.refl _)
      refine keepsBooks_of_allocs le_rfl rfl ?_ (by simp)
      simpa [live, update] using (hb.append_right s.inFlight.flatten).trans
        (.idle _ rfl rfl : Balanced _ [.transportDoWork s.handleData.transportHandle] _)
  | detach i b =>
    obtain ⟨e, he, rfl⟩ := Option.map_eq_some'.mp h
    -- the record moves from the queue to a batch
    have hp : s.live.Perm
        (s.handleData.waitingToSend.eraseIdx i ++ (addToBatch s.inFlight b e).flatten) :=
      ((perm_cons_eraseIdx he).append_right _).trans
        (List.perm_middle.symm.trans ((addToBatch_flatten_perm _ _ _).symm.append_left _))
    exact keepsBooks_of_allocs le_rfl (by simp) ((Balanced.refl s.live).of_perm (.refl _) hp) rfl
  | sendComplete b result =>
    obtain ⟨batch, hb, rfl⟩ := Option.map_eq_some'.mp h
    -- the batch's records are completed, the other batches stay with the transport
    have hbal := (((flatMap_complete_balanced
      (if result = BatchStateResult.success then .ok else .error) batch).append_right
      (s.inFlight.eraseIdx b).flatten).append_left s.handleData.waitingToSend).of_perm
      ((flatten_perm_eraseIdx hb).symm.append_left _) (.refl _)
    refine keepsBooks_of_allocs le_rfl rfl ?_ (by simp [sendComplete, drain_eq])
    simpa [live, update, sendComplete, drain_eq] using hbal
  | destroy =>
    cases h
    have hbal := (flatMap_complete_balanced .becauseDestroy s.handleData.waitingToSend).append_right
      s.inFlight.flatten
    refine keepsBooks_of_allocs le_rfl rfl ?_ ?_ <;>
      simp only [live, IoTHubClientLL.destroy, drain_eq] <;> split_ifs <;>
      simp_all [Balanced]

/-- Every step of `rstep` keeps the books, whatever the callbacks call. -/
theorem rstep_keepsBooks {app : MessageList → List Reentry} {fuel : ℕ} {a : Action}
    (h : s.rstep app fuel a = some s') : KeepsBooks s s' := by
  unfold rstep at h
  split_ifs at h
  split at h
  · -- `DoWork`: the scan, then the transport's `_DoWork`
    obtain ⟨r, hr, hc⟩ := Option.bind_eq_some.mp h
    obtain ⟨q, hq, rfl⟩ := Option.map_eq_some'.mp hr
    obtain ⟨n, hn, rfl⟩ := Option.map_eq_some'.mp hc
    refine keepsBooks_commit hn ?_ rfl rfl
    simpa [live, advance] using ((doTimeoutsLoop_balanced hq (List.nil_append _).symm).trans
      (.idle _ rfl rfl : Balanced _ [.transportDoWork q.1.transportHandle] _)).append_right
        s.inFlight.flatten
  · -- `SendComplete`: the batch leaves the transport, the records its callbacks send join the queue
    rename_i b result
    obtain ⟨batch, hb, hc⟩ := Option.bind_eq_some.mp h
    obtain ⟨n, hn, rfl⟩ := Option.map_eq_some'.mp hc
    refine keepsBooks_commit hn ?_ rfl rfl
    have hp : (batch ++ s.handleData.waitingToSend ++ (s.inFlight.eraseIdx b).flatten).Perm
        s.live := (List.perm_append_comm.append_right _).trans (by
          rw [List.append_assoc]
          exact (flatten_perm_eraseIdx hb).symm.append_left _)
    have hbal := ((sendCompleteLoop_balanced app
      (if result = BatchStateResult.success then .ok else .error) batch s.handleData).append_right
        (s.inFlight.eraseIdx b).flatten).of_perm hp (.refl _)
    simpa [live, advance, sendCompleteReentrant] using hbal
  · -- `Destroy`: the transport's teardown, the drain, the tick counter's
    obtain ⟨effs, he, hc⟩ := Option.bind_eq_some.mp h
    obtain ⟨q, hq, rfl⟩ := Option.map_eq_some'.mp he
    obtain ⟨n, hn, rfl⟩ := Option.map_eq_some'.mp hc
    refine keepsBooks_commit hn ?_ rfl rfl
    have hbal := (destroyLoop_balanced hq (List.nil_append _).symm).append_right s.inFlight.flatten
    rw [destroyLoop_waitingToSend hq] at hbal
    unfold Balanced at hbal ⊢
    split_ifs <;> simpa [live, advance] using hbal
  · exact step_keepsBooks h

/-- **The books of a state.** What its trace acquired, each thing once and at an address below
`fresh`, is what it released plus what its live records hold. -/
structure HeapInv (s : System) : Prop where
  nodup : (acquired s.trace).Nodup
  below : ∀ o ∈ acquired s.trace, o.addr < s.fresh
  balance : acquired s.trace = released s.trace + held s.live

theorem HeapInv.keepsBooks (hs : s.HeapInv) (hk : KeepsBooks s s') : s'.HeapInv := by
  obtain ⟨hfresh, E, htrace, hb, hnd, hnew⟩ := hk
  refine ⟨?_, fun o ho => ?_, ?_⟩
  · -- what the step acquires is new
    rw [htrace, acquired_append]
    exact Multiset.nodup_add.mpr ⟨hs.nodup, hnd, Multiset.disjoint_left.mpr fun {o} ho ho' =>
      absurd (hs.below o ho) (Nat.not_lt.mpr (hnew o ho').1)⟩
  · rw [htrace, acquired_append] at ho
    rcases Multiset.mem_add.mp ho with ho | ho
    exacts [(hs.below o ho).trans_le hfresh, (hnew o ho).2]
  · unfold Balanced at hb
    rw [htrace, acquired_append, released_append, hs.balance, add_right_comm, add_assoc, hb,
      add_assoc]

end System

/-- The books hold in every state of a run whose callbacks may call back. -/
theorem RReachable.heapInv {s : System} (hs : RReachable s) : s.HeapInv := by
  have hinit : ∀ h : HandleData, h.waitingToSend = [] → (System.init h h.acquired).HeapInv :=
    fun h hw => by
      have ha : acquired h.acquired = 0 ∧ released h.acquired = 0 := by
        unfold HandleData.acquired
        split_ifs <;> exact ⟨rfl, rfl⟩
      exact ⟨by simp [System.init, ha.1], by simp [System.init, ha.1],
        by simp [System.init, System.live, hw, ha.1, ha.2]⟩
  induction hs with
  | create hc => exact create_acquired hc ▸ hinit _ (create_quiet hc).1
  | createWithTransport hc =>
    exact createWithTransport_acquired hc ▸ hinit _ (createWithTransport_quiet hc).1
  | step _ _ _ _ hstep ih => exact ih.keepsBooks (System.rstep_keepsBooks hstep)

/-! ## Whole runs -/

/-- **Nothing leaks and nothing is released twice, whatever the callbacks call.** Take any state
of a run whose confirmation callbacks may send and set options while `DoWork`, `SendComplete`
and `Destroy` run. The records and clones the trace acquired are distinct. They are what the
trace released, plus what the live records hold, waiting or in a transport batch. No record is
freed twice and no clone destroyed twice, and every `free` and `IoTHubMessage_Destroy` releases
something the run acquired. -/
theorem heap_accounted_reentrant {s : System} (hs : RReachable s) :
    (acquired s.trace).Nodup ∧ acquired s.trace = released s.trace + held s.live ∧
      (released s.trace).Nodup := by
  have hi := hs.heapInv
  exact ⟨hi.nodup, hi.balance,
    Multiset.nodup_of_le ((Multiset.le_add_right _ _).trans_eq hi.balance.symm) hi.nodup⟩

/-- A timeout callback whose send is refused after `malloc`, because `IoTHubMessage_Clone`
fails: the record it allocated is freed at once, and the books balance with no record live. -/
theorem heap_accounted_reentrant_refused_resend :
    let s : System := ⟨{ HandleData.initial 4 false 5 3 with currentMessageTimeout := 5 }, [],
      [⟨0, 0, some 7, none, 5⟩],
      [.tickcounterCreate 3, .transportCreate 4, .transportRegister 5, .malloc 0, .messageClone 0,
        .callback 0 7 .messageTimeout none, .malloc 1, .free 1, .messageDestroy 0, .free 0,
        .transportDoWork 4], 2, false⟩
    RReachable s ∧ (acquired s.trace).Nodup ∧
      acquired s.trace = released s.trace + held s.live ∧ (released s.trace).Nodup := by
  intro s
  have hs : RReachable s :=
    .step (fun _ => [.sendEventAsync (some 10) none none ⟨some 1, some 10, none⟩]) 2
      (.doWork (some 10))
      (.step noReentry 1 (.sendEventAsync (some 9) (some 7) none true (some 0) true)
        (.step noReentry 1 (.setOption (some "messageTimeout".toList) (some 5) .ok)
          (@RReachable.create (some ⟨some 1, none, none, none, none, none⟩)
            ⟨true, some 3, some 4, some 5⟩ _ _ rfl) rfl) rfl) rfl
  exact ⟨hs, heap_accounted_reentrant hs⟩

/-- **After `Destroy`, only the transport's batches hold anything, whatever the callbacks
call.** In a destroyed state of a run whose confirmation callbacks may send and set options,
what the trace acquired is what it released plus what the records in the transport's batches
hold. Once the transport holds no batch, every record and clone the client ever acquired has
been released. -/
theorem destroy_releases_all_reentrant {s : System} (hs : RReachable s)
    (hd : s.destroyed = true) :
    acquired s.trace = released s.trace + held s.inFlight.flatten ∧
      (s.inFlight = [] → acquired s.trace = released s.trace) := by
  have hb : acquired s.trace = released s.trace + held s.inFlight.flatten := by
    rw [hs.heapInv.balance, System.live, hs.waitingToSend_of_destroyed hd, List.nil_append]
  exact ⟨hb, fun hI => by simp [hb, hI]⟩

/-- On a shared transport: one message in a batch, a second still waiting, whose callback,
called by `Destroy`, sends a third. After `Destroy` the second and third records and their
clones are released, and the first is held by the transport's batch. -/
theorem destroy_releases_all_reentrant_batch :
    let s : System := ⟨HandleData.initial 4 true 5 3, [[⟨0, 0, some 7, none, 0⟩]],
      [⟨0, 0, some 7, none, 0⟩, ⟨1, 1, some 8, none, 0⟩, ⟨2, 3, none, none, 0⟩],
      [.tickcounterCreate 3, .transportRegister 5, .malloc 0, .messageClone 0, .malloc 1,
        .messageClone 1, .transportUnregister 5, .callback 1 8 .becauseDestroy none, .malloc 2,
        .messageClone 3, .messageDestroy 1, .free 1, .messageDestroy 3, .free 2,
        .tickcounterDestroy 3], 4, true⟩
    RReachable s ∧ s.destroyed = true ∧
      (acquired s.trace = released s.trace + held s.inFlight.flatten ∧
        (s.inFlight = [] → acquired s.trace = released s.trace)) := by
  intro s
  have hs : RReachable s :=
    .step (fun x => if x.entry = 1 then
        [.sendEventAsync (some 10) none none ⟨some 2, none, some 3⟩] else []) 3 .destroy
      (.step noReentry 1 (.detach 0 0)
        (.step noReentry 1 (.sendEventAsync (some 9) (some 8) none true none true)
          (.step noReentry 1 (.sendEventAsync (some 9) (some 7) none true none true)
            (@RReachable.createWithTransport (some ⟨some 1, some 4, none, none⟩)
              ⟨true, some 3, none, some 5⟩ _ _ rfl) rfl) rfl) rfl) rfl
  exact ⟨hs, rfl, destroy_releases_all_reentrant hs rfl⟩

end IoTHubClientLL
