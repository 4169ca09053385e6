import IoTHubClientLL.Delivery
import IoTHubClientLL.Reentrant

/-!
# Runs whose callbacks call back

`System.step` confirms records through callbacks that make no calls. Here the `DoWork`,
`SendComplete` and `Destroy` of a run take the calls `app` that each callback makes
(`Scan.lean`, `Reentrant.lean`), so a callback may send new messages and set options while
the loop that called it runs. `System.rstep` makes such a step. The allocator's answers to
the callbacks' sends are data in `app`; the step is refused unless they were fresh
(`allocFrom`). The records those sends link are ghost state, computed by `doTimeoutsLinked`,
`sendCompleteLinked` and `destroyLinked`, which follow the loops.

* **Refinement.** A step with callbacks is a run of small steps, each of a kind that
  `Delivery.lean` already handles: a completion of live records, a send that links a record
  at fresh addresses, a send that links nothing (`Micro`). The match holds up to a reordering
  of the trace that keeps the order of the effects about each record and clone (`Equiv`,
  `Sim`, `rstep_sim`), and so is every run from a created instance (`RReachable.sim_created`).
* **The invariant** of `Delivery.lean` therefore holds in every state of every such run
  (`RReachable.inv`); `ReentrantDelivery.lean` reads the delivery results off it.
* Without callback calls, and with the fuel `step` gives, `rstep` is `step`.

Proof shape: `Sim.confirmation` handles one confirmation with its calls. It is a completion of one
record followed by one small step per call (`Reentry.run_micro`), with the record's
`IoTHubMessage_Destroy` and `free` moved ahead of the calls' effects. Those calls are about the
addresses the allocator hands them, all new (`runReentries_about`), so the move keeps `Equiv`.
The three loop lemmas apply it once per record they pop.
-/

namespace IoTHubClientLL

/-! ## The allocator -/

/-- What the allocator handed out in an effect: the address `malloc` returned, or the handle
`IoTHubMessage_Clone` returned. -/
@[simp] def Effect.alloc : Effect → Option ℕ
  | .malloc p => some p
  | .messageClone h => some h
  | _ => none

/-- The record or clone an effect is about: the address that `malloc`, `free` and a
confirmation name, or the handle that `IoTHubMessage_Clone` and `IoTHubMessage_Destroy` name.
The other effects are about none. -/
@[simp] def Effect.about : Effect → Option ℕ
  | .malloc p => some p
  | .free p => some p
  | .callback p .. => some p
  | .messageClone h => some h
  | .messageDestroy h => some h
  | _ => none

/-- Check that the allocator's answers `as`, in order, increase from `n` on; the next fresh
address. -/
def allocFrom : ℕ → List ℕ → Option ℕ
  | n, [] => some n
  | n, a :: as => if n ≤ a then allocFrom (a + 1) as else none

theorem allocFrom_append (n : ℕ) (as bs : List ℕ) :
    allocFrom n (as ++ bs) = (allocFrom n as).bind fun m => allocFrom m bs := by
  induction as generalizing n with
  | nil => rfl
  | cons a as ih =>
    simp only [List.cons_append, allocFrom]
    split_ifs <;> simp [ih]

theorem allocFrom_le : ∀ {n m : ℕ} {as : List ℕ}, allocFrom n as = some m → n ≤ m
  | _, _, [], h => (Option.some.inj h).le
  | n, m, a :: as, h => by
    unfold allocFrom at h
    split_ifs at h with ha
    exact ha.trans ((Nat.le_succ a).trans (allocFrom_le h))

/-- The allocator's check: its answers increase from `n` and stay below the next fresh
address. -/
theorem allocFrom_bounds : ∀ {n m : ℕ} {as : List ℕ}, allocFrom n as = some m →
    as.Sorted (· < ·) ∧ ∀ a ∈ as, n ≤ a ∧ a < m
  | _, _, [], _ => ⟨List.sorted_nil, by simp⟩
  | n, m, a :: as, h => by
    unfold allocFrom at h
    split_ifs at h with ha
    obtain ⟨hs, hb⟩ := allocFrom_bounds h
    have hm := allocFrom_le h
    refine ⟨List.sorted_cons.mpr ⟨fun b hb' => (hb b hb').1, hs⟩, ?_⟩
    rintro b (_ | ⟨_, hb'⟩)
    · exact ⟨ha, by omega⟩
    · exact ⟨by have := (hb b hb').1; omega, (hb b hb').2⟩

/-- The allocations of a list of effects. -/
def allocs (effs : List Effect) : List ℕ := effs.filterMap Effect.alloc

@[simp] theorem allocs_nil : allocs [] = [] := rfl

@[simp] theorem allocs_cons (ev : Effect) (effs : List Effect) :
    allocs (ev :: effs) = ev.alloc.toList ++ allocs effs := by
  unfold allocs
  rw [List.filterMap_cons]
  rcases ev.alloc with _ | a <;> rfl

@[simp] theorem allocs_append (e₁ e₂ : List Effect) : allocs (e₁ ++ e₂) = allocs e₁ ++ allocs e₂ :=
  List.filterMap_append _ _ _

@[simp] theorem allocs_complete (r : ConfirmationResult) (x : MessageList) :
    allocs (complete r x) = [] := by
  unfold allocs complete invoke
  rcases x.callback <;> rfl

@[simp] theorem allocs_invoke (r : ConfirmationResult) (x : MessageList) : allocs (invoke r x) = [] := by
  unfold allocs invoke
  rcases x.callback <;> rfl

/-- Split an allocation check over two pieces of effects. -/
theorem allocFrom_split {n m : ℕ} {e₁ e₂ : List Effect}
    (h : allocFrom n (allocs (e₁ ++ e₂)) = some m) :
    ∃ k, allocFrom n (allocs e₁) = some k ∧ allocFrom k (allocs e₂) = some m := by
  rw [allocs_append, allocFrom_append] at h
  exact Option.bind_eq_some.mp h

/-- `SetOption` allocates nothing. -/
theorem allocs_setOption (h : HandleData) (optionName : Option (List Char)) (value : Option UInt64)
    (transportSetOption : ClientResult) :
    allocs (setOption (some h) optionName value transportSetOption).2.2 = [] := by
  rcases optionName with _ | name <;> rcases value with _ | v <;> simp only [setOption]
  all_goals try split_ifs
  all_goals rfl

/-- A quiet effect that is about an address allocated it. -/
theorem Effect.alloc_of_about {ev : Effect} {a : ℕ} (hq : ev.Quiet) (ha : ev.about = some a) :
    ev.alloc = some a := by
  cases ev <;> simp_all [Effect.Quiet]

/-- **A call from a callback is only about what it allocated**: the record and clone it links,
or the record it frees when the clone fails. -/
theorem Reentry.run_about (h : HandleData) (call : Reentry) {ev : Effect} {a : ℕ}
    (hev : ev ∈ (call.run h).2) (ha : ev.about = some a) : a ∈ allocs (call.run h).2 := by
  have quiet : ev.Quiet → a ∈ allocs (call.run h).2 := fun hq =>
    List.mem_filterMap.mpr ⟨ev, hev, Effect.alloc_of_about hq ha⟩
  cases call with
  | setOption name value res => exact quiet ((setOption_quiet h name value res).2 ev hev)
  | sendEventAsync m cb ctx env =>
    simp only [Reentry.run] at hev quiet ⊢
    by_cases hok : (IoTHubClientLL.sendEventAsync (some h) m cb ctx env).1 = .ok
    · obtain ⟨h', p, tt, c, -, -, -, -, hr⟩ := sendEventAsync_of_ok hok
      rw [hr] at hev
      simp only [List.mem_cons, List.mem_singleton, List.not_mem_nil, or_false] at hev
      exact quiet (by rcases hev with rfl | rfl <;> trivial)
    · rcases (sendEventAsync_of_ne_ok hok).2 with he | ⟨p, -, he⟩
      · simp [he] at hev
      · rw [he] at hev ⊢
        simp only [List.mem_cons, List.mem_singleton, List.not_mem_nil, or_false] at hev
        rcases hev with rfl | rfl <;> simp_all

theorem runReentries_about : ∀ (h : HandleData) (calls : List Reentry) {ev : Effect} {a : ℕ},
    ev ∈ (runReentries h calls).2 → ev.about = some a → a ∈ allocs (runReentries h calls).2
  | _, [], _, _, hev, _ => nomatch hev
  | h, call :: calls, _, _, hev, ha => by
    simp only [runReentries, List.mem_append, allocs_append] at hev ⊢
    exact hev.imp (Reentry.run_about h call · ha) (runReentries_about _ calls · ha)

/-- The records that calls made on the instance `h` linked, leaving it at `h'`. -/
def HandleData.linked (h h' : HandleData) : List MessageList :=
  h'.waitingToSend.drop h.waitingToSend.length

theorem HandleData.linked_trans {h₁ h₂ h₃ : HandleData} (h₁₂ : h₁.Extends h₂)
    (h₂₃ : h₂.Extends h₃) : h₁.linked h₂ ++ h₂.linked h₃ = h₁.linked h₃ := by
  obtain ⟨A, hA⟩ := h₁₂.waitingToSend
  obtain ⟨B, hB⟩ := h₂₃.waitingToSend
  simp [HandleData.linked, hA, hB]

/-! ## What the callbacks link -/

/-- The records the timeout callbacks link during the scan of `DoTimeouts`: the ghost of
`doTimeoutsLoop`, following its control flow. -/
def doTimeoutsLinked (app : MessageList → List Reentry) (nowTick : UInt64) :
    ℕ → Option ℕ → HandleData → List MessageList
  | 0, _, _ => []
  | _ + 1, none, _ => []
  | fuel + 1, some i, handleData =>
    match handleData.waitingToSend[i]? with
    | none => []
    | some fullEntry =>
      if timedOut nowTick fullEntry then
        let h₁ := { handleData with
          waitingToSend := DList.removeEntryList handleData.waitingToSend i }
        let r := confirm app .messageTimeout fullEntry h₁
        h₁.linked r.1 ++ doTimeoutsLinked app nowTick fuel
          (if i + 1 < handleData.waitingToSend.length then some i else none) r.1
      else doTimeoutsLinked app nowTick fuel (some (i + 1)) handleData

/-- The records the confirmation callbacks link during `IoTHubClient_LL_SendComplete`: the
ghost of `sendCompleteLoop`. -/
def sendCompleteLinked (app : MessageList → List Reentry) (resultToBeCalled : ConfirmationResult) :
    List MessageList → HandleData → List MessageList
  | [], _ => []
  | oldest :: completed, handleData =>
    let r := confirm app resultToBeCalled oldest handleData
    handleData.linked r.1 ++ sendCompleteLinked app resultToBeCalled completed r.1

/-- The records the callbacks link during the drain of `IoTHubClient_LL_Destroy`: the ghost of
`destroyLoop`. -/
def destroyLinked (app : MessageList → List Reentry) : ℕ → HandleData → List MessageList
  | 0, _ => []
  | fuel + 1, handleData =>
    match handleData.waitingToSend with
    | [] => []
    | unsend :: rest =>
      let h₁ := { handleData with waitingToSend := rest }
      let r := confirm app .becauseDestroy unsend h₁
      h₁.linked r.1 ++ destroyLinked app fuel r.1

/-- The scan only appends to the effects it was given. -/
theorem doTimeoutsLoop_appends {app : MessageList → List Reentry} {nowTick : UInt64} :
    ∀ {fuel : ℕ} {i : Option ℕ} {h : HandleData} {out : List Effect}
      {r : HandleData × List Effect}, doTimeoutsLoop app nowTick fuel i h out = some r → out <+: r.2
  | 0, _, _, _, _, hr => nomatch hr
  | fuel + 1, none, _, _, _, hr => by
    cases hr
    exact List.prefix_refl _
  | fuel + 1, some i, h, out, r, hr => by
    unfold doTimeoutsLoop at hr
    split at hr
    · cases hr
      exact List.prefix_refl _
    · split at hr
      · exact (List.prefix_append _ _).trans
          ((List.prefix_append _ _).trans (doTimeoutsLoop_appends hr))
      · exact doTimeoutsLoop_appends hr

/-- The drain ends with the queue empty. -/
theorem destroyLoop_waitingToSend {app : MessageList → List Reentry} :
    ∀ {fuel : ℕ} {h : HandleData} {out : List Effect} {r : HandleData × List Effect},
      destroyLoop app fuel h out = some r → r.1.waitingToSend = []
  | 0, _, _, _, hr => nomatch hr
  | fuel + 1, h, out, r, hr => by
    unfold destroyLoop at hr
    split at hr
    · rename_i hw
      cases hr
      exact hw
    · exact destroyLoop_waitingToSend hr

/-- What a loop added after `out`, once it is known to extend `out ++ A ++ B`. -/
theorem eq_append_of_extends {out A B E E' : List Effect} (h : out ++ A ++ B ++ E' = out ++ E) :
    E = A ++ (B ++ E') := by
  simp only [List.append_assoc, List.append_cancel_left_eq] at h
  exact h.symm

@[simp] theorem HandleData.linked_self (h : HandleData) : h.linked h = [] := by
  simp [HandleData.linked]

theorem doTimeoutsLinked_noReentry (nowTick : UInt64) :
    ∀ (fuel : ℕ) (i : Option ℕ) (h : HandleData), doTimeoutsLinked noReentry nowTick fuel i h = []
  | 0, _, _ => rfl
  | _ + 1, none, _ => rfl
  | fuel + 1, some i, h => by
    unfold doTimeoutsLinked
    split
    · rfl
    · split_ifs <;> simp [doTimeoutsLinked_noReentry]

theorem sendCompleteLinked_noReentry (result : ConfirmationResult) :
    ∀ (l : List MessageList) (h : HandleData), sendCompleteLinked noReentry result l h = []
  | [], _ => rfl
  | _ :: l, h => by simp [sendCompleteLinked, sendCompleteLinked_noReentry result l]

theorem destroyLinked_noReentry : ∀ (fuel : ℕ) (h : HandleData), destroyLinked noReentry fuel h = []
  | 0, _ => rfl
  | fuel + 1, h => by
    unfold destroyLinked
    split
    · rfl
    · simp [destroyLinked_noReentry fuel]

@[simp] theorem allocs_flatMap_complete (r : ConfirmationResult) (l : List MessageList) :
    allocs (l.flatMap (complete r)) = [] := by
  induction l with
  | nil => rfl
  | cons x l ih => simp [ih]

namespace System

variable {s s' t t' σ : System}

/-! ## Small steps -/

/-- **A small step**: one of the three kinds of step `Delivery.lean` shows keep the invariant. -/
inductive Micro (s s' : System) : Prop
  | accept {e : MessageList} : AcceptsAt s e s' → Micro s s'
  | refuse : RefusesAt s s' → Micro s s'
  | complete {X : List MessageList} {r : ConfirmationResult} : Completes s X r s' → Micro s s'

theorem Inv.micro (hs : s.Inv) : Micro s s' → s'.Inv
  | .accept ha => hs.acceptAt ha
  | .refuse hr => hs.rejectAt hr
  | .complete hc => hs.of_completion hc

/-- A step that completes nothing and makes quiet calls: it may change the instance's
settings and the order of the live records, and set the flag. -/
theorem Micro.quiet (hacc : t'.accepted = t.accepted) (hfresh : t'.fresh = t.fresh)
    (hw : t'.handleData.waitingToSend.Sublist t.handleData.waitingToSend)
    (hlive : t.live.Perm t'.live) {E : List Effect} (htrace : t'.trace = t.trace ++ E)
    (hE : ∀ ev ∈ E, ev.Quiet) : Micro t t' :=
  .complete (X := []) (r := .ok) ⟨hacc, hfresh, hw, hlive, E, [], by simp [htrace], hE, by simp⟩

/-! ## The order of the trace -/

/-- `σ` is `τ` with its trace reordered so that only effects about different records or clones
change places: the effects about each address, and the effects about none, keep their order. -/
def Equiv (σ τ : System) : Prop :=
  ∃ T, σ = { τ with trace := T } ∧ ∀ c, T.filter (·.about = c) = τ.trace.filter (·.about = c)

/-- Traces that agree about every address are permutations of each other. -/
theorem perm_of_filter_about {T U : List Effect}
    (h : ∀ c, T.filter (·.about = c) = U.filter (·.about = c)) : T.Perm U :=
  List.perm_iff_count.mpr fun ev => by
    rw [← List.count_filter (p := (·.about = ev.about)) (by simp), h,
      List.count_filter (by simp)]

/-- Effects about different addresses commute in every projection. -/
theorem filter_about_comm {B E : List Effect} (h : ∀ b ∈ B, ∀ e ∈ E, b.about ≠ e.about)
    (c : Option ℕ) :
    B.filter (·.about = c) ++ E.filter (·.about = c) =
      E.filter (·.about = c) ++ B.filter (·.about = c) := by
  by_cases hB : ∃ b ∈ B, b.about = c
  · obtain ⟨b, hb, rfl⟩ := hB
    have hE : E.filter (·.about = b.about) = [] :=
      List.filter_eq_nil_iff.mpr fun e he => by simpa [eq_comm] using h b hb e he
    rw [hE, List.nil_append, List.append_nil]
  · have hB' : B.filter (·.about = c) = [] :=
      List.filter_eq_nil_iff.mpr fun b hb hbc => hB ⟨b, hb, by simpa using hbc⟩
    rw [hB', List.nil_append, List.append_nil]

theorem Equiv.refl (t : System) : Equiv t t := ⟨t.trace, rfl, fun _ => rfl⟩

theorem Equiv.trans {τ υ : System} (h₁ : Equiv σ τ) (h₂ : Equiv τ υ) : Equiv σ υ := by
  obtain ⟨T, rfl, hT⟩ := h₁
  obtain ⟨U, rfl, hU⟩ := h₂
  exact ⟨T, rfl, fun c => (hT c).trans (hU c)⟩

/-- An option read as a list is fixed by its permutations. -/
theorem eq_toList_of_perm {α : Type} {l : List α} {o : Option α} (h : l.Perm o.toList) :
    l = o.toList := by
  rcases o with _ | a
  exacts [h.eq_nil, List.perm_singleton.mp h]

/-- **The invariant does not see the order of the trace**, only what it holds. -/
theorem Inv.of_equiv (hσ : σ.Inv) (he : Equiv σ t) : t.Inv := by
  obtain ⟨T, rfl, hT⟩ := he
  replace hT := perm_of_filter_about hT
  have hc : ∀ e, ({ t with trace := T } : System).Completed e ↔ t.Completed e :=
    fun _ => hT.mem_iff
  have hcb : ∀ p, (callbacksAt p t.trace).Perm (callbacksAt p T) := fun _ => hT.symm.filterMap _
  refine ⟨hσ.sorted, hσ.handles_nodup, hσ.accepted_lt,
    fun ev hev => hσ.trace_below ev (hT.mem_iff.mpr hev), hσ.waiting_sublist, fun e => ?_,
    fun e he hnc => ?_, fun e he hce => ?_⟩
  · simp only [← hc e]
    exact hσ.live_count e
  · obtain ⟨h₁, h₂⟩ : callbacksAt e.entry T = [] ∧ T.count (.messageDestroy e.messageHandle) = 0 :=
      hσ.pending e he ((hc e).not.mpr hnc)
    exact ⟨(h₁ ▸ hcb e.entry).eq_nil, hT.count_eq _ ▸ h₂⟩
  · obtain ⟨r, h₁, h₂, h₃⟩ : ∃ r, callbacksAt e.entry T =
        (e.callback.map fun fn => (fn, r, e.context)).toList ∧
        T.count (.messageDestroy e.messageHandle) = 1 ∧ T.count (.free e.entry) = 1 :=
      hσ.completed e he ((hc e).mpr hce)
    exact ⟨r, eq_toList_of_perm (h₁ ▸ hcb e.entry), hT.count_eq _ ▸ h₂, hT.count_eq _ ▸ h₃⟩

/-- A small step from a state can be made from any reordering of it. -/
theorem Micro.equiv (hm : Micro t t') (he : Equiv σ t) : ∃ σ', Micro σ σ' ∧ Equiv σ' t' := by
  obtain ⟨T, rfl, hT⟩ := he
  have retrace : ∀ {E : List Effect}, t'.trace = t.trace ++ E →
      Equiv { t' with trace := T ++ E } t' := fun hE =>
    ⟨_, rfl, fun c => by rw [hE, List.filter_append, List.filter_append, hT c]⟩
  cases hm with
  | accept ha =>
    obtain ⟨E, hE, hq⟩ := ha.trace
    exact ⟨{ t' with trace := T ++ E }, .accept ⟨ha.entry, ha.messageHandle, ha.waitingToSend,
      ha.inFlight, ha.accepted, E, rfl, hq⟩, retrace hE⟩
  | refuse hr =>
    obtain ⟨E, hE, hq⟩ := hr.trace
    exact ⟨{ t' with trace := T ++ E }, .refuse ⟨hr.waitingToSend, hr.inFlight, hr.accepted,
      ⟨E, rfl, hq⟩, hr.fresh⟩, retrace hE⟩
  | complete hc =>
    obtain ⟨pre, post, hE, hpre, hpost⟩ := hc.trace
    exact ⟨{ t' with trace := T ++ (pre ++ _ ++ post) }, .complete ⟨hc.accepted, hc.fresh,
      hc.waitingToSend, hc.live, pre, post, rfl, hpre, hpost⟩, retrace hE⟩

/-- **`t` is reached from `s` by small steps**, up to a reordering of the trace that keeps the
order of the effects about each address (`Equiv`). -/
def Sim (s t : System) : Prop := ∃ σ, Relation.ReflTransGen Micro s σ ∧ Equiv σ t

theorem Sim.refl (s : System) : Sim s s := ⟨s, .refl, .refl s⟩

theorem Sim.micro (hst : Sim s t) (hm : Micro t t') : Sim s t' := by
  obtain ⟨σ, hrun, he⟩ := hst
  obtain ⟨σ', hm', he'⟩ := hm.equiv he
  exact ⟨σ', hrun.tail hm', he'⟩

theorem Sim.equiv (hst : Sim s t) (he : Equiv t t') : Sim s t' := by
  obtain ⟨σ, hrun, he₀⟩ := hst
  exact ⟨σ, hrun, he₀.trans he⟩

theorem Sim.trans {u : System} (h₁ : Sim s t) (h₂ : Sim t u) : Sim s u := by
  obtain ⟨τ, hrun, he⟩ := h₂
  have hτ : Sim s τ := by
    clear he
    induction hrun with
    | refl => exact h₁
    | tail _ hm ih => exact ih.micro hm
  exact hτ.equiv he

theorem Inv.sim (hs : s.Inv) (hst : Sim s t) : t.Inv := by
  obtain ⟨σ, hrun, he⟩ := hst
  have hσ : σ.Inv := by
    clear he
    induction hrun with
    | refl => exact hs
    | tail _ hm ih => exact ih.micro hm
  exact hσ.of_equiv he

/-! ## Confirming one record -/

/-- `t` after part of a step: the instance is `h`, the records `A` were linked, the effects `E`
made, and the allocator is at `n`. -/
def advance (t : System) (h : HandleData) (A : List MessageList) (E : List Effect) (n : ℕ) :
    System :=
  { t with handleData := h, accepted := t.accepted ++ A, trace := t.trace ++ E, fresh := n }

@[simp] theorem advance_handleData (t : System) (h A E n) : (t.advance h A E n).handleData = h := rfl
@[simp] theorem advance_inFlight (t : System) (h A E n) : (t.advance h A E n).inFlight = t.inFlight :=
  rfl
@[simp] theorem advance_fresh (t : System) (h A E n) : (t.advance h A E n).fresh = n := rfl

theorem advance_advance (t : System) (h h' : HandleData) (A A' : List MessageList)
    (E E' : List Effect) (n n' : ℕ) :
    (t.advance h A E n).advance h' A' E' n' = t.advance h' (A ++ A') (E ++ E') n' := by
  simp [advance, List.append_assoc]

theorem advance_self (t : System) : t.advance t.handleData [] [] t.fresh = t := by
  simp only [advance, List.append_nil]

/-- One call a callback makes is one small step. -/
theorem Reentry.run_micro (t : System) (call : Reentry) {n : ℕ}
    (hn : allocFrom t.fresh (allocs (call.run t.handleData).2) = some n) :
    Micro t (t.advance (call.run t.handleData).1
      (t.handleData.linked (call.run t.handleData).1) (call.run t.handleData).2 n) := by
  cases call with
  | setOption name value res =>
    obtain ⟨hw, hq⟩ := setOption_quiet t.handleData name value res
    simp only [Reentry.run] at hn ⊢
    rw [allocs_setOption] at hn
    obtain rfl := Option.some.inj hn
    refine Micro.quiet (E := _) (by simp [advance, HandleData.linked, hw]) rfl
      (by simp [hw]) (by simp [live, hw]) rfl hq
  | sendEventAsync m cb ctx env =>
    simp only [Reentry.run] at hn ⊢
    by_cases hok : (IoTHubClientLL.sendEventAsync (some t.handleData) m cb ctx env).1 = .ok
    · obtain ⟨h, p, tt, c, hh, -, -, -, hr⟩ := sendEventAsync_of_ok hok
      cases hh
      rw [hr] at hn ⊢
      simp only [allocs, List.filterMap, Effect.alloc, allocFrom] at hn
      split_ifs at hn with hp hc
      obtain rfl := Option.some.inj hn
      refine .accept (e := ⟨p, c, cb, ctx, tt⟩) ⟨⟨hp, Nat.lt_succ_of_lt hc⟩,
        ⟨hp.trans (Nat.le_of_lt hc), Nat.lt_succ_self c⟩, rfl, rfl, ?_, _, rfl, ?_⟩
      · simp [advance, HandleData.linked]
      · simp [Effect.Quiet]
    · obtain ⟨hh, he⟩ := sendEventAsync_of_ne_ok hok
      rw [hh, Option.getD_some]
      refine .refuse ⟨rfl, rfl, by simp [advance, HandleData.linked], ⟨_, rfl, ?_⟩, ?_⟩
      · rcases he with he | ⟨p, -, he⟩
        · simp [he]
        · rw [he] at hn
          simp only [allocs, List.filterMap, Effect.alloc, allocFrom] at hn
          split_ifs at hn with hp
          obtain rfl := Option.some.inj hn
          simp [he, Effect.Quiet, hp]
      · exact allocFrom_le hn

/-- **The calls of one callback are small steps**, one per call. -/
theorem Sim.callbackCalls : ∀ {t : System}, Sim s t → ∀ (calls : List Reentry) {n : ℕ},
    allocFrom t.fresh (allocs (runReentries t.handleData calls).2) = some n →
    Sim s (t.advance (runReentries t.handleData calls).1
      (t.handleData.linked (runReentries t.handleData calls).1) (runReentries t.handleData calls).2 n)
  | t, hst, [], n, hn => by
    obtain rfl := Option.some.inj hn
    simpa [IoTHubClientLL.runReentries, HandleData.linked, advance_self] using hst
  | t, hst, call :: calls, n, hn => by
    obtain ⟨k, hk, hn⟩ := allocFrom_split hn
    have h₁ := Sim.callbackCalls (hst.micro (Reentry.run_micro t call hk)) calls hn
    simp only [advance_handleData, advance_advance] at h₁
    rwa [HandleData.linked_trans (Reentry.run_extends _ call) (runReentries_extends _ calls)] at h₁

/-- **Confirming one record is small steps.** Completing `x` (its callback, then
`IoTHubMessage_Destroy` and `free`) is one small step, and each call its callback makes is one
more. In the trace, the record's destruction and `free` come after those calls, which are
about addresses from `t.fresh` on, and so about neither `x` nor its clone. -/
theorem Sim.confirmation (hs : s.Inv) (hst : Sim s t) (app : MessageList → List Reentry)
    (result : ConfirmationResult) (x : MessageList) (h₁ : HandleData)
    (I₁ : List (List MessageList))
    (hlive : t.live.Perm (x :: (h₁.waitingToSend ++ I₁.flatten)))
    (hsub : h₁.waitingToSend.Sublist t.handleData.waitingToSend) {n : ℕ}
    (hn : allocFrom t.fresh (allocs (confirm app result x h₁).2) = some n) :
    Sim s ({ t with inFlight := I₁ }.advance (confirm app result x h₁).1
      (h₁.linked (confirm app result x h₁).1)
      ((confirm app result x h₁).2 ++ [Effect.messageDestroy x.messageHandle, Effect.free x.entry])
      n) := by
  have hu : Micro t
      { t with handleData := h₁, inFlight := I₁, trace := t.trace ++ complete result x } :=
    .complete (X := [x]) (r := result) ⟨rfl, rfl, hsub, hlive, [], [], by simp, by simp, by simp⟩
  rw [confirm_eq, allocs_append, allocs_invoke, List.nil_append] at hn
  have h₂ := Sim.callbackCalls (hst.micro hu) (callsOf app x) hn
  have hx := (hs.sim hst).accepted_lt x ((hs.sim hst).mem_live (hlive.mem_iff.mpr (.head _))).1
  have hdisj : ∀ b ∈ [Effect.messageDestroy x.messageHandle, .free x.entry],
      ∀ e ∈ (runReentries h₁ (callsOf app x)).2, b.about ≠ e.about := by
    intro b hb e he hbe
    obtain ⟨a, ha, hat⟩ : ∃ a, b.about = some a ∧ a < t.fresh := by
      simp only [List.mem_cons, List.mem_singleton, List.not_mem_nil, or_false] at hb
      rcases hb with rfl | rfl
      exacts [⟨_, rfl, hx.2⟩, ⟨_, rfl, hx.1⟩]
    have := ((allocFrom_bounds hn).2 a (runReentries_about _ _ he (hbe ▸ ha))).1
    omega
  rw [confirm_eq]
  refine h₂.equiv ⟨_, rfl, fun c => ?_⟩
  simp only [advance, complete, List.append_assoc, List.filter_append]
  rw [filter_about_comm hdisj c]

/-! ## The loops, one record at a time -/

/-- **The scan of `DoTimeouts` is small steps**: one confirmation per expired record it meets,
records linked by the callbacks included. -/
theorem Sim.scanLoop (hs : s.Inv) (app : MessageList → List Reentry) (nowTick : UInt64) :
    ∀ (fuel : ℕ) (i : Option ℕ) {t : System} {out E : List Effect} {r : HandleData × List Effect}
      {n : ℕ}, Sim s t → doTimeoutsLoop app nowTick fuel i t.handleData out = some r →
      r.2 = out ++ E → allocFrom t.fresh (allocs E) = some n →
      Sim s (t.advance r.1 (doTimeoutsLinked app nowTick fuel i t.handleData) E n)
  | 0, _, _, _, _, _, _, _, hr, _, _ => nomatch hr
  | fuel + 1, none, t, out, E, r, n, hst, hr, hE, hn => by
    cases hr
    obtain rfl : E = [] := by simpa using hE
    obtain rfl := Option.some.inj hn
    simpa [doTimeoutsLinked, advance_self] using hst
  | fuel + 1, some i, t, out, E, r, n, hst, hr, hE, hn => by
    cases he : t.handleData.waitingToSend[i]? with
    | none =>
      simp only [doTimeoutsLoop, he, Option.some.injEq] at hr
      subst hr
      obtain rfl : E = [] := by simpa using hE
      obtain rfl := Option.some.inj hn
      simpa [doTimeoutsLinked, he, advance_self] using hst
    | some x =>
      by_cases ht : timedOut nowTick x
      · rw [doTimeoutsLoop_evict he ht] at hr
        dsimp only at hr
        obtain ⟨E', hE'⟩ := doTimeoutsLoop_appends hr
        obtain rfl := eq_append_of_extends (hE'.trans hE)
        obtain ⟨k, hk, hn⟩ := allocFrom_split hn
        have hk' := hst.confirmation hs app .messageTimeout x
          { t.handleData with waitingToSend := t.handleData.waitingToSend.eraseIdx i } t.inFlight
          ((perm_cons_eraseIdx he).append_right _) (List.eraseIdx_sublist _ _) hk
        have hrun := Sim.scanLoop hs app nowTick fuel _ hk' hr hE'.symm (by simpa using hn)
        rw [advance_advance] at hrun
        simpa [doTimeoutsLinked, he, ht, DList.removeEntryList, List.append_assoc] using hrun
      · rw [doTimeoutsLoop_pass he (by simpa using ht)] at hr
        simpa [doTimeoutsLinked, he, ht] using Sim.scanLoop hs app nowTick fuel _ hst hr hE hn

/-- **The drain of `Destroy` is small steps**: one confirmation per record it pops, records
linked by the callbacks included. -/
theorem Sim.drainLoop (hs : s.Inv) (app : MessageList → List Reentry) :
    ∀ (fuel : ℕ) {t : System} {out E : List Effect} {r : HandleData × List Effect} {n : ℕ},
      Sim s t → destroyLoop app fuel t.handleData out = some r → r.2 = out ++ E →
      allocFrom t.fresh (allocs E) = some n →
      Sim s (t.advance r.1 (destroyLinked app fuel t.handleData) E n)
  | 0, _, _, _, _, _, _, hr, _, _ => nomatch hr
  | fuel + 1, t, out, E, r, n, hst, hr, hE, hn => by
    cases hw : t.handleData.waitingToSend with
    | nil =>
      simp only [destroyLoop, hw, Option.some.injEq] at hr
      subst hr
      obtain rfl : E = [] := by simpa using hE
      obtain rfl := Option.some.inj hn
      simpa [destroyLinked, hw, advance_self] using hst
    | cons unsend rest =>
      simp only [destroyLoop, hw] at hr
      obtain ⟨E', hE'⟩ := destroyLoop_appends hr
      obtain rfl := eq_append_of_extends (hE'.trans hE)
      obtain ⟨k, hk, hn⟩ := allocFrom_split hn
      have hk' := hst.confirmation hs app .becauseDestroy unsend { t.handleData with waitingToSend := rest }
        t.inFlight (by rw [live, hw]; rfl) (hw ▸ List.sublist_cons_self _ _) hk
      have hrun := Sim.drainLoop hs app fuel hk' hr hE'.symm (by simpa using hn)
      rw [advance_advance] at hrun
      simpa [destroyLinked, hw, List.append_assoc] using hrun

/-- **The report loop of `SendComplete` is small steps**: one confirmation per record of the
batch, which waits, until it is empty, as the last batch. -/
theorem Sim.reportLoop (hs : s.Inv) (app : MessageList → List Reentry) (result : ConfirmationResult) :
    ∀ (l : List MessageList) {t : System} {I : List (List MessageList)} {n : ℕ},
      Sim s t → t.inFlight = I ++ [l] →
      allocFrom t.fresh (allocs (sendCompleteLoop app result l t.handleData).2) = some n →
      Sim s ({ t with inFlight := I ++ [[]] }.advance (sendCompleteLoop app result l t.handleData).1
        (sendCompleteLinked app result l t.handleData) (sendCompleteLoop app result l t.handleData).2
        n)
  | [], t, I, n, hst, hI, hn => by
    obtain rfl := Option.some.inj hn
    rw [← hI]
    simpa [sendCompleteLoop, sendCompleteLinked, advance_self] using hst
  | x :: rest, t, I, n, hst, hI, hn => by
    obtain ⟨k, hk, hn⟩ := allocFrom_split hn
    have hp : ((t.handleData.waitingToSend ++ I.flatten) ++ x :: rest).Perm
        (x :: ((t.handleData.waitingToSend ++ I.flatten) ++ rest)) := List.perm_middle
    have hk' := hst.confirmation hs app result x t.handleData (I ++ [rest])
      (by simpa [live, hI, List.append_assoc] using hp) (List.Sublist.refl _) (by simpa using hk)
    have hrun := Sim.reportLoop hs app result rest hk' rfl hn
    convert hrun using 1
    simp [advance, sendCompleteLoop, sendCompleteLinked, List.append_assoc]

/-! ## Steps whose callbacks call back -/

/-- Commit a step that returned the instance `h` and made the calls `effs`, during which the
callbacks linked the records `A`: refused unless the allocator's answers were fresh. -/
def commit (s : System) (h : HandleData) (A : List MessageList) (effs : List Effect) :
    Option System :=
  (allocFrom s.fresh (allocs effs)).map (s.advance h A effs)

/-- **One step of a run whose confirmation callbacks make the calls `app`.** `DoWork` with a
clock reading, `SendComplete` and `Destroy` run their loops with `app`, and `DoWork` and
`Destroy` run them on `fuel`. `Destroy` leaves the queue empty, as `step` does. Every other
action is `step`. -/
def rstep (s : System) (app : MessageList → List Reentry) (fuel : ℕ) (a : Action) :
    Option System :=
  if s.destroyed then none else
  match a with
  | .doWork (some nowTick) =>
    (IoTHubClientLL.doWork app fuel (some s.handleData) (some nowTick)).bind fun r =>
      s.commit (r.1.getD s.handleData) (doTimeoutsLinked app nowTick fuel (some 0) s.handleData)
        r.2
  | .sendComplete b result =>
    s.inFlight[b]?.bind fun batch =>
      let r := sendCompleteReentrant app (some s.handleData) (some batch) result
      { s with inFlight := s.inFlight.eraseIdx b }.commit (r.1.getD s.handleData)
        (sendCompleteLinked app
          (if result = BatchStateResult.success then .ok else .error) batch s.handleData)
        r.2.2
  | .destroy =>
    (destroyReentrant app fuel (some s.handleData)).bind fun effs =>
      { s with destroyed := true }.commit { s.handleData with waitingToSend := [] }
        (destroyLinked app fuel s.handleData) effs
  | a => s.step a

/-- The state after `steps`, each with the calls its callbacks make and its fuel, if every one
is taken. -/
def rrun (s : System) : List ((MessageList → List Reentry) × ℕ × Action) → Option System
  | [] => some s
  | (app, fuel, a) :: steps => (s.rstep app fuel a).bind fun s' => s'.rrun steps

/-- A step without callback calls is small steps. -/
theorem Sim.of_step {a : Action} (h : s.step a = some s') : Sim s s' := by
  rcases step_cases h with ⟨-, ⟨e, ha⟩ | hr⟩ | hc
  exacts [(Sim.refl s).micro (.accept ha.toAt), (Sim.refl s).micro (.refuse hr.toAt),
    (Sim.refl s).micro (.complete hc)]

/-- **Every step with callbacks is a run of small steps**: completions of live records, sends
that link records at fresh addresses, and sends that link nothing. The trace differs from theirs
only in where a confirmed record's `IoTHubMessage_Destroy` and `free` stand among the effects of
its callback's calls (`Equiv`). -/
theorem rstep_sim (hs : s.Inv) {app : MessageList → List Reentry} {fuel : ℕ} {a : Action}
    (h : s.rstep app fuel a = some s') : Sim s s' := by
  unfold rstep at h
  split_ifs at h
  split at h
  · -- `DoWork`: the scan, then the transport's `_DoWork`
    rename_i nowTick
    obtain ⟨r, hr, hc⟩ := Option.bind_eq_some.mp h
    obtain ⟨q, hq, rfl⟩ := Option.map_eq_some'.mp hr
    obtain ⟨n, hn, rfl⟩ := Option.map_eq_some'.mp hc
    have hscan := Sim.scanLoop hs app nowTick fuel (some 0) (Sim.refl s) hq (List.nil_append _).symm
      (by simpa [allocs, Effect.alloc] using hn)
    exact hscan.micro (Micro.quiet rfl rfl (List.Sublist.refl _) (.refl _)
      (E := [.transportDoWork q.1.transportHandle]) (by simp [advance]) (by simp [Effect.Quiet]))
  · -- `SendComplete`: the batch waits as the last one while its records are confirmed
    rename_i b result
    obtain ⟨batch, hb, hc⟩ := Option.bind_eq_some.mp h
    obtain ⟨n, hn, rfl⟩ := Option.map_eq_some'.mp hc
    simp only [sendCompleteReentrant, Option.getD_some] at hn ⊢
    have hlast : Micro s { s with inFlight := s.inFlight.eraseIdx b ++ [batch] } :=
      Micro.quiet rfl rfl (List.Sublist.refl _)
        (((flatten_perm_eraseIdx hb).trans List.perm_append_comm).append_left _ |>.trans
          (by simp [live])) (E := []) (by simp) (by simp)
    have hloop := Sim.reportLoop hs app _ batch ((Sim.refl s).micro hlast) rfl hn
    refine hloop.micro (Micro.quiet rfl rfl (List.Sublist.refl _) (by simp [live]) (E := [])
      (by simp [advance]) (by simp))
  · -- `Destroy`: the transport's teardown, the drain, the tick counter's
    obtain ⟨effs, he, hc⟩ := Option.bind_eq_some.mp h
    obtain ⟨q, hq, rfl⟩ := Option.map_eq_some'.mp he
    obtain ⟨n, hn, rfl⟩ := Option.map_eq_some'.mp hc
    have hpre : Micro s (s.advance s.handleData []
        (.transportUnregister s.handleData.deviceHandle ::
          if s.handleData.isSharedTransport = false then
            [.transportDestroy s.handleData.transportHandle] else []) s.fresh) :=
      Micro.quiet (by simp [advance]) rfl (List.Sublist.refl _) (.refl _) rfl
        (by split_ifs <;> simp [Effect.Quiet])
    have hdrain := Sim.drainLoop hs app fuel ((Sim.refl s).micro hpre) hq (List.nil_append _).symm
      (by split_ifs at hn <;> simpa [allocs, Effect.alloc] using hn)
    refine hdrain.micro (Micro.quiet (by simp [advance]) rfl
      (by simp [advance, destroyLoop_waitingToSend hq]) (by simp [live, advance,
        destroyLoop_waitingToSend hq]) (E := [.tickcounterDestroy q.1.tickCounter])
      (by simp [advance]) (by simp [Effect.Quiet]))
  · exact Sim.of_step h

end System

/-- The states a run reaches when, at each `DoWork`, `SendComplete` and `Destroy`, the
confirmation callbacks may call back into the client. -/
inductive RReachable : System → Prop
  | create {config : Option ClientConfig} {env : CreateEnv} {h : HandleData} {effs : List Effect} :
      create config env = (some h, effs) → RReachable (System.init h effs)
  | createWithTransport {config : Option DeviceConfig} {env : CreateEnv} {h : HandleData}
      {effs : List Effect} :
      createWithTransport config env = (some h, effs) → RReachable (System.init h effs)
  | step {s s' : System} (app : MessageList → List Reentry) (fuel : ℕ) (a : Action) :
      RReachable s → s.rstep app fuel a = some s' → RReachable s'

theorem RReachable.inv {s : System} (hs : RReachable s) : s.Inv := by
  induction hs with
  | create hc => exact System.inv_init (create_quiet hc).1 (create_quiet hc).2
  | createWithTransport hc =>
    exact System.inv_init (createWithTransport_quiet hc).1 (createWithTransport_quiet hc).2
  | step _ _ _ _ hstep ih => exact ih.sim (System.rstep_sim ih hstep)

namespace System

/-- **Without callback calls, `rstep` is `step`**, given the fuel `step` gives the scan. -/
theorem rstep_noReentry (s : System) (a : Action) :
    s.rstep noReentry (s.handleData.waitingToSend.length + 1) a = s.step a := by
  unfold rstep
  split_ifs with hd
  · simp [System.step, hd]
  have hd' : s.destroyed = false := by simpa using hd
  split
  · rename_i nowTick
    simp [System.step, hd', IoTHubClientLL.doWork,
      doTimeouts_noReentry_some nowTick _ _ (Nat.lt_succ_self _), commit,
      doTimeoutsLinked_noReentry, advance, update, allocFrom, Effect.alloc]
  · rename_i b result
    simp only [System.step, hd', if_false]
    rcases s.inFlight[b]? with _ | batch
    · rfl
    · simp [hd', sendCompleteReentrant_noReentry, IoTHubClientLL.sendComplete, commit,
        sendCompleteLinked_noReentry, advance, update, drain_eq, allocFrom]
  · simp [System.step, hd', destroyReentrant_noReentry (Nat.lt_succ_self _), commit,
      destroyLinked_noReentry, advance, drain_eq, IoTHubClientLL.destroy, allocFrom]
    split_ifs <;> simp [Effect.alloc, allocFrom]
  · rfl

end System

end IoTHubClientLL
