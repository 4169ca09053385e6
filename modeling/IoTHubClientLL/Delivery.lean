import IoTHubClientLL.System

/-!
# Delivery: each accepted message is confirmed once

`System.Inv` is the invariant of every reachable state. Each kind of step that
`System.step_cases` names keeps it: an accepting send (`Inv.acceptAt`), a refused one
(`Inv.rejectAt`), and a step that completes live records (`Inv.of_completion`). The results:

* each accepted record is in exactly one place and is confirmed exactly once
  (`exactly_once`);
* the queue is always a subsequence of the accepted records in send order
  (`waitingToSend_fifo`);
* a record the transport holds is confirmed by the transport's report alone
  (`inFlight_confirmed_by_report`).

Proof shape: `Inv.completes_record` computes once what a completion does to the trace of
one accepted record; `Inv.of_completion` and `Inv.step_record` are both read off it. The run
results are inductions over the actions of a run that cite `Inv.step_record` and
`Inv.inFlight_step` at each step.
-/

namespace IoTHubClientLL

/-! ## Effects about message records -/

/-- The confirmation calls the trace records for the record at `p`: function, status, context. -/
def callbacksAt (p : Ptr) (trace : List Effect) :
    List (ConfirmationCallback × ConfirmationResult × Option Ptr) :=
  trace.filterMap fun
    | .callback q fn r ctx => if q = p then some (fn, r, ctx) else none
    | _ => none

/-- The addresses and handles an effect names about message records are below `n`. -/
def Effect.Below (n : ℕ) : Effect → Prop
  | .callback p .. => p < n
  | .free p => p < n
  | .messageDestroy h => h < n
  | _ => True

@[simp] theorem callbacksAt_append (p : Ptr) (t₁ t₂ : List Effect) :
    callbacksAt p (t₁ ++ t₂) = callbacksAt p t₁ ++ callbacksAt p t₂ := List.filterMap_append _ _ _

theorem callbacksAt_quiet {p : Ptr} {t : List Effect} (ht : ∀ ev ∈ t, ev.Quiet) :
    callbacksAt p t = [] := by
  unfold callbacksAt
  rw [List.filterMap_eq_nil_iff]
  intro ev hev
  have hq := ht ev hev
  cases ev <;> first | rfl | exact hq.elim

theorem count_quiet {ev : Effect} {t : List Effect} (hev : ¬ev.Quiet) (ht : ∀ ev ∈ t, ev.Quiet) :
    t.count ev = 0 :=
  List.count_eq_zero.mpr fun hm => hev (ht ev hm)

/-- The trace of one completion, seen from the record at `p`. -/
theorem callbacksAt_complete (p : Ptr) (r : ConfirmationResult) (x : MessageList) :
    callbacksAt p (complete r x) =
      if x.entry = p then (x.callback.map fun fn => (fn, r, x.context)).toList else [] := by
  unfold complete invoke
  rcases x.callback with _ | fn <;> by_cases hx : x.entry = p <;> simp [callbacksAt, hx]

theorem count_free_complete (p : Ptr) (r : ConfirmationResult) (x : MessageList) :
    (complete r x).count (.free p) = if x.entry = p then 1 else 0 := by
  unfold complete invoke
  rcases x.callback with _ | fn <;> by_cases hx : x.entry = p <;> simp [List.count_cons, hx]

theorem count_messageDestroy_complete (h : MessageHandle) (r : ConfirmationResult)
    (x : MessageList) :
    (complete r x).count (.messageDestroy h) = if x.messageHandle = h then 1 else 0 := by
  unfold complete invoke
  rcases x.callback with _ | fn <;> by_cases hx : x.messageHandle = h <;> simp [List.count_cons, hx]

theorem count_free_flatMap_complete (p : Ptr) (r : ConfirmationResult) (L : List MessageList) :
    (L.flatMap (complete r)).count (.free p) = (L.map (·.entry)).count p := by
  induction L with
  | nil => rfl
  | cons x L ih => simp [List.count_cons, count_free_complete, ih, add_comm]

theorem count_messageDestroy_flatMap_complete (h : MessageHandle) (r : ConfirmationResult)
    (L : List MessageList) :
    (L.flatMap (complete r)).count (.messageDestroy h) = (L.map (·.messageHandle)).count h := by
  induction L with
  | nil => rfl
  | cons x L ih => simp [List.count_cons, count_messageDestroy_complete, ih, add_comm]

/-- Completing records at other addresses says nothing about the record at `p`. -/
theorem callbacksAt_flatMap_complete_of_ne (p : Ptr) (r : ConfirmationResult)
    {L : List MessageList} (hL : ∀ x ∈ L, x.entry ≠ p) :
    callbacksAt p (L.flatMap (complete r)) = [] := by
  induction L with
  | nil => rfl
  | cons x L ih =>
    simp [callbacksAt_complete, hL x (List.mem_cons_self _ _),
      ih fun y hy => hL y (List.mem_cons_of_mem _ hy)]

/-- **Completing a batch, seen from one of its records.** When the records of `L` are at
distinct addresses and hold distinct clones, completing them all calls the callback of `e`
once with its own context, and destroys its clone and frees it once. -/
theorem complete_flatMap_of_mem {r : ConfirmationResult} {L : List MessageList}
    (hLe : (L.map (·.entry)).Nodup) (hLh : (L.map (·.messageHandle)).Nodup)
    {e : MessageList} (he : e ∈ L) :
    callbacksAt e.entry (L.flatMap (complete r)) =
        (e.callback.map fun fn => (fn, r, e.context)).toList ∧
      (L.flatMap (complete r)).count (.messageDestroy e.messageHandle) = 1 ∧
      (L.flatMap (complete r)).count (.free e.entry) = 1 := by
  refine ⟨?_, ?_, ?_⟩
  · obtain ⟨L₁, L₂, rfl⟩ := List.append_of_mem he
    have hp : ∀ x ∈ L₁ ++ L₂, x.entry ≠ e.entry := by
      have := (List.nodup_cons.mp (List.nodup_middle.mp (by simpa using hLe))).1
      simp only [List.mem_append, List.mem_map, not_or, not_exists, not_and] at this
      intro x hx
      rcases List.mem_append.mp hx with hx | hx
      exacts [this.1 x hx, this.2 x hx]
    rw [List.flatMap_append, List.flatMap_cons, callbacksAt_append, callbacksAt_append,
      callbacksAt_flatMap_complete_of_ne _ _ fun x hx => hp x (List.mem_append_left _ hx),
      callbacksAt_flatMap_complete_of_ne _ _ fun x hx => hp x (List.mem_append_right _ hx),
      callbacksAt_complete, if_pos rfl, List.nil_append, List.append_nil]
  · rw [count_messageDestroy_flatMap_complete]
    exact List.count_eq_one_of_mem hLh (List.mem_map_of_mem _ he)
  · rw [count_free_flatMap_complete]
    exact List.count_eq_one_of_mem hLe (List.mem_map_of_mem _ he)

/-! ## The invariant -/

theorem Effect.Quiet.below {ev : Effect} (hq : ev.Quiet) (n : ℕ) : ev.Below n := by
  cases ev <;> trivial

theorem Effect.Below.mono {ev : Effect} {n m : ℕ} (hb : ev.Below n) (hnm : n ≤ m) :
    ev.Below m := by
  cases ev <;> first | trivial | exact lt_of_lt_of_le hb hnm

theorem below_complete {n : ℕ} {r : ConfirmationResult} {x : MessageList} (he : x.entry < n)
    (hh : x.messageHandle < n) : ∀ ev ∈ complete r x, ev.Below n := by
  unfold complete invoke
  rcases x.callback with _ | fn <;> simp [Effect.Below, he, hh]

theorem callbacksAt_quiet_append {p : Ptr} {pre M post : List Effect}
    (hpre : ∀ ev ∈ pre, ev.Quiet) (hpost : ∀ ev ∈ post, ev.Quiet) :
    callbacksAt p (pre ++ M ++ post) = callbacksAt p M := by
  simp [callbacksAt_quiet hpre, callbacksAt_quiet hpost]

theorem count_quiet_append {ev : Effect} (hev : ¬ev.Quiet) {pre M post : List Effect}
    (hpre : ∀ ev ∈ pre, ev.Quiet) (hpost : ∀ ev ∈ post, ev.Quiet) :
    (pre ++ M ++ post).count ev = M.count ev := by
  simp [count_quiet hev hpre, count_quiet hev hpost]

/-- An effect that says nothing about the records at addresses below `n`: a quiet one, or the
`free` of an address from `n` on. -/
def Effect.Frame (n : ℕ) (ev : Effect) : Prop := ev.Quiet ∨ ∃ p, ev = .free p ∧ n ≤ p

namespace System

/-- **The invariant of every reachable state.** Accepted records have distinct addresses
and clones, drawn in send order below `fresh`; the queue is a subsequence of them; each is
live exactly once until it is completed, and nothing else is live; a pending record has not
been confirmed nor had its clone destroyed; a completed one has been confirmed once, with its
own context, and destroyed and freed once. -/
structure Inv (s : System) : Prop where
  /-- addresses are drawn from `fresh`, so they increase in send order -/
  sorted : (s.accepted.map (·.entry)).Sorted (· < ·)
  handles_nodup : (s.accepted.map (·.messageHandle)).Nodup
  accepted_lt : ∀ e ∈ s.accepted, e.entry < s.fresh ∧ e.messageHandle < s.fresh
  trace_below : ∀ ev ∈ s.trace, ev.Below s.fresh
  waiting_sublist : s.handleData.waitingToSend.Sublist s.accepted
  live_count : ∀ e, s.live.count e = if e ∈ s.accepted ∧ ¬s.Completed e then 1 else 0
  pending : ∀ e ∈ s.accepted, ¬s.Completed e →
    callbacksAt e.entry s.trace = [] ∧ s.trace.count (.messageDestroy e.messageHandle) = 0
  completed : ∀ e ∈ s.accepted, s.Completed e → ∃ r,
    callbacksAt e.entry s.trace = (e.callback.map fun fn => (fn, r, e.context)).toList ∧
      s.trace.count (.messageDestroy e.messageHandle) = 1 ∧ s.trace.count (.free e.entry) = 1

variable {s s' : System}

theorem Inv.entry_inj (hs : s.Inv) {x y : MessageList} (hx : x ∈ s.accepted)
    (hy : y ∈ s.accepted) (hxy : x.entry = y.entry) : x = y :=
  List.inj_on_of_nodup_map hs.sorted.nodup hx hy hxy

theorem Inv.handle_inj (hs : s.Inv) {x y : MessageList} (hx : x ∈ s.accepted)
    (hy : y ∈ s.accepted) (hxy : x.messageHandle = y.messageHandle) : x = y :=
  List.inj_on_of_nodup_map hs.handles_nodup hx hy hxy

theorem Inv.mem_live (hs : s.Inv) {x : MessageList} (hx : x ∈ s.live) :
    x ∈ s.accepted ∧ ¬s.Completed x := by
  have := List.count_pos_iff.mpr hx
  rw [hs.live_count] at this
  split_ifs at this with h
  exacts [h, absurd this (lt_irrefl 0)]

theorem Inv.live_nodup (hs : s.Inv) : s.live.Nodup :=
  List.nodup_iff_count_le_one.mpr fun e => by rw [hs.live_count]; split_ifs <;> simp

/-- With the queue empty, each accepted record has been confirmed once, with its own context,
its clone destroyed and the record freed, or is held by the transport. -/
theorem Inv.accepted_of_waitingToSend_nil (hs : s.Inv) (hw : s.handleData.waitingToSend = []) :
    ∀ e ∈ s.accepted, (∃ r, callbacksAt e.entry s.trace =
        (e.callback.map fun fn => (fn, r, e.context)).toList ∧
        s.trace.count (.messageDestroy e.messageHandle) = 1 ∧ s.trace.count (.free e.entry) = 1) ∨
      e ∈ s.inFlight.flatten := fun e he => by
  by_cases hce : s.Completed e
  · exact .inl (hs.completed e he hce)
  · have hc := hs.live_count e
    rw [if_pos ⟨he, hce⟩, live, hw, List.nil_append] at hc
    exact .inr (List.count_pos_iff.mp (hc ▸ Nat.one_pos))

/-- **A completion, seen from one accepted record**: it gains one confirmation, with the
step's status and its own context, one clone destruction and one free when it is among the
completed records `X`, and none otherwise. -/
theorem Inv.completes_record (hs : s.Inv) {X : List MessageList} {r : ConfirmationResult}
    (hc : Completes s X r s') {e : MessageList} (he : e ∈ s.accepted) :
    callbacksAt e.entry s'.trace = callbacksAt e.entry s.trace ++
        (if e ∈ X then (e.callback.map fun fn => (fn, r, e.context)).toList else []) ∧
      s'.trace.count (.messageDestroy e.messageHandle) =
        s.trace.count (.messageDestroy e.messageHandle) + (if e ∈ X then 1 else 0) ∧
      s'.trace.count (.free e.entry) = s.trace.count (.free e.entry) + (if e ∈ X then 1 else 0) := by
  obtain ⟨pre, post, htrace, hpre, hpost⟩ := hc.trace
  have hX : ∀ x ∈ X, x ∈ s.accepted := fun x hx =>
    (hs.mem_live (hc.live.symm.subset (List.mem_append_left _ hx))).1
  have hcnt : ∀ ev, ¬ev.Quiet → s'.trace.count ev =
      s.trace.count ev + (X.flatMap (complete r)).count ev := fun ev hev => by
    rw [htrace, List.count_append, count_quiet_append hev hpre hpost]
  rw [hcnt (.messageDestroy e.messageHandle) id, hcnt (.free e.entry) id, htrace,
    callbacksAt_append, callbacksAt_quiet_append hpre hpost]
  split_ifs with heX
  · have hXnd : X.Nodup := (List.nodup_append.mp (hc.live.nodup_iff.mp hs.live_nodup)).1
    obtain ⟨h₁, h₂, h₃⟩ := complete_flatMap_of_mem
      (hXnd.map_on fun x hx y hy => hs.entry_inj (hX x hx) (hX y hy))
      (hXnd.map_on fun x hx y hy => hs.handle_inj (hX x hx) (hX y hy)) heX
    rw [h₁, h₂, h₃]
    exact ⟨rfl, rfl, rfl⟩
  · -- the completed records are other records, at other addresses and with other clones
    have hne : ∀ x ∈ X, x.entry ≠ e.entry ∧ x.messageHandle ≠ e.messageHandle := fun x hx =>
      ⟨fun h => heX (hs.entry_inj (hX x hx) he h ▸ hx),
        fun h => heX (hs.handle_inj (hX x hx) he h ▸ hx)⟩
    refine ⟨by rw [callbacksAt_flatMap_complete_of_ne _ _ fun x hx => (hne x hx).1], ?_, ?_⟩
    · have hnm : e.messageHandle ∉ X.map (·.messageHandle) := by
        simpa using fun x hx => (hne x hx).2
      rw [count_messageDestroy_flatMap_complete, List.count_eq_zero.mpr hnm]
    · have hnm : e.entry ∉ X.map (·.entry) := by simpa using fun x hx => (hne x hx).1
      rw [count_free_flatMap_complete, List.count_eq_zero.mpr hnm]

theorem Inv.completes_completed (hs : s.Inv) {X : List MessageList} {r : ConfirmationResult}
    (hc : Completes s X r s') {e : MessageList} (he : e ∈ s.accepted) :
    s'.Completed e ↔ s.Completed e ∨ e ∈ X := by
  rw [Completed, Completed, ← List.count_pos_iff, ← List.count_pos_iff,
    (hs.completes_record hc he).2.2]
  split_ifs with heX <;> simp [heX]

/-- **Completing live records keeps the invariant.** -/
theorem Inv.of_completion (hs : s.Inv) {X : List MessageList} {r : ConfirmationResult}
    (hc : Completes s X r s') : s'.Inv := by
  have hX : ∀ x ∈ X, x ∈ s.accepted ∧ ¬s.Completed x := fun x hx =>
    hs.mem_live (hc.live.symm.subset (List.mem_append_left _ hx))
  have hXnd : X.Nodup := (List.nodup_append.mp (hc.live.nodup_iff.mp hs.live_nodup)).1
  have hacc := hc.accepted
  refine ⟨hacc ▸ hs.sorted, hacc ▸ hs.handles_nodup, hacc ▸ hc.fresh ▸ hs.accepted_lt, ?_,
    hacc ▸ hc.waitingToSend.trans hs.waiting_sublist, ?_, ?_, ?_⟩
  · -- trace_below
    obtain ⟨pre, post, htrace, hpre, hpost⟩ := hc.trace
    rw [htrace, hc.fresh]
    intro ev hev
    simp only [List.mem_append, List.mem_flatMap] at hev
    rcases hev with hev | (hev | ⟨x, hx, hev⟩) | hev
    exacts [hs.trace_below ev hev, (hpre ev hev).below _,
      below_complete (hs.accepted_lt x (hX x hx).1).1 (hs.accepted_lt x (hX x hx).1).2 ev hev,
      (hpost ev hev).below _]
  · -- live_count
    intro e
    have hcount := hc.live.count_eq e
    rw [List.count_append, hs.live_count] at hcount
    by_cases heX : e ∈ X
    · obtain ⟨he, hnc⟩ := hX e heX
      rw [List.count_eq_one_of_mem hXnd heX, if_pos ⟨he, hnc⟩] at hcount
      rw [hacc, if_neg fun h => h.2 ((hs.completes_completed hc he).mpr (Or.inr heX))]
      omega
    · rw [List.count_eq_zero.mpr heX, zero_add] at hcount
      rw [← hcount, hacc]
      by_cases he : e ∈ s.accepted
      · simp only [he, true_and, hs.completes_completed hc he, heX, or_false]
      · simp only [he, false_and]
  · -- pending
    intro e he hnc
    rw [hacc] at he
    obtain ⟨hnc, heX⟩ := not_or.mp ((hs.completes_completed hc he).not.mp hnc)
    obtain ⟨h₁, h₂, -⟩ := hs.completes_record hc he
    rw [h₁, h₂, if_neg heX, if_neg heX, List.append_nil, add_zero]
    exact hs.pending e he hnc
  · -- completed
    intro e he hce
    rw [hacc] at he
    obtain ⟨h₁, h₂, h₃⟩ := hs.completes_record hc he
    rw [h₁, h₂, h₃]
    rcases (hs.completes_completed hc he).mp hce with hce | heX
    · have heX : e ∉ X := fun heX => (hX e heX).2 hce
      simpa only [if_neg heX, List.append_nil, add_zero] using hs.completed e he hce
    · obtain ⟨h₄, h₅⟩ := hs.pending e he (hX e heX).2
      have h₆ : s.trace.count (.free e.entry) = 0 := List.count_eq_zero.mpr (hX e heX).2
      exact ⟨r, by rw [if_pos heX, h₄, List.nil_append], by rw [if_pos heX, h₅],
        by rw [if_pos heX, h₆]⟩

/-- A trace whose record effects are all below `n` says nothing about an address from `n` on. -/
theorem fresh_untouched {n m : ℕ} {t : List Effect} (ht : ∀ ev ∈ t, ev.Below n) (hm : n ≤ m) :
    callbacksAt m t = [] ∧ t.count (.messageDestroy m) = 0 ∧ t.count (.free m) = 0 := by
  refine ⟨?_, List.count_eq_zero.mpr fun hmem => absurd hm (not_le.mpr (ht _ hmem)),
    List.count_eq_zero.mpr fun hmem => absurd hm (not_le.mpr (ht _ hmem))⟩
  unfold callbacksAt
  rw [List.filterMap_eq_nil_iff]
  intro ev hev
  have hb := ht ev hev
  cases ev <;> first | rfl | exact if_neg (ne_of_lt (lt_of_lt_of_le hb hm))

theorem AcceptsAt.frame {e : MessageList} (ha : AcceptsAt s e s') :
    ∃ effs, s'.trace = s.trace ++ effs ∧ ∀ ev ∈ effs, ev.Frame s.fresh := by
  obtain ⟨effs, htrace, heffs⟩ := ha.trace
  exact ⟨effs, htrace, fun ev hev => .inl (heffs ev hev)⟩

theorem RefusesAt.frame (hr : RefusesAt s s') :
    ∃ effs, s'.trace = s.trace ++ effs ∧ ∀ ev ∈ effs, ev.Frame s.fresh := by
  obtain ⟨effs, htrace, heffs⟩ := hr.trace
  exact ⟨effs, htrace, fun ev hev => (heffs ev hev).imp_right fun ⟨p, h, hp, _⟩ => ⟨p, h, hp⟩⟩

/-- Effects that say nothing about the records below `fresh` say nothing about an accepted
record. -/
theorem Inv.trace_frame (hs : s.Inv) {effs : List Effect} (heffs : ∀ ev ∈ effs, ev.Frame s.fresh)
    {x : MessageList} (hx : x ∈ s.accepted) :
    callbacksAt x.entry (s.trace ++ effs) = callbacksAt x.entry s.trace ∧
      (s.trace ++ effs).count (.messageDestroy x.messageHandle) =
        s.trace.count (.messageDestroy x.messageHandle) ∧
      (s.trace ++ effs).count (.free x.entry) = s.trace.count (.free x.entry) := by
  have hlt := (hs.accepted_lt x hx).1
  refine ⟨?_, ?_, ?_⟩
  · rw [callbacksAt_append, List.append_right_eq_self]
    unfold callbacksAt
    rw [List.filterMap_eq_nil_iff]
    intro ev hev
    rcases heffs ev hev with hq | ⟨p, rfl, -⟩
    · cases ev <;> first | rfl | exact False.elim hq
    · rfl
  · have h0 : effs.count (.messageDestroy x.messageHandle) = 0 :=
      List.count_eq_zero.mpr fun hm => (heffs _ hm).elim id fun ⟨_, h, _⟩ => Effect.noConfusion h
    rw [List.count_append, h0, add_zero]
  · have h0 : effs.count (.free x.entry) = 0 :=
      List.count_eq_zero.mpr fun hm => (heffs _ hm).elim id fun ⟨_, h, hp⟩ =>
        absurd hlt (not_lt.mpr (Effect.free.inj h ▸ hp))
    rw [List.count_append, h0, add_zero]

theorem Inv.completed_iff_of_frame (hs : s.Inv) {effs : List Effect}
    (heffs : ∀ ev ∈ effs, ev.Frame s.fresh) {x : MessageList}
    (hx : x ∈ s.accepted) (htrace : s'.trace = s.trace ++ effs) :
    s'.Completed x ↔ s.Completed x := by
  rw [Completed, Completed, ← List.count_pos_iff, ← List.count_pos_iff, htrace,
    (hs.trace_frame heffs hx).2.2]

/-- What `pending` and `completed` say of an accepted record survives effects that say nothing
about it. -/
theorem Inv.records_frame (hs : s.Inv) {effs : List Effect}
    (heffs : ∀ ev ∈ effs, ev.Frame s.fresh) (htrace : s'.trace = s.trace ++ effs)
    {x : MessageList} (hx : x ∈ s.accepted) :
    (¬s'.Completed x → callbacksAt x.entry s'.trace = [] ∧
        s'.trace.count (.messageDestroy x.messageHandle) = 0) ∧
      (s'.Completed x → ∃ r,
        callbacksAt x.entry s'.trace = (x.callback.map fun fn => (fn, r, x.context)).toList ∧
          s'.trace.count (.messageDestroy x.messageHandle) = 1 ∧
          s'.trace.count (.free x.entry) = 1) := by
  have hiff := hs.completed_iff_of_frame heffs hx htrace
  obtain ⟨h₁, h₂, h₃⟩ := hs.trace_frame heffs hx
  rw [htrace, h₁, h₂, h₃]
  exact ⟨fun hnc => hs.pending x hx (hiff.not.mp hnc), fun hc => hs.completed x hx (hiff.mp hc)⟩

/-- A step that leaves the live records as they were and makes effects that say nothing about
the accepted records keeps `live_count`, `pending` and `completed`. -/
theorem Inv.of_frame (hs : s.Inv) {effs : List Effect} (heffs : ∀ ev ∈ effs, ev.Frame s.fresh)
    (htrace : s'.trace = s.trace ++ effs) (hacc : s'.accepted = s.accepted)
    (hlive : s'.live = s.live) :
    (∀ e, s'.live.count e = if e ∈ s'.accepted ∧ ¬s'.Completed e then 1 else 0) ∧
      (∀ e ∈ s'.accepted, ¬s'.Completed e →
        callbacksAt e.entry s'.trace = [] ∧ s'.trace.count (.messageDestroy e.messageHandle) = 0) ∧
      (∀ e ∈ s'.accepted, s'.Completed e → ∃ r,
        callbacksAt e.entry s'.trace = (e.callback.map fun fn => (fn, r, e.context)).toList ∧
          s'.trace.count (.messageDestroy e.messageHandle) = 1 ∧
          s'.trace.count (.free e.entry) = 1) := by
  refine ⟨fun x => ?_, hacc ▸ fun x hx => (hs.records_frame heffs htrace hx).1,
    hacc ▸ fun x hx => (hs.records_frame heffs htrace hx).2⟩
  rw [hlive, hs.live_count, hacc]
  by_cases hx : x ∈ s.accepted
  · simp [hx, hs.completed_iff_of_frame heffs hx htrace]
  · simp [hx]

/-- **A send that links a record at fresh addresses keeps the invariant.** -/
theorem Inv.acceptAt (hs : s.Inv) {e : MessageList} (ha : AcceptsAt s e s') : s'.Inv := by
  obtain ⟨⟨he, he'⟩, ⟨hh, hh'⟩, hw, hin, hacc, ⟨effs, htrace, heffs⟩⟩ := ha
  have hframe : ∀ ev ∈ effs, ev.Frame s.fresh := fun ev h => .inl (heffs ev h)
  have hnew : e ∉ s.accepted := fun h => absurd he (not_le.mpr (hs.accepted_lt e h).1)
  have hbelow : ∀ ev ∈ s'.trace, ev.Below s.fresh := by
    rw [htrace]
    intro ev hev
    rcases List.mem_append.mp hev with hev | hev
    exacts [hs.trace_below ev hev, (heffs ev hev).below _]
  obtain ⟨hcb, -, hfr⟩ := fresh_untouched hbelow he
  have hmd := (fresh_untouched hbelow hh).2.1
  have hnc : ¬s'.Completed e := fun h => by
    rw [Completed, ← List.count_pos_iff, hfr] at h
    exact lt_irrefl 0 h
  have hfresh : s.fresh ≤ s'.fresh := he.trans he'.le
  refine ⟨?_, ?_, ?_, fun ev hev => (hbelow ev hev).mono hfresh, ?_, ?_, ?_, ?_⟩
  · -- sorted
    rw [hacc, List.map_append, List.Sorted, List.pairwise_append]
    refine ⟨hs.sorted, List.pairwise_singleton _ _, ?_⟩
    simp only [List.mem_map, List.map_cons, List.map_nil, List.mem_singleton]
    rintro _ ⟨x, hx, rfl⟩ _ rfl
    exact lt_of_lt_of_le (hs.accepted_lt x hx).1 he
  · -- handles_nodup
    rw [hacc, List.map_append, List.nodup_append]
    refine ⟨hs.handles_nodup, List.nodup_singleton _, ?_⟩
    simp only [List.map_singleton, List.disjoint_singleton, List.mem_map, not_exists, not_and]
    exact fun x hx hxe => absurd hh (not_le.mpr (hxe ▸ (hs.accepted_lt x hx).2))
  · -- accepted_lt
    rw [hacc]
    intro x hx
    rcases List.mem_append.mp hx with hx | hx
    · exact ⟨lt_of_lt_of_le (hs.accepted_lt x hx).1 hfresh,
        lt_of_lt_of_le (hs.accepted_lt x hx).2 hfresh⟩
    · rw [List.mem_singleton.mp hx]
      exact ⟨he', hh'⟩
  · -- waiting_sublist
    rw [hw, hacc]
    exact hs.waiting_sublist.append (List.Sublist.refl _)
  · -- live_count
    intro x
    have hc : s'.live.count x = s.live.count x + [e].count x := by
      simp only [live, hw, hin, List.count_append]
      omega
    rw [hc, hs.live_count, hacc, List.count_singleton']
    by_cases hxe : x = e
    · subst hxe
      simp [hnew, hnc]
    · have hxe' : ¬e = x := fun h => hxe h.symm
      by_cases hx : x ∈ s.accepted
      · simp [hx, hxe, hxe', hs.completed_iff_of_frame hframe hx htrace]
      · simp [hx, hxe, hxe']
  · -- pending
    rw [hacc]
    intro x hx hnc'
    rcases List.mem_append.mp hx with hx | hx
    · exact (hs.records_frame hframe htrace hx).1 hnc'
    · rw [List.mem_singleton.mp hx]
      exact ⟨hcb, hmd⟩
  · -- completed
    rw [hacc]
    intro x hx hc
    rcases List.mem_append.mp hx with hx | hx
    · exact (hs.records_frame hframe htrace hx).2 hc
    · exact absurd (List.mem_singleton.mp hx ▸ hc) hnc

/-- **A send that links nothing keeps the invariant.** -/
theorem Inv.rejectAt (hs : s.Inv) (hr : RefusesAt s s') : s'.Inv := by
  obtain ⟨effs, htrace, hframe⟩ := hr.frame
  obtain ⟨hw, hin, hacc, ⟨effs', htrace', heffs⟩, hfresh⟩ := hr
  obtain rfl : effs' = effs := List.append_cancel_left (htrace'.symm.trans htrace)
  obtain ⟨hlc, hpend, hcomp⟩ := hs.of_frame hframe htrace hacc (by simp only [live, hw, hin])
  refine ⟨hacc ▸ hs.sorted, hacc ▸ hs.handles_nodup, ?_, ?_, hacc ▸ hw ▸ hs.waiting_sublist,
    hlc, hpend, hcomp⟩
  · rw [hacc]
    exact fun x hx => ⟨lt_of_lt_of_le (hs.accepted_lt x hx).1 hfresh,
      lt_of_lt_of_le (hs.accepted_lt x hx).2 hfresh⟩
  · rw [htrace]
    intro ev hev
    rcases List.mem_append.mp hev with hev | hev
    · exact (hs.trace_below ev hev).mono hfresh
    · rcases heffs ev hev with hq | ⟨p, rfl, -, hp⟩
      exacts [hq.below _, hp]

/-- **Every step keeps the invariant.** -/
theorem Inv.step (hs : s.Inv) {a : Action} (hstep : s.step a = some s') : s'.Inv := by
  rcases step_cases hstep with ⟨-, ⟨e, ha⟩ | hr⟩ | hc
  exacts [hs.acceptAt ha.toAt, hs.rejectAt hr.toAt, hs.of_completion hc]

/-! ## One step, seen from one record -/

/-- **One step, seen from an accepted record**: it gains a confirmation, with the step's
status and its own context, exactly when it is among the records the step completes; it is
completed after the step exactly when it was before or is among them. -/
theorem Inv.step_record (hs : s.Inv) {a : Action} (hstep : s.step a = some s')
    {e : MessageList} (he : e ∈ s.accepted) :
    callbacksAt e.entry s'.trace = callbacksAt e.entry s.trace ++
        (if e ∈ (s.completedBy a).1 then
          (e.callback.map fun fn => (fn, (s.completedBy a).2, e.context)).toList else []) ∧
      (s'.Completed e ↔ s.Completed e ∨ e ∈ (s.completedBy a).1) := by
  rcases step_cases hstep with ⟨hX, hsend⟩ | hc
  · obtain ⟨effs, htrace, hframe⟩ := hsend.elim (fun ⟨_, ha⟩ => ha.toAt.frame) fun hr => hr.toAt.frame
    simp only [hX, List.not_mem_nil, if_false, List.append_nil, or_false]
    exact ⟨by rw [htrace, (hs.trace_frame hframe he).1],
      hs.completed_iff_of_frame hframe he htrace⟩
  · exact ⟨(hs.completes_record hc he).1, hs.completes_completed hc he⟩

/-- **A record the transport holds** stays in the batches at every step but the
`SendComplete` of its batch, and only that step completes it: `DoWork` and `Destroy` complete
waiting records alone. -/
theorem Inv.inFlight_step (hs : s.Inv) {a : Action} (hstep : s.step a = some s')
    {e : MessageList} (he : e ∈ s.inFlight.flatten) :
    (e ∈ s'.inFlight.flatten ∧ e ∉ (s.completedBy a).1) ∨
      (∃ b result, a = .sendComplete b result) ∧ e ∈ (s.completedBy a).1 := by
  have hnw : e ∉ s.handleData.waitingToSend := fun hw =>
    List.disjoint_of_nodup_append hs.live_nodup hw he
  by_cases heX : e ∈ (s.completedBy a).1
  · refine .inr ⟨?_, heX⟩
    cases a with
    | sendComplete b result => exact ⟨b, result, rfl⟩
    | doWork tick =>
      rcases tick with _ | nowTick
      · simp [completedBy] at heX
      · exact absurd (List.mem_of_mem_filter heX) hnw
    | destroy => exact absurd heX hnw
    | _ => simp [completedBy] at heX
  · refine .inl ⟨?_, heX⟩
    rcases step_cases hstep with ⟨-, ⟨e', ha⟩ | hr⟩ | hc
    · exact ha.inFlight ▸ he
    · exact hr.inFlight ▸ he
    · have hlive : e ∈ s'.live :=
        (List.mem_append.mp (hc.live.subset (List.mem_append_right _ he))).resolve_left heX
      exact (List.mem_append.mp hlive).resolve_left fun hw => hnw (hc.waitingToSend.subset hw)

end System

theorem System.inv_init {h : HandleData} {effs : List Effect} (hw : h.waitingToSend = [])
    (heffs : ∀ ev ∈ effs, ev.Quiet) : (System.init h effs).Inv where
  sorted := List.sorted_nil
  handles_nodup := List.nodup_nil
  accepted_lt := by simp [System.init]
  trace_below := fun ev hev => (heffs ev hev).below _
  waiting_sublist := by simp [System.init, hw]
  live_count := by simp [System.init, System.live, hw]
  pending := by simp [System.init]
  completed := by simp [System.init]

theorem Reachable.inv {s : System} (hs : Reachable s) : s.Inv := by
  induction hs with
  | create hc => exact System.inv_init (create_quiet hc).1 (create_quiet hc).2
  | createWithTransport hc =>
    exact System.inv_init (createWithTransport_quiet hc).1 (createWithTransport_quiet hc).2
  | step _ _ hstep ih => exact ih.step hstep

/-- Once completed, a record stays completed and is never confirmed again. -/
theorem Reachable.completed_stable {s s' : System} (hs : Reachable s) {e : MessageList}
    (he : e ∈ s.accepted) (hc : s.Completed e) {actions : List Action}
    (hrun : s.run actions = some s') :
    s'.Completed e ∧ callbacksAt e.entry s'.trace = callbacksAt e.entry s.trace := by
  induction actions generalizing s with
  | nil =>
    obtain rfl := Option.some.inj hrun
    exact ⟨hc, rfl⟩
  | cons a actions ih =>
    obtain ⟨s₁, h₁, h₂⟩ := Option.bind_eq_some.mp hrun
    have heX : e ∉ (s.completedBy a).1 := fun heX =>
      (hs.inv.mem_live (System.completedBy_live h₁ e heX)).2 hc
    obtain ⟨hcb, hcomp⟩ := hs.inv.step_record h₁ he
    obtain ⟨hc', hcb'⟩ := ih (.step a hs h₁) ((System.accepted_prefix_step h₁).subset he)
      (hcomp.mpr (.inl hc)) h₂
    exact ⟨hc', by rw [hcb', hcb, if_neg heX, List.append_nil]⟩

/-! ## Results -/

/-- The record a `free` effect releases. -/
def Effect.freed : Effect → Option Ptr
  | .free p => some p
  | _ => none

theorem filterMap_freed_destroy (h : HandleData) :
    (destroy (some h)).filterMap Effect.freed = h.waitingToSend.map (·.entry) := by
  simp only [destroy, drain_eq, List.filterMap_cons, List.filterMap_append]
  have hcomplete : ∀ x : MessageList,
      (complete .becauseDestroy x).filterMap Effect.freed = [x.entry] := fun x => by
    unfold complete invoke
    rcases x.callback <;> rfl
  have hflat : ∀ l : List MessageList,
      (l.flatMap (complete .becauseDestroy)).filterMap Effect.freed = l.map (·.entry) := by
    intro l
    induction l with
    | nil => rfl
    | cons x l ih => rw [List.flatMap_cons, List.filterMap_append, hcomplete, ih]; rfl
  rw [hflat]
  split_ifs <;> simp [Effect.freed]

/-- **Each accepted message is delivered exactly once.** In every state a run reaches, every
record accepted with `IOTHUB_CLIENT_OK` is in exactly one place: once in `waitingToSend`,
once in one in-flight batch, or completed (freed). While it is pending its callback has not
been called and its clone not destroyed. Once completed, its callback, when not `NULL`, has
been called exactly once, with the context of its send and one status, and its clone has
been destroyed and the record freed exactly once. -/
theorem exactly_once {s : System} (hs : Reachable s) {e : MessageList} (he : e ∈ s.accepted) :
    s.handleData.waitingToSend.count e + (s.inFlight.map (List.count e)).sum +
        (if s.Completed e then 1 else 0) = 1 ∧
      (¬s.Completed e → callbacksAt e.entry s.trace = [] ∧
        s.trace.count (.messageDestroy e.messageHandle) = 0) ∧
      (s.Completed e → ∃ r, callbacksAt e.entry s.trace =
          (e.callback.map fun fn => (fn, r, e.context)).toList ∧
        s.trace.count (.messageDestroy e.messageHandle) = 1 ∧ s.trace.count (.free e.entry) = 1) := by
  have hi := hs.inv
  refine ⟨?_, hi.pending e he, hi.completed e he⟩
  have hc := hi.live_count e
  rw [System.live, List.count_append, List.count_flatten] at hc
  by_cases hcomp : s.Completed e <;> simp only [hcomp, he, true_and, not_true, not_false_eq_true,
    if_true, if_false] at hc ⊢ <;> omega

/-- A message sent with a callback, unlinked by the transport and reported as sent: it is
completed, and its callback was called once with `IOTHUB_CLIENT_CONFIRMATION_OK`. -/
theorem exactly_once_reported :
    let e : MessageList := ⟨0, 0, some 7, none, 0⟩
    let s : System := ⟨HandleData.initial 4 false 5 3, [], [e],
      [.tickcounterCreate 3, .transportCreate 4, .transportRegister 5, .malloc 0, .messageClone 0,
        .callback 0 7 .ok none, .messageDestroy 0, .free 0], 1, false⟩
    Reachable s ∧ e ∈ s.accepted ∧
      (s.handleData.waitingToSend.count e + (s.inFlight.map (List.count e)).sum +
          (if s.Completed e then 1 else 0) = 1 ∧
        (¬s.Completed e → callbacksAt e.entry s.trace = [] ∧
          s.trace.count (.messageDestroy e.messageHandle) = 0) ∧
        (s.Completed e → ∃ r, callbacksAt e.entry s.trace =
            (e.callback.map fun fn => (fn, r, e.context)).toList ∧
          s.trace.count (.messageDestroy e.messageHandle) = 1 ∧
          s.trace.count (.free e.entry) = 1)) := by
  intro e s
  have hs : Reachable s := .step (.sendComplete 0 .success) (.step (.detach 0 0)
    (.step (.sendEventAsync (some 9) (some 7) none true none true)
      (@Reachable.create (some ⟨some 1, none, none, none, none, none⟩)
        ⟨true, some 3, some 4, some 5⟩ _ _ rfl) rfl) rfl) rfl
  exact ⟨hs, by decide, exactly_once hs (by decide)⟩

/-- **The queue is a subsequence of the sends, in order.** In every state a run reaches,
the records of `waitingToSend` have strictly increasing addresses, and addresses are handed
out in the order of the `IoTHubClient_LL_SendEventAsync` calls, so no record is there twice
and they stand in the order of their accepting sends; the queue is a subsequence of the
accepted records. `IoTHubClient_LL_Destroy` frees them in that order. -/
theorem waitingToSend_fifo {s : System} (hs : Reachable s) :
    (s.handleData.waitingToSend.map (·.entry)).Sorted (· < ·) ∧
      s.handleData.waitingToSend.Sublist s.accepted ∧
      (destroy (some s.handleData)).filterMap Effect.freed =
        s.handleData.waitingToSend.map (·.entry) :=
  ⟨hs.inv.sorted.sublist (hs.inv.waiting_sublist.map _), hs.inv.waiting_sublist,
    filterMap_freed_destroy s.handleData⟩

/-- Two messages sent one after the other wait in send order. -/
theorem waitingToSend_fifo_two_sends :
    let s : System := ⟨{ HandleData.initial 4 false 5 3 with
        waitingToSend := [⟨0, 0, some 7, none, 0⟩, ⟨1, 1, none, none, 0⟩] }, [],
      [⟨0, 0, some 7, none, 0⟩, ⟨1, 1, none, none, 0⟩],
      [.tickcounterCreate 3, .transportCreate 4, .transportRegister 5, .malloc 0, .messageClone 0,
        .malloc 1, .messageClone 1], 2, false⟩
    Reachable s ∧
      ((s.handleData.waitingToSend.map (·.entry)).Sorted (· < ·) ∧
        s.handleData.waitingToSend.Sublist s.accepted ∧
        (destroy (some s.handleData)).filterMap Effect.freed =
          s.handleData.waitingToSend.map (·.entry)) := by
  intro s
  have hs : Reachable s := .step (.sendEventAsync (some 10) none none true none true)
    (.step (.sendEventAsync (some 9) (some 7) none true none true)
      (@Reachable.create (some ⟨some 1, none, none, none, none, none⟩)
        ⟨true, some 3, some 4, some 5⟩ _ _ rfl) rfl) rfl
  exact ⟨hs, waitingToSend_fifo hs⟩


/-- **The transport's records are confirmed by the transport.** From any reachable state, a
record the transport holds stays in the batches, unconfirmed, until the `SendComplete` that
reports its batch confirms it, once, with `IOTHUB_CLIENT_CONFIRMATION_OK` or `_ERROR`. No
`DoWork` times it out and no `Destroy` confirms it, whatever its expiry. -/
theorem inFlight_confirmed_by_report {s s' : System} (hs : Reachable s) {e : MessageList}
    (he : e ∈ s.inFlight.flatten) {actions : List Action} (hrun : s.run actions = some s') :
    (e ∈ s'.inFlight.flatten ∧ callbacksAt e.entry s'.trace = []) ∨
      ∃ r, (r = .ok ∨ r = .error) ∧ s'.Completed e ∧
        callbacksAt e.entry s'.trace = (e.callback.map fun fn => (fn, r, e.context)).toList := by
  induction actions generalizing s with
  | nil =>
    obtain rfl := Option.some.inj hrun
    obtain ⟨hacc, hnc⟩ := hs.inv.mem_live (List.mem_append_right _ he)
    exact .inl ⟨he, (hs.inv.pending e hacc hnc).1⟩
  | cons a actions ih =>
    obtain ⟨hacc, hnc⟩ := hs.inv.mem_live (List.mem_append_right _ he)
    obtain ⟨s₁, h₁, h₂⟩ := Option.bind_eq_some.mp hrun
    have hs₁ : Reachable s₁ := .step a hs h₁
    have hacc₁ := (System.accepted_prefix_step h₁).subset hacc
    obtain ⟨hcb, hcomp⟩ := hs.inv.step_record h₁ hacc
    rcases hs.inv.inFlight_step h₁ he with ⟨he₁, heX⟩ | ⟨⟨b, result, rfl⟩, heX⟩
    · exact ih hs₁ he₁ h₂
    · -- the report of its batch confirms it, and nothing after that does
      obtain ⟨hc', hcb'⟩ := hs₁.completed_stable hacc₁ (hcomp.mpr (.inr heX)) h₂
      refine .inr ⟨if result = .success then .ok else .error, by split_ifs <;> simp, hc', ?_⟩
      rw [hcb', hcb, if_pos heX, (hs.inv.pending e hacc hnc).1, List.nil_append]
      rfl

/-- A message sent while the timeout is `3` ms, at clock `0`, and unlinked by the transport:
a `DoWork` at clock `5`, past its expiry, leaves it in its batch, and the report confirms it
with `IOTHUB_CLIENT_CONFIRMATION_OK`. -/
theorem inFlight_confirmed_by_report_after_expiry :
    let e : MessageList := ⟨0, 0, some 7, none, 3⟩
    let h : HandleData := { HandleData.initial 4 false 5 3 with currentMessageTimeout := 3 }
    let pre : List Effect := [.tickcounterCreate 3, .transportCreate 4, .transportRegister 5,
      .malloc 0, .messageClone 0]
    let s : System := ⟨h, [[e]], [e], pre, 1, false⟩
    let s' : System := ⟨h, [], [e], pre ++ [.transportDoWork 4, .callback 0 7 .ok none,
      .messageDestroy 0, .free 0], 1, false⟩
    Reachable s ∧ e ∈ s.inFlight.flatten ∧
      s.run [.doWork (some 5), .sendComplete 0 .success] = some s' ∧
      ((e ∈ s'.inFlight.flatten ∧ callbacksAt e.entry s'.trace = []) ∨
        ∃ r, (r = .ok ∨ r = .error) ∧ s'.Completed e ∧
          callbacksAt e.entry s'.trace = (e.callback.map fun fn => (fn, r, e.context)).toList) := by
  intro e h pre s s'
  have hs : Reachable s := .step (.detach 0 0)
    (.step (.sendEventAsync (some 9) (some 7) none true (some 0) true)
      (.step (.setOption (some "messageTimeout".toList) (some 3) .ok)
        (@Reachable.create (some ⟨some 1, none, none, none, none, none⟩)
          ⟨true, some 3, some 4, some 5⟩ _ _ rfl) rfl) rfl) rfl
  have hrun : s.run [.doWork (some 5), .sendComplete 0 .success] = some s' := rfl
  exact ⟨hs, by decide, hrun, inFlight_confirmed_by_report hs (by decide) hrun⟩

end IoTHubClientLL
