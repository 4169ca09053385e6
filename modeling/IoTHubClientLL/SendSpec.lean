import IoTHubClientLL.Api

/-!
# `IoTHubClient_LL_SendEventAsync` is all or nothing

The send makes three fallible calls in a row (`malloc`, the tick counter when the timeout
is on, `IoTHubMessage_Clone`) after checking its arguments. `sendEventAsync_ok_iff` says when
it succeeds, `sendEventAsync_of_ok` what it does then (one record, holding the clone, the
callback, the context and the expiry, is linked last), and `sendEventAsync_of_ne_ok` what it
does otherwise: the instance is untouched, no callback runs, and a record it allocated is
freed again. `sendEventAsync_atomic` puts the three together.
-/

namespace IoTHubClientLL

/-- The expiry is computed unless the timeout is on and the clock read fails. -/
theorem attachMsTimesOutAfter_isSome (h : HandleData) (tick : Option UInt64) :
    (attachMsTimesOutAfter h tick).isSome ↔ (h.currentMessageTimeout ≠ 0 → tick.isSome) := by
  unfold attachMsTimesOutAfter
  split_ifs with hT <;> simp [hT]

section

variable {handle : Option HandleData} {m : Option MessageHandle}
  {cb : Option ConfirmationCallback} {ctx : Option Ptr} {env : SendEnv}

/-- The send succeeds exactly when its arguments are valid and each call it makes succeeds. -/
theorem sendEventAsync_ok_iff :
    (sendEventAsync handle m cb ctx env).1 = .ok ↔
      ∃ h p t c, handle = some h ∧ m.isSome ∧ (cb.isSome ∨ ctx.isNone) ∧ env.malloc = some p ∧
        attachMsTimesOutAfter h env.tickcounterGetCurrentMs = some t ∧
        env.ioTHubMessageClone = some c := by
  unfold sendEventAsync
  rcases handle with _ | h <;> rcases m with _ | m <;> simp only [reduceCtorEq, false_iff,
    Option.isSome_none, Option.isSome_some, Bool.false_eq_true, false_and, and_false, exists_false,
    not_false_eq_true, Option.some.injEq, true_and, exists_and_left, exists_eq_left']
  rcases cb with _ | fn <;> rcases ctx with _ | c <;>
    rcases env with ⟨_ | p, tick, _ | cl⟩ <;>
    rcases ha : attachMsTimesOutAfter h tick with _ | t <;> simp [ha]

/-- **A successful send** links one new record last: at the address `malloc` returned, holding
the clone, the callback, the context and the expiry of `attach_ms_timesOutAfter`. -/
theorem sendEventAsync_of_ok (hok : (sendEventAsync handle m cb ctx env).1 = .ok) :
    ∃ h p t c, handle = some h ∧ env.malloc = some p ∧
      attachMsTimesOutAfter h env.tickcounterGetCurrentMs = some t ∧
      env.ioTHubMessageClone = some c ∧
      sendEventAsync handle m cb ctx env =
        (.ok, some { h with waitingToSend := h.waitingToSend ++ [⟨p, c, cb, ctx, t⟩] },
          [.malloc p, .messageClone c]) := by
  obtain ⟨h, p, t, c, rfl, hm, hcb, hp, ht, hc⟩ := sendEventAsync_ok_iff.mp hok
  refine ⟨h, p, t, c, rfl, hp, ht, hc, ?_⟩
  rcases m with _ | m
  · simp at hm
  have hv : cb = none → ctx = none := by
    rcases cb <;> rcases ctx <;> simp_all
  simpa [sendEventAsync, hp, ht, hc, DList.insertTailList] using hv

/-- **A failed send** leaves the instance as it was, calls no callback, and frees the record
it allocated, if any. -/
theorem sendEventAsync_of_ne_ok (hne : (sendEventAsync handle m cb ctx env).1 ≠ .ok) :
    (sendEventAsync handle m cb ctx env).2.1 = handle ∧
      ((sendEventAsync handle m cb ctx env).2.2 = [] ∨
        ∃ p, env.malloc = some p ∧ (sendEventAsync handle m cb ctx env).2.2 = [.malloc p, .free p]) := by
  revert hne
  unfold sendEventAsync
  rcases handle with _ | h <;> rcases m with _ | m <;> try simp
  split_ifs
  · simp
  rcases env with ⟨_ | p, tick, _ | cl⟩ <;> try simp
  all_goals rcases attachMsTimesOutAfter h tick with _ | t <;> simp

end

/-- **`IoTHubClient_LL_SendEventAsync` is atomic.** For every instance (or `NULL`), message,
callback and context, and every outcome of `malloc`, of the clock read (made only when the
timeout is on) and of `IoTHubMessage_Clone`: the send returns `IOTHUB_CLIENT_OK` exactly when
the arguments are valid and every call it makes succeeds; then the queue gains exactly one
record, last, holding the clone, the callback, the context and the expiry
`attach_ms_timesOutAfter` computed, and nothing else changes. Otherwise the instance is
unchanged, no callback is called, no clone is made, and a record it allocated is freed. -/
theorem sendEventAsync_atomic (handle : Option HandleData) (m : Option MessageHandle)
    (cb : Option ConfirmationCallback) (ctx : Option Ptr) (env : SendEnv) :
    let r := sendEventAsync handle m cb ctx env
    (r.1 = .ok ↔ (∃ h, handle = some h ∧
        (h.currentMessageTimeout ≠ 0 → env.tickcounterGetCurrentMs.isSome)) ∧
      m.isSome ∧ ¬(cb.isNone ∧ ctx.isSome) ∧ env.malloc.isSome ∧
      env.ioTHubMessageClone.isSome) ∧
    (r.1 = .ok → ∃ h p t c, handle = some h ∧ env.malloc = some p ∧
      attachMsTimesOutAfter h env.tickcounterGetCurrentMs = some t ∧
      env.ioTHubMessageClone = some c ∧
      r.2 = (some { h with waitingToSend := h.waitingToSend ++ [⟨p, c, cb, ctx, t⟩] },
        [.malloc p, .messageClone c])) ∧
    (r.1 ≠ .ok → r.2.1 = handle ∧ (r.2.2 = [] ∨ ∃ p, r.2.2 = [.malloc p, .free p])) := by
  refine ⟨?_, fun hok => ?_, fun hne => ?_⟩
  · rw [sendEventAsync_ok_iff]
    constructor
    · rintro ⟨h, p, t, c, rfl, hm, hcb, hp, ht, hc⟩
      refine ⟨⟨h, rfl, (attachMsTimesOutAfter_isSome h _).mp (by simp [ht])⟩, hm, ?_,
        by simp [hp], by simp [hc]⟩
      rcases cb <;> rcases ctx <;> simp_all
    · rintro ⟨⟨h, rfl, hT⟩, hm, hcb, hp, hc⟩
      obtain ⟨t, ht⟩ := Option.isSome_iff_exists.mp ((attachMsTimesOutAfter_isSome h _).mpr hT)
      obtain ⟨p, hp⟩ := Option.isSome_iff_exists.mp hp
      obtain ⟨c, hc⟩ := Option.isSome_iff_exists.mp hc
      refine ⟨h, p, t, c, rfl, hm, ?_, hp, ht, hc⟩
      rcases cb <;> rcases ctx <;> simp_all
  · obtain ⟨h, p, t, c, hh, hp, ht, hc, hr⟩ := sendEventAsync_of_ok hok
    exact ⟨h, p, t, c, hh, hp, ht, hc, by rw [hr]⟩
  · obtain ⟨h₁, h₂⟩ := sendEventAsync_of_ne_ok hne
    exact ⟨h₁, h₂.imp_right fun ⟨p, _, hp⟩ => ⟨p, hp⟩⟩

end IoTHubClientLL
