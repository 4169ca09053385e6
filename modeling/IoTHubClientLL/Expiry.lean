import IoTHubClientLL.System

/-!
# Expiry arithmetic

`attach_ms_timesOutAfter` stores the absolute expiry `t₀ + currentMessageTimeout` in a
`uint64_t`, and `DoTimeouts` evicts a record when `ms_timesOutAfter != 0 &&
ms_timesOutAfter < nowTick`. Over the naturals this is `timedOut_attach_iff`: a record sent
at `t₀` with a nonzero timeout `T` is evicted by a scan at `t ≥ t₀` exactly when
`t₀ + T < t`, or when `t₀ + T` exceeds `2^64`. In the second case the sum wraps to a value
below `t₀`, and the first scan evicts the record. A sum of exactly `2^64` wraps to `0`,
"never", which no 64-bit clock can tell from the true expiry.

The expiry is fixed at the send: a later `IoTHubClient_LL_SetOption` changes no queued
record (`setOption_quiet`). `messageTimeout_wrap_evicts_at_send` replays a run of the client
in which the wrap evicts a message at the clock reading it was sent at.
-/

namespace IoTHubClientLL

theorem attachMsTimesOutAfter_toNat {h : HandleData} {t₀ x : UInt64}
    (hx : attachMsTimesOutAfter h (some t₀) = some x) :
    x.toNat = if h.currentMessageTimeout = 0 then 0
      else (t₀.toNat + h.currentMessageTimeout.toNat) % 2 ^ 64 := by
  unfold attachMsTimesOutAfter at hx
  split_ifs at hx ⊢ with hT
  · cases hx; rfl
  · cases hx
    show (t₀ + h.currentMessageTimeout).toBitVec.toNat = _
    rw [UInt64.add_def, BitVec.toNat_add]
    rfl

theorem UInt64.ne_zero_iff_toNat {x : UInt64} : x ≠ 0 ↔ x.toNat ≠ 0 :=
  not_congr ⟨fun h => h ▸ rfl, fun h => UInt64.toNat.inj h⟩

/-- **When a record expires.** A record sent at clock `t₀` while the timeout is `T` is timed
out by a scan at any `t ≥ t₀` exactly when `T ≠ 0` and, over the naturals, either
`t₀ + T < t`, or `t₀ + T > 2^64`: then the stored sum has wrapped to below `t₀`. -/
theorem timedOut_attach_iff {h : HandleData} {t₀ t : UInt64} {e : MessageList}
    (he : attachMsTimesOutAfter h (some t₀) = some e.msTimesOutAfter) (ht : t₀ ≤ t) :
    timedOut t e = true ↔ h.currentMessageTimeout ≠ 0 ∧
      (t₀.toNat + h.currentMessageTimeout.toNat < t.toNat ∨
        2 ^ 64 < t₀.toNat + h.currentMessageTimeout.toNat) := by
  have hx := attachMsTimesOutAfter_toNat he
  have hlt : e.msTimesOutAfter < t ↔ e.msTimesOutAfter.toNat < t.toNat := UInt64.lt_def
  have hle : t₀.toNat ≤ t.toNat := UInt64.le_def.mp ht
  have h₀ := t₀.toNat_lt_size
  have h₁ := t.toNat_lt_size
  have hT := h.currentMessageTimeout.toNat_lt_size
  have hsz : UInt64.size = 2 ^ 64 := rfl
  rw [timedOut_iff, decide_eq_true_iff, UInt64.ne_zero_iff_toNat, hlt,
    UInt64.ne_zero_iff_toNat (x := h.currentMessageTimeout)]
  split_ifs at hx with hT0
  · simp [hx, hT0]
  · have hT0' : h.currentMessageTimeout.toNat ≠ 0 := UInt64.ne_zero_iff_toNat.mp hT0
    rw [hx]
    omega

/-- A message sent at `0` with a `1000` ms timeout is timed out by the scan at `1500`. -/
theorem timedOut_attach_iff_at_1500 :
    attachMsTimesOutAfter { HandleData.initial 4 false 5 3 with currentMessageTimeout := 1000 }
        (some 0) = some (⟨0, 0, none, none, 1000⟩ : MessageList).msTimesOutAfter ∧
      (0 : UInt64) ≤ 1500 ∧
      (timedOut 1500 ⟨0, 0, none, none, 1000⟩ = true ↔ (1000 : UInt64) ≠ 0 ∧
        ((0 : UInt64).toNat + (1000 : UInt64).toNat < (1500 : UInt64).toNat ∨
          2 ^ 64 < (0 : UInt64).toNat + (1000 : UInt64).toNat)) :=
  ⟨rfl, by decide, @timedOut_attach_iff { HandleData.initial 4 false 5 3 with
    currentMessageTimeout := 1000 } 0 1500 ⟨0, 0, none, none, 1000⟩ rfl (by decide)⟩

/-- **The expiry wraps.** A client whose timeout is set to `2^64 - 1` ms accepts a message
at clock `5`. `attach_ms_timesOutAfter` stores `5 + (2^64 - 1)` modulo `2^64`, that is `4`,
and the `IoTHubClient_LL_DoWork` at the same clock `5` times the message out, although over
the naturals it expires at `2^64 + 4`. -/
theorem messageTimeout_wrap_evicts_at_send :
    create (some ⟨some 1, none, none, none, none, none⟩) ⟨true, some 3, some 4, some 5⟩ =
        (some (HandleData.initial 4 false 5 3),
          [.tickcounterCreate 3, .transportCreate 4, .transportRegister 5]) ∧
      ((System.init (HandleData.initial 4 false 5 3)
          [.tickcounterCreate 3, .transportCreate 4, .transportRegister 5]).run
        [.setOption (some "messageTimeout".toList) (some 18446744073709551615) .ok,
          .sendEventAsync (some 9) (some 7) none true (some 5) true,
          .doWork (some 5)]).map (·.trace.drop 3) =
        some [.malloc 0, .messageClone 0, .callback 0 7 .messageTimeout none,
          .messageDestroy 0, .free 0, .transportDoWork 4] ∧
      ¬ (5 + (18446744073709551615 : UInt64).toNat < (5 : UInt64).toNat) :=
  ⟨rfl, rfl, by decide⟩

end IoTHubClientLL
