import IoTHubClientLL.Api

/-!
# `DoTimeouts` and `IoTHubClient_LL_DoWork`

The timeout scan walks `waitingToSend` from its first record back to the head. The cursor
`currentItemInWaitingToSend` is `some i` for the record at position `i` and `none` for the
head; a position past the end is the head as well. A record is expired when its expiry is
nonzero and strictly below the clock read at the start of the scan. An expired record is
unlinked, its callback runs, its clone is destroyed and it is freed, and the scan resumes at
`theNext`, the pointer saved before all that: the record that followed it (which sits at
position `i` once it is unlinked), or the head.

A confirmation callback is application code, and it may call back into the same instance.
`Reentry` lists the calls it can make (`IoTHubClient_LL_SendEventAsync`,
`IoTHubClient_LL_SetOption`), and the scan takes, as `app`, the calls the callback of each
record makes. With a callback that makes no calls (`noReentry`) the scan is the one the
client's own invariants are about.

The scan is a `while` loop whose length the callbacks can extend, so it runs on `fuel`;
`none` means the fuel ran out.
-/

namespace IoTHubClientLL

/-- A call a confirmation callback makes back into the instance while it runs. -/
inductive Reentry where
  | sendEventAsync (eventMessageHandle : Option MessageHandle)
      (eventConfirmationCallback : Option ConfirmationCallback) (userContextCallback : Option Ptr)
      (env : SendEnv)
  | setOption (optionName : Option (List Char)) (value : Option UInt64)
      (transportSetOption : ClientResult)
  deriving DecidableEq, Repr

/-- Make one re-entrant call on a live instance. -/
def Reentry.run (handleData : HandleData) : Reentry → HandleData × List Effect
  | .sendEventAsync m cb ctx env =>
    let r := IoTHubClientLL.sendEventAsync (some handleData) m cb ctx env
    (r.2.1.getD handleData, r.2.2)
  | .setOption name value t =>
    let r := IoTHubClientLL.setOption (some handleData) name value t
    (r.2.1.getD handleData, r.2.2)

/-- Make a callback's calls in order. -/
def runReentries (handleData : HandleData) : List Reentry → HandleData × List Effect
  | [] => (handleData, [])
  | call :: calls =>
    let r₁ := call.run handleData
    let r₂ := runReentries r₁.1 calls
    (r₂.1, r₁.2 ++ r₂.2)

/-- Callbacks that never call back into the client. -/
def noReentry : MessageList → List Reentry := fun _ => []

/-- Call the confirmation callback of `e`, if it is not `NULL`, with `result`; while it runs it
makes the calls `app e`. -/
def confirm (app : MessageList → List Reentry) (result : ConfirmationResult) (e : MessageList)
    (handleData : HandleData) : HandleData × List Effect :=
  match e.callback with
  | none => (handleData, [])
  | some fn =>
    let r := runReentries handleData (app e)
    (r.1, .callback e.entry fn result e.context :: r.2)

/-- The expiry test of `DoTimeouts`: `ms_timesOutAfter != 0 && ms_timesOutAfter < nowTick`. -/
def timedOut (nowTick : UInt64) (e : MessageList) : Bool :=
  e.msTimesOutAfter != 0 && decide (e.msTimesOutAfter < nowTick)

/-- The `while` loop of `DoTimeouts`, from the cursor `currentItemInWaitingToSend`. -/
def doTimeoutsLoop (app : MessageList → List Reentry) (nowTick : UInt64) :
    ℕ → Option ℕ → HandleData → List Effect → Option (HandleData × List Effect)
  | 0, _, _, _ => none
  | _ + 1, none, handleData, out => some (handleData, out)
  | fuel + 1, some i, handleData, out =>
    match handleData.waitingToSend[i]? with
    | none => some (handleData, out)
    | some fullEntry =>
      if timedOut nowTick fullEntry then
        let theNext := if i + 1 < handleData.waitingToSend.length then some i else none
        let r := confirm app .messageTimeout fullEntry
          { handleData with
            waitingToSend := DList.removeEntryList handleData.waitingToSend i }
        doTimeoutsLoop app nowTick fuel theNext r.1
          (out ++ r.2 ++ [.messageDestroy fullEntry.messageHandle, .free fullEntry.entry])
      else doTimeoutsLoop app nowTick fuel (some (i + 1)) handleData out

/-- `DoTimeouts`. `tick` is what `tickcounter_get_current_ms` returns; when it fails, the scan
is skipped. The cursor starts at `waitingToSend.Flink`: the first record, or the head. -/
def doTimeouts (app : MessageList → List Reentry) (fuel : ℕ) (tick : Option UInt64)
    (handleData : HandleData) : Option (HandleData × List Effect) :=
  match tick with
  | none => some (handleData, [])
  | some nowTick => doTimeoutsLoop app nowTick fuel (some 0) handleData []

/-- `IoTHubClient_LL_DoWork`: the timeout scan, then the transport's `_DoWork`. -/
def doWork (app : MessageList → List Reentry) (fuel : ℕ) (iotHubClientHandle : Option HandleData)
    (tick : Option UInt64) : Option (Option HandleData × List Effect) :=
  match iotHubClientHandle with
  | none => some (none, [])
  | some handleData =>
    (doTimeouts app fuel tick handleData).map fun r =>
      (some r.1, r.2 ++ [.transportDoWork r.1.transportHandle])

end IoTHubClientLL
