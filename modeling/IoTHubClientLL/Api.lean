import IoTHubClientLL.Types

/-!
# The public operations of `IoTHubClient_LL`

One definition per function of `iothub_client_ll.c`, except `DoTimeouts` and
`IoTHubClient_LL_DoWork` (`Scan.lean`) and `IoTHubClient_LL_CreateFromConnectionString`
(`ConnectionString.lean`). Each takes the instance as `Option HandleData` (`NULL` is
`none`) and returns its result, the instance afterwards, and the effects it performed.

The intrusive list of `doublylinkedlist.c` is used here through its list-level meaning
(`DList.insertTailList` appends, `DList.removeEntryList` unlinks one position, and
`DList_RemoveHeadList` is the split of a list into its head and tail): the records, in link
order, are what the client reads and writes.
-/

namespace IoTHubClientLL

/-! ## The doubly-linked list, at the level of its contents -/

namespace DList

variable {α : Type}

/-- `DList_InsertTailList`: link `e` just before the head, that is, last. -/
def insertTailList (l : List α) (e : α) : List α := l ++ [e]

/-- `DList_RemoveEntryList` of the record at position `i`. -/
def removeEntryList (l : List α) (i : ℕ) : List α := l.eraseIdx i

end DList

/-! ## Confirming a record -/

/-- Call the confirmation callback of `e`, when it is not `NULL`, with `result` and the
record's own context. -/
def invoke (result : ConfirmationResult) (e : MessageList) : List Effect :=
  match e.callback with
  | none => []
  | some fn => [.callback e.entry fn result e.context]

/-- What every removal path does with a record it has unlinked: invoke its callback, destroy
its message clone, free it. `DoTimeouts`, `IoTHubClient_LL_SendComplete` and the drain of
`IoTHubClient_LL_Destroy` each run these three lines. -/
def complete (result : ConfirmationResult) (e : MessageList) : List Effect :=
  invoke result e ++ [.messageDestroy e.messageHandle, .free e.entry]

/-- The loop `while ((oldest = DList_RemoveHeadList(l)) != l)` of
`IoTHubClient_LL_SendComplete` and `IoTHubClient_LL_Destroy`: it completes the head until
the list is empty, and returns the list it leaves and the effects. -/
def drain (result : ConfirmationResult) : List MessageList → List MessageList × List Effect
  | [] => ([], [])
  | oldest :: l =>
    let r := drain result l
    (r.1, complete result oldest ++ r.2)

/-! ## Sending -/

/-- `attach_ms_timesOutAfter`: the expiry of a record sent now, `none` when the clock that
it had to read failed. The sum is `uint64_t` arithmetic, so it wraps. -/
def attachMsTimesOutAfter (handleData : HandleData) (tick : Option UInt64) : Option UInt64 :=
  if handleData.currentMessageTimeout = 0 then some 0
  else tick.map (· + handleData.currentMessageTimeout)

/-- `IoTHubClient_LL_SendEventAsync`. -/
def sendEventAsync (iotHubClientHandle : Option HandleData)
    (eventMessageHandle : Option MessageHandle)
    (eventConfirmationCallback : Option ConfirmationCallback) (userContextCallback : Option Ptr)
    (env : SendEnv) : ClientResult × Option HandleData × List Effect :=
  match iotHubClientHandle, eventMessageHandle with
  | some handleData, some _ =>
    if eventConfirmationCallback.isNone ∧ userContextCallback.isSome then
      (.invalidArg, iotHubClientHandle, [])
    else
      match env.malloc with
      | none => (.error, iotHubClientHandle, [])
      | some newEntry =>
        match attachMsTimesOutAfter handleData env.tickcounterGetCurrentMs with
        | none => (.error, iotHubClientHandle, [.malloc newEntry, .free newEntry])
        | some msTimesOutAfter =>
          match env.ioTHubMessageClone with
          | none => (.error, iotHubClientHandle, [.malloc newEntry, .free newEntry])
          | some messageHandle =>
            (.ok, some { handleData with
                waitingToSend := DList.insertTailList handleData.waitingToSend
                  ⟨newEntry, messageHandle, eventConfirmationCallback, userContextCallback,
                    msTimesOutAfter⟩ },
              [.malloc newEntry, .messageClone messageHandle])
  | _, _ => (.invalidArg, iotHubClientHandle, [])

/-! ## Options and inbound messages -/

/-- `IoTHubClient_LL_SetOption`. `value` is the `uint64_t` the `const void*` points to;
`transportSetOption` is what the transport's `_SetOption` returns when it is called. -/
def setOption (iotHubClientHandle : Option HandleData) (optionName : Option (List Char))
    (value : Option UInt64) (transportSetOption : ClientResult) :
    ClientResult × Option HandleData × List Effect :=
  match iotHubClientHandle, optionName, value with
  | some handleData, some name, some v =>
    if name = "messageTimeout".toList then
      (.ok, some { handleData with currentMessageTimeout := v }, [])
    else
      (transportSetOption, iotHubClientHandle, [.transportSetOption handleData.transportHandle name])
  | _, _, _ => (.invalidArg, iotHubClientHandle, [])

/-- `IoTHubClient_LL_SetMessageCallback`; `subscribe` is what the transport's `_Subscribe`
returns when it is called. -/
def setMessageCallback (iotHubClientHandle : Option HandleData)
    (messageCallback : Option MessageCallbackAsync) (userContextCallback : Option Ptr)
    (subscribe : ℤ) : ClientResult × Option HandleData × List Effect :=
  match iotHubClientHandle with
  | none => (.invalidArg, none, [])
  | some handleData =>
    match messageCallback with
    | none =>
      (.ok, some { handleData with messageCallback := none, messageUserContextCallback := none },
        [.transportUnsubscribe handleData.deviceHandle])
    | some fn =>
      if subscribe = 0 then
        (.ok, some { handleData with
            messageCallback := some fn, messageUserContextCallback := userContextCallback },
          [.transportSubscribe handleData.deviceHandle])
      else
        (.error, some { handleData with messageCallback := none, messageUserContextCallback := none },
          [.transportSubscribe handleData.deviceHandle])

/-- `IoTHubClient_LL_MessageCallback`, the transport's entry for an inbound message.
`getTime` is what `get_time(NULL)` returns, `userResult` what the application's callback
returns when it is called. -/
def messageCallback (handle : Option HandleData) (message : MessageHandle) (getTime : ℤ)
    (userResult : MessageDispositionResult) :
    MessageDispositionResult × Option HandleData × List Effect :=
  match handle with
  | none => (.abandoned, none, [])
  | some handleData =>
    let handleData := { handleData with lastMessageReceiveTime := getTime }
    match handleData.messageCallback with
    | some fn =>
      (userResult, some handleData,
        [.messageCallback fn message handleData.messageUserContextCallback])
    | none => (.abandoned, some handleData, [])

/-- `IoTHubClient_LL_GetLastMessageReceiveTime`. The out-parameter is its pointee: `none` is
a `NULL` pointer, and the second component is the pointee after the call. -/
def getLastMessageReceiveTime (iotHubClientHandle : Option HandleData)
    (lastMessageReceiveTime : Option ℤ) : ClientResult × Option ℤ :=
  match iotHubClientHandle, lastMessageReceiveTime with
  | some handleData, some _ =>
    if handleData.lastMessageReceiveTime = INDEFINITE_TIME then
      (.indefiniteTime, lastMessageReceiveTime)
    else (.ok, some handleData.lastMessageReceiveTime)
  | _, _ => (.invalidArg, lastMessageReceiveTime)

/-- `IoTHubClient_LL_GetSendStatus`: a pass-through to the transport's `_GetSendStatus`,
whose answer is `transportGetSendStatus`. -/
def getSendStatus (iotHubClientHandle : Option HandleData) (iotHubClientStatus : Bool)
    (transportGetSendStatus : ClientResult) : ClientResult :=
  match iotHubClientHandle with
  | some _ => if iotHubClientStatus then transportGetSendStatus else .invalidArg
  | none => .invalidArg

/-! ## Completion and teardown -/

/-- `IoTHubClient_LL_SendComplete`: the transport hands back a batch it detached from
`waitingToSend`; every record of it is completed with one status. Returns the instance, the
batch list afterwards, and the effects. -/
def sendComplete (handle : Option HandleData) (completed : Option (List MessageList))
    (result : BatchStateResult) : Option HandleData × Option (List MessageList) × List Effect :=
  match handle, completed with
  | some _, some l =>
    let resultToBeCalled : ConfirmationResult :=
      if result = .success then .ok else .error
    let r := drain resultToBeCalled l
    (handle, some r.1, r.2)
  | _, _ => (handle, completed, [])

/-- `IoTHubClient_LL_Destroy`: unregister, destroy the transport unless it is shared, then
complete every record still waiting with `IOTHUB_CLIENT_CONFIRMATION_BECAUSE_DESTROY`. -/
def destroy : Option HandleData → List Effect
  | none => []
  | some handleData =>
    .transportUnregister handleData.deviceHandle ::
      ((if handleData.isSharedTransport = false then
          [.transportDestroy handleData.transportHandle] else []) ++
        (drain .becauseDestroy handleData.waitingToSend).2 ++
        [.tickcounterDestroy handleData.tickCounter])

/-! ## Creation -/

/-- `IOTHUB_CLIENT_CONFIG`, with each `const char*` as the characters it points to. -/
structure ClientConfig where
  /-- `IOTHUB_CLIENT_TRANSPORT_PROVIDER` -/
  protocol : Option Ptr
  deviceId : Option (List Char)
  deviceKey : Option (List Char)
  iotHubName : Option (List Char)
  iotHubSuffix : Option (List Char)
  protocolGatewayHostName : Option (List Char)
  deriving DecidableEq, Repr

/-- `IOTHUB_CLIENT_DEVICE_CONFIG`: a device on a transport the caller already created. -/
structure DeviceConfig where
  protocol : Option Ptr
  transportHandle : Option Ptr
  deviceId : Option (List Char)
  deviceKey : Option (List Char)
  deriving DecidableEq, Repr

/-- The answers of the services `IoTHubClient_LL_Create` consults, in order. -/
structure CreateEnv where
  /-- `malloc(sizeof(IOTHUB_CLIENT_LL_HANDLE_DATA))` succeeded -/
  malloc : Bool
  tickcounterCreate : Option Ptr
  /-- the transport's `_Create`; not consulted by `IoTHubClient_LL_CreateWithTransport` -/
  transportCreate : Option Ptr
  transportRegister : Option Ptr
  deriving DecidableEq, Repr

/-- The fields every successful creation sets: an empty queue, no inbound callback, no
message received yet, and messages that never time out (`SRS_IOTHUBCLIENT_LL_02_042`). -/
def HandleData.initial (transportHandle : Ptr) (isSharedTransport : Bool) (deviceHandle : Ptr)
    (tickCounter : Ptr) : HandleData where
  waitingToSend := []
  transportHandle := transportHandle
  isSharedTransport := isSharedTransport
  deviceHandle := deviceHandle
  messageCallback := none
  messageUserContextCallback := none
  lastMessageReceiveTime := INDEFINITE_TIME
  tickCounter := tickCounter
  currentMessageTimeout := 0

/-- `IoTHubClient_LL_Create`: each failed step releases what the steps before it acquired. -/
def create (config : Option ClientConfig) (env : CreateEnv) : Option HandleData × List Effect :=
  match config with
  | none => (none, [])
  | some config =>
    if config.protocol.isNone ∨ ¬env.malloc then (none, []) else
    match env.tickcounterCreate with
    | none => (none, [])
    | some tickCounter =>
      match env.transportCreate with
      | none => (none, [.tickcounterCreate tickCounter, .tickcounterDestroy tickCounter])
      | some transportHandle =>
        match env.transportRegister with
        | none =>
          (none, [.tickcounterCreate tickCounter, .transportCreate transportHandle,
            .transportDestroy transportHandle, .tickcounterDestroy tickCounter])
        | some deviceHandle =>
          (some (HandleData.initial transportHandle false deviceHandle tickCounter),
            [.tickcounterCreate tickCounter, .transportCreate transportHandle,
              .transportRegister deviceHandle])

/-- `IoTHubClient_LL_CreateWithTransport`: like `create`, but the transport is the caller's;
it is only registered against, and marked shared so that `destroy` leaves it alone. -/
def createWithTransport (config : Option DeviceConfig) (env : CreateEnv) :
    Option HandleData × List Effect :=
  match config with
  | none => (none, [])
  | some config =>
    match config.protocol, config.transportHandle with
    | some _, some transportHandle =>
      if ¬env.malloc then (none, []) else
      match env.tickcounterCreate with
      | none => (none, [])
      | some tickCounter =>
        match env.transportRegister with
        | none => (none, [.tickcounterCreate tickCounter, .tickcounterDestroy tickCounter])
        | some deviceHandle =>
          (some (HandleData.initial transportHandle true deviceHandle tickCounter),
            [.tickcounterCreate tickCounter, .transportRegister deviceHandle])
    | _, _ => (none, [])

end IoTHubClientLL
