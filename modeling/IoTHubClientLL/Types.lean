import Mathlib

/-!
# The data model of `iothub_client_ll.c`

The C types the lower layer of the IoT Hub client works with, as plain Lean data:

* the result enumerations (`IOTHUB_CLIENT_RESULT`, `IOTHUB_CLIENT_CONFIRMATION_RESULT`,
  `IOTHUB_BATCHSTATE_RESULT`, `IOTHUBMESSAGE_DISPOSITION_RESULT`);
* `IOTHUB_MESSAGE_LIST`, one queued outbound message, and `IOTHUB_CLIENT_LL_HANDLE_DATA`,
  the client instance. The intrusive `DLIST_ENTRY waitingToSend` is the list of records it
  threads, in link order;
* `Effect`, the calls the client makes outward (allocator, message clones, confirmation
  callbacks, transport). Every operation returns the effects it performed, in order, so that
  "invoked exactly once" and "released exactly once" are statements about these lists;
* the answers of the external services each operation consults (`malloc`, the tick counter,
  `IoTHubMessage_Clone`, the transport), passed in as data: the model is deterministic in
  them, and a theorem that quantifies over them covers every outcome.

Pointers are addresses (`Ptr`); a nullable pointer is an `Option`.
-/

namespace IoTHubClientLL

/-- An address: of an `IOTHUB_MESSAGE_LIST` record, a transport or device handle, a tick
counter, or a user context. -/
abbrev Ptr : Type := ℕ

/-- `IOTHUB_MESSAGE_HANDLE`: an opaque message handle. -/
abbrev MessageHandle : Type := ℕ

/-- `IOTHUB_CLIENT_EVENT_CONFIRMATION_CALLBACK`: which confirmation function is called. -/
abbrev ConfirmationCallback : Type := ℕ

/-- `IOTHUB_CLIENT_MESSAGE_CALLBACK_ASYNC`: which inbound-message function is called. -/
abbrev MessageCallbackAsync : Type := ℕ

/-- `IOTHUB_CLIENT_RESULT`. -/
inductive ClientResult where
  | ok
  | invalidArg
  | error
  | indefiniteTime
  deriving DecidableEq, Repr

/-- `IOTHUB_CLIENT_CONFIRMATION_RESULT`: the status a confirmation callback receives. -/
inductive ConfirmationResult where
  | ok
  | becauseDestroy
  | messageTimeout
  | error
  deriving DecidableEq, Repr

/-- `IOTHUB_BATCHSTATE_RESULT`: the outcome a transport reports for a whole batch. -/
inductive BatchStateResult where
  | success
  | failed
  deriving DecidableEq, Repr

/-- `IOTHUBMESSAGE_DISPOSITION_RESULT`: the application's verdict on an inbound message. -/
inductive MessageDispositionResult where
  | accepted
  | rejected
  | abandoned
  deriving DecidableEq, Repr

/-- `IOTHUB_MESSAGE_LIST`: one accepted outbound message waiting for its confirmation. -/
structure MessageList where
  /-- the record's address, which `containingRecord` recovers from its `entry` link -/
  entry : Ptr
  /-- the clone of the application's message, owned by the record -/
  messageHandle : MessageHandle
  /-- the confirmation callback, `NULL` when the application gave none -/
  callback : Option ConfirmationCallback
  /-- the user context handed back to the callback -/
  context : Option Ptr
  /-- absolute expiry in tick-counter milliseconds; `0` means never -/
  msTimesOutAfter : UInt64
  deriving DecidableEq, Repr

/-- `INDEFINITE_TIME`, `(time_t)(-1)`: no inbound message has been received. -/
def INDEFINITE_TIME : ℤ := -1

/-- `IOTHUB_CLIENT_LL_HANDLE_DATA`: the client instance. The transport's function table
(`TRANSPORT_PROVIDER_FIELDS`) is not data here: each transport call's answer is passed to the
operation that makes it. -/
structure HandleData where
  /-- the records linked on `waitingToSend`, from `Flink` of the head to its `Blink` -/
  waitingToSend : List MessageList
  transportHandle : Ptr
  isSharedTransport : Bool
  deviceHandle : Ptr
  messageCallback : Option MessageCallbackAsync
  messageUserContextCallback : Option Ptr
  /-- a `time_t`; `INDEFINITE_TIME` until the first inbound message -/
  lastMessageReceiveTime : ℤ
  tickCounter : Ptr
  /-- the timeout, in milliseconds, given to messages sent from now on; `0` disables it -/
  currentMessageTimeout : UInt64
  deriving DecidableEq, Repr

/-- A call the client makes outward, recorded in the order it is made. -/
inductive Effect where
  /-- `malloc` returned a new `IOTHUB_MESSAGE_LIST` record at this address -/
  | malloc (p : Ptr)
  /-- `free` of a message record -/
  | free (p : Ptr)
  /-- `IoTHubMessage_Clone` returned this new handle -/
  | messageClone (h : MessageHandle)
  /-- `IoTHubMessage_Destroy` -/
  | messageDestroy (h : MessageHandle)
  /-- the confirmation callback of the record at `entry` was called with `result, context` -/
  | callback (entry : Ptr) (fn : ConfirmationCallback) (result : ConfirmationResult)
      (context : Option Ptr)
  /-- the inbound-message callback was called with a message and the stored context -/
  | messageCallback (fn : MessageCallbackAsync) (message : MessageHandle) (context : Option Ptr)
  | tickcounterCreate (t : Ptr)
  | tickcounterDestroy (t : Ptr)
  | transportCreate (t : Ptr)
  | transportDestroy (t : Ptr)
  | transportRegister (d : Ptr)
  | transportUnregister (d : Ptr)
  | transportSubscribe (d : Ptr)
  | transportUnsubscribe (d : Ptr)
  | transportDoWork (t : Ptr)
  | transportSetOption (t : Ptr) (optionName : List Char)
  deriving DecidableEq, Repr

/-- The answers of the services `IoTHubClient_LL_SendEventAsync` consults, in the order it
consults them. Each `none` is that call's failure (`NULL`, or a nonzero return). -/
structure SendEnv where
  /-- `malloc(sizeof(IOTHUB_MESSAGE_LIST))` -/
  malloc : Option Ptr
  /-- `tickcounter_get_current_ms`; read only when the timeout is enabled -/
  tickcounterGetCurrentMs : Option UInt64
  /-- `IoTHubMessage_Clone` -/
  ioTHubMessageClone : Option MessageHandle
  deriving DecidableEq, Repr

end IoTHubClientLL
