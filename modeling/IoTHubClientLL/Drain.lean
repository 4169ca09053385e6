import IoTHubClientLL.Api

/-!
# The drain loops of `IoTHubClient_LL_SendComplete` and `IoTHubClient_LL_Destroy`

Both pop the head of a list until `DList_RemoveHeadList` hands back the list head itself, and
complete each record they pop. `drain_eq` says what the loop computes for every list: it ends
with the list empty, and its effects are the completions of the records in list order.
-/

namespace IoTHubClientLL

@[simp] theorem drain_nil (result : ConfirmationResult) : drain result [] = ([], []) := rfl

@[simp] theorem drain_cons (result : ConfirmationResult) (e : MessageList)
    (l : List MessageList) :
    drain result (e :: l) = ((drain result l).1, complete result e ++ (drain result l).2) := rfl

/-- The loop ends with the list empty, having completed every record in order. -/
theorem drain_eq (result : ConfirmationResult) (l : List MessageList) :
    drain result l = ([], l.flatMap (complete result)) := by
  induction l with
  | nil => rfl
  | cons e l ih => simp [ih]

/-- What `complete` does to one record, call by call. -/
theorem complete_eq (result : ConfirmationResult) (e : MessageList) :
    complete result e =
      (e.callback.map fun fn => Effect.callback e.entry fn result e.context).toList ++
        [.messageDestroy e.messageHandle, .free e.entry] := by
  unfold complete invoke
  rcases e.callback <;> rfl

/-- **`IoTHubClient_LL_SendComplete` and the drain of `IoTHubClient_LL_Destroy`.** For every
instance and every batch `completed`: `SendComplete` returns the instance unchanged, leaves the
batch empty, and completes its records in list order, each once, with
`IOTHUB_CLIENT_CONFIRMATION_OK` when the batch succeeded and
`IOTHUB_CLIENT_CONFIRMATION_ERROR` otherwise: it calls a non-`NULL` callback with the record's
context, then destroys its clone and frees it. The drain of `Destroy` leaves `waitingToSend`
empty and completes its records in FIFO order with `IOTHUB_CLIENT_CONFIRMATION_BECAUSE_DESTROY`,
between the transport's teardown and the tick counter's. -/
theorem sendComplete_destroy_drain (handle : HandleData) (completed : List MessageList)
    (result : BatchStateResult) :
    let completeAll (r : ConfirmationResult) (l : List MessageList) : List Effect :=
      l.flatMap fun e => (e.callback.map fun fn => Effect.callback e.entry fn r e.context).toList ++
        [.messageDestroy e.messageHandle, .free e.entry]
    sendComplete (some handle) (some completed) result =
      (some handle, some [], completeAll (if result = .success then .ok else .error) completed) ∧
    drain .becauseDestroy handle.waitingToSend =
      ([], completeAll .becauseDestroy handle.waitingToSend) ∧
    destroy (some handle) = .transportUnregister handle.deviceHandle ::
      ((if handle.isSharedTransport = false then [.transportDestroy handle.transportHandle]
        else []) ++ completeAll .becauseDestroy handle.waitingToSend ++
        [.tickcounterDestroy handle.tickCounter]) := by
  intro completeAll
  have hall : ∀ r l, l.flatMap (complete r) = completeAll r l := fun r l =>
    congrArg l.flatMap (funext (complete_eq r))
  refine ⟨?_, ?_, ?_⟩ <;> simp [sendComplete, destroy, drain_eq, hall]

end IoTHubClientLL
