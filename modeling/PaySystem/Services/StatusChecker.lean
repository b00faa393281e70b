import PaySystem.Database.Postgres

/-!
# `PaymentStatusChecker`

The worker's check of one payment: it locks the payment, asks the bank, and stores the answer. Only
the branch that completes the payment touches the order, through the relationship `payment.order`.
-/

namespace PaySystem

open Prog (send attempt)

/-- `_get_payment_for_update`. -/
def getPaymentForUpdate (paymentId : ℕ) : Tx (Option Payment) :=
  send (.selectPaymentForUpdate paymentId)

/-- `_check_payment_info`. -/
def checkPaymentInfo (py : Pydantic) (paymentInfo : Dict) : Tx AcquiringPaymentInfo :=
  match AcquiringPaymentInfo.validate py paymentInfo with
  | some info => pure info
  | none => .throw (.value "Invalid payment info")

/-- `_get_order_payment_status`. -/
def getOrderPaymentStatus (order : Order) : Tx String := do
  let totalSum ← send (.selectBalance order.id .completed)
  pure (orderPaymentStatus totalSum order.totalSum)

/-- The flush of a payment: the `UPDATE` of its changed attributes, if there are any. -/
def flushPayment (loaded payment : Payment) : Tx Unit :=
  if payment = loaded then pure ()
  else send (.updatePayment payment.id payment.paymentStatus payment.paidAt)

/-- The flush of an order whose status was assigned: an `UPDATE` if this changed it. -/
def flushOrder (order : Order) (status : String) : Tx Unit :=
  if status = order.paymentStatus then pure () else send (.updateOrder order.id status)

/-- The read of `payment.order`, and the autoflush of the assigned payment by the next `SELECT` of
the session: the lazy load, or, if the session has the order, the sum that follows. -/
def readOrder (loaded payment : Payment) : Tx (Option Order) := do
  match ← send (.identityMapGet payment.orderId) with
  | some order => do
    flushPayment loaded payment
    pure (some order)
  | none => do
    send .awaitOnly
    flushPayment loaded payment
    send (.selectOrder payment.orderId)

/-- The end of `check_and_update` for a payment that the bank reports as completed. -/
def completePayment (loaded payment : Payment) : Tx Unit := do
  match ← readOrder loaded payment with
  | none => .throw .attribute
  | some order => do
    let status ← getOrderPaymentStatus order
    flushOrder order status
    send .commit

/-- `check_and_update` from the bank's answer on. -/
def updateFromInfo (payment : Payment) (info : AcquiringPaymentInfo) : Tx Bool := do
  let newStatus := info.status
  if (PaymentStatus.members.map PaymentStatus.value).contains newStatus then
    if newStatus = PaymentStatus.Completed.value then do
      completePayment payment
        { payment with paymentStatus := newStatus, paidAt := some info.paidAt }
      pure true
    else do
      flushPayment payment { payment with paymentStatus := newStatus }
      send .commit
      pure (newStatus = PaymentStatus.Rejected.value)
  else pure false

/-- `check_and_update`. -/
def checkAndUpdate (py : Pydantic) (paymentId : ℕ) : Tx Bool := do
  match ← getPaymentForUpdate paymentId with
  | none => pure true
  | some payment => do
    match ← attempt (.checkPayment (payment.bankPaymentId.getD "")) with
    | .error (.acquiring .notFound) => pure false
    | .error (.acquiring .check) => pure false
    | .error e => .throw e
    | .ok paymentInfo => do
      let info ← checkPaymentInfo py paymentInfo
      updateFromInfo payment info

end PaySystem
