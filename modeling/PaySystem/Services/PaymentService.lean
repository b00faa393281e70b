import PaySystem.Database.Postgres

/-!
# `PaymentService`

The deposit of a user through acquiring: admission under the lock of the order, the start of the
payment at the bank, the row, and the task that will check it.
-/

namespace PaySystem

open Prog (send attempt)

/-- `_get_order_for_update`, the same in the deposit and the return service. -/
def getOrderForUpdate (orderId : ℕ) : Tx Order := do
  match ← send (.selectOrderForUpdate orderId) with
  | none => .throw .orderNotFound
  | some order => pure order

/-- `_check_order_belongs_to_user`, the same in both services. -/
def checkOrderBelongsToUser (order : Order) (userId : ℕ) : Tx Unit :=
  if order.userId ≠ userId then .throw .forbiddenOrderAccess else pure ()

/-- `_get_current_order_balance`. -/
def getCurrentOrderBalance (orderId : ℕ) : Tx ℚ := send (.selectBalance orderId .nonRejected)

/-- `_check_amount`. -/
def checkAmount (newTotalPaidWithInProcess : ℚ) (order : Order) (currentOrderBalance : ℚ) :
    Tx Unit :=
  if newTotalPaidWithInProcess > order.totalSum.toRat then
    .throw (.overpayment (order.totalSum.toRat - currentOrderBalance))
  else pure ()

/-- The row of a new deposit, before the database gives it an id. -/
def submittedPayment (userId orderId : ℕ) (amount : ℚ) (paymentType bankPaymentId : String) :
    Payment where
  id := 0
  userId := userId
  orderId := orderId
  paymentStatus := PaymentStatus.Submitted.value
  paymentType := paymentType
  operationType := OperationType.Deposit.value
  amount := Fixed.round 2 amount
  bankPaymentId := some bankPaymentId
  paidAt := none

/-- `create_acquiring_payment`. The commit first sends the `INSERT` of the added row. -/
def createAcquiringPayment (orderId userId : ℕ) (amount : ℚ) (paymentType : String) :
    Tx Payment := do
  let order ← getOrderForUpdate orderId
  checkOrderBelongsToUser order userId
  let currentBalanceWithInProcess ← getCurrentOrderBalance orderId
  checkAmount (currentBalanceWithInProcess + amount) order currentBalanceWithInProcess
  let bankPaymentId ← send (.startPayment order.id amount)
  let payment := submittedPayment userId orderId amount paymentType bankPaymentId
  let id ← send (.insertPayment payment)
  send .commit
  send (.applyAsync id)
  pure { payment with id := id }

end PaySystem
