import PaySystem.Services.PaymentService
import PaySystem.Services.StatusChecker

/-!
# `ReturnPaymentService`

The cash return of a user: admission against the completed payments under the lock of the order,
the row, and the new payment status of the order.
-/

namespace PaySystem

open Prog (send attempt)

/-- `_get_completed_balance`. -/
def getCompletedBalance (orderId : ℕ) : Tx ℚ := send (.selectBalance orderId .completed)

/-- The check of `create_return` that the amount is covered by completed payments. -/
def checkReturnAmount (amount completedBalance : ℚ) : Tx Unit :=
  if amount > completedBalance then .throw (.returnAmountExceedsBalance completedBalance)
  else pure ()

/-- The row of a new return, before the database gives it an id. -/
def completedReturn (userId orderId : ℕ) (amount : ℚ) (paidAt : DateTime) : Payment where
  id := 0
  userId := userId
  orderId := orderId
  paymentStatus := PaymentStatus.Completed.value
  paymentType := PaymentType.CASH.value
  operationType := OperationType.Return.value
  amount := Fixed.round 2 amount
  bankPaymentId := none
  paidAt := some paidAt

/-- `create_return`. -/
def createReturn (orderId userId : ℕ) (amount : ℚ) : Tx Payment := do
  let order ← getOrderForUpdate orderId
  checkOrderBelongsToUser order userId
  let completedBalance ← getCompletedBalance orderId
  checkReturnAmount amount completedBalance
  let paidAt ← send .now
  let payment := completedReturn userId orderId amount paidAt
  let id ← send (.insertPayment payment)
  let status ← getOrderPaymentStatus order
  flushOrder order status
  send .commit
  pure { payment with id := id }

end PaySystem
