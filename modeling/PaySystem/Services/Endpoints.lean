import PaySystem.Foundations.FixedPoint
import PaySystem.Services.Tasks
import PaySystem.Clients.Acquiring

/-!
# What the payment endpoints answer

Each endpoint answers with the payment that its service returns, or turns an exception of the
service into a `HTTPException` with a status and a detail. Other exceptions leave the endpoint.
-/

namespace PaySystem

open Text

/-- How an endpoint ends. -/
inductive EndpointResult
  /-- `201 Created`. -/
  | created (p : Payment)
  | httpException (statusCode : ℕ) (detail : String)
  /-- An exception that the endpoint does not catch. -/
  | raised (e : Err)
  deriving DecidableEq

/-- `str` of a `Decimal` with two decimals. -/
def moneyText (a : Numeric) : String :=
  let units := a.units.natAbs
  (if a.units < 0 then "-" else "") ++ str (units / 100) ++ "." ++ str (units / 10 % 10) ++
    str (units % 10)

/-- The text of a completed balance, which is `Decimal(0)` when the sum is falsy. -/
def balanceText (x : ℚ) : String := if x = 0 then "0" else moneyText (Fixed.round 2 x)

/-- `create_acquiring_deposit_payment`, after the call of the service. -/
def depositResponse : Except Err Payment → EndpointResult
  | .ok p => .created p
  | .error .orderNotFound => .httpException 404 "Order not found"
  | .error (.overpayment remainingAmount) =>
    .httpException 400 ("Payment amount exceeds remaining order amount. " ++
      "Remaining amount: " ++ moneyText (Fixed.round 2 remainingAmount))
  | .error .forbiddenOrderAccess => .httpException 403 "You cannot pay for this order"
  | .error (.acquiring .start) => .httpException 503 "Please try again later"
  | .error e => .raised e

/-- `create_return_payment`, after the call of the service. -/
def returnResponse : Except Err Payment → EndpointResult
  | .ok p => .created p
  | .error .orderNotFound => .httpException 404 "Order not found"
  | .error (.returnAmountExceedsBalance availableAmount) =>
    .httpException 400 ("Return amount exceeds available balance. " ++
      "Available amount: " ++ balanceText availableAmount)
  | .error .forbiddenOrderAccess => .httpException 403 "You cannot create return for this order"
  | .error e => .raised e

/-- The deposit endpoint answers with a payment exactly if the service returns it. -/
theorem depositResponse_created_iff {r : Except Err Payment} {p : Payment} :
    depositResponse r = .created p ↔ r = .ok p := by
  unfold depositResponse
  split <;> simp

/-- The same of the return endpoint. -/
theorem returnResponse_created_iff {r : Except Err Payment} {p : Payment} :
    returnResponse r = .created p ↔ r = .ok p := by
  unfold returnResponse
  split <;> simp

end PaySystem
