import PaySystem.Foundations.FixedPoint
import PaySystem.Foundations.Table

/-!
# Rows and schemas

The `order` and `payment` tables and the schemas that guard them. Status and type columns are
strings, as in the database; the enumerations of the code are the values that it writes and compares
them with. The time stamps `created_at` and `updated_at`, which no service reads, are left out.
-/

namespace PaySystem

/-- `Numeric(10, 2)`. -/
abbrev Numeric := Fixed 2

/-- A point in time, in microseconds. -/
abbrev DateTime := ℤ

inductive OrderPaymentStatus
  | UNPAID
  | PAID
  | PARTIALLY_PAID
  deriving DecidableEq

def OrderPaymentStatus.value : OrderPaymentStatus → String
  | UNPAID => "unpaid"
  | PAID => "paid"
  | PARTIALLY_PAID => "partially paid"

inductive PaymentType
  | CASH
  | ACQUIRING
  deriving DecidableEq

def PaymentType.value : PaymentType → String
  | CASH => "cash"
  | ACQUIRING => "acquiring"

inductive OperationType
  | Deposit
  | Return
  deriving DecidableEq

def OperationType.value : OperationType → String
  | Deposit => "deposit"
  | Return => "return"

inductive PaymentStatus
  | Submitted
  | Processing
  | Completed
  | Rejected
  deriving DecidableEq

def PaymentStatus.value : PaymentStatus → String
  | Submitted => "submitted"
  | Processing => "processing"
  | Completed => "completed"
  | Rejected => "rejected"

/-- `PaymentStatus.__members__.values()`. -/
def PaymentStatus.members : List PaymentStatus := [Submitted, Processing, Completed, Rejected]

/-- `OrderORM`. -/
structure Order where
  id : ℕ
  userId : ℕ
  paymentStatus : String
  totalSum : Numeric
  deriving DecidableEq

/-- `PaymentORM`. -/
structure Payment where
  id : ℕ
  userId : ℕ
  orderId : ℕ
  paymentStatus : String
  paymentType : String
  operationType : String
  amount : Numeric
  bankPaymentId : Option String
  paidAt : Option DateTime
  deriving DecidableEq

instance : Keyed Order := ⟨Order.id⟩

instance : Keyed Payment := ⟨Payment.id⟩

@[simp] theorem key_order (o : Order) : Keyed.key o = o.id := rfl

@[simp] theorem key_payment (p : Payment) : Keyed.key p = p.id := rfl

namespace Payment

/-- The `CASE` of the balance sums: deposits count up, returns down, anything else not at all. -/
def signedAmount (p : Payment) : ℚ :=
  if p.operationType = OperationType.Deposit.value then p.amount.toRat
  else if p.operationType = OperationType.Return.value then -p.amount.toRat
  else 0

/-- The `WHERE` clause of `_get_payment_for_update`, apart from the id. -/
def isOpen (p : Payment) : Bool :=
  !([PaymentStatus.Completed.value, PaymentStatus.Rejected.value].contains p.paymentStatus) &&
    p.bankPaymentId.isSome

theorem isOpen_iff {p : Payment} : p.isOpen = true ↔
    p.paymentStatus ≠ PaymentStatus.Completed.value ∧
      p.paymentStatus ≠ PaymentStatus.Rejected.value ∧ p.bankPaymentId.isSome = true := by
  simp [isOpen, and_assoc]

/-- The `WHERE` clause of `enqueue_payment_status_checks_task`. -/
def needsCheck (p : Payment) : Bool :=
  !([PaymentStatus.Completed.value, PaymentStatus.Rejected.value].contains p.paymentStatus) &&
    p.bankPaymentId.isSome

/-- The row fits the widths of its columns: `String(20)`, `String(255)` and `Numeric(10, 2)`. -/
def fits (p : Payment) : Bool :=
  decide (p.paymentStatus.length ≤ 20) && decide (p.paymentType.length ≤ 20) &&
    decide (p.operationType.length ≤ 20) && decide (|p.amount.units| < 10 ^ 10) &&
    p.bankPaymentId.all fun b => decide (b.length ≤ 255)

end Payment

/-- `PaymentCreate`, the payload of both payment endpoints: a positive amount with at most ten
digits, two of them decimals. -/
structure PaymentCreate where
  orderId : ℕ
  amount : ℚ
  gt : 0 < amount
  decimalPlaces : Fixed.HasDecimals 2 amount
  maxDigits : amount < 10 ^ 8

/-- The validation of a payload. -/
def PaymentCreate.validate (orderId : ℕ) (amount : ℚ) : Option PaymentCreate :=
  if h : 0 < amount ∧ Fixed.HasDecimals 2 amount ∧ amount < 10 ^ 8 then
    some ⟨orderId, amount, h.1, h.2.1, h.2.2⟩
  else none

/-- The column keeps the amount of a valid payload. -/
theorem PaymentCreate.toRat_round (c : PaymentCreate) : (Fixed.round 2 c.amount).toRat = c.amount :=
  Fixed.toRat_round c.decimalPlaces

/-! ## The bank's answer about a payment -/

/-- JSON values, as `response.json()` returns them. -/
inductive Json
  | null
  | bool (b : Bool)
  | num (x : ℚ)
  | str (s : String)
  | arr (xs : List Json)
  | obj (items : List (String × Json))

/-- The items of a `dict`. -/
abbrev Dict := List (String × Json)

/-- `AcquiringPaymentInfo`. -/
structure AcquiringPaymentInfo where
  paymentId : String
  amount : ℚ
  status : String
  paidAt : DateTime
  deriving DecidableEq

/-- The parts of Pydantic that are not in the repository: which values it takes for a finite
decimal and for a time stamp, and as which. -/
structure Pydantic where
  decimal : Json → Option ℚ
  datetime : Json → Option DateTime

/-- The `str` fields take strings only. -/
def Json.asStr : Json → Option String
  | .str s => some s
  | _ => none

/-- `AcquiringPaymentInfo(**payment_info)`; `none` is the `ValidationError`. -/
def AcquiringPaymentInfo.validate (py : Pydantic) (d : Dict) : Option AcquiringPaymentInfo := do
  let paymentId ← (d.lookup "payment_id").bind Json.asStr
  let amount ← (d.lookup "amount").bind py.decimal
  let status ← (d.lookup "status").bind Json.asStr
  let paidAt ← (d.lookup "paid_at").bind py.datetime
  some ⟨paymentId, amount, status, paidAt⟩

end PaySystem
