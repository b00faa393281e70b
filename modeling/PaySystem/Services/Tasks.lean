import PaySystem.Foundations.RelyGuarantee
import PaySystem.Services.PaymentService
import PaySystem.Services.ReturnService
import PaySystem.Services.StatusChecker

/-!
# Endpoints, tasks and the system of all of them

The endpoints call the services with validated payloads, a task of the queue checks one payment, and
a periodic task enqueues a check for every open payment. The system runs any number of these calls
at a time. A check may be started at any moment and any number of times, so that every delivery,
retry and duplicate of the queue is covered.
-/

namespace PaySystem

open Prog (send)

/-- `create_acquiring_deposit_payment`, with the payment type that the endpoint passes. -/
def createAcquiringDepositPayment (payload : PaymentCreate) (userId : ℕ) : Tx Payment :=
  createAcquiringPayment payload.orderId userId payload.amount PaymentType.ACQUIRING.value

/-- `create_return_payment`. -/
def createReturnPayment (payload : PaymentCreate) (userId : ℕ) : Tx Payment :=
  createReturn payload.orderId userId payload.amount

/-- The loop of `enqueue_payment_status_checks_task`. -/
def applyAsyncAll : List ℕ → Tx Unit
  | [] => pure ()
  | paymentId :: paymentIds => do
    send (.applyAsync paymentId)
    applyAsyncAll paymentIds

/-- `enqueue_payment_status_checks_task`. -/
def enqueuePaymentStatusChecks : Tx Unit := do
  let paymentIds ← send .selectPaymentIds
  applyAsyncAll paymentIds

/-- How a run of a task ends: it returns, or asks the worker for another run. -/
inductive TaskResult
  | done
  | retry (countdown : ℕ)
  deriving DecidableEq

/-- `check_payment_status_task` from the end of its check on. -/
def checkPaymentStatusTask : Except Err Bool → TaskResult
  | .error _ => .retry 30
  | .ok isFinal => if !isFinal then .retry 30 else .done

/-- The calls of the services; deposits are made with payment types from `types`. -/
inductive Call (types : Set String)
  | deposit (userId : ℕ) (payload : PaymentCreate) (paymentType : types)
  | cashReturn (userId : ℕ) (payload : PaymentCreate)
  | check (paymentId : ℕ)
  | enqueue

/-- What the calls return. -/
inductive Outcome
  | payment (p : Payment)
  | final (isFinal : Bool)
  | done

/-- The program of a call. -/
def Call.body {types : Set String} (py : Pydantic) : Call types → Tx Outcome
  | deposit userId payload paymentType => do
    let p ← createAcquiringPayment payload.orderId userId payload.amount paymentType
    pure (.payment p)
  | cashReturn userId payload => do
    let p ← createReturnPayment payload userId
    pure (.payment p)
  | check paymentId => do
    let isFinal ← checkAndUpdate py paymentId
    pure (.final isFinal)
  | enqueue => do
    enqueuePaymentStatusChecks
    pure .done

/-- The services over the database, the bank and the queue. -/
def paySystem (types : Set String) (py : Pydantic) :
    System Stmt Err Outcome World Session Env (Call types) where
  toMachine := machine
  body := Call.body py
  fresh := Session.fresh

/-- The calls that the endpoints and tasks make: deposits are acquiring payments. -/
abbrev endpointTypes : Set String := {PaymentType.ACQUIRING.value}

/-- The endpoint makes one of these calls. -/
theorem createAcquiringDepositPayment_eq (py : Pydantic) (payload : PaymentCreate) (userId : ℕ) :
    (Call.deposit userId payload ⟨_, rfl⟩ : Call endpointTypes).body py =
      (createAcquiringDepositPayment payload userId).bind fun p => .pure (.payment p) := rfl

/-! ## A small instance -/

/-- Decimals and time stamps that are JSON numbers, the latter in seconds. -/
def Pydantic.numbers : Pydantic where
  decimal
    | .num x => some x
    | _ => none
  datetime
    | .num x => some ⌊x * 10 ^ 6⌋
    | _ => none

/-- An unpaid order of 60.00 of user 7. -/
def sampleOrder : Order := ⟨1, 7, OrderPaymentStatus.UNPAID.value, ⟨6000⟩⟩

/-- A world with this order, and nothing else yet. -/
def sampleWorld : World where
  db := ⟨Table.empty.insert sampleOrder, Table.empty⟩
  paymentSeq := 1
  locks := []
  writes := fun _ => []
  reads := []
  started := []
  bank := []
  answers := []
  queue := []

theorem sampleWorld_atRest : sampleWorld.AtRest where
  locks := rfl
  writes _ := rfl
  reads := rfl
  started := rfl
  paymentId _ hp := nomatch hp

/-- A payload for this order. -/
def samplePayload (amount : ℚ) (gt : 0 < amount) (decimalPlaces : Fixed.HasDecimals 2 amount)
    (maxDigits : amount < 10 ^ 8) : PaymentCreate :=
  ⟨1, amount, gt, decimalPlaces, maxDigits⟩

/-- Half of the order. -/
def sampleHalf : PaymentCreate :=
  samplePayload 30 (by decide +kernel) (by decide +kernel) (by decide +kernel)

/-- The world after a deposit of half of the order, which the bank started as `a`. -/
def sampleDeposited : World :=
  { sampleWorld with
    db := sampleWorld.db.apply (.insertPayment
      { submittedPayment 7 1 30 PaymentType.ACQUIRING.value "a" with id := 1 })
    paymentSeq := 2
    bank := [⟨"a", 1, 30⟩]
    queue := [1] }

theorem sampleDeposited_atRest : sampleDeposited.AtRest where
  locks := rfl
  writes _ := rfl
  reads := rfl
  started := rfl
  paymentId := by decide +kernel

/-- Nothing fails; the bank starts payments as `bankId` and reports `status`. -/
def sampleEnv (bankId status : String) : Env where
  failure := none
  start := .accepted bankId
  check := .ok [("payment_id", .str bankId), ("amount", .num 30), ("status", .str status),
    ("paid_at", .num 0)]
  greenlet := true
  now := 0

end PaySystem
