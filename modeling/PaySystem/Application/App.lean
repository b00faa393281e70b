import PaySystem.Auth.Revocation
import PaySystem.Foundations.Automaton
import PaySystem.Services.Tasks

/-!
# The application

The API, the workers and the scheduler around the services. A payment endpoint starts its service
only for the user of a valid access token and with a valid payload; the scheduler starts the
periodic task; what the services enqueue becomes a message of the broker, a worker takes a message
and starts a check, and a check that is not final asks Celery for a retry. Celery and its broker are
not in the repository: how the retries of a message are counted is a parameter (`Celery`), and
messages may be lost, and delivered again, at any time.

The application is an automaton over the system of the services: `App.sends` are the events of this
system in an event of the application.
-/

namespace PaySystem

/-! ## Messages -/

/-- `max_retries` of `check_payment_status_task`. -/
def maxRetries : ℕ := 10

/-- A message for `check_payment_status_task`: its argument, and how often it was retried. -/
structure TaskMessage where
  paymentId : ℕ
  retries : ℕ
  le_maxRetries : retries ≤ maxRetries
  deriving DecidableEq

/-- The message of `apply_async(args=(payment_id,))`. -/
def TaskMessage.first (paymentId : ℕ) : TaskMessage := ⟨paymentId, 0, Nat.zero_le _⟩

/-- Celery's `self.retry`: the message that it sends for another run of the task, with one retry
more, unless the retries are used up. -/
structure Celery where
  retry : TaskMessage → Option TaskMessage
  paymentId_retry : ∀ m m', retry m = some m' → m'.paymentId = m.paymentId
  retries_retry : ∀ m m', retry m = some m' → m'.retries = m.retries + 1
  retries_of_none : ∀ m, retry m = none → m.retries = maxRetries

/-! ## Requests -/

/-- The payment endpoints. -/
inductive PaymentEndpoint
  /-- `POST /payments/deposit/acquiring`. -/
  | createAcquiringDepositPayment
  /-- `POST /payments/return`. -/
  | createReturnPayment
  deriving DecidableEq

theorem acquiring_mem : PaymentType.ACQUIRING.value ∈ endpointTypes := rfl

/-- The service call of the endpoint. -/
def PaymentEndpoint.call (user : User) (payload : PaymentCreate) :
    PaymentEndpoint → Call endpointTypes
  | createAcquiringDepositPayment =>
    .deposit user.id payload ⟨PaymentType.ACQUIRING.value, acquiring_mem⟩
  | createReturnPayment => .cashReturn user.id payload

/-- A request to a payment endpoint. -/
structure PaymentRequest (Token : Type) where
  endpoint : PaymentEndpoint
  bearer : Option Token
  orderId : ℕ
  amount : ℚ

variable {Token : Type}

/-- The call that a request starts, unless it is refused: the bearer token has to be one of an
active user, and the payload has to be valid. -/
def PaymentRequest.call [DecidableEq Token] (jwt : Jwt Token) (settings : Settings)
    (db : AuthDb Token) (now : DateTime) (r : PaymentRequest Token) :
    Option (Call endpointTypes) := do
  let token ← r.bearer
  let user ← (getJwtStrategy settings).currentUser jwt db now token
  let payload ← PaymentCreate.validate r.orderId r.amount
  some (r.endpoint.call user payload)

/-! ## The application -/

/-- The state of the application: the tables of the users and of the blacklist, the service calls
in flight and their world, the messages at the broker, and the tasks in flight, by their threads.
`givenUp` is history: the payments whose checks have used up their retries. -/
structure App (Token : Type) where
  auth : AuthDb Token
  calls : Config Stmt Err Outcome World Session
  messages : List TaskMessage
  tasks : List (ℕ × TaskMessage)
  givenUp : List ℕ

/-- What happens in the application. -/
inductive AppEvent (Token : Type)
  /-- A request to a token endpoint, or a change of the users. -/
  | auth (e : AuthEvent Token)
  /-- A request to a payment endpoint, handled in thread `i`. The authentication and the start of
  the call are one event: the start touches no table, so whatever comes between the two may as well
  come before the first statement of the call. -/
  | post (i : ℕ) (now : DateTime) (r : PaymentRequest Token)
  /-- The scheduler starts `enqueue_payment_status_checks_task`. -/
  | beat (i : ℕ)
  /-- A worker takes a message and starts `check_payment_status_task`. -/
  | deliver (i : ℕ) (m : TaskMessage)
  /-- The broker will deliver a message again. -/
  | redeliver (m : TaskMessage)
  /-- The broker loses a message. -/
  | lose (m : TaskMessage)
  /-- A call in flight takes its next step, which the environment answers as `env` says. -/
  | run (i : ℕ) (env : Env)
  /-- A call in flight dies. -/
  | abort (i : ℕ)

/-- The parameters of the application. -/
structure Deployment (Token : Type) where
  py : Pydantic
  jwt : Jwt Token
  settings : Settings
  celery : Celery

namespace App

variable (d : Deployment Token)

/-- The services of the application. -/
abbrev services : System Stmt Err Outcome World Session Env (Call endpointTypes) :=
  paySystem endpointTypes d.py

/-- The messages for what has been enqueued since the world was `w`. -/
def enqueued (w w' : World) : List TaskMessage :=
  (w'.queue.drop w.queue.length).map TaskMessage.first

/-- The result of the check in a task. -/
def checkResult : Except Err Outcome → Except Err Bool
  | .ok (.final isFinal) => .ok isFinal
  | .ok _ => .ok true
  | .error e => .error e

/-- The end of the task for the message `m`, whose check has the result `r`. The retry is a message
to the broker, which may refuse it. -/
def endTask (env : Env) (r : Except Err Outcome) (m : TaskMessage) (app : App Token) : App Token :=
  match checkPaymentStatusTask (checkResult r) with
  | .done => app
  | .retry _ => match d.celery.retry m with
    | none => { app with givenUp := app.givenUp ++ [m.paymentId] }
    | some m' => match env.failure with
      | some _ => app
      | none => { app with messages := app.messages ++ [m'] }

/-- Thread `i` has no task any more. -/
def release (i : ℕ) (app : App Token) : App Token :=
  { app with tasks := app.tasks.filter fun x => decide (x.1 ≠ i) }

/-- The task of thread `i`, if it has one, ends with the result `r`. -/
def finish (env : Env) (i : ℕ) (r : Except Err Outcome) (app : App Token) : App Token :=
  match app.tasks.lookup i with
  | none => app
  | some m => (app.endTask d env r m).release i

variable [DecidableEq Token] (app : App Token)

/-- What an event of the application is for the services. -/
def sends : AppEvent Token → List (Event (Call endpointTypes) Env)
  | .auth _ => []
  | .post i now r => ((r.call d.jwt d.settings app.auth now).map (Event.spawn i)).toList
  | .beat i => [.spawn i .enqueue]
  | .deliver i m => [.spawn i (.check m.paymentId)]
  | .redeliver _ => []
  | .lose _ => []
  | .run i env => [.run i env]
  | .abort i => [.abort i]

/-- What an event changes besides the services. -/
def update (app' : App Token) : AppEvent Token → App Token
  | .auth e => { app' with auth := app'.auth.next d.jwt d.settings e }
  | .post _ _ _ => app'
  | .beat _ => app'
  | .deliver i m => { app' with messages := app'.messages.erase m, tasks := (i, m) :: app'.tasks }
  | .redeliver m => { app' with messages := app'.messages ++ [m] }
  | .lose m => { app' with messages := app'.messages.erase m }
  | .run i env => match System.ended app.calls (.run i env : Event (Call endpointTypes) Env) with
    | none => app'
    | some r => app'.finish d env i r
  | .abort i => app'.release i

omit [DecidableEq Token] in
/-- The event is possible: only a message that the broker has is delivered or lost, and only what
was enqueued is delivered again. -/
def possible : AppEvent Token → Bool
  | .deliver _ m => decide (m ∈ app.messages)
  | .redeliver m => decide (m.paymentId ∈ app.calls.world.queue)
  | .lose m => decide (m ∈ app.messages)
  | _ => true

/-- The application. -/
def step : Automaton (App Token) (AppEvent Token) := fun app e =>
  if app.possible e then
    ((services d).run System.anyStep app.calls (app.sends d e)).map fun calls =>
      app.update d
        { app with
          calls := calls
          messages := app.messages ++ enqueued app.calls.world calls.world } e
  else none

end App

/-! ## A small instance -/

/-- Retries are counted up to their maximum. -/
def Celery.counting : Celery where
  retry m := if h : m.retries < maxRetries then some ⟨m.paymentId, m.retries + 1, h⟩ else none
  paymentId_retry m m' h := by
    split_ifs at h
    obtain rfl := Option.some.inj h
    rfl
  retries_retry m m' h := by
    split_ifs at h
    obtain rfl := Option.some.inj h
    rfl
  retries_of_none m h := by
    split_ifs at h with hlt
    exact m.le_maxRetries.antisymm (not_lt.1 hlt)

def sampleDeployment : Deployment (Option Claims) := ⟨.numbers, .plain, {}, .counting⟩

/-- An unpaid order of user 7. -/
def sampleApp : App (Option Claims) :=
  ⟨⟨sampleUsers, []⟩, ⟨sampleWorld, fun _ => none⟩, [], [], []⟩

/-- A request of user 7 for a deposit of half of the order, with the access token of a login in the
first second. -/
def samplePost : PaymentRequest (Option Claims) :=
  ⟨.createAcquiringDepositPayment, some (some ⟨7, ["fastapi-users:auth"], 1800⟩), 1, 30⟩

/-- User 7 logs in and makes the deposit. -/
def sampleDepositEvents : List (AppEvent (Option Claims)) :=
  [.auth (.request ⟨100000, 100000⟩ (.login 7)), .post 0 200000 samplePost] ++
    List.replicate 7 (.run 0 (sampleEnv "a" ""))

/-- A worker takes the task of the deposit, and the bank is still at it; then a worker takes the
retry, and the deposit is completed. -/
def sampleRetryEvents : List (AppEvent (Option Claims)) :=
  sampleDepositEvents ++ .deliver 1 (TaskMessage.first 1) ::
      List.replicate 5 (.run 1 (sampleEnv "a" PaymentStatus.Processing.value)) ++
    .deliver 2 ⟨1, 1, by decide⟩ ::
      List.replicate 10 (.run 2 (sampleEnv "a" PaymentStatus.Completed.value))

end PaySystem
