import PaySystem.Database.Balance
import PaySystem.Foundations.Program

/-!
# The systems around the services

The statements of the services and what they do: SQL on PostgreSQL at READ COMMITTED, the calls of
the bank's API, and the enqueuing of a task. A transaction sees what is committed when a statement
starts, and its own writes. `SELECT ... FOR UPDATE`, `UPDATE` and the foreign keys of an `INSERT`
take row locks, which are held until the transaction ends; a statement whose lock conflicts with one
of another transaction has to wait.
-/

namespace PaySystem

/-! ## Row locks -/

/-- Lockable rows. -/
inductive Row
  | order (id : ℕ)
  | payment (id : ℕ)
  | user (id : ℕ)
  deriving DecidableEq

/-- The lock modes in use: of foreign-key checks, of updates, and of `SELECT ... FOR UPDATE`. -/
inductive LockMode
  | keyShare
  | noKeyUpdate
  | update
  deriving DecidableEq

/-- Two transactions cannot hold the two modes on the same row. -/
def LockMode.conflicts : LockMode → LockMode → Bool
  | .update, _ => true
  | _, .update => true
  | .noKeyUpdate, .noKeyUpdate => true
  | _, _ => false

theorem LockMode.conflicts_comm (m n : LockMode) : m.conflicts n = n.conflicts m := by
  cases m <;> cases n <;> rfl

/-- A row lock held by the transaction `tx`. -/
structure Lock where
  tx : ℕ
  row : Row
  mode : LockMode
  deriving DecidableEq

/-! ## The world -/

/-- What a `SELECT` was about. -/
inductive ReadOf
  | order (orderId : ℕ)
  | balance (f : BalanceFilter) (orderId : ℕ)
  deriving DecidableEq

/-- A read of the running transaction `tx`. -/
structure Read where
  tx : ℕ
  what : ReadOf
  deriving DecidableEq

/-- A commit from `db` to `db'` leaves what was read as it was. -/
def ReadOf.unchanged : ReadOf → Db → Db → Prop
  | .order id, db, db' => db.orders.find? id = db'.orders.find? id
  | .balance f id, db, db' => db.balance f id = db'.balance f id

instance (r : ReadOf) (db db' : Db) : Decidable (r.unchanged db db') := by
  cases r <;> unfold ReadOf.unchanged <;> infer_instance

/-- A payment that the bank has started: its id there, and what it is for. -/
structure BankPayment where
  id : String
  orderId : ℕ
  amount : ℚ
  deriving DecidableEq

/-- The exceptions that leave the acquiring client. -/
inductive ClientErr
  /-- `AcquiringStartError`. -/
  | start
  /-- `AcquiringCheckError`. -/
  | check
  /-- `AcquiringPaymentNotFoundError`. -/
  | notFound
  | other (msg : String)
  deriving DecidableEq

/-- The exceptions of the services. -/
inductive Err
  | orderNotFound
  | forbiddenOrderAccess
  | overpayment (remainingAmount : ℚ)
  | returnAmountExceedsBalance (availableAmount : ℚ)
  | acquiring (e : ClientErr)
  /-- `ValueError`. -/
  | value (msg : String)
  /-- `AttributeError`. -/
  | attribute
  | missingGreenlet
  | database (msg : String)
  | broker (msg : String)
  deriving DecidableEq

/-- The state shared by all calls. `writes` are the flushed but uncommitted writes of each
transaction. The bank holds the payments in `bank`. Four fields record history: `reads` are the
reads of running transactions that no other transaction has changed since by a commit, `started` the
payments that running transactions have started at the bank, `answers` the bank's answers about
payments, and `queue` the payments whose checks have been enqueued, in this order and whether or not
a worker has taken them since. -/
structure World where
  db : Db
  paymentSeq : ℕ
  locks : List Lock
  writes : ℕ → List Write
  reads : List Read
  started : List (ℕ × BankPayment)
  bank : List BankPayment
  answers : List (String × Except ClientErr Dict)
  queue : List ℕ

/-- The part of an `AsyncSession` that the services depend on: the orders it has loaded. -/
structure Session where
  identityMap : List Order

/-- The session of a task or a request when it starts. -/
def Session.fresh : Session := ⟨[]⟩

/-- What happens at the bank and at the client when a payment is started. -/
inductive StartReply
  /-- The bank starts it and the client returns its id. -/
  | accepted (id : String)
  /-- The client raises; the bank has not started it. -/
  | refused (e : ClientErr)
  /-- The client raises although the bank has started it: a lost or unreadable response. -/
  | lost (e : ClientErr) (id : String)

/-- How the environment answers a statement. -/
structure Env where
  /-- The driver or the broker raises. -/
  failure : Option String
  start : StartReply
  check : Except ClientErr Dict
  /-- SQL may be sent by a plain attribute read. -/
  greenlet : Bool
  now : DateTime

namespace World

/-- What transaction `i` sees: the committed rows and its own writes. -/
def view (w : World) (i : ℕ) : Db := (w.writes i).foldl Db.apply w.db

/-- Transaction `i` may not have the lock `(row, mode)` now. -/
def blocked (w : World) (i : ℕ) (rq : Row × LockMode) : Bool :=
  w.locks.any fun l => decide (l.tx ≠ i ∧ l.row = rq.1) && l.mode.conflicts rq.2

/-- Give transaction `i` locks. -/
def acquire (w : World) (i : ℕ) (rqs : List (Row × LockMode)) : World :=
  { w with locks := w.locks ++ rqs.map fun rq => ⟨i, rq.1, rq.2⟩ }

/-- Record a read of transaction `i`. -/
def read (w : World) (i : ℕ) (r : ReadOf) : World := { w with reads := w.reads ++ [⟨i, r⟩] }

/-- Add a write of transaction `i`. -/
def write (w : World) (i : ℕ) (x : Write) : World :=
  { w with writes := Function.update w.writes i (w.writes i ++ [x]) }

/-- End transaction `i` without its writes: `ROLLBACK`, and the close of a session. -/
def close (i : ℕ) (w : World) : World :=
  { w with
    locks := w.locks.filter fun l => decide (l.tx ≠ i)
    writes := Function.update w.writes i []
    reads := w.reads.filter fun r => decide (r.tx ≠ i)
    started := w.started.filter fun x => decide (x.1 ≠ i) }

/-- The bank starts a payment for transaction `i`. -/
def start (w : World) (i : ℕ) (b : BankPayment) : World :=
  { w with bank := w.bank ++ [b], started := w.started ++ [(i, b)] }

/-- `COMMIT` of transaction `i`. The reads of others whose answer it changes are not current
any more. -/
def commit (w : World) (i : ℕ) : World :=
  { w.close i with
    db := w.view i
    reads := w.reads.filter fun r =>
      decide (r.tx ≠ i) && decide (r.what.unchanged w.db (w.view i)) }

/-- A world between calls: nothing is locked, written, read or started, and the sequence is ahead
of the ids in use. -/
structure AtRest (w : World) : Prop where
  locks : w.locks = []
  writes : ∀ i, w.writes i = []
  reads : w.reads = []
  started : w.started = []
  paymentId : ∀ p ∈ w.db.payments.rows, p.id < w.paymentSeq

end World

/-! ## Statements -/

/-- The statements of the services, by the type of their answer. -/
inductive Stmt : Type → Type
  /-- `select(OrderORM).where(id).with_for_update()`. -/
  | selectOrderForUpdate (orderId : ℕ) : Stmt (Option Order)
  /-- `select(PaymentORM).where(id, open).with_for_update()`. -/
  | selectPaymentForUpdate (paymentId : ℕ) : Stmt (Option Payment)
  /-- `select(PaymentORM.id).where(open)`. -/
  | selectPaymentIds : Stmt (List ℕ)
  /-- `select(OrderORM).where(id)`. -/
  | selectOrder (orderId : ℕ) : Stmt (Option Order)
  /-- The sum of the payments of an order that pass a filter. -/
  | selectBalance (orderId : ℕ) (f : BalanceFilter) : Stmt ℚ
  /-- `INSERT INTO payment ... RETURNING id`. -/
  | insertPayment (p : Payment) : Stmt ℕ
  | updatePayment (paymentId : ℕ) (status : String) (paidAt : Option DateTime) : Stmt Unit
  | updateOrder (orderId : ℕ) (status : String) : Stmt Unit
  | commit : Stmt Unit
  /-- Look for an order among the loaded objects of the session. -/
  | identityMapGet (orderId : ℕ) : Stmt (Option Order)
  /-- Leave a plain attribute read to send SQL. -/
  | awaitOnly : Stmt Unit
  /-- `acquiring_client.start_payment(...)`. -/
  | startPayment (orderId : ℕ) (amount : ℚ) : Stmt String
  /-- `acquiring_client.check_payment(...)`. -/
  | checkPayment (bankPaymentId : String) : Stmt Dict
  /-- `check_payment_status_task.apply_async(...)`. -/
  | applyAsync (paymentId : ℕ) : Stmt Unit
  /-- `datetime.now(UTC)`. -/
  | now : Stmt DateTime

/-- The locks that a statement takes. A locking `SELECT` locks the row that it returns. -/
def requests (w : World) {β : Type} : Stmt β → List (Row × LockMode)
  | .selectOrderForUpdate id =>
    if (w.db.orders.find? id).isSome then [(.order id, .update)] else []
  | .selectPaymentForUpdate id =>
    if (w.db.payments.find? id).any Payment.isOpen then [(.payment id, .update)] else []
  | .insertPayment p => [(.order p.orderId, .keyShare), (.user p.userId, .keyShare)]
  | .updatePayment id _ _ => [(.payment id, .noKeyUpdate)]
  | .updateOrder id _ => [(.order id, .noKeyUpdate)]
  | _ => []

/-- A SQL statement: the driver may raise; the statement waits for its locks; then it acts. -/
def sql {β : Type} (i : ℕ) (env : Env) (w : World) (σ : Session) (rqs : List (Row × LockMode))
    (act : World → Except Err β × World) : Option (Except Err β × World × Session) :=
  match env.failure with
  | some msg => some (.error (.database msg), w, σ)
  | none =>
    if rqs.any (w.blocked i) then none
    else some ((act (w.acquire i rqs)).1, (act (w.acquire i rqs)).2, σ)

/-- The row of an `INSERT`: its id is the next of the sequence, which no rollback takes back. The
inserting transaction holds the new row. -/
def World.insertPayment (i : ℕ) (p : Payment) (w : World) : Except Err ℕ × World :=
  let w' := { w with paymentSeq := w.paymentSeq + 1 }
  if p.fits && (w.db.orders.find? p.orderId).isSome then
    (.ok w.paymentSeq, (w'.acquire i [(.payment w.paymentSeq, .update)]).write i
      (.insertPayment { p with id := w.paymentSeq }))
  else (.error (.database "payment row rejected"), w')

/-- The meaning of the statements. -/
def execStmt (i : ℕ) (env : Env) (w : World) (σ : Session) {β : Type} :
    Stmt β → Option (Except Err β × World × Session)
  | .selectOrderForUpdate id => sql i env w σ (requests w (.selectOrderForUpdate id)) fun w =>
    (.ok ((w.view i).orders.find? id), w.read i (.order id))
  | .selectPaymentForUpdate id => sql i env w σ (requests w (.selectPaymentForUpdate id)) fun w =>
    (.ok (((w.view i).payments.find? id).filter Payment.isOpen), w)
  | .selectPaymentIds => sql i env w σ [] fun w =>
    (.ok (((w.view i).payments.rows.filter Payment.needsCheck).map Payment.id), w)
  | .selectOrder id => sql i env w σ [] fun w =>
    (.ok ((w.view i).orders.find? id), w.read i (.order id))
  | .selectBalance id f => sql i env w σ [] fun w =>
    (.ok ((w.view i).balance f id), w.read i (.balance f id))
  | .insertPayment p => sql i env w σ (requests w (.insertPayment p)) (World.insertPayment i p)
  | .updatePayment id st at' => sql i env w σ (requests w (.updatePayment id st at')) fun w =>
    (.ok (), w.write i (.updatePayment id st at'))
  | .updateOrder id st => sql i env w σ (requests w (.updateOrder id st)) fun w =>
    (.ok (), w.write i (.updateOrder id st))
  | .commit => sql i env w σ [] fun w => (.ok (), w.commit i)
  | .identityMapGet id => some (.ok (σ.identityMap.find? fun o => o.id = id), w, σ)
  | .awaitOnly => some (if env.greenlet then .ok () else .error .missingGreenlet, w, σ)
  | .startPayment orderId amount => match env.start with
    | .accepted id => some (.ok id, w.start i ⟨id, orderId, amount⟩, σ)
    | .refused e => some (.error (.acquiring e), w, σ)
    | .lost e id => some (.error (.acquiring e), w.start i ⟨id, orderId, amount⟩, σ)
  | .checkPayment b =>
    some (env.check.mapError .acquiring, { w with answers := w.answers ++ [(b, env.check)] }, σ)
  | .applyAsync id => match env.failure with
    | some msg => some (.error (.broker msg), w, σ)
    | none => some (.ok (), { w with queue := w.queue ++ [id] }, σ)
  | .now => some (.ok env.now, w, σ)

/-- The statements on this world. -/
def machine : Machine Stmt Err World Session Env where
  exec i env w σ s := execStmt i env w σ s
  close := World.close

/-- The programs of the services. -/
abbrev Tx := Prog Stmt Err

end PaySystem
