import PaySystem.Ledger.Change
import PaySystem.Sequential.Statements

/-!
# The services alone

All the ways in which a call can end that runs alone: one constructor for each exit of the service,
with the rows, the bank payments and the queue that it leaves. The `n`-th statement is answered by
`env n`; an exit says by which answers it was taken.
-/

namespace PaySystem

open Prog Machine

variable {i : ℕ} {env : ℕ → Env} {w w' : World} {σ : Session} {payload : PaymentCreate}
  {userId : ℕ} {paymentType : String} {order : Order}

/-- The caller's order, as both services load it. -/
structure OwnOrder (db : Db) (orderId userId : ℕ) (order : Order) : Prop where
  find : db.orders.find? orderId = some order
  owner : order.userId = userId

theorem OwnOrder.id {db : Db} {orderId : ℕ} (h : OwnOrder db orderId userId order) :
    order.id = orderId :=
  Table.key_of_find? h.find

theorem OwnOrder.row {db : Db} {orderId : ℕ} (h : OwnOrder db orderId userId order) :
    db.orders.find? order.id = some order :=
  Table.find?_key (Table.mem_of_find? h.find)

/-! ## Rows that fit -/

/-- The amount of a payload fits into its column. -/
theorem PaymentCreate.units_lt (c : PaymentCreate) :
    |(Fixed.round 2 c.amount).units| < 10 ^ 10 := by
  have hround : ((Fixed.round 2 c.amount).units : ℚ) / 10 ^ 2 = c.amount := c.toRat_round
  have hlt := c.maxDigits
  have hpos := c.gt
  rw [← hround] at hlt hpos
  rw [abs_lt]
  have h₁ : ((Fixed.round 2 c.amount).units : ℚ) < 10 ^ 10 := by linarith
  have h₂ : (0 : ℚ) < (Fixed.round 2 c.amount).units := by linarith
  have h₃ : (0 : ℤ) < (Fixed.round 2 c.amount).units := by exact_mod_cast h₂
  exact ⟨by omega, by exact_mod_cast h₁⟩

theorem completedReturn_fits (payload : PaymentCreate) (userId : ℕ) (paidAt : DateTime) :
    (completedReturn userId payload.orderId payload.amount paidAt).fits = true := by
  rw [Payment.fits, Bool.and_eq_true, Bool.and_eq_true, Bool.and_eq_true, Bool.and_eq_true]
  have hstatus : decide (PaymentStatus.Completed.value.length ≤ 20) = true := by decide
  have htype : decide (PaymentType.CASH.value.length ≤ 20) = true := by decide
  have hop : decide (OperationType.Return.value.length ≤ 20) = true := by decide
  exact ⟨⟨⟨⟨hstatus, htype⟩, hop⟩, decide_eq_true payload.units_lt⟩, rfl⟩

theorem submittedPayment_fits (payload : PaymentCreate) (userId : ℕ) {b : String}
    (hb : b.length ≤ 255) (hpt : paymentType.length ≤ 20) :
    (submittedPayment userId payload.orderId payload.amount paymentType b).fits = true := by
  rw [Payment.fits, Bool.and_eq_true, Bool.and_eq_true, Bool.and_eq_true, Bool.and_eq_true]
  have hstatus : decide (PaymentStatus.Submitted.value.length ≤ 20) = true := by decide
  have hop : decide (OperationType.Deposit.value.length ≤ 20) = true := by decide
  exact ⟨⟨⟨⟨hstatus, decide_eq_true hpt⟩, hop⟩, decide_eq_true payload.units_lt⟩,
    decide_eq_true hb⟩

/-! ## Deposits -/

/-- The row of a deposit with its id. -/
def newDeposit (payload : PaymentCreate) (userId : ℕ) (paymentType bankPaymentId : String)
    (id : ℕ) : Payment :=
  { submittedPayment userId payload.orderId payload.amount paymentType bankPaymentId with id := id }

/-- The bank payment of a deposit. -/
def bankDeposit (payload : PaymentCreate) (bankPaymentId : String) : BankPayment :=
  ⟨bankPaymentId, payload.orderId, payload.amount⟩

/-- The admission check of a deposit. -/
def DepositFits (db : Db) (payload : PaymentCreate) (order : Order) : Prop :=
  db.balance .nonRejected payload.orderId + payload.amount ≤ order.totalSum.toRat

/-- How a deposit can end that runs alone from `w`. -/
inductive DepositOutcome (env : ℕ → Env) (i : ℕ) (w : World) (payload : PaymentCreate)
    (userId : ℕ) (paymentType : String) : Except Err Payment → World → Prop
  /-- The database fails before the bank is asked. -/
  | failed {w' : World} (msg : String)
      (hfail : (env 0).failure = some msg ∨ (env 1).failure = some msg)
      (left : Alone i w.db [] w.bank w.queue w') :
      DepositOutcome env i w payload userId paymentType (.error (.database msg)) w'
  | notFound {w' : World} (h : w.db.orders.find? payload.orderId = none)
      (left : Alone i w.db [] w.bank w.queue w') :
      DepositOutcome env i w payload userId paymentType (.error .orderNotFound) w'
  | forbidden {w' : World} (order : Order) (find : w.db.orders.find? payload.orderId = some order)
      (h : order.userId ≠ userId) (left : Alone i w.db [] w.bank w.queue w') :
      DepositOutcome env i w payload userId paymentType (.error .forbiddenOrderAccess) w'
  | overpayment {w' : World} (order : Order) (own : OwnOrder w.db payload.orderId userId order)
      (h : ¬ DepositFits w.db payload order) (left : Alone i w.db [] w.bank w.queue w') :
      DepositOutcome env i w payload userId paymentType (.error (.overpayment
        (order.totalSum.toRat - w.db.balance .nonRejected payload.orderId))) w'
  /-- `start_payment` raises, and the bank has not started the payment. -/
  | refused {w' : World} (e : ClientErr) (hstart : (env 2).start = .refused e)
      (left : Alone i w.db [] w.bank w.queue w') :
      DepositOutcome env i w payload userId paymentType (.error (.acquiring e)) w'
  /-- `start_payment` raises, although the bank has started the payment. -/
  | lost {w' : World} (e : ClientErr) (b : String) (hstart : (env 2).start = .lost e b)
      (left : Alone i w.db [] (w.bank ++ [bankDeposit payload b]) w.queue w') :
      DepositOutcome env i w payload userId paymentType (.error (.acquiring e)) w'
  /-- The `INSERT` or the commit fails, with the payment started at the bank. -/
  | notStored {ws : List Write} {w' : World} (msg b : String)
      (hsql : (env 0).failure = none ∧ (env 1).failure = none)
      (hstart : (env 2).start = .accepted b)
      (h : (env 3).failure = some msg ∨ (env 4).failure = some msg ∨
        (submittedPayment userId payload.orderId payload.amount paymentType b).fits = false)
      (left : Alone i w.db ws (w.bank ++ [bankDeposit payload b]) w.queue w') :
      DepositOutcome env i w payload userId paymentType (.error (.database msg)) w'
  /-- The broker fails, with the row committed. -/
  | notEnqueued {w' : World} (order : Order) (own : OwnOrder w.db payload.orderId userId order)
      (h : DepositFits w.db payload order) (b : String) (hstart : (env 2).start = .accepted b)
      (id : ℕ) (hid : w.db.payments.find? id = none) (msg : String)
      (hfail : (env 5).failure = some msg)
      (left : Alone i ((Change.deposit order (newDeposit payload userId paymentType b id)).run w.db)
        [] (w.bank ++ [bankDeposit payload b]) w.queue w') :
      DepositOutcome env i w payload userId paymentType (.error (.broker msg)) w'
  | done {w' : World} (order : Order) (own : OwnOrder w.db payload.orderId userId order)
      (h : DepositFits w.db payload order) (b : String) (hstart : (env 2).start = .accepted b)
      (id : ℕ) (hid : w.db.payments.find? id = none)
      (left : Alone i ((Change.deposit order (newDeposit payload userId paymentType b id)).run w.db)
        [] (w.bank ++ [bankDeposit payload b]) (w.queue ++ [id]) w') :
      DepositOutcome env i w payload userId paymentType
        (.ok (newDeposit payload userId paymentType b id)) w'

/-- **The exits of `create_acquiring_payment`.** -/
theorem alone_createAcquiringPayment (hw : w.AtRest) :
    machine.alone i (createAcquiringPayment payload.orderId userId payload.amount paymentType) env
      (fun r _ w' _ => DepositOutcome env i w payload userId paymentType r w') σ w := by
  have h := hw.alone i
  unfold createAcquiringPayment
  refine alone_bind (alone_bind (alone_selectOrderForUpdate h
    (fun msg hf => .failed msg (.inl hf) h) fun hf₀ w₁ h₁ => ?_))
  rw [List.foldl_nil]
  cases ho : w.db.orders.find? payload.orderId with
  | none => exact .notFound ho h₁
  | some order =>
    have hid : order.id = payload.orderId := Table.key_of_find? ho
    refine alone_bind ?_
    unfold checkOrderBelongsToUser
    split_ifs with huser
    · exact .forbidden order ho huser h₁
    have own : OwnOrder w.db payload.orderId userId order := ⟨ho, not_not.1 huser⟩
    refine alone_bind (alone_selectBalance h₁ (fun msg hf => .failed msg (.inr hf) h₁)
      fun hf₁ w₂ h₂ => ?_)
    rw [List.foldl_nil]
    refine alone_bind ?_
    unfold checkAmount
    split_ifs with hamount
    · exact .overpayment order own (not_le.2 hamount) h₂
    have hfits : DepositFits w.db payload order := not_lt.1 hamount
    have hbank : ∀ b, (⟨b, order.id, payload.amount⟩ : BankPayment) = bankDeposit payload b := by
      intro b
      rw [hid]
      rfl
    refine alone_bind (alone_startPayment h₂ (fun b w₃ hs h₃ => ?_)
      (fun e hs => .refused e hs h₂) fun e b w₃ hs h₃ => .lost e b hs (hbank b ▸ h₃))
    rw [hbank] at h₃
    refine alone_bind (alone_insertPayment h₃
      (fun msg hf => .notStored msg b ⟨hf₀, hf₁⟩ hs (.inl hf) h₃)
      (fun _ hreject w₄ h₄ => .notStored _ b ⟨hf₀, hf₁⟩ hs (.inr (.inr ?_)) h₄)
      fun _ _ id w₄ hfree h₄ => ?_)
    · have hsome : (w.db.orders.find? payload.orderId).isSome = true := by rw [ho]; rfl
      change (_ && (w.db.orders.find? payload.orderId).isSome) = false at hreject
      rwa [hsome, Bool.and_true] at hreject
    refine alone_bind (alone_commit h₄
      (fun msg hf => .notStored msg b ⟨hf₀, hf₁⟩ hs (.inr (.inl hf)) h₄) fun _ w₅ h₅ => ?_)
    refine alone_bind (alone_applyAsync h₅
      (fun msg hf => .notEnqueued order own hfits b hs id hfree msg hf h₅) fun _ w₆ h₆ => ?_)
    exact .done order own hfits b hs id hfree h₆

theorem runAlone_createAcquiringPayment (hw : w.AtRest) (i : ℕ) (env : ℕ → Env) (σ : Session)
    (payload : PaymentCreate) (userId : ℕ) (paymentType : String) :
    ∃ r w', runAlone (createAcquiringPayment payload.orderId userId payload.amount paymentType) i
      env w σ = some (r, w'.close i) ∧
      DepositOutcome env i w payload userId paymentType r w' := by
  obtain ⟨r, w', -, -, hr, hout⟩ := exists_runAlone (alone_createAcquiringPayment hw)
  exact ⟨r, w', hr, hout⟩

/-! ## The status of the order -/

section Status

variable {db : Db} {ws : List Write} {bank : List BankPayment} {queue : List ℕ}
  (h : Alone i db ws bank queue w)

include h

theorem alone_getOrderPaymentStatus {Q : Except Err String → Session → World → (ℕ → Env) → Prop}
    (hfail : ∀ msg, (env 0).failure = some msg →
      Q (.error (.database msg)) σ w fun n => env (n + 1))
    (hQ : ∀ w', Alone i db ws bank queue w' →
      Q (.ok ((ws.foldl Db.apply db).orderStatus order)) σ w' fun n => env (n + 1)) :
    machine.alone i (getOrderPaymentStatus order) env Q σ w :=
  alone_bind (alone_selectBalance h hfail fun _ => hQ)

theorem alone_flushOrder {status : String}
    {Q : Except Err Unit → Session → World → (ℕ → Env) → Prop}
    (hfail : ∀ msg, (env 0).failure = some msg →
      Q (.error (.database msg)) σ w fun n => env (n + 1))
    (hQ : ∀ n w', Alone i db (ws ++ Change.orderWrites order status) bank queue w' →
      Q (.ok ()) σ w' fun m => env (m + n)) :
    machine.alone i (flushOrder order status) env Q σ w := by
  unfold flushOrder
  unfold Change.orderWrites at hQ
  split_ifs with hst
  · rw [if_pos hst, List.append_nil] at hQ
    exact hQ 0 w h
  · rw [if_neg hst] at hQ
    exact alone_updateOrder h hfail fun _ => hQ 1

theorem alone_flushPayment {p : Payment} {status : String} {paidAt : Option DateTime}
    {Q : Except Err Unit → Session → World → (ℕ → Env) → Prop}
    (hfail : ∀ msg, (env 0).failure = some msg →
      Q (.error (.database msg)) σ w fun n => env (n + 1))
    (hQ : ∀ n w', Alone i db (ws ++ Change.paymentWrites p status paidAt) bank queue w' →
      Q (.ok ()) σ w' fun m => env (m + n)) :
    machine.alone i (flushPayment p { p with paymentStatus := status, paidAt := paidAt }) env Q σ
      w := by
  unfold flushPayment
  unfold Change.paymentWrites at hQ
  split_ifs with hst
  · rw [if_pos hst, List.append_nil] at hQ
    exact hQ 0 w h
  · rw [if_neg hst] at hQ
    exact alone_updatePayment h hfail fun _ => hQ 1

end Status

/-! ## Returns -/

/-- The row of a return with its id. -/
def newReturn (payload : PaymentCreate) (userId : ℕ) (paidAt : DateTime) (id : ℕ) : Payment :=
  { completedReturn userId payload.orderId payload.amount paidAt with id := id }

/-- The change of a return. -/
def returnChange (db : Db) (order : Order) (p : Payment) : Change :=
  .cashReturn order p ((db.apply (.insertPayment p)).orderStatus order)

/-- How a return can end that runs alone from `w`. -/
inductive ReturnOutcome (env : ℕ → Env) (i : ℕ) (w : World) (payload : PaymentCreate)
    (userId : ℕ) : Except Err Payment → World → Prop
  | failed {ws : List Write} {w' : World} (n : ℕ) (msg : String)
      (hfail : (env n).failure = some msg) (left : Alone i w.db ws w.bank w.queue w') :
      ReturnOutcome env i w payload userId (.error (.database msg)) w'
  | notFound {w' : World} (h : w.db.orders.find? payload.orderId = none)
      (left : Alone i w.db [] w.bank w.queue w') :
      ReturnOutcome env i w payload userId (.error .orderNotFound) w'
  | forbidden {w' : World} (order : Order) (find : w.db.orders.find? payload.orderId = some order)
      (h : order.userId ≠ userId) (left : Alone i w.db [] w.bank w.queue w') :
      ReturnOutcome env i w payload userId (.error .forbiddenOrderAccess) w'
  | exceeds {w' : World} (order : Order) (own : OwnOrder w.db payload.orderId userId order)
      (h : ¬ payload.amount ≤ w.db.balance .completed payload.orderId)
      (left : Alone i w.db [] w.bank w.queue w') :
      ReturnOutcome env i w payload userId
        (.error (.returnAmountExceedsBalance (w.db.balance .completed payload.orderId))) w'
  | done {w' : World} (order : Order) (own : OwnOrder w.db payload.orderId userId order)
      (h : payload.amount ≤ w.db.balance .completed payload.orderId) (id : ℕ)
      (hid : w.db.payments.find? id = none)
      (left : Alone i
        ((returnChange w.db order (newReturn payload userId (env 2).now id)).run w.db) [] w.bank
        w.queue w') :
      ReturnOutcome env i w payload userId (.ok (newReturn payload userId (env 2).now id)) w'

/-- **The exits of `create_return`.** -/
theorem alone_createReturn (hw : w.AtRest) :
    machine.alone i (createReturn payload.orderId userId payload.amount) env
      (fun r _ w' _ => ReturnOutcome env i w payload userId r w') σ w := by
  have h := hw.alone i
  unfold createReturn
  refine alone_bind (alone_bind (alone_selectOrderForUpdate h
    (fun msg hf => .failed _ msg hf h) fun _ w₁ h₁ => ?_))
  rw [List.foldl_nil]
  cases ho : w.db.orders.find? payload.orderId with
  | none => exact .notFound ho h₁
  | some order =>
    refine alone_bind ?_
    unfold checkOrderBelongsToUser
    split_ifs with huser
    · exact .forbidden order ho huser h₁
    have own : OwnOrder w.db payload.orderId userId order := ⟨ho, not_not.1 huser⟩
    refine alone_bind (alone_selectBalance h₁ (fun msg hf => .failed _ msg hf h₁)
      fun _ w₂ h₂ => ?_)
    rw [List.foldl_nil]
    refine alone_bind ?_
    unfold checkReturnAmount
    split_ifs with hamount
    · exact .exceeds order own (not_le.2 hamount) h₂
    refine alone_bind (alone_now ?_)
    refine alone_bind (alone_insertPayment h₂ (fun msg hf => .failed _ msg hf h₂)
      (fun _ hreject w₃ _ => ?_) fun _ _ id w₃ hfree h₃ => ?_)
    · have hsome : (w.db.orders.find? payload.orderId).isSome = true := by rw [ho]; rfl
      change (_ && (w.db.orders.find? payload.orderId).isSome) = false at hreject
      rw [hsome, Bool.and_true, completedReturn_fits] at hreject
      cases hreject
    refine alone_bind (alone_getOrderPaymentStatus h₃ (fun msg hf => .failed _ msg hf h₃)
      fun w₄ h₄ => ?_)
    refine alone_bind (alone_flushOrder h₄ (fun msg hf => .failed _ msg hf h₄)
      fun n w₅ h₅ => ?_)
    refine alone_bind (alone_commit h₅ (fun msg hf => .failed _ msg hf h₅) fun _ w₆ h₆ => ?_)
    exact .done order own (not_lt.1 hamount) id hfree h₆

theorem runAlone_createReturn (hw : w.AtRest) (i : ℕ) (env : ℕ → Env) (σ : Session)
    (payload : PaymentCreate) (userId : ℕ) :
    ∃ r w', runAlone (createReturn payload.orderId userId payload.amount) i env w σ =
      some (r, w'.close i) ∧ ReturnOutcome env i w payload userId r w' := by
  obtain ⟨r, w', -, -, hr, hout⟩ := exists_runAlone (alone_createReturn hw)
  exact ⟨r, w', hr, hout⟩

/-! ## Checks -/

/-- The bank answers the check with the information `info`. -/
def ValidAnswer (env : ℕ → Env) (py : Pydantic) (info : AcquiringPaymentInfo) : Prop :=
  ∃ d, (env 1).check = .ok d ∧ AcquiringPaymentInfo.validate py d = some info

/-- The order that a check finds as `payment.order`: one that its session has loaded, or else the
row, if an attribute read may send SQL. -/
inductive RelatedOrder (env : ℕ → Env) (db : Db) (σ : Session) (orderId : ℕ) (order : Order) : Prop
  | loaded (h : (σ.identityMap.find? fun o => o.id = orderId) = some order)
  | lazy (h : (σ.identityMap.find? fun o => o.id = orderId) = none)
      (hgreenlet : (env 3).greenlet = true) (find : db.orders.find? orderId = some order)

/-- The change of a check that completes a payment. -/
def completeChange (db : Db) (order : Order) (p : Payment) (paidAt : DateTime) : Change :=
  .complete order p paidAt (((Change.paymentWrites p PaymentStatus.Completed.value
    (some paidAt)).foldl Db.apply db).orderStatus order)

/-- The payment that a check finds to be open. -/
structure OpenPayment (db : Db) (paymentId : ℕ) (p : Payment) : Prop where
  find : db.payments.find? paymentId = some p
  isOpen : p.isOpen = true

/-- How a check can end that runs alone from `w`, in the session `σ`. -/
inductive CheckOutcome (env : ℕ → Env) (i : ℕ) (w : World) (py : Pydantic) (paymentId : ℕ)
    (σ : Session) : Except Err Bool → World → Prop
  | failed {ws : List Write} {w' : World} (n : ℕ) (msg : String)
      (hfail : (env n).failure = some msg) (left : Alone i w.db ws w.bank w.queue w') :
      CheckOutcome env i w py paymentId σ (.error (.database msg)) w'
  | notOpen {w' : World} (h : ∀ p, ¬ OpenPayment w.db paymentId p)
      (left : Alone i w.db [] w.bank w.queue w') :
      CheckOutcome env i w py paymentId σ (.ok true) w'
  /-- The bank does not know the payment, or the client gives up: the task will retry. -/
  | retry {w' : World} (p : Payment) (hp : OpenPayment w.db paymentId p)
      (h : (env 1).check = .error .notFound ∨ (env 1).check = .error .check)
      (left : Alone i w.db [] w.bank w.queue w') :
      CheckOutcome env i w py paymentId σ (.ok false) w'
  | clientFailed {w' : World} (p : Payment) (hp : OpenPayment w.db paymentId p)
      (e : ClientErr) (h : (env 1).check = .error e) (he : e ≠ .notFound ∧ e ≠ .check)
      (left : Alone i w.db [] w.bank w.queue w') :
      CheckOutcome env i w py paymentId σ (.error (.acquiring e)) w'
  | invalid {w' : World} (p : Payment) (hp : OpenPayment w.db paymentId p) (d : Dict)
      (h : (env 1).check = .ok d) (hd : AcquiringPaymentInfo.validate py d = none)
      (left : Alone i w.db [] w.bank w.queue w') :
      CheckOutcome env i w py paymentId σ (.error (.value "Invalid payment info")) w'
  | unknownStatus {w' : World} (p : Payment) (hp : OpenPayment w.db paymentId p)
      (info : AcquiringPaymentInfo) (h : ValidAnswer env py info)
      (hst : info.status ∉ PaymentStatus.members.map PaymentStatus.value)
      (left : Alone i w.db [] w.bank w.queue w') :
      CheckOutcome env i w py paymentId σ (.ok false) w'
  | advanced {w' : World} (p : Payment) (hp : OpenPayment w.db paymentId p)
      (info : AcquiringPaymentInfo) (h : ValidAnswer env py info)
      (hst : info.status ∈ PaymentStatus.members.map PaymentStatus.value)
      (hne : info.status ≠ PaymentStatus.Completed.value)
      (left : Alone i ((Change.advance p info.status).run w.db) [] w.bank w.queue w') :
      CheckOutcome env i w py paymentId σ (.ok (info.status = PaymentStatus.Rejected.value)) w'
  /-- The order is not loaded, and an attribute read cannot load it. -/
  | missingGreenlet {w' : World} (p : Payment) (hp : OpenPayment w.db paymentId p)
      (info : AcquiringPaymentInfo) (h : ValidAnswer env py info)
      (hst : info.status = PaymentStatus.Completed.value)
      (hmap : (σ.identityMap.find? fun o => o.id = p.orderId) = none)
      (hgreenlet : (env 3).greenlet = false) (left : Alone i w.db [] w.bank w.queue w') :
      CheckOutcome env i w py paymentId σ (.error .missingGreenlet) w'
  | noOrder {ws : List Write} {w' : World} (p : Payment) (hp : OpenPayment w.db paymentId p)
      (info : AcquiringPaymentInfo) (h : ValidAnswer env py info)
      (hst : info.status = PaymentStatus.Completed.value) (hgreenlet : (env 3).greenlet = true)
      (hnone : w.db.orders.find? p.orderId = none) (left : Alone i w.db ws w.bank w.queue w') :
      CheckOutcome env i w py paymentId σ (.error .attribute) w'
  | completed {w' : World} (p : Payment) (hp : OpenPayment w.db paymentId p)
      (info : AcquiringPaymentInfo) (h : ValidAnswer env py info)
      (hst : info.status = PaymentStatus.Completed.value) (order : Order)
      (ho : RelatedOrder env w.db σ p.orderId order)
      (left : Alone i ((completeChange w.db order p info.paidAt).run w.db) [] w.bank w.queue w') :
      CheckOutcome env i w py paymentId σ (.ok true) w'

variable {py : Pydantic} {paymentId : ℕ} {p : Payment} {info : AcquiringPaymentInfo}

/-- The exits of `check_and_update` for a payment that the bank reports as completed. -/
theorem alone_completePayment (h : Alone i w.db [] w.bank w.queue w')
    (hp : OpenPayment w.db paymentId p) (hinfo : ValidAnswer env py info)
    (hst : info.status = PaymentStatus.Completed.value) :
    machine.alone i (completePayment p
        { p with paymentStatus := info.status, paidAt := some info.paidAt })
      (fun n => env (n + 2))
      (fun r _ w' _ => CheckOutcome env i w py paymentId σ (r.map fun _ => true) w') σ w' := by
  -- The rest of the branch, once the payment is flushed and the order is there.
  have hcompleted : ∀ order, RelatedOrder env w.db σ p.orderId order → ∀ (rest : ℕ → ℕ) w₁,
      Alone i w.db ([] ++ Change.paymentWrites p info.status (some info.paidAt)) w.bank w.queue w₁ →
      machine.alone i ((getOrderPaymentStatus order).bind fun status =>
          (flushOrder order status).bind fun _ => send .commit) (fun n => env (rest n))
        (fun r _ w' _ => CheckOutcome env i w py paymentId σ (r.map fun _ => true) w') σ w₁ := by
    intro order ho rest w₁ h₁
    refine alone_bind (alone_getOrderPaymentStatus h₁
      (fun msg hf => .failed _ msg hf h₁) fun w₂ h₂ => ?_)
    refine alone_bind (alone_flushOrder h₂
      (fun msg hf => .failed _ msg hf h₂) fun n w₃ h₃ => ?_)
    refine alone_commit h₃ (fun msg hf => .failed _ msg hf h₃) fun _ w₄ h₄ => ?_
    rw [List.nil_append, hst] at h₄
    exact .completed p hp info hinfo hst order ho h₄
  unfold completePayment readOrder
  refine alone_bind (alone_bind (alone_identityMapGet ?_))
  cases hmap : σ.identityMap.find? fun o => o.id = p.orderId with
  | some order =>
    change machine.alone i ((flushPayment _ _).bind _) _ _ σ w'
    refine alone_bind (alone_flushPayment h (fun msg hf => .failed _ msg hf h)
      fun n w₁ h₁ => ?_)
    exact hcompleted order (.loaded hmap) (fun m => m + n + 1 + 2) w₁ h₁
  | none =>
    change machine.alone i ((send .awaitOnly).bind _) _ _ σ w'
    refine alone_bind (alone_awaitOnly ?_)
    split_ifs with hgreenlet
    · change machine.alone i ((flushPayment _ _).bind _) _ _ σ w'
      refine alone_bind (alone_flushPayment h (fun msg hf => .failed _ msg hf h)
        fun n w₁ h₁ => ?_)
      refine alone_selectOrder h₁ (fun msg hf => .failed _ msg hf h₁) fun _ w₂ h₂ => ?_
      rw [List.nil_append, Change.orders_paymentWrites]
      cases ho : w.db.orders.find? p.orderId with
      | none => exact .noOrder p hp info hinfo hst hgreenlet ho h₂
      | some order =>
        exact hcompleted order (.lazy hmap hgreenlet ho) (fun m => m + 1 + n + 1 + 1 + 2) w₂ h₂
    · exact .missingGreenlet p hp info hinfo hst hmap (by simpa using hgreenlet) h

/-- **The exits of `check_and_update`.** -/
theorem alone_checkAndUpdate (hw : w.AtRest) :
    machine.alone i (checkAndUpdate py paymentId) env
      (fun r _ w' _ => CheckOutcome env i w py paymentId σ r w') σ w := by
  have h := hw.alone i
  unfold checkAndUpdate getPaymentForUpdate
  refine alone_bind (alone_selectPaymentForUpdate h
    (fun msg hf => .failed _ msg hf h) fun _ w₁ h₁ => ?_)
  rw [List.foldl_nil]
  cases hp : (w.db.payments.find? paymentId).filter Payment.isOpen with
  | none =>
    refine .notOpen (fun p hp' => ?_) h₁
    rw [hp'.find, Option.filter_some, if_pos hp'.isOpen] at hp
    cases hp
  | some p =>
    obtain ⟨hfind, hopen⟩ := Option.filter_eq_some_iff.1 hp
    have hp : OpenPayment w.db paymentId p := ⟨hfind, hopen⟩
    refine alone_bind (alone_checkPayment h₁ fun w₂ h₂ => ?_)
    cases hc : (env 1).check with
    | error e =>
      cases e with
      | notFound => exact .retry p hp (.inl hc) h₂
      | check => exact .retry p hp (.inr hc) h₂
      | start => exact .clientFailed p hp _ hc ⟨by simp, by simp⟩ h₂
      | other msg => exact .clientFailed p hp _ hc ⟨by simp, by simp⟩ h₂
    | ok d =>
      refine alone_bind ?_
      unfold checkPaymentInfo
      cases hd : AcquiringPaymentInfo.validate py d with
      | none => exact .invalid p hp d hc hd h₂
      | some info =>
        have hinfo : ValidAnswer env py info := ⟨d, hc, hd⟩
        change machine.alone i (updateFromInfo p info) _ _ σ w₂
        unfold updateFromInfo
        simp only [List.contains_iff_mem]
        split_ifs with hmem hst
        · refine alone_bind (alone_mono (alone_completePayment h₂ hp hinfo hst) ?_)
          rintro (e | _) _ w' _ hout
          · exact hout
          · exact hout
        · refine alone_bind (alone_flushPayment h₂
            (fun msg hf => .failed _ msg hf h₂) fun n w₃ h₃ => ?_)
          refine alone_bind (alone_commit h₃ (fun msg hf => .failed _ msg hf h₃)
            fun _ w₄ h₄ => ?_)
          exact .advanced p hp info hinfo hmem hst h₄
        · exact .unknownStatus p hp info hinfo hmem h₂

theorem runAlone_checkAndUpdate (hw : w.AtRest) (i : ℕ) (env : ℕ → Env) (σ : Session)
    (py : Pydantic) (paymentId : ℕ) :
    ∃ r w', runAlone (checkAndUpdate py paymentId) i env w σ = some (r, w'.close i) ∧
      CheckOutcome env i w py paymentId σ r w' := by
  obtain ⟨r, w', -, -, hr, hout⟩ := exists_runAlone (alone_checkAndUpdate hw)
  exact ⟨r, w', hr, hout⟩

end PaySystem
