import PaySystem.Database.Models

/-!
# The database and its balances

The three services sum the payments of an order with the same `CASE` expression under two `WHERE`
clauses (`BalanceFilter`). The writes that they make act on single rows; the lemmas below say what
each write does to every balance.
-/

namespace PaySystem

/-- The tables that the payment services read and write. -/
structure Db where
  orders : Table Order
  payments : Table Payment

/-- The status condition of a balance sum. -/
inductive BalanceFilter
  /-- `payment_status == Completed`. -/
  | completed
  /-- `payment_status != Rejected`. -/
  | nonRejected
  deriving DecidableEq

/-- The payment passes the status condition. -/
def BalanceFilter.passes : BalanceFilter → Payment → Bool
  | completed, p => p.paymentStatus == PaymentStatus.Completed.value
  | nonRejected, p => p.paymentStatus != PaymentStatus.Rejected.value

/-- What a payment adds to a balance of an order. -/
def Payment.contribution (f : BalanceFilter) (orderId : ℕ) (p : Payment) : ℚ :=
  if p.orderId = orderId ∧ f.passes p then p.signedAmount else 0

/-- `SELECT coalesce(sum(CASE ...), 0) WHERE order_id = ... AND ...`. -/
def Db.balance (db : Db) (f : BalanceFilter) (orderId : ℕ) : ℚ :=
  db.payments.sum (Payment.contribution f orderId)

/-- `_get_order_payment_status` after its sum `total`. -/
def orderPaymentStatus (total : ℚ) (totalSum : Numeric) : String :=
  if total = Fixed.quantize 2 totalSum.toRat then OrderPaymentStatus.PAID.value
  else if total = Fixed.quantize 2 0 then OrderPaymentStatus.UNPAID.value
  else OrderPaymentStatus.PARTIALLY_PAID.value

/-- The status that `_get_order_payment_status` computes from the payments of `db`. -/
def Db.orderStatus (db : Db) (order : Order) : String :=
  orderPaymentStatus (db.balance .completed order.id) order.totalSum

/-- Row-level writes. -/
inductive Write
  | insertPayment (p : Payment)
  /-- `UPDATE payment SET payment_status = status, paid_at = paidAt WHERE id = paymentId`. -/
  | updatePayment (paymentId : ℕ) (status : String) (paidAt : Option DateTime)
  /-- `UPDATE "order" SET payment_status = status WHERE id = orderId`. -/
  | updateOrder (orderId : ℕ) (status : String)
  deriving DecidableEq

/-- The effect of a write. -/
def Db.apply (db : Db) : Write → Db
  | .insertPayment p => { db with payments := db.payments.insert p }
  | .updatePayment id status paidAt => match db.payments.find? id with
    | none => db
    | some p => { db with
        payments := db.payments.update { p with paymentStatus := status, paidAt := paidAt } }
  | .updateOrder id status => match db.orders.find? id with
    | none => db
    | some o => { db with orders := db.orders.update { o with paymentStatus := status } }

variable {db : Db} {p : Payment} {o : Order} {id orderId : ℕ} {f : BalanceFilter}

/-! ## The order status rule -/

/-- The status rule without the rounding, which does nothing to column values. -/
theorem orderPaymentStatus_eq (total : ℚ) (totalSum : Numeric) :
    orderPaymentStatus total totalSum =
      if total = totalSum.toRat then OrderPaymentStatus.PAID.value
      else if total = 0 then OrderPaymentStatus.UNPAID.value
      else OrderPaymentStatus.PARTIALLY_PAID.value := by
  rw [orderPaymentStatus, Fixed.quantize_toRat, Fixed.quantize_zero]

/-! ## Contributions -/

theorem contribution_of_ne (h : p.orderId ≠ orderId) : p.contribution f orderId = 0 := by
  rw [Payment.contribution, if_neg fun hp => h hp.1]

theorem contribution_of_passes (h : f.passes p = true) :
    p.contribution f p.orderId = p.signedAmount := by
  rw [Payment.contribution, if_pos ⟨rfl, h⟩]

theorem contribution_of_not_passes (h : f.passes p = false) : p.contribution f orderId = 0 := by
  rw [Payment.contribution, if_neg fun hp => by simp [h] at hp]

/-- An open payment is not part of the completed balance. -/
theorem contribution_completed_of_isOpen (h : p.isOpen = true) :
    p.contribution .completed orderId = 0 := by
  refine contribution_of_not_passes ?_
  simpa [BalanceFilter.passes] using (Payment.isOpen_iff.1 h).1

theorem balance_eq_zero (h : ∀ p ∈ db.payments.rows, p.orderId ≠ orderId) :
    db.balance f orderId = 0 := by
  refine List.sum_eq_zero fun x hx => ?_
  obtain ⟨p, hp, rfl⟩ := List.mem_map.1 hx
  exact contribution_of_ne (h p hp)

/-- Balances are sums of money. -/
theorem hasDecimals_balance (db : Db) (f : BalanceFilter) (orderId : ℕ) :
    Fixed.HasDecimals 2 (db.balance f orderId) := by
  refine Fixed.HasDecimals.sum fun x hx => ?_
  obtain ⟨p, -, rfl⟩ := List.mem_map.1 hx
  unfold Payment.contribution Payment.signedAmount
  split_ifs
  · exact Fixed.hasDecimals_toRat _
  · exact (Fixed.hasDecimals_toRat _).neg
  · exact Fixed.quantize_zero
  · exact Fixed.quantize_zero

/-- What remains of an order is an amount of money. -/
theorem hasDecimals_remaining (db : Db) (order : Order) :
    Fixed.HasDecimals 2 (order.totalSum.toRat - db.balance .nonRejected order.id) := by
  rw [sub_eq_add_neg]
  exact (Fixed.hasDecimals_toRat _).add (hasDecimals_balance _ _ _).neg

/-! ## Inserting a payment -/

theorem sum_insertPayment (g : Payment → ℚ) (h : db.payments.find? p.id = none) :
    (db.apply (.insertPayment p)).payments.sum g = db.payments.sum g + g p :=
  Table.sum_insert g h

/-! ## Updating a payment -/

@[simp] theorem orders_updatePayment (db : Db) (id : ℕ) (st : String) (at' : Option DateTime) :
    (db.apply (.updatePayment id st at')).orders = db.orders := by
  cases h : db.payments.find? id <;> simp only [Db.apply, h]

theorem payments_updatePayment (h : db.payments.find? id = some p) (st : String)
    (at' : Option DateTime) : (db.apply (.updatePayment id st at')).payments =
      db.payments.update { p with paymentStatus := st, paidAt := at' } := by
  simp only [Db.apply, h]

theorem sum_updatePayment (g : Payment → ℚ) (h : db.payments.find? id = some p) (st : String)
    (at' : Option DateTime) : (db.apply (.updatePayment id st at')).payments.sum g =
      db.payments.sum g - g p + g { p with paymentStatus := st, paidAt := at' } := by
  have hid : p.id = id := Table.key_of_find? h
  rw [payments_updatePayment h]
  refine Table.sum_update g (x := p) ?_
  rw [← hid] at h
  exact h

/-! ## Updating the status of an order -/

@[simp] theorem payments_updateOrder (db : Db) (id : ℕ) (st : String) :
    (db.apply (.updateOrder id st)).payments = db.payments := by
  cases h : db.orders.find? id <;> simp only [Db.apply, h]

theorem orders_updateOrder (h : db.orders.find? id = some o) (st : String) :
    (db.apply (.updateOrder id st)).orders = db.orders.update { o with paymentStatus := st } := by
  simp only [Db.apply, h]

theorem find?_updateOrder_self (h : db.orders.find? id = some o) (st : String) :
    (db.apply (.updateOrder id st)).orders.find? id = some { o with paymentStatus := st } := by
  have hid : o.id = id := Table.key_of_find? h
  rw [orders_updateOrder h]
  subst hid
  exact Table.find?_update_self (x := o) h

theorem find?_updateOrder_of_ne (h : id ≠ orderId) (st : String) :
    (db.apply (.updateOrder id st)).orders.find? orderId = db.orders.find? orderId := by
  cases ho : db.orders.find? id with
  | none => simp only [Db.apply, ho]
  | some o =>
    have hid : o.id = id := Table.key_of_find? ho
    rw [orders_updateOrder ho]
    exact Table.find?_update_of_ne (by simpa [hid] using h)

end PaySystem
