import PaySystem.Ledger.Lifecycle

/-!
# The commits of the services

A committed transaction of the services is one of four changes of the database. `Change.run` is its
effect, `Change.Allowed` what always holds when it is made; the lemmas say what a change does to the
rows and to the balances, and every invariant of the payments is derived from them.
-/

namespace PaySystem

/-- What a transaction commits. `order` is the order as the transaction loaded it, `p` the new
payment or the payment as it was loaded. -/
inductive Change
  /-- `create_acquiring_payment`: a submitted deposit. -/
  | deposit (order : Order) (p : Payment)
  /-- `create_return`: a completed return and the new status of the order. -/
  | cashReturn (order : Order) (p : Payment) (orderStatus : String)
  /-- `check_and_update`: a status other than completed. -/
  | advance (p : Payment) (status : String)
  /-- `check_and_update`: a completed payment and the new status of the order. -/
  | complete (order : Order) (p : Payment) (paidAt : DateTime) (orderStatus : String)

namespace Change

/-- The payment row that the change replaces. -/
def old : Change → Option Payment
  | deposit _ _ => none
  | cashReturn _ _ _ => none
  | advance p _ => some p
  | complete _ p _ _ => some p

/-- The payment row that the change writes. -/
def row : Change → Payment
  | deposit _ p => p
  | cashReturn _ p _ => p
  | advance p status => { p with paymentStatus := status }
  | complete _ p paidAt _ =>
    { p with paymentStatus := PaymentStatus.Completed.value, paidAt := some paidAt }

/-- The status that is assigned to the loaded order. -/
def assigned : Change → Option (Order × String)
  | deposit _ _ => none
  | cashReturn order _ status => some (order, status)
  | advance _ _ => none
  | complete order _ _ status => some (order, status)

/-- The `UPDATE` of an order whose status was assigned. -/
def orderWrites (order : Order) (status : String) : List Write :=
  if status = order.paymentStatus then [] else [.updateOrder order.id status]

/-- The `UPDATE` of a loaded payment. -/
def paymentWrites (p : Payment) (status : String) (paidAt : Option DateTime) : List Write :=
  if { p with paymentStatus := status, paidAt := paidAt } = p then []
  else [.updatePayment p.id status paidAt]

/-- The writes of the transaction, as they were flushed. -/
def writes : Change → List Write
  | deposit _ p => [.insertPayment p]
  | cashReturn order p status => .insertPayment p :: orderWrites order status
  | advance p status => paymentWrites p status p.paidAt
  | complete order p paidAt status =>
    paymentWrites p PaymentStatus.Completed.value (some paidAt) ++ orderWrites order status

/-- The database after the commit. -/
def run (db : Db) (c : Change) : Db := c.writes.foldl Db.apply db

/-- `order`, as it was loaded, is an order of `db`; its status may have changed since. -/
def Loaded (db : Db) (order : Order) : Prop :=
  ∃ status, db.orders.find? order.id = some { order with paymentStatus := status }

/-- What holds of every change when it is committed. -/
def Allowed (types : Set String) (db : Db) : Change → Prop
  | deposit order p => p.orderId = order.id ∧ Loaded db order ∧
    db.payments.find? p.id = none ∧ p.IsDeposit types order
  | cashReturn order p _ => p.orderId = order.id ∧ Loaded db order ∧
    db.payments.find? p.id = none ∧ p.IsReturn order
  | advance p status => db.payments.find? p.id = some p ∧ p.isOpen = true ∧
    status ∈ PaymentStatus.members.map PaymentStatus.value ∧ status ≠ PaymentStatus.Completed.value
  | complete order p _ _ => p.orderId = order.id ∧ Loaded db order ∧
    db.payments.find? p.id = some p ∧ p.isOpen = true

/-- The admission checks: a deposit fits into the order, a return into what is completed. -/
def Admitted (db : Db) : Change → Prop
  | deposit order p => db.balance .nonRejected p.orderId + p.amount.toRat ≤ order.totalSum.toRat
  | cashReturn _ p _ => p.amount.toRat ≤ db.balance .completed p.orderId
  | _ => True

/-- What the change adds to the sum of `g` over the payments. -/
def delta (c : Change) (g : Payment → ℚ) : ℚ := g c.row - (c.old.map g).getD 0

variable {types : Set String} {db : Db} {c : Change} {order : Order} {p : Payment} {orderId : ℕ}
  {f : BalanceFilter}

/-! ## The payments after a change -/

theorem Allowed.find?_row (h : c.Allowed types db) : db.payments.find? c.row.id = c.old := by
  cases c with
  | deposit order p => exact h.2.2.1
  | cashReturn order p st => exact h.2.2.1
  | advance p st => exact h.1
  | complete order p paidAt st => exact h.2.2.1

private theorem payments_orderWrites (db : Db) (order : Order) (st : String) :
    ((orderWrites order st).foldl Db.apply db).payments = db.payments := by
  unfold orderWrites
  split_ifs
  · rfl
  · exact payments_updateOrder db order.id st

private theorem find?_paymentWrites (h : db.payments.find? p.id = some p) (st : String)
    (at' : Option DateTime) (k : ℕ) :
    ((paymentWrites p st at').foldl Db.apply db).payments.find? k =
      if k = p.id then some { p with paymentStatus := st, paidAt := at' }
      else db.payments.find? k := by
  unfold paymentWrites
  split_ifs with hp hk hk
  · rw [hp, hk]
    exact h
  · rfl
  · change (db.apply (.updatePayment p.id st at')).payments.find? k = _
    rw [payments_updatePayment h, hk]
    exact Table.find?_update_self (r := { p with paymentStatus := st, paidAt := at' }) (x := p) h
  · change (db.apply (.updatePayment p.id st at')).payments.find? k = _
    rw [payments_updatePayment h]
    exact Table.find?_update_of_ne (r := { p with paymentStatus := st, paidAt := at' }) (Ne.symm hk)

private theorem find?_insertPayment (h : db.payments.find? p.id = none) (k : ℕ) :
    (db.apply (.insertPayment p)).payments.find? k =
      if k = p.id then some p else db.payments.find? k := by
  change (db.payments.insert p).find? k = _
  split_ifs with hk
  · rw [hk]
    exact Table.find?_eq_some.2 ⟨(Table.mem_insert h).2 (Or.inr rfl), rfl⟩
  · exact Table.find?_insert_of_ne (Ne.symm hk)

/-- A completion writes the row of the payment, whatever order was loaded. -/
theorem find?_payments_complete (h : db.payments.find? p.id = some p) (order : Order)
    (paidAt : DateTime) (st : String) (k : ℕ) :
    ((complete order p paidAt st).run db).payments.find? k =
      if k = p.id then some (complete order p paidAt st).row else db.payments.find? k := by
  rw [run, writes, List.foldl_append, payments_orderWrites]
  exact find?_paymentWrites h _ _ k

/-- A change writes one row. -/
theorem Allowed.find?_payments_run (h : c.Allowed types db) (k : ℕ) :
    (c.run db).payments.find? k = if k = c.row.id then some c.row else db.payments.find? k := by
  cases c with
  | deposit order p => exact find?_insertPayment h.2.2.1 k
  | cashReturn order p st =>
    rw [run, writes, List.foldl_cons, payments_orderWrites]
    exact find?_insertPayment h.2.2.1 k
  | advance p st => exact find?_paymentWrites h.1 st p.paidAt k
  | complete order p paidAt st => exact find?_payments_complete h.2.2.1 order paidAt st k

theorem Allowed.mem_run (h : c.Allowed types db) :
    p ∈ (c.run db).payments.rows ↔ p = c.row ∨ p ∈ db.payments.rows ∧ p.id ≠ c.row.id := by
  have hiff : ∀ t : Table Payment, p ∈ t.rows ↔ t.find? p.id = some p := fun t =>
    ⟨fun hp => Table.find?_key hp, Table.mem_of_find?⟩
  rw [hiff, h.find?_payments_run, hiff]
  split_ifs with hk
  · simp [hk, eq_comm]
  · have hne : p ≠ c.row := fun hp => hk (by rw [hp])
    simp [hk, hne]

theorem Allowed.old_mem (h : c.Allowed types db) (hold : c.old = some p) :
    p ∈ db.payments.rows := by
  have hrow := h.find?_row
  rw [hold] at hrow
  exact Table.mem_of_find? hrow

theorem old_orderId (hold : c.old = some p) : p.orderId = c.row.orderId := by
  cases c <;> cases hold <;> rfl

/-! ## The orders after a change -/

theorem Allowed.assigned_id (h : c.Allowed types db) {st : String}
    (ha : c.assigned = some (order, st)) : c.row.orderId = order.id ∧ Loaded db order := by
  cases c with
  | deposit order p => cases ha
  | cashReturn order p st =>
    cases ha
    exact ⟨h.1, h.2.1⟩
  | advance p st => cases ha
  | complete order p paidAt st =>
    cases ha
    exact ⟨h.1, h.2.1⟩

theorem orders_paymentWrites (db : Db) (p : Payment) (st : String)
    (at' : Option DateTime) : ((paymentWrites p st at').foldl Db.apply db).orders = db.orders := by
  unfold paymentWrites
  split_ifs
  · rfl
  · exact orders_updatePayment db p.id st at'

/-- A change writes no other order than the assigned one, and of this only the status. -/
theorem orders_run (c : Change) (db : Db) : (c.run db).orders = match c.assigned with
    | none => db.orders
    | some (order, st) => ((orderWrites order st).foldl Db.apply db).orders := by
  have horders : ∀ (db db' : Db) (order : Order) (st : String), db.orders = db'.orders →
      ((orderWrites order st).foldl Db.apply db).orders =
        ((orderWrites order st).foldl Db.apply db').orders := by
    intro db db' order st hdb
    unfold orderWrites
    split_ifs
    · exact hdb
    · simp only [List.foldl_cons, List.foldl_nil, Db.apply, hdb]
      cases db'.orders.find? order.id <;> simp only [hdb]
  cases c with
  | deposit order p => rfl
  | cashReturn order p st => exact horders _ _ order st rfl
  | advance p st => exact orders_paymentWrites db p st p.paidAt
  | complete order p paidAt st =>
    rw [run, writes, List.foldl_append]
    exact horders _ _ order st (orders_paymentWrites db p _ _)

theorem orders_run_of_not_assigned (h : c.assigned = none) : (c.run db).orders = db.orders := by
  rw [orders_run, h]

theorem Allowed.find?_orders_run_of_ne (h : c.Allowed types db) (hne : c.row.orderId ≠ orderId) :
    (c.run db).orders.find? orderId = db.orders.find? orderId := by
  rw [orders_run]
  cases ha : c.assigned with
  | none => rfl
  | some x =>
    obtain ⟨order, st⟩ := x
    have hid := (h.assigned_id ha).1
    simp only [orderWrites]
    split_ifs
    · rfl
    · exact find?_updateOrder_of_ne (by rwa [← hid]) st

/-- The assigned status is stored, if nobody has changed the order since it was loaded. -/
theorem find?_orders_run {st : String} (ha : c.assigned = some (order, st))
    (ho : db.orders.find? order.id = some order) :
    (c.run db).orders.find? order.id = some { order with paymentStatus := st } := by
  rw [orders_run, ha]
  simp only [orderWrites]
  split_ifs with hst
  · rw [hst]
    exact ho
  · exact find?_updateOrder_self ho st

/-- A change leaves of every order all but the status. -/
theorem orders_run_of_find? (c : Change) (ho : db.orders.find? orderId = some order) :
    ∃ st, (c.run db).orders.find? orderId = some { order with paymentStatus := st } := by
  rw [orders_run]
  cases c.assigned with
  | none => exact ⟨order.paymentStatus, ho⟩
  | some x =>
    obtain ⟨order', st⟩ := x
    simp only [orderWrites]
    split_ifs with hst
    · exact ⟨order.paymentStatus, ho⟩
    · by_cases hid : order'.id = orderId
      · subst hid
        exact ⟨st, find?_updateOrder_self ho st⟩
      · exact ⟨order.paymentStatus, (find?_updateOrder_of_ne hid st).trans ho⟩

/-! ## Sums after a change -/

theorem delta_of_new (h : c.old = none) (g : Payment → ℚ) : c.delta g = g c.row := by
  rw [delta, h, Option.map_none, Option.getD_none, sub_zero]

theorem delta_of_old (h : c.old = some p) (g : Payment → ℚ) : c.delta g = g c.row - g p := by
  rw [delta, h, Option.map_some, Option.getD_some]

theorem sum_paymentWrites (g : Payment → ℚ) (h : db.payments.find? p.id = some p) (st : String)
    (at' : Option DateTime) : ((paymentWrites p st at').foldl Db.apply db).payments.sum g =
      db.payments.sum g + (g { p with paymentStatus := st, paidAt := at' } - g p) := by
  unfold paymentWrites
  split_ifs with hp
  · rw [hp, sub_self, add_zero, List.foldl_nil]
  · change (db.apply (.updatePayment p.id st at')).payments.sum g = _
    rw [sum_updatePayment g h]
    ring

/-- A change adds its `delta` to the sums over the payments. -/
theorem Allowed.sum_run (h : c.Allowed types db) (g : Payment → ℚ) :
    (c.run db).payments.sum g = db.payments.sum g + c.delta g := by
  cases c with
  | deposit order p =>
    rw [delta_of_new rfl]
    exact sum_insertPayment g h.2.2.1
  | cashReturn order p st =>
    rw [run, writes, List.foldl_cons, payments_orderWrites, delta_of_new rfl]
    exact sum_insertPayment g h.2.2.1
  | advance p st => exact sum_paymentWrites g h.1 st p.paidAt
  | complete order p paidAt st =>
    rw [run, writes, List.foldl_append, payments_orderWrites]
    exact sum_paymentWrites g h.2.2.1 _ _

theorem Allowed.balance_run (h : c.Allowed types db) (f : BalanceFilter) (orderId : ℕ) :
    (c.run db).balance f orderId =
      db.balance f orderId + c.delta (Payment.contribution f orderId) :=
  h.sum_run _

/-- A sum that counts the payments of one order is not changed by the changes of others. -/
theorem delta_of_ne {g : Payment → ℚ} (c : Change) (hg : ∀ p, p.orderId ≠ orderId → g p = 0)
    (h : c.row.orderId ≠ orderId) : c.delta g = 0 := by
  have hrow : g c.row = 0 := hg _ h
  cases hold : c.old with
  | none => rw [delta_of_new hold, hrow]
  | some p =>
    rw [delta_of_old hold, hrow, hg p (by rwa [old_orderId hold]), sub_zero]

theorem Allowed.balance_run_of_ne (h : c.Allowed types db) (hne : c.row.orderId ≠ orderId) :
    (c.run db).balance f orderId = db.balance f orderId := by
  rw [h.balance_run, delta_of_ne c (fun _ => contribution_of_ne) hne, add_zero]

end Change

end PaySystem
