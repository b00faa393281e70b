import PaySystem.Foundations.Ledger
import PaySystem.Ledger.Invariants

/-!
# The ledger of an order

The payments of an order are a ledger: the completed balance, and the sum of the submitted and
processing payments. Each change of the database is a move of the ledger of its order, and leaves
the others as they are; the stored status of the order tells how far its ledger is paid.
-/

namespace PaySystem

variable {types : Set String} {db : Db} {c : Change} {order : Order} {p : Payment} {orderId : ℕ}

/-- What an order has to be paid, and how far this is. -/
def Db.ledger (db : Db) (order : Order) : Ledger ℚ where
  total := order.totalSum.toRat
  completed := db.balance .completed order.id
  pending := db.pending order.id

/-- The status of an order for the state of its ledger. -/
def Ledger.Phase.status : Ledger.Phase → OrderPaymentStatus
  | unpaid => .UNPAID
  | partlyPaid => .PARTIALLY_PAID
  | paid => .PAID

/-- What the row of an order and its payments keep. -/
structure Db.Refines (types : Set String) (db : Db) (order : Order) : Prop where
  loaded : Change.Loaded db order
  lawful : db.LawfulOrder types order.id
  valid : (db.ledger order).Valid
  current : db.StatusCurrent order.id

/-- An order on which nothing has happened yet, with a positive sum that fits into its column. -/
structure Db.Starts (db : Db) (order : Order) : Prop where
  find : db.orders.find? order.id = some order
  total : 0 < order.totalSum.toRat
  fits : |order.totalSum.units| < 10 ^ 10
  payments : ∀ p ∈ db.payments.rows, p.orderId ≠ order.id
  status : order.paymentStatus = OrderPaymentStatus.UNPAID.value

theorem Db.Starts.pending (h : db.Starts order) : db.pending order.id = 0 := by
  refine List.sum_eq_zero fun x hx => ?_
  obtain ⟨p, hp, rfl⟩ := List.mem_map.1 hx
  exact if_neg fun ho => h.payments p hp ho.1

theorem Db.Starts.refines (h : db.Starts order) (types : Set String) : db.Refines types order where
  loaded := ⟨order.paymentStatus, h.find⟩
  lawful p hp ho := absurd ho (h.payments p hp)
  valid := Ledger.valid_of_empty h.total (balance_eq_zero h.payments) h.pending
  current o ho := by
    rw [h.find, Option.some.injEq] at ho
    subst ho
    rw [h.status, Db.orderStatus, balance_eq_zero h.payments, orderPaymentStatus_eq,
      if_neg h.total.ne, if_pos rfl]

namespace Db.Refines

/-- What is not rejected is completed or pending. -/
theorem remaining (h : db.Refines types order) :
    (db.ledger order).remaining = order.totalSum.toRat - db.balance .nonRejected order.id := by
  rw [h.lawful.balance_nonRejected, sub_add_eq_sub_sub]
  rfl

/-- **The stored status says how far the ledger is paid**, although the code decides it by two
equality tests. -/
theorem find? (h : db.Refines types order) : db.orders.find? order.id =
    some { order with paymentStatus := (db.ledger order).phase.status.value } := by
  obtain ⟨st, ho⟩ := h.loaded
  have hst : st = db.orderStatus { order with paymentStatus := st } := h.current _ ho
  have hphase : db.orderStatus { order with paymentStatus := st } =
      (db.ledger order).phase.status.value := by
    rw [Db.orderStatus, orderPaymentStatus_eq, h.valid.phase_eq]
    change (if (db.ledger order).completed = (db.ledger order).total then _
      else if (db.ledger order).completed = 0 then _ else _) = _
    by_cases htotal : (db.ledger order).completed = (db.ledger order).total
    · rw [if_pos htotal, if_pos htotal]
      rfl
    · by_cases hzero : (db.ledger order).completed = 0
      · rw [if_neg htotal, if_neg htotal, if_pos hzero, if_pos hzero]
        rfl
      · rw [if_neg htotal, if_neg htotal, if_neg hzero, if_neg hzero]
        rfl
  rw [ho, hst, hphase]

end Db.Refines

namespace Change

/-- What a change does to the ledger of its order. -/
def move : Change → Ledger ℚ → Ledger ℚ
  | deposit _ p, l => l.deposit p.amount.toRat
  | cashReturn _ p _, l => l.payBack p.amount.toRat
  | advance p status, l =>
    if status = PaymentStatus.Rejected.value then l.reject p.amount.toRat else l
  | complete _ p _ _, l => l.complete p.amount.toRat

/-- **A change moves the ledger of its order.** -/
theorem Allowed.ledger_run (h : c.Allowed types db) (hl : db.LawfulOrder types order.id)
    (hid : c.row.orderId = order.id) : (c.run db).ledger order = c.move (db.ledger order) := by
  have hl' := h.lawfulOrder hl
  have hpending := hl.balance_nonRejected
  have hpending' := hl'.balance_nonRejected
  have hcompleted := h.balance_run .completed order.id
  have hnonRejected := h.balance_run .nonRejected order.id
  rw [← hid] at hl
  have hdelta := h.delta_completed hl
  have hdelta' := h.delta_nonRejected hl
  rw [hid] at hdelta hdelta'
  rw [hdelta] at hcompleted
  rw [hdelta'] at hnonRejected
  have htotal : (c.run db).ledger order = ⟨order.totalSum.toRat,
      db.balance .completed order.id + c.completedDelta,
      db.pending order.id + (c.nonRejectedDelta - c.completedDelta)⟩ := by
    ext
    · rfl
    · exact hcompleted
    · change (c.run db).pending order.id = _
      linarith
  rw [htotal]
  cases c with
  | deposit order' q =>
    ext <;> simp [completedDelta, nonRejectedDelta, move, Ledger.deposit, Db.ledger]
  | cashReturn order' q st =>
    ext <;> simp [completedDelta, nonRejectedDelta, move, Ledger.payBack, Db.ledger, sub_eq_add_neg]
  | advance q st =>
    simp only [completedDelta, nonRejectedDelta, move, sub_zero, add_zero]
    split_ifs
    · ext <;> simp [Ledger.reject, Db.ledger, sub_eq_add_neg]
    · ext <;> simp [Db.ledger]
  | complete order' q paidAt st =>
    ext <;>
      simp [completedDelta, nonRejectedDelta, move, Ledger.complete, Db.ledger, sub_eq_add_neg]

/-- A change leaves the ledgers of other orders as they are. -/
theorem Allowed.ledger_run_of_ne (h : c.Allowed types db) (hid : c.row.orderId ≠ order.id) :
    (c.run db).ledger order = db.ledger order := by
  ext
  · rfl
  · exact h.balance_run_of_ne hid
  · change (c.run db).pending order.id = db.pending order.id
    rw [Db.pending, h.sum_run, delta_of_ne c (fun p hp => if_neg fun ho => hp ho.1) hid, add_zero]
    rfl

/-- **An admitted change is a move of the ledger**, or leaves it as it is. -/
theorem Allowed.runs_ledger (h : c.Allowed types db) (hr : db.Refines types order)
    (hadm : c.Admitted db) : Ledger.Runs (db.ledger order) ((c.run db).ledger order) := by
  by_cases hid : c.row.orderId = order.id
  swap
  · rw [h.ledger_run_of_ne hid]
  have hpos : 0 < c.row.amount.toRat :=
    (h.lawfulOrder hr.lawful c.row (h.mem_run.2 (Or.inl rfl)) hid).1
  have hpending : 0 ≤ ((c.run db).ledger order).pending := (h.lawfulOrder hr.lawful).pending_nonneg
  have hrun := h.ledger_run hr.lawful hid
  rw [hrun] at hpending
  rw [hrun]
  cases c with
  | deposit order' q =>
    refine .single (.deposit _ hpos ?_)
    have htotal : order'.totalSum = order.totalSum :=
      (h.2.1.eq_of_id_eq hr.loaded (h.1.symm.trans hid)).2
    simp only [Admitted, row] at hadm hid ⊢
    rw [hid, htotal] at hadm
    rw [hr.remaining]
    linarith
  | cashReturn order' q st =>
    refine .single (.payBack _ hpos ?_)
    simp only [Admitted, row] at hadm hid ⊢
    rwa [hid] at hadm
  | advance q st =>
    simp only [move] at hpending ⊢
    split_ifs at hpending ⊢
    · exact .single (.reject _ hpos (sub_nonneg.1 hpending))
    · exact .refl
  | complete order' q paidAt st => exact .single (.complete _ hpos (sub_nonneg.1 hpending))

/-- **A change that is admitted and stores a current status keeps the refinement.** -/
theorem Allowed.refines (h : c.Allowed types db) (hr : db.Refines types order)
    (hadm : c.Admitted db) (hcur : c.Current db) : (c.run db).Refines types order where
  loaded := hr.loaded.run c
  lawful := h.lawfulOrder hr.lawful
  valid := (h.runs_ledger hr hadm).valid hr.valid
  current := h.statusCurrent hr.lawful (fun _ _ => hcur) hr.current

end Change

end PaySystem
